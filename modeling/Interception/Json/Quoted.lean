/-!
# Text inside quotation marks

A text is written between quotation marks with an escape for every character
that cannot stand there as it is: the quotation mark, the backslash, and the
characters below U+0020. Everything else stands for itself.

* `Quoted.encode` – the escapes, character by character; `Quoted.write` puts the
  marks around them.
* `Quoted.read?` – reads up to the closing mark. A reader also meets escapes
  that a writer never uses, among them halves of surrogate pairs, so it first
  yields code units (`Quoted.units?`) and only then, where every half has its
  other half, a text (`Quoted.join?`).
-/

namespace Interception

namespace Quoted

/-! ### Writing -/

/-- The digits of hexadecimal notation, in lower case. -/
def hexDigit (n : Nat) : Char :=
  "0123456789abcdef".toList.getD (n % 16) '0'

/-- The last digits of `n` in hexadecimal notation, `count` of them. -/
def hexDigits : Nat → Nat → List Char
  | 0, _ => []
  | count + 1, n => hexDigits count (n / 16) ++ [hexDigit n]

/-- How one character is written between quotation marks. -/
def encodeChar (c : Char) : List Char :=
  if c = '"' then ['\\', '"']
  else if c = '\\' then ['\\', '\\']
  else if c = '\n' then ['\\', 'n']
  else if c = '\r' then ['\\', 'r']
  else if c = '\t' then ['\\', 't']
  else if c = '\x08' then ['\\', 'b']
  else if c = '\x0c' then ['\\', 'f']
  else if c.toNat < 32 then '\\' :: 'u' :: hexDigits 4 c.toNat
  else [c]

/-- How a text is written between quotation marks. -/
def encode (cs : List Char) : List Char :=
  cs.flatMap encodeChar

/-- The characters of a text with its quotation marks. -/
def chars (s : String) : List Char :=
  '"' :: (encode s.toList ++ ['"'])

/-- The text with its quotation marks. -/
def write (s : String) : String :=
  String.ofList (chars s)

/-! ### Reading -/

/-- The value of a hexadecimal digit of either case. -/
def hexValue? (c : Char) : Option Nat :=
  if '0' ≤ c ∧ c ≤ '9' then some (c.toNat - '0'.toNat)
  else if 'a' ≤ c ∧ c ≤ 'f' then some (c.toNat - 'a'.toNat + 10)
  else if 'A' ≤ c ∧ c ≤ 'F' then some (c.toNat - 'A'.toNat + 10)
  else none

/-- The number that hexadecimal digits stand for. -/
def hexNumber? (digits : List Char) : Option Nat :=
  digits.foldlM (fun n c => (hexValue? c).map (16 * n + ·)) 0

/-- The character that a one-letter escape stands for. -/
def escaped? (c : Char) : Option Char :=
  if c = '"' ∨ c = '\\' ∨ c = '/' then some c
  else if c = 'b' then some '\x08'
  else if c = 'f' then some '\x0c'
  else if c = 'n' then some '\n'
  else if c = 'r' then some '\r'
  else if c = 't' then some '\t'
  else none

/-- **Reads up to the closing quotation mark.** Yields code units – code points,
among which an escape may have put halves of surrogate pairs – and what follows
the mark. Unescaped control characters and unknown escapes are refused. -/
def units? : List Char → Option (List Nat × List Char)
  | [] => none
  | '"' :: rest => some ([], rest)
  | '\\' :: 'u' :: a :: b :: c :: d :: rest => do
    let n ← hexNumber? [a, b, c, d]
    let (units, rest) ← units? rest
    some (n :: units, rest)
  | '\\' :: e :: rest => do
    let c ← escaped? e
    let (units, rest) ← units? rest
    some (c.toNat :: units, rest)
  | c :: rest =>
    if c.toNat < 32 then none
    else do
      let (units, rest) ← units? rest
      some (c.toNat :: units, rest)

/-- The first half of a surrogate pair. -/
def isHighSurrogate (n : Nat) : Bool :=
  decide (0xD800 ≤ n ∧ n < 0xDC00)

/-- The second half of a surrogate pair. -/
def isLowSurrogate (n : Nat) : Bool :=
  decide (0xDC00 ≤ n ∧ n < 0xE000)

/-- Puts the halves of surrogate pairs together. `none` if a half stands alone:
then the units spell no text. -/
def join? : List Nat → Option (List Char)
  | [] => some []
  | [n] =>
    if isHighSurrogate n || isLowSurrogate n then none else some [Char.ofNat n]
  | n :: m :: rest =>
    if isHighSurrogate n then
      if isLowSurrogate m then
        (join? rest).map (Char.ofNat (0x10000 + (n - 0xD800) * 0x400 + (m - 0xDC00)) :: ·)
      else none
    else if isLowSurrogate n then none
    else (join? (m :: rest)).map (Char.ofNat n :: ·)

/-- Reads up to the closing quotation mark. The outer `none` refuses the input;
the inner one stands for a string that spells no text. -/
def read? (cs : List Char) : Option (Option String × List Char) :=
  (units? cs).map fun (units, rest) => ((join? units).map String.ofList, rest)

end Quoted

end Interception
