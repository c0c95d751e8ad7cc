import Interception.Json.Quoted

/-!
# The words of a JSON text

A JSON text is a sequence of tokens with blanks between them. `Token.scan?`
splits a text into its tokens; which sequences of tokens make a document is the
business of `Interception.Json.Tree`.

A number keeps what its digits say exactly (`Numeral`): whether a reader can use
a number, and whether it counts as an integer, is for the reader to decide. In a
document that carries more than it is asked for, most numbers are never used.
-/

namespace Interception

namespace Json

/-- **A number as written**: `± mantissa * 10^exponent`. -/
structure Numeral where
  /-- Whether a minus sign stands in front. -/
  negative : Bool
  /-- All digits, read as one number. -/
  mantissa : Nat
  /-- The power of ten, from the decimals and the exponent together. -/
  exponent : Int
  /-- Whether it was written without a point and without an exponent. -/
  integral : Bool
deriving DecidableEq, Repr, Inhabited

/-- The natural number of a numeral: no sign, no point, no exponent. -/
def Numeral.nat? (n : Numeral) : Option Nat :=
  if n.integral && !n.negative then some n.mantissa else none

/-- **A token.** -/
inductive Token where
  | openArray
  | closeArray
  | openObject
  | closeObject
  | comma
  | colon
  | null
  | bool (b : Bool)
  | number (n : Numeral)
  /-- A string; `none` if it holds half a surrogate pair and so spells no text. -/
  | string (s : Option String)
deriving DecidableEq, Repr

/-- The characters that may stand between tokens. -/
def isBlank (c : Char) : Bool :=
  c = ' ' || c = '\t' || c = '\n' || c = '\r'

/-- Whether a character is a decimal digit. -/
def isDigit (c : Char) : Bool :=
  decide ('0' ≤ c ∧ c ≤ '9')

/-- The number that decimal digits stand for. -/
def digitsValue (digits : List Char) : Nat :=
  digits.foldl (fun n c => 10 * n + (c.toNat - '0'.toNat)) 0

namespace Token

/-! ### Numbers -/

/-- The digits before the point: a single zero, or digits that start with
another one. -/
def whole? (cs : List Char) : Option (List Char × List Char) :=
  match cs.takeWhile isDigit, cs.dropWhile isDigit with
  | [], _ => none
  | '0' :: _ :: _, _ => none
  | digits, rest => some (digits, rest)

/-- The digits behind the point, at least one, or no point at all. -/
def decimals? : List Char → Option (Option (List Char) × List Char)
  | '.' :: cs =>
    match cs.takeWhile isDigit, cs.dropWhile isDigit with
    | [], _ => none
    | digits, rest => some (some digits, rest)
  | cs => some (none, cs)

/-- The digits of an exponent, at least one. -/
def exponentDigits? (negative : Bool) (cs : List Char) : Option (Option Int × List Char) :=
  match cs.takeWhile isDigit, cs.dropWhile isDigit with
  | [], _ => none
  | digits, rest =>
    let n : Int := digitsValue digits
    some (some (if negative then -n else n), rest)

/-- The exponent behind its letter, or no letter at all. -/
def exponent? : List Char → Option (Option Int × List Char)
  | c :: cs =>
    if c = 'e' ∨ c = 'E' then
      match cs with
      | '+' :: cs => exponentDigits? false cs
      | '-' :: cs => exponentDigits? true cs
      | cs => exponentDigits? false cs
    else some (none, c :: cs)
  | [] => some (none, [])

/-- A number without its sign. -/
def unsigned? (negative : Bool) (cs : List Char) : Option (Numeral × List Char) := do
  let (whole, cs) ← whole? cs
  let (decimals, cs) ← decimals? cs
  let (exponent, cs) ← exponent? cs
  let behind := decimals.getD []
  some
    ({ negative
       mantissa := digitsValue (whole ++ behind)
       exponent := exponent.getD 0 - behind.length
       integral := decimals.isNone && exponent.isNone }, cs)

/-- A number. -/
def number? : List Char → Option (Numeral × List Char)
  | '-' :: cs => unsigned? true cs
  | cs => unsigned? false cs

/-! ### Splitting a text -/

/-- Takes a word off the front of a text. -/
def word? (word cs : List Char) : Option (List Char) :=
  if word.isPrefixOf cs then some (cs.drop word.length) else none

/-- The token at the front of a text that does not start with a blank. -/
def first? : List Char → Option (Token × List Char)
  | [] => none
  | '[' :: cs => some (.openArray, cs)
  | ']' :: cs => some (.closeArray, cs)
  | '\x7b' :: cs => some (.openObject, cs)
  | '\x7d' :: cs => some (.closeObject, cs)
  | ',' :: cs => some (.comma, cs)
  | ':' :: cs => some (.colon, cs)
  | '"' :: cs => (Quoted.read? cs).map fun (s, rest) => (.string s, rest)
  | 'n' :: cs => (word? "ull".toList cs).map (.null, ·)
  | 't' :: cs => (word? "rue".toList cs).map (.bool true, ·)
  | 'f' :: cs => (word? "alse".toList cs).map (.bool false, ·)
  | cs => (number? cs).map fun (n, rest) => (.number n, rest)

/-- Splits a text into tokens, at most `limit` of them. -/
def scanUpTo : Nat → List Char → Option (List Token)
  | 0, cs => if (cs.dropWhile isBlank).isEmpty then some [] else none
  | limit + 1, cs =>
    match cs.dropWhile isBlank with
    | [] => some []
    | c :: cs => do
      let (token, rest) ← first? (c :: cs)
      let tokens ← scanUpTo limit rest
      some (token :: tokens)

/-- **The tokens of a text**, `none` if some part of it is no token. A token has
at least one character, so the length of the text bounds their number. -/
def scan? (s : String) : Option (List Token) :=
  scanUpTo s.toList.length s.toList

end Token

end Json

end Interception
