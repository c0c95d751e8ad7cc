import Interception.Binary64
import Interception.Toml.Characters

/-!
# Numbers and times of a TOML document

Integers are decimal with an optional sign, or hexadecimal, octal or binary
without one; single underscores may stand between digits. They must fit 64 bits,
signed. Of floating-point numbers and times the readers only say where they end:
no document read here asks for their values, but whether they are well-formed
decides whether there is a document at all.
-/

namespace Interception

namespace Toml

namespace Number

/-! ### Digits -/

/-- Digits with single underscores between them. -/
def underscored (digit : Char → Bool) : List Char → List Char × List Char
  | '_' :: c :: cs =>
    if digit c then
      let (digits, rest) := underscored digit cs
      (c :: digits, rest)
    else ([], '_' :: c :: cs)
  | c :: cs =>
    if digit c then
      let (digits, rest) := underscored digit cs
      (c :: digits, rest)
    else ([], c :: cs)
  | [] => ([], [])

/-- At least one digit, and then digits with single underscores between them. -/
def digits? (digit : Char → Bool) : List Char → Option (List Char × List Char)
  | c :: cs =>
    if digit c then
      let (digits, rest) := underscored digit cs
      some (c :: digits, rest)
    else none
  | [] => none

/-- The digits of a decimal integer: a single zero, or digits that start with
another one. -/
def decimal? : List Char → Option (List Char × List Char)
  | '0' :: cs => some (['0'], cs)
  | cs => digits? isDigit cs

/-- An optional sign: whether it is a minus, and what follows. -/
def sign : List Char → Bool × List Char
  | '+' :: cs => (false, cs)
  | '-' :: cs => (true, cs)
  | cs => (false, cs)

/-! ### Integers -/

/-- The integer, if it fits 64 bits. -/
def fits? (n : Int) : Option Int :=
  if IsInt64 n then some n else none

/-- An integer in another base than ten, behind its mark. -/
def based? (radix : Nat) (digit : Char → Bool) (cs : List Char) : Option (Int × List Char) := do
  let (digits, rest) ← digits? digit cs
  let n ← fits? (radixValue radix digits)
  some (n, rest)

/-- **An integer.** -/
def integer? : List Char → Option (Int × List Char)
  | '0' :: 'x' :: cs => based? 16 isHexDigit cs
  | '0' :: 'o' :: cs => based? 8 (fun c => decide ('0' ≤ c ∧ c ≤ '7')) cs
  | '0' :: 'b' :: cs => based? 2 (fun c => decide ('0' ≤ c ∧ c ≤ '1')) cs
  | cs => do
    let (negative, cs) := sign cs
    let (digits, rest) ← decimal? cs
    let n : Int := radixValue 10 digits
    let n ← fits? (if negative then -n else n)
    some (n, rest)

/-! ### Floating-point numbers -/

/-- The exponent behind its letter, if there is one. The outer `none` stands for a
letter without digits. -/
def exponent? : List Char → Option (Option Int × List Char)
  | c :: cs =>
    if c = 'e' ∨ c = 'E' then do
      let (negative, cs) := sign cs
      let (digits, rest) ← digits? isDigit cs
      let n : Int := radixValue 10 digits
      some (some (if negative then -n else n), rest)
    else some (none, c :: cs)
  | [] => some (none, [])

/-- The decimals behind their point, if there is one. The outer `none` stands for
a point without digits. -/
def decimals? : List Char → Option (Option (List Char) × List Char)
  | '.' :: cs => do
    let (digits, rest) ← digits? isDigit cs
    some (some digits, rest)
  | cs => some (none, cs)

/-- A floating-point number in decimal notation: it has decimals, an exponent, or
both. One that is too large is refused, unless it is negative. -/
def decimalFloat? (cs : List Char) : Option (List Char) := do
  let (negative, cs) := sign cs
  let (whole, cs) ← decimal? cs
  let (decimals, cs) ← decimals? cs
  let (exponent, rest) ← exponent? cs
  if decimals.isNone ∧ exponent.isNone then none
  else
    let behind := decimals.getD []
    let mantissa := radixValue 10 (whole ++ behind)
    if negative ∨ (Binary64.ofDecimal? false mantissa (exponent.getD 0 - behind.length)).isSome then
      some rest
    else none

/-- Infinity or not-a-number, with an optional sign. -/
def specialFloat? (cs : List Char) : Option (List Char) :=
  match (sign cs).2 with
  | 'i' :: 'n' :: 'f' :: rest => some rest
  | 'n' :: 'a' :: 'n' :: rest => some rest
  | _ => none

/-- What follows a floating-point number. -/
def afterFloat? (cs : List Char) : Option (List Char) :=
  (decimalFloat? cs).or (specialFloat? cs)

/-! ### Times -/

/-- A number of exactly `count` digits. -/
def fixed? (count : Nat) (cs : List Char) : Option (Nat × List Char) :=
  let digits := cs.take count
  if digits.length = count ∧ digits.all isDigit then
    some (radixValue 10 digits, cs.drop count)
  else none

/-- Takes one given character. -/
def char? (c : Char) : List Char → Option (List Char)
  | d :: cs => if d = c then some cs else none
  | [] => none

/-- How many days a month has. -/
def daysInMonth (year month : Nat) : Nat :=
  if month = 2 then
    if year % 4 = 0 ∧ (year % 100 ≠ 0 ∨ year % 400 = 0) then 29 else 28
  else if month = 4 ∨ month = 6 ∨ month = 9 ∨ month = 11 then 30
  else 31

/-- What follows a date. -/
def afterDate? (cs : List Char) : Option (List Char) := do
  let (year, cs) ← fixed? 4 cs
  let cs ← char? '-' cs
  let (month, cs) ← fixed? 2 cs
  let cs ← char? '-' cs
  let (day, cs) ← fixed? 2 cs
  if 1 ≤ month ∧ month ≤ 12 ∧ 1 ≤ day ∧ day ≤ daysInMonth year month then some cs else none

/-- What follows hours and minutes. -/
def afterMinutes? (cs : List Char) : Option (List Char) := do
  let (hour, cs) ← fixed? 2 cs
  let cs ← char? ':' cs
  let (minute, cs) ← fixed? 2 cs
  if hour < 24 ∧ minute < 60 then some cs else none

/-- What follows a time of day. Seconds may have decimals, and one second more
than sixty is there for leap seconds. -/
def afterTime? (cs : List Char) : Option (List Char) := do
  let cs ← afterMinutes? cs
  let cs ← char? ':' cs
  let (second, cs) ← fixed? 2 cs
  if 60 < second then none
  else
    match cs with
    | '.' :: rest =>
      if (rest.takeWhile isDigit).isEmpty then some cs else some (rest.dropWhile isDigit)
    | _ => some cs

/-- Skips the distance from universal time, if one is there. -/
def skipOffset (cs : List Char) : List Char :=
  match cs with
  | c :: rest =>
    if c = 'Z' ∨ c = 'z' then rest
    else if c = '+' ∨ c = '-' then (afterMinutes? rest).getD cs
    else cs
  | [] => []

/-- **What follows a date, a time of day, or both.** -/
def afterMoment? (cs : List Char) : Option (List Char) :=
  match afterDate? cs with
  | some (c :: rest) =>
    if c = 'T' ∨ c = 't' ∨ c = ' ' then
      match afterTime? rest with
      | some rest => some (skipOffset rest)
      | none => some (c :: rest)
    else some (c :: rest)
  | some [] => some []
  | none => afterTime? cs

end Number

end Toml

end Interception
