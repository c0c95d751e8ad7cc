import Interception.Word

/-!
# Binary floating-point numbers, computed exactly

A `Binary64` is the 64-bit pattern of a double-precision number. Nothing here
uses machine floating point: a finite number is a whole number of *steps*, where
one step is the least positive number 2^-1074, and every operation takes an
exact natural-number quotient and rounds it once.

* `Binary64.steps` – how many steps the magnitude of a finite number is.
* `Binary64.ofRatio` – the number nearest to a quotient, ties to the even
  significand. Every other constructor goes through it.
* `Binary64.add`, `Binary64.divNat` – the sum of two non-negative numbers and
  the quotient by a positive natural number, rounded once.

## How a rounded quotient becomes a pattern

A magnitude is `m * 2^e` with `m < 2^53` and `-1074 ≤ e`, and `m` has its top bit
set unless `e = -1074`. Writing `s = e + 1074`, the pattern of both kinds is
`s * 2^52 + m` (`Binary64.pattern`): the hidden bit of a normal number adds the
one that its exponent field is ahead of `s`. A significand that rounds up to
`2^53` carries into the exponent by itself.
-/

namespace Interception

/-- **A double-precision number**, as its 64-bit pattern. -/
structure Binary64 where
  /-- The pattern: sign, eleven bits of exponent, fifty-two bits of fraction. -/
  bits : UInt64
deriving DecidableEq, Repr, Inhabited

namespace Binary64

/-! ### Taking a pattern apart -/

/-- The sign bit, as a number. -/
def signBit : Nat :=
  9223372036854775808

/-- How many fractions there are: the exponent field starts at this bit. -/
def fractionSize : Nat :=
  4503599627370496

/-- Whether the sign bit is set. Negative zero has it set too. -/
def isNegative (x : Binary64) : Bool :=
  decide (signBit ≤ x.bits.toNat)

/-- The pattern without its sign bit. -/
def unsignedBits (x : Binary64) : Nat :=
  x.bits.toNat % signBit

/-- The exponent field. -/
def exponentField (x : Binary64) : Nat :=
  x.unsignedBits / fractionSize

/-- The exponent of the significand, counted in doublings of the least positive
number. -/
def scale (x : Binary64) : Nat :=
  x.exponentField - 1

/-- The significand of the magnitude, with its hidden bit. -/
def significand (x : Binary64) : Nat :=
  x.unsignedBits - x.scale * fractionSize

/-- The magnitude of a finite number, counted in steps of 2^-1074. -/
def steps (x : Binary64) : Nat :=
  x.significand * twoTo x.scale

/-- Whether the pattern stands for a number at all. -/
def isFinite (x : Binary64) : Bool :=
  decide (x.exponentField < 2047)

/-- The number of steps in one. -/
def stepsInOne : Nat :=
  twoTo 1074

/-! ### Rounding a quotient -/

/-- The whole number nearest to `num / den`, ties to the even one. -/
def roundHalfEven (num den : Nat) : Nat :=
  let q := num / den
  let r := num % den
  if 2 * r < den then q
  else if den < 2 * r then q + 1
  else q + q % 2

/-- The least `s` for which `num / den` is below `2^(s + 53)`, found by comparing
lengths in binary and correcting by one. -/
def scaleOf (num den : Nat) : Nat :=
  let s := Nat.log2 num - Nat.log2 den - 53
  if num < den * twoTo (s + 53) then s else s + 1

/-- The pattern of the magnitude `m` at scale `s`, infinity where it is too
large. -/
def pattern (s m : Nat) : Nat :=
  min (s * fractionSize + m) (2047 * fractionSize)

/-- The number with a given sign and unsigned pattern. -/
def ofPattern (negative : Bool) (pattern : Nat) : Binary64 :=
  ⟨UInt64.ofNat (if negative then signBit + pattern else pattern)⟩

/-- **The number nearest to a quotient of steps**, ties to the even significand. -/
def ofSteps (negative : Bool) (num den : Nat) : Binary64 :=
  let s := scaleOf num den
  ofPattern negative (pattern s (roundHalfEven num (den * twoTo s)))

/-- **The number nearest to `num / den`**, ties to the even significand. -/
def ofRatio (negative : Bool) (num den : Nat) : Binary64 :=
  ofSteps negative (num * stepsInOne) den

/-! ### Constructors and arithmetic -/

/-- Positive zero. -/
def zero : Binary64 :=
  ⟨0⟩

/-- The number nearest to an integer. -/
def ofInt (n : Int) : Binary64 :=
  ofRatio (decide (n < 0)) n.natAbs 1

/-- The number nearest to a natural number. -/
def ofNat (n : Nat) : Binary64 :=
  ofRatio false n 1

/-- The sum of two non-negative finite numbers, rounded once. -/
def add (x y : Binary64) : Binary64 :=
  ofSteps false (x.steps + y.steps) 1

/-- A non-negative finite number divided by a positive natural number, rounded
once. -/
def divNat (x : Binary64) (d : Nat) : Binary64 :=
  ofSteps false x.steps d

/-- How many digits `n` has in decimal notation; none for zero. -/
def decimalLength (n : Nat) : Nat :=
  if n = 0 then 0 else (Nat.toDigits 10 n).length

/-- **The number nearest to `mantissa * 10^exponent`**, or `none` when it lies
beyond the largest finite number. Exponents far outside the range are settled by
counting digits, before any power of ten is formed. -/
def ofDecimal? (negative : Bool) (mantissa : Nat) (exponent : Int) : Option Binary64 :=
  let top := exponent + decimalLength mantissa
  if mantissa = 0 ∨ top < -400 then some (ofPattern negative 0)
  else if 400 < top then none
  else
    let x :=
      if 0 ≤ exponent then ofRatio negative (mantissa * tenTo exponent.toNat) 1
      else ofRatio negative mantissa (tenTo (-exponent).toNat)
    if x.isFinite then some x else none

end Binary64

end Interception
