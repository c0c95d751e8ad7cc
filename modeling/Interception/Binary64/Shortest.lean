import Interception.Binary64

/-!
# The shortest decimal that reads back

A finite magnitude stands for every real number that rounds to it: the points
between the middles to its two neighbours, with the middles themselves when its
significand is even. Of the decimals in this interval, `Binary64.shortest` takes
one with the fewest digits, and of those the one nearest to the number.

The interval and the candidates are compared in exact natural-number
arithmetic. A decimal with `n` digits lies on a grid whose unit is a power of
ten, and if any grid point is in the interval then one of the two neighbours of
the number on that grid is, so only those two are tried.

* `Binary64.text` – the notation: positional where the decimal point falls at
  most sixteen digits to the right and at most five places to the left of the
  first digit, scientific with a signed exponent elsewhere.
-/

namespace Interception

namespace Binary64

/-- **A positive decimal**: the number `0.d₁d₂… * 10^point`. -/
structure Decimal where
  /-- The digits, the first one not zero. -/
  digits : Nat
  /-- Where the decimal point stands, counted from the left of the digits. -/
  point : Int
deriving DecidableEq, Repr

/-- The magnitudes that round to a number, in quarters of a step. -/
structure Interval where
  /-- The lower end. -/
  lower : Nat
  /-- The number itself. -/
  centre : Nat
  /-- The upper end. -/
  upper : Nat
  /-- Whether the ends belong to the interval. -/
  closed : Bool

/-- The magnitudes that round to `x`. Below a power of two the neighbour is half
as far away as above it. -/
def roundingInterval (x : Binary64) : Interval :=
  let m := x.significand
  let unit := twoTo x.scale
  let below := if m = fractionSize ∧ 0 < x.scale then unit else 2 * unit
  { lower := 4 * m * unit - below
    centre := 4 * m * unit
    upper := 4 * m * unit + 2 * unit
    closed := decide (m % 2 = 0) }

/-- Whether the grid point `k * num / den` (in quarters of a step) lies in the
interval. -/
def Interval.contains (interval : Interval) (k num den : Nat) : Bool :=
  let point := k * num
  if interval.closed then
    decide (interval.lower * den ≤ point) && decide (point ≤ interval.upper * den)
  else
    decide (interval.lower * den < point) && decide (point < interval.upper * den)

/-- The grid point of the interval next to its centre, if there is one: of the
neighbours below and above the centre, the one inside, and the nearer one when
both are. -/
def Interval.gridPoint? (interval : Interval) (num den : Nat) : Option Nat :=
  let low := interval.centre * den / num
  let high := low + 1
  match interval.contains low num den && decide (0 < low), interval.contains high num den with
  | true, true =>
    let down := interval.centre * den - low * num
    let up := high * num - interval.centre * den
    if down < up then some low
    else if up < down then some high
    else some (low + low % 2)
  | true, false => some low
  | false, true => some high
  | false, false => none

/-- The quotient `num / den` for the grid unit `10^exponent`, in quarters of a
step. -/
def gridUnit (exponent : Int) : Nat × Nat :=
  if 0 ≤ exponent then (4 * stepsInOne * tenTo exponent.toNat, 1)
  else (4 * stepsInOne, tenTo (-exponent).toNat)

/-- Where the decimal point of a positive magnitude (in quarters of a step)
stands: the least `p` with the magnitude below `10^p`. Searches upwards from a
starting point. -/
def pointFrom (magnitude : Nat) : Nat → Int → Int
  | 0, p => p
  | tries + 1, p =>
    let (num, den) := gridUnit p
    if magnitude * den < num then p else pointFrom magnitude tries (p + 1)

/-- An exponent of ten at or below that of the magnitude, from its length in
binary: `3/10` is a little less than the logarithm of two. -/
def pointEstimate (magnitude : Nat) : Int :=
  ((Nat.log2 magnitude : Int) - 1076) * 30103 / 100000 - 1

/-- Tries one digit, two digits, and so on. -/
def shortestFrom (interval : Interval) (point : Int) : Nat → Nat → Decimal
  | 0, _ => ⟨0, point⟩
  | tries + 1, count =>
    let (num, den) := gridUnit (point - count)
    match interval.gridPoint? num den with
    | some k => ⟨k, point - count + decimalLength k⟩
    | none => shortestFrom interval point tries (count + 1)

/-- The digits of `n` without the zeros at its end. -/
def trimZeros (digits : List Char) : List Char :=
  (digits.reverse.dropWhile (· = '0')).reverse

/-- **The shortest decimal that reads back** as the magnitude of `x`, for `x`
finite and not zero. Seventeen digits always suffice. -/
def shortest (x : Binary64) : Decimal :=
  let interval := x.roundingInterval
  let point := pointFrom interval.centre 4 (pointEstimate interval.centre)
  shortestFrom interval point 17 1

/-! ### The notation -/

/-- An exponent with its sign, which is always written when it is negative and
here also when it is not. -/
def exponentText (e : Int) : String :=
  if 0 ≤ e then "e+" ++ toString e.toNat else "e-" ++ toString (-e).toNat

/-- Positional notation with at least one decimal, or scientific notation where
the point would stand too far away. -/
def Decimal.text (d : Decimal) : String :=
  let digits := trimZeros (Nat.toDigits 10 d.digits)
  let count : Int := digits.length
  if count ≤ d.point ∧ d.point ≤ 16 then
    String.ofList (digits ++ List.replicate (d.point - count).toNat '0') ++ ".0"
  else if 0 < d.point ∧ d.point ≤ 16 then
    String.ofList (digits.take d.point.toNat) ++ "." ++ String.ofList (digits.drop d.point.toNat)
  else if -5 < d.point ∧ d.point ≤ 0 then
    "0." ++ String.ofList (List.replicate (-d.point).toNat '0' ++ digits)
  else
    match digits with
    | [] => "0.0"
    | [first] => String.singleton first ++ exponentText (d.point - 1)
    | first :: rest =>
      String.singleton first ++ "." ++ String.ofList rest ++ exponentText (d.point - 1)

/-- **The text of a finite number**: the shortest decimal that reads back, with
its sign. -/
def text (x : Binary64) : String :=
  (if x.isNegative then "-" else "") ++ (if x.steps = 0 then "0.0" else x.shortest.text)

end Binary64

end Interception
