import Interception.Binary64

/-!
# A fixed number of decimal places

`Binary64.places` writes a non-negative finite number with a given number of
decimals. It rounds the exact value of the number, not its shortest decimal, and
a value half-way between two decimals goes to the even one.
-/

namespace Interception

namespace Binary64

/-- A natural number of `10^-count`-units in positional notation, with `count`
decimals (`count` positive). -/
def positional (count units : Nat) : String :=
  let decimals := toString (units % tenTo count)
  toString (units / tenTo count) ++ "." ++
    String.ofList (List.replicate (count - decimals.length) '0') ++ decimals

/-- **The text of a number with `count` decimals**, rounded from its exact value. -/
def places (count : Nat) (x : Binary64) : String :=
  positional count (roundHalfEven (x.steps * tenTo count) stepsInOne)

end Binary64

end Interception
