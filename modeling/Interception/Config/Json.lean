import Interception.Config
import Interception.Key.Json

/-!
# Configurations as JSON

A configuration is written as an object with up to five members in any order, or
as an array of their values in order, of which the last ones may be left out.
Members that are not known are passed over; a known one may not be repeated.

Reading does not validate: that is for whoever uses the configuration.
-/

namespace Interception

namespace Config

/-- A truth value. -/
def boolOfTree? : Json.Tree → Option Bool
  | .bool b => some b
  | _ => none

/-- A natural number of 64 bits, written without sign, point and exponent. -/
def natOfTree? : Json.Tree → Option Nat
  | .number n => n.nat?.filter fun n => decide (n < wordSize)
  | _ => none

/-- A list of keys. -/
def keysOfTree? : Json.Tree → Option (List Key)
  | .array items => items.mapM Key.ofTree?
  | _ => none

/-- What a field says: its value if it is there once, and otherwise nothing to
object to only if it is missing. -/
def fieldOr {α : Type} (standard : α) (read : Json.Tree → Option α) : Json.Tree.Field → Option α
  | .missing => some standard
  | .once tree => read tree
  | .repeated => none

/-- The configuration of five fields. -/
def ofFields? (field : String → Nat → Json.Tree.Field) : Option Config := do
  some
    { enabledByDefault :=
        ← fieldOr standard.enabledByDefault boolOfTree? (field "enabled_by_default" 0)
      collectorCapacity :=
        ← fieldOr standard.collectorCapacity natOfTree? (field "collector_capacity" 1)
      slowCallThreshold :=
        ← fieldOr standard.slowCallThreshold natOfTree? (field "slow_call_threshold_us" 2)
      captureArguments :=
        ← fieldOr standard.captureArguments boolOfTree? (field "capture_arguments" 3)
      targets := ← fieldOr standard.targets keysOfTree? (field "target" 4) }

/-- The field at a position of an array. -/
def fieldAt (items : List Json.Tree) (position : Nat) : Json.Tree.Field :=
  match items[position]? with
  | some tree => .once tree
  | none => .missing

/-- The configuration that a document stands for. -/
def ofTree? : Json.Tree → Option Config
  | .object members =>
    if Json.Tree.namesSpell members then
      ofFields? fun name _ => Json.Tree.field name members
    else none
  | .array items =>
    if items.length ≤ 5 then ofFields? fun _ position => fieldAt items position else none
  | _ => none

/-- **The configuration that a JSON text spells**, valid or not. -/
def readJson? (s : String) : Option Config :=
  (Json.Tree.read? s).bind ofTree?

/-- The configuration as a document. -/
def toValue (config : Config) : Value :=
  .object
    [("enabled_by_default", .bool config.enabledByDefault),
      ("collector_capacity", .int config.collectorCapacity),
      ("slow_call_threshold_us", .int config.slowCallThreshold),
      ("capture_arguments", .bool config.captureArguments),
      ("target", .array (config.targets.map Key.toValue))]

end Config

end Interception
