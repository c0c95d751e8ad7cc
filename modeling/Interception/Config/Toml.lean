import Interception.Config
import Interception.Toml.Document

/-!
# Configurations as TOML

A configuration file gives its fields as keys of the document and its targets as
an array of tables, `[[target]]`, each with the three parts of a key. A target may
also be an array of the three parts, and a level a table whose one key is the word
for the level and has nothing behind it. Keys that are not known are passed over.

* `Config.readToml` – the configuration of a text, or what is wrong with it.
* `Config.load` – the configuration of a file.
-/

namespace Interception

namespace Config

/-! ### From items to configurations -/

/-- A truth value. -/
def boolOfItem? : Toml.Item → Option Bool
  | .boolean b => some b
  | _ => none

/-- A natural number. -/
def natOfItem? : Toml.Item → Option Nat
  | .integer n => if 0 ≤ n then some n.toNat else none
  | _ => none

/-- A text. -/
def stringOfItem? : Toml.Item → Option String
  | .string s => some s
  | _ => none

/-- Whether an item has nothing in it. -/
def itemIsNothing (item : Toml.Item) : Bool :=
  match item.members?, item.items? with
  | some [], _ => true
  | _, some [] => true
  | _, _ => false

/-- The level an item stands for. -/
def levelOfItem? (item : Toml.Item) : Option Level :=
  match item, item.members? with
  | .string word, _ => Level.ofWord? word
  | _, some [(word, inner)] => if itemIsNothing inner then Level.ofWord? word else none
  | _, _ => none

/-- The key of its three parts. -/
def keyOfParts? (typeName operation level : Toml.Item) : Option Key := do
  some
    { typeName := ← stringOfItem? typeName
      operation := ← stringOfItem? operation
      level := ← levelOfItem? level }

/-- The key that an item stands for. -/
def keyOfItem? (item : Toml.Item) : Option Key :=
  match item.members?, item.items? with
  | some members, _ => do
    keyOfParts? (← members.lookup "type_name") (← members.lookup "operation")
      (← members.lookup "kind")
  | none, some (typeName :: operation :: level :: _) => keyOfParts? typeName operation level
  | none, _ => none

/-- The targets that an item stands for. -/
def targetsOfItem? (item : Toml.Item) : Option (List Key) :=
  item.items?.bind fun items => items.mapM keyOfItem?

/-- The value behind a key, or the standard one where the key is missing. -/
def memberOr {α : Type} (standard : α) (read : Toml.Item → Option α) (name : String)
    (members : Toml.Members) : Option α :=
  match members.lookup name with
  | none => some standard
  | some item => read item

/-- The configuration that the members of a document stand for. -/
def ofMembers? (members : Toml.Members) : Option Config := do
  some
    { enabledByDefault :=
        ← memberOr standard.enabledByDefault boolOfItem? "enabled_by_default" members
      collectorCapacity :=
        ← memberOr standard.collectorCapacity natOfItem? "collector_capacity" members
      slowCallThreshold :=
        ← memberOr standard.slowCallThreshold natOfItem? "slow_call_threshold_us" members
      captureArguments :=
        ← memberOr standard.captureArguments boolOfItem? "capture_arguments" members
      targets := ← memberOr standard.targets targetsOfItem? "target" members }

/-! ### Loading -/

/-- Why there is no configuration to use. -/
inductive LoadError where
  /-- The file cannot be read as a text. -/
  | unreadable (path : String)
  /-- The text is no TOML document, or some field has the wrong type. -/
  | malformed
  /-- The configuration is not valid. -/
  | invalid (offence : Offence)
deriving DecidableEq, Repr

/-- The text of a load error. -/
def LoadError.text : LoadError → String
  | .unreadable path => "Failed to read instrumentation config: " ++ path
  | .malformed => "Failed to parse instrumentation config"
  | .invalid offence => offence.text

/-- **The configuration that a TOML text spells**, if it is valid. -/
def readToml (s : String) : Except LoadError Config :=
  match (Toml.read? s).bind ofMembers? with
  | none => .error .malformed
  | some config =>
    match config.validate with
    | some offence => .error (.invalid offence)
    | none => .ok config

/-- **The configuration of a file**, given the bytes of the file if there is one. -/
def load (path : String) (content : Option ByteArray) : Except LoadError Config :=
  match content.bind String.fromUTF8? with
  | none => .error (.unreadable path)
  | some s => readToml s

end Config

end Interception
