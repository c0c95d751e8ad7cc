import Interception.Json.Tree
import Interception.Json.Writer
import Interception.Key

/-!
# Keys as JSON

A key is written as an object with three members, on one line. A reader accepts
them in any order and next to members that it does not know; it also accepts an
array of the three in their order, and a level given as an object whose one member
is named by the level and holds nothing.

Documents with named members are read by `Json.Tree.field`, which tells a member
that is missing from one that is there more than once.
-/

namespace Interception

namespace Json.Tree

/-- **What a list of members says about one name.** -/
inductive Field where
  /-- There is no such member. -/
  | missing
  /-- There is one. -/
  | once (tree : Tree)
  /-- There are several. -/
  | repeated

/-- Looks a name up among members. -/
def field (name : String) (members : List (Option String × Tree)) : Field :=
  match members.filter fun member => member.1 = some name with
  | [] => .missing
  | [member] => .once member.2
  | _ => .repeated

/-- Whether every member has a name that spells a text. -/
def namesSpell (members : List (Option String × Tree)) : Bool :=
  members.all fun member => member.1.isSome

/-- The member that must be there exactly once. -/
def required? (name : String) (members : List (Option String × Tree)) : Option Tree :=
  match field name members with
  | .once tree => some tree
  | _ => none

end Json.Tree

namespace Level

/-- Whether a document is the one that stands behind a level written as a member. -/
def isNothing : Json.Tree → Bool
  | .null => true
  | _ => false

/-- The level a document stands for: its word, or an object with the word as the
name of its one empty member. -/
def ofTree? : Json.Tree → Option Level
  | .string (some word) => ofWord? word
  | .object [(some word, tree)] => if isNothing tree then ofWord? word else none
  | _ => none

end Level

namespace Key

/-- The key as a document. -/
def toValue (key : Key) : Value :=
  .object
    [("type_name", .string key.typeName), ("operation", .string key.operation),
      ("kind", .string key.level.word)]

/-- **The text of a key.** -/
def json (key : Key) : String :=
  key.toValue.compact

/-- The key of its three parts. -/
def ofParts? (typeName operation level : Json.Tree) : Option Key := do
  some
    { typeName := ← typeName.text?
      operation := ← operation.text?
      level := ← Level.ofTree? level }

/-- The key that a document stands for. -/
def ofTree? : Json.Tree → Option Key
  | .object members =>
    if Json.Tree.namesSpell members then do
      ofParts? (← Json.Tree.required? "type_name" members)
        (← Json.Tree.required? "operation" members) (← Json.Tree.required? "kind" members)
    else none
  | .array [typeName, operation, level] => ofParts? typeName operation level
  | _ => none

/-- **The key that a text spells.** -/
def read? (s : String) : Option Key :=
  (Json.Tree.read? s).bind ofTree?

end Key

end Interception
