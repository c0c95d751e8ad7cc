import Interception.Json.Quoted
import Interception.Binary64.Shortest
import Interception.Value

/-!
# Values as JSON text

A value is written on one line without blanks (`Value.compact`), or over several
lines with every nesting level indented by two spaces (`Value.pretty`); empty
arrays and objects stay on one line in both. Members are written in the order in
which the value holds them.
-/

namespace Interception

namespace Value

/-- The text of a value that has no parts. -/
def leafText : Value → String
  | .null => "null"
  | .bool true => "true"
  | .bool false => "false"
  | .int n => toString n
  | .float x => if x.isFinite then x.text else "null"
  | .string s => Quoted.write s
  | .array _ => "[]"
  | .object _ => "\x7b\x7d"

/-! ### On one line -/

mutual

/-- The characters of the value on one line. -/
def compactChars : Value → List Char
  | .array (item :: items) => '[' :: (compactChars item ++ compactItems items)
  | .object ((name, value) :: members) =>
    '\x7b' :: (Quoted.chars name ++ ':' :: (compactChars value ++ compactMembers members))
  | v => v.leafText.toList

/-- The items that follow another one, and the closing bracket. -/
def compactItems : List Value → List Char
  | [] => [']']
  | item :: items => ',' :: (compactChars item ++ compactItems items)

/-- The members that follow another one, and the closing brace. -/
def compactMembers : List (String × Value) → List Char
  | [] => ['\x7d']
  | (name, value) :: members =>
    ',' :: (Quoted.chars name ++ ':' :: (compactChars value ++ compactMembers members))

end

/-- **The value on one line.** -/
def compact (v : Value) : String :=
  String.ofList v.compactChars

/-! ### Over several lines -/

/-- A line break and the indentation of a nesting level. -/
def newLine (level : Nat) : List Char :=
  '\n' :: List.replicate (2 * level) ' '

mutual

/-- The characters of the value over several lines, inside `level` others. -/
def prettyChars (level : Nat) : Value → List Char
  | .array (item :: items) =>
    '[' :: (newLine (level + 1) ++ (prettyChars (level + 1) item ++ prettyItems level items))
  | .object ((name, value) :: members) =>
    '\x7b' :: (newLine (level + 1) ++ (Quoted.chars name ++
      ':' :: ' ' :: (prettyChars (level + 1) value ++ prettyMembers level members)))
  | v => v.leafText.toList

/-- The items that follow another one, and the closing bracket. -/
def prettyItems (level : Nat) : List Value → List Char
  | [] => newLine level ++ [']']
  | item :: items =>
    ',' :: (newLine (level + 1) ++ (prettyChars (level + 1) item ++ prettyItems level items))

/-- The members that follow another one, and the closing brace. -/
def prettyMembers (level : Nat) : List (String × Value) → List Char
  | [] => newLine level ++ ['\x7d']
  | (name, value) :: members =>
    ',' :: (newLine (level + 1) ++ (Quoted.chars name ++
      ':' :: ' ' :: (prettyChars (level + 1) value ++ prettyMembers level members)))

end

/-- **The value over several lines.** -/
def pretty (v : Value) : String :=
  String.ofList (v.prettyChars 0)

end Value

end Interception
