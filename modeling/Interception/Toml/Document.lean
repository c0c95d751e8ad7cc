import Interception.Toml.Item
import Interception.Toml.Number
import Interception.Toml.Quoted

/-!
# Reading a TOML document

A document is a sequence of lines: headers that open a table, and pairs of a key
and a value for the table that is open. `Toml.read?` yields the members of the
whole document, or `none` where the text breaks a rule of TOML 1.0.

Arrays and inline tables may be nested less than eighty deep, and a dotted key has
less than eighty parts.
-/

namespace Interception

namespace Toml

/-! ### Keys -/

/-- How deep values may be nested, and how many parts a key may have: fewer than
this. -/
def depthLimit : Nat :=
  80

/-- One part of a key. -/
def keyPart? (cs : List Char) : Option (String × List Char) :=
  match Quoted.line? cs with
  | some (s, rest) => some (String.ofList s, rest)
  | none =>
    match cs.takeWhile isBareKeyChar with
    | [] => none
    | part => some (String.ofList part, cs.dropWhile isBareKeyChar)

/-- The parts of a dotted key, at most `limit` of them, with spaces around them. -/
def keyUpTo : Nat → List Char → Option (List String × List Char)
  | 0, _ => none
  | limit + 1, cs => do
    let (part, cs) ← keyPart? (skipSpace cs)
    match skipSpace cs with
    | '.' :: cs => do
      let (parts, rest) ← keyUpTo limit cs
      some (part :: parts, rest)
    | cs => some ([part], cs)

/-- **A key**: the parts before the last one, and the last one. -/
def key? (cs : List Char) : Option (List String × String × List Char) := do
  let (parts, rest) ← keyUpTo (depthLimit - 1) cs
  let last ← parts.getLast?
  some (parts.dropLast, last, rest)

/-! ### Values -/

/-- Takes a word. -/
def word? (word : String) (item : Item) (cs : List Char) : Option (Item × List Char) :=
  if word.toList.isPrefixOf cs then some (item, cs.drop word.length) else none

/-- A value that starts with a digit, a sign, or a letter. -/
def plainValue? (cs : List Char) : Option (Item × List Char) :=
  match cs with
  | 't' :: _ => word? "true" (.boolean true) cs
  | 'f' :: _ => word? "false" (.boolean false) cs
  | _ =>
    match Number.afterMoment? cs with
    | some rest => some (.moment, rest)
    | none =>
      match Number.afterFloat? cs with
      | some rest => some (.float, rest)
      | none => (Number.integer? cs).map fun (n, rest) => (.integer n, rest)

mutual

/-- A value, with `room` nesting levels left. The first number bounds the steps. -/
def value? : Nat → Nat → List Char → Option (Item × List Char)
  | 0, _, _ => none
  | limit + 1, room, '[' :: cs =>
    match room with
    | 0 => none
    | room + 1 => do
      let (items, rest) ← arrayItems? limit room cs
      some (.array items, rest)
  | limit + 1, room, '\x7b' :: cs =>
    match room with
    | 0 => none
    | room + 1 =>
      match skipSpace cs with
      | '\x7d' :: rest => some (.table .inline [], rest)
      | cs => do
        let (members, rest) ← inlineMembers? limit room [] cs
        some (.table .inline members, rest)
  | _ + 1, _, cs =>
    match Quoted.any? cs with
    | some (s, rest) => some (.string (String.ofList s), rest)
    | none => plainValue? cs

/-- The items of an array and its closing bracket. A comma may stand behind the
last item. -/
def arrayItems? : Nat → Nat → List Char → Option (List Item × List Char)
  | 0, _, _ => none
  | limit + 1, room, cs =>
    match skipLines cs.length cs with
    | ']' :: rest => some ([], rest)
    | cs => do
      let (item, cs) ← value? limit room cs
      match skipLines cs.length cs with
      | ']' :: rest => some ([item], rest)
      | ',' :: cs => do
        let (items, rest) ← arrayItems? limit room cs
        some (item :: items, rest)
      | _ => none

/-- The members of an inline table and its closing brace. All of it stands on one
line, and no comma behind the last member. -/
def inlineMembers? : Nat → Nat → Members → List Char → Option (Members × List Char)
  | 0, _, _, _ => none
  | limit + 1, room, members, cs => do
    let (path, key, cs) ← key? cs
    match cs with
    | '=' :: cs => do
      let (item, cs) ← value? limit room (skipSpace cs)
      let members ← members.enter? path key item .inline
      match skipSpace cs with
      | '\x7d' :: rest => some (members, rest)
      | ',' :: cs => inlineMembers? limit room members cs
      | _ => none
    | _ => none

end

/-! ### Lines -/

/-- **What has been read so far**: the members of the document, and the path of the
table that is open. -/
structure Draft where
  /-- The members of the document. -/
  members : Members
  /-- The path of the open table, empty for the document itself. -/
  path : List String

namespace Draft

/-- Nothing read yet. -/
def empty : Draft :=
  ⟨[], []⟩

/-- A header of an array of tables, behind its opening brackets. -/
def arrayHeader? (draft : Draft) (cs : List Char) : Option (Draft × List Char) := do
  let (path, key, cs) ← key? cs
  match cs with
  | ']' :: ']' :: rest =>
    let members ← draft.members.append? path key
    some (⟨members, path ++ [key]⟩, rest)
  | _ => none

/-- A header of a table, behind its opening bracket. -/
def tableHeader? (draft : Draft) (cs : List Char) : Option (Draft × List Char) := do
  let (path, key, cs) ← key? cs
  match cs with
  | ']' :: rest =>
    let members ← draft.members.open? path key
    some (⟨members, path ++ [key]⟩, rest)
  | _ => none

/-- A pair of key and value. -/
def pair? (draft : Draft) (cs : List Char) : Option (Draft × List Char) := do
  let (path, key, cs) ← key? cs
  match cs with
  | '=' :: cs =>
    let (item, rest) ← value? (cs.length + 1) (depthLimit - 1) (skipSpace cs)
    let members ← draft.members.under? draft.path
      fun origin members => members.enter? path key item origin
    some (⟨members, draft.path⟩, rest)
  | _ => none

/-- What stands on one line, up to what may follow on it. -/
def line? (draft : Draft) (cs : List Char) : Option (Draft × List Char) :=
  match cs with
  | '[' :: '[' :: cs => draft.arrayHeader? cs
  | '[' :: cs => draft.tableHeader? cs
  | cs => draft.pair? cs

/-- Reads the remaining lines, at most `limit` of them. -/
def lines? : Nat → Draft → List Char → Option Draft
  | 0, _, _ => none
  | limit + 1, draft, cs =>
    match skipLines cs.length cs with
    | [] => some draft
    | cs => do
      let (draft, cs) ← draft.line? cs
      let cs ← endOfLine? cs
      lines? limit draft cs

end Draft

/-- **The members of a document.** A byte order mark may stand in front. -/
def read? (s : String) : Option Members :=
  let cs := s.toList
  let cs := if cs.head? = some '\ufeff' then cs.drop 1 else cs
  (Draft.lines? (cs.length + 1) .empty cs).map Draft.members

end Toml

end Interception
