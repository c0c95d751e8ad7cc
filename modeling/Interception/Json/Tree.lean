import Interception.Json.Token
import Interception.Value

/-!
# JSON documents

A `Tree` is a JSON document as it is written: members in their order, repeated
names included. Readers of particular documents start from it, because whether a
repeated or an unknown member matters depends on the document.

* `Tree.read?` – the tree of a text.
* `Tree.value?` – the value of a tree: of repeated members the last one counts,
  and members are kept in the order of their names.
-/

namespace Interception

namespace Json

/-- **A JSON document** as written. -/
inductive Tree where
  | null
  | bool (b : Bool)
  | number (n : Numeral)
  /-- A string; `none` if it spells no text. -/
  | string (s : Option String)
  | array (items : List Tree)
  | object (members : List (Option String × Tree))
deriving Repr, Inhabited

namespace Tree

mutual

/-- The document at the front of a sequence of tokens. -/
def readValue : Nat → List Token → Option (Tree × List Token)
  | 0, _ => none
  | _ + 1, .null :: rest => some (.null, rest)
  | _ + 1, .bool b :: rest => some (.bool b, rest)
  | _ + 1, .number n :: rest => some (.number n, rest)
  | _ + 1, .string s :: rest => some (.string s, rest)
  | _ + 1, .openArray :: .closeArray :: rest => some (.array [], rest)
  | limit + 1, .openArray :: rest => do
    let (items, rest) ← readItems limit rest
    some (.array items, rest)
  | _ + 1, .openObject :: .closeObject :: rest => some (.object [], rest)
  | limit + 1, .openObject :: rest => do
    let (members, rest) ← readMembers limit rest
    some (.object members, rest)
  | _ + 1, _ => none

/-- The items of an array, at least one, and its closing bracket. -/
def readItems : Nat → List Token → Option (List Tree × List Token)
  | 0, _ => none
  | limit + 1, tokens => do
    let (item, rest) ← readValue limit tokens
    match rest with
    | .closeArray :: rest => some ([item], rest)
    | .comma :: rest =>
      let (items, rest) ← readItems limit rest
      some (item :: items, rest)
    | _ => none

/-- The members of an object, at least one, and its closing brace. -/
def readMembers : Nat → List Token → Option (List (Option String × Tree) × List Token)
  | limit + 1, .string name :: .colon :: tokens => do
    let (item, rest) ← readValue limit tokens
    match rest with
    | .closeObject :: rest => some ([(name, item)], rest)
    | .comma :: rest =>
      let (members, rest) ← readMembers limit rest
      some ((name, item) :: members, rest)
    | _ => none
  | _, _ => none

end

/-- The document that a whole sequence of tokens makes. Each step down uses up a
token, so their number bounds the depth. -/
def ofTokens? (tokens : List Token) : Option Tree :=
  match readValue (tokens.length + 1) tokens with
  | some (tree, []) => some tree
  | _ => none

/-- **The document that a text spells.** -/
def read? (s : String) : Option Tree :=
  (Token.scan? s).bind ofTokens?

/-- The text of a string that spells one. -/
def text? : Tree → Option String
  | .string s => s
  | _ => none

/-! ### The value of a document -/

/-- The value of a number: an integer if it is written as one and fits 64 bits,
signed or unsigned, and otherwise the nearest floating-point number. -/
def numberValue? (n : Numeral) : Option Value :=
  let i : Int := if n.negative then -(n.mantissa : Int) else n.mantissa
  if n.integral ∧ (IsInt64 i ∨ IsNat64 i) then some (.int i)
  else (Binary64.ofDecimal? n.negative n.mantissa n.exponent).map .float

/-- Adds a member to members in the order of their names, in the place of one
with the same name. -/
def putMember (name : String) (value : Value) :
    List (String × Value) → List (String × Value)
  | [] => [(name, value)]
  | (other, v) :: rest =>
    if name = other then (name, value) :: rest
    else if name < other then (name, value) :: (other, v) :: rest
    else (other, v) :: putMember name value rest

mutual

/-- **The value of a document**; `none` if a string spells no text or a number is
too large. -/
def value? : Tree → Option Value
  | .null => some .null
  | .bool b => some (.bool b)
  | .number n => numberValue? n
  | .string s => s.map .string
  | .array items => (itemValues? items).map .array
  | .object members => (memberValues? members []).map .object

/-- The values of the items of an array. -/
def itemValues? : List Tree → Option (List Value)
  | [] => some []
  | item :: items => do
    let value ← value? item
    let values ← itemValues? items
    some (value :: values)

/-- The members of an object, put in order one after the other. -/
def memberValues? : List (Option String × Tree) → List (String × Value) →
    Option (List (String × Value))
  | [], done => some done
  | (name, item) :: members, done => do
    let name ← name
    let value ← value? item
    memberValues? members (putMember name value done)

end

end Tree

end Json

end Interception
