/-!
# What a TOML document says

An `Item` is what stands behind a key. Tables remember how they came about,
because that decides how they may grow:

| origin | how it came about | may be opened by a header | may grow by dotted keys |
|---|---|---|---|
| `Origin.header` | by a header of its own | no | no |
| `Origin.implied` | by a longer header | yes | no |
| `Origin.dotted` | by a dotted key | no | yes |
| `Origin.inline` | as a value in braces | no | no |

`Members.open?` opens a table for a header, `Members.append?` the next table of an
array of tables, and `Members.enter?` puts a value behind a key, dotted or not, of
the table that is open.
-/

namespace Interception

namespace Toml

/-- How a table came about. -/
inductive Origin where
  | header
  | implied
  | dotted
  | inline
deriving DecidableEq, Repr

/-- **What stands behind a key.** Floating-point numbers and times are told apart
from everything else, but their values are not kept. -/
inductive Item where
  | string (s : String)
  | integer (n : Int)
  | boolean (b : Bool)
  | float
  | moment
  | array (items : List Item)
  | table (origin : Origin) (members : List (String × Item))
  /-- An array of tables, each opened by a header. -/
  | tables (all : List (List (String × Item)))
deriving Repr, Inhabited

/-- The members of a table. -/
abbrev Members :=
  List (String × Item)

/-- The members of an item that is a table. -/
def Item.members? : Item → Option Members
  | .table _ members => some members
  | _ => none

/-- The items of an item that is an array of either kind. -/
def Item.items? : Item → Option (List Item)
  | .array items => some items
  | .tables all => some (all.map (.table .header))
  | _ => none

namespace Members

/-- Puts an item behind a key, in the place of the old one. -/
def put (key : String) (item : Item) : Members → Members
  | [] => [(key, item)]
  | (other, old) :: rest =>
    if other = key then (key, item) :: rest else (other, old) :: put key item rest

/-- **Changes the table at the end of a path.** Tables on the way that do not exist
come about with origin `created`; the last table of an array of tables stands for
the array. `passes` says which tables may be passed. -/
def change? (created : Origin) (passes : Origin → Bool)
    (f : Origin → Members → Option Members) :
    List String → Origin → Members → Option Members
  | [], origin, members => f origin members
  | key :: path, _, members =>
    match members.lookup key with
    | none => do
      let inner ← change? created passes f path created []
      some (put key (.table created inner) members)
    | some (.table origin inner) =>
      if passes origin then do
        let inner ← change? created passes f path origin inner
        some (put key (.table origin inner) members)
      else none
    | some (.tables all) =>
      match all.reverse with
      | [] => none
      | last :: before => do
        let last ← change? created passes f path .header last
        some (put key (.tables (last :: before).reverse) members)
    | some _ => none

/-- Which tables a header may pass. -/
def headerPasses (origin : Origin) : Bool :=
  decide (origin ≠ .inline)

/-- Which tables a dotted key may pass. -/
def dottedPasses (origin : Origin) : Bool :=
  decide (origin = .implied ∨ origin = .dotted)

/-- Changes the table that a header names, from the top of the document. -/
def under? (path : List String) (f : Origin → Members → Option Members) (members : Members) :
    Option Members :=
  change? .implied headerPasses f path .header members

/-- **Enters an item** behind a dotted key. The table that gets it must have come
about by dotted keys itself if the key is dotted, and must not otherwise; and the
last part of the key must be new there. -/
def enter? (path : List String) (key : String) (item : Item) (origin : Origin)
    (members : Members) : Option Members :=
  change? .dotted dottedPasses
    (fun origin members =>
      if decide (origin = .dotted) = path.isEmpty then none
      else if (members.lookup key).isSome then none
      else some (members ++ [(key, item)]))
    path origin members

/-- **Opens a table** for a header: a new one, or one that only longer headers
have implied so far. -/
def open? (path : List String) (key : String) (members : Members) : Option Members :=
  under? path
    (fun _ members =>
      match members.lookup key with
      | none => some (members ++ [(key, .table .header [])])
      | some (.table .implied inner) => some (put key (.table .header inner) members)
      | some _ => none)
    members

/-- **Opens the next table** of an array of tables. -/
def append? (path : List String) (key : String) (members : Members) : Option Members :=
  under? path
    (fun _ members =>
      match members.lookup key with
      | none => some (members ++ [(key, .tables [[]])])
      | some (.tables all) => some (put key (.tables (all ++ [[]])) members)
      | some _ => none)
    members

end Members

end Toml

end Interception
