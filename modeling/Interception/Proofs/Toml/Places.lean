import Interception.Toml.Document

/-!
# Changes in one place of a document

Every line of a document changes the members of some table, which a path leads to. All that such a
change sees is what stands behind the first name of the path, and that is also where it puts its
result (`Toml.Members.ChangesAt`): members of other names do not matter, and stay as they are
(`Toml.Members.ChangesAt.elsewhere`).

The path of a line may start with the path of a table that is already there. A `Toml.Place` is such
a table with everything around it. A change at a longer path is a change of the members of that
table alone (`Toml.Place.under?_append`), so it is the same change in every document that has a
table at this path.

| what a line does | at a place | at one name |
|---|---|---|
| changes the open table | `Toml.Place.under?_append` | `Toml.Members.changesAt_under?` |
| opens a table | `Toml.Place.open?_append` | `Toml.Members.changesAt_open?` |
| opens one more of an array | `Toml.Place.append?_append` | `Toml.Members.changesAt_append?` |
-/

namespace Interception

namespace Toml

namespace Members

/-! ### Putting something behind a key -/

theorem lookup_put_self (key : String) (item : Item) (members : Members) :
    (put key item members).lookup key = some item := by
  induction members with
  | nil => exact List.lookup_cons_self
  | cons member members ih =>
    obtain ⟨other, old⟩ := member
    rw [put]
    split
    · exact List.lookup_cons_self
    · next hne =>
      have hother : (key == other) = false := beq_eq_false_iff_ne.mpr (Ne.symm hne)
      rw [List.lookup_cons, hother]
      exact ih

theorem lookup_put_of_ne {key other : String} (hne : other ≠ key) (item : Item)
    (members : Members) : (put key item members).lookup other = members.lookup other := by
  have hkey : (other == key) = false := beq_eq_false_iff_ne.mpr hne
  induction members with
  | nil => rw [put, List.lookup_cons, hkey]
  | cons member members ih =>
    obtain ⟨first, old⟩ := member
    rw [put]
    split
    · next hfirst =>
      rw [hfirst, List.lookup_cons, List.lookup_cons, hkey]
    · rw [List.lookup_cons, List.lookup_cons, ih]

theorem put_put (key : String) (item item' : Item) (members : Members) :
    put key item' (put key item members) = put key item' members := by
  induction members with
  | nil => exact if_pos rfl
  | cons member members ih =>
    obtain ⟨other, old⟩ := member
    rw [put]
    split
    · next hother => rw [put, if_pos rfl, put, if_pos hother]
    · next hne => rw [put, if_neg hne, put, if_neg hne, ih]

theorem put_of_lookup_eq_none {key : String} {members : Members}
    (hnew : members.lookup key = none) (item : Item) :
    put key item members = members ++ [(key, item)] := by
  induction members with
  | nil => rfl
  | cons member members ih =>
    obtain ⟨other, old⟩ := member
    rw [List.lookup_cons] at hnew
    split at hnew
    · cases hnew
    · next hne =>
      have hother : other ≠ key := fun h => by simp [h] at hne
      rw [put, if_neg hother, ih hnew]
      rfl

/-! ### Changes at one name -/

/-- **A change at one name**: what stands behind the name decides what will, and nothing else is
looked at or changed. -/
def ChangesAt (name : String) (change : Members → Option Members) : Prop :=
  ∃ item? : Option Item → Option Item, ∀ members : Members,
    change members = (item? (members.lookup name)).map fun item => put name item members

/-- **A change at one name does not depend on the members of other names**, and leaves them as
they are. -/
theorem ChangesAt.elsewhere {name : String} {change : Members → Option Members}
    (h : ChangesAt name change) {members changed : Members}
    (hchange : change members = some changed)
    {members' : Members} (hsame : members'.lookup name = members.lookup name) :
    ∃ changed', change members' = some changed' ∧
      changed'.lookup name = changed.lookup name ∧
      ∀ other ≠ name, changed'.lookup other = members'.lookup other := by
  obtain ⟨item?, hitem⟩ := h
  rw [hitem] at hchange
  obtain ⟨item, hsome, rfl⟩ := Option.map_eq_some_iff.mp hchange
  refine ⟨put name item members', ?_, ?_, fun other hne => lookup_put_of_ne hne item members'⟩
  · rw [hitem, hsame, hsome]
    rfl
  · rw [lookup_put_self, lookup_put_self]

section Paths

variable {created : Origin} {passes : Origin → Bool} {f : Origin → Members → Option Members}

/-- What comes to stand behind a key when the table changes that a path behind it leads to. -/
def changed? (created : Origin) (passes : Origin → Bool)
    (f : Origin → Members → Option Members) (path : List String) : Option Item → Option Item
  | none => (change? created passes f path created []).map (.table created)
  | some (.table origin inner) =>
    if passes origin then (change? created passes f path origin inner).map (.table origin)
    else none
  | some (.tables all) =>
    match all.reverse with
    | [] => none
    | last :: before =>
      (change? created passes f path .header last).map fun last =>
        .tables (last :: before).reverse
  | some _ => none

/-- **A change at a path** is a change at its first name. -/
theorem changesAt_change? (name : String) (path : List String) (origin : Origin) :
    ChangesAt name (change? created passes f (name :: path) origin) := by
  refine ⟨changed? created passes f path, fun members => ?_⟩
  rw [change?, changed?.eq_def]
  cases members.lookup name with
  | none => cases change? created passes f path created [] <;> rfl
  | some item =>
    cases item with
    | table origin inner =>
      simp only
      split
      · cases change? created passes f path origin inner <;> rfl
      · rfl
    | tables all =>
      simp only
      cases all.reverse with
      | nil => rfl
      | cons last before =>
        simp only
        cases change? created passes f path .header last <;> rfl
    | _ => rfl

/-- What a path does can be done in two parts. -/
theorem change?_append (path path' : List String) (origin : Origin) (members : Members) :
    change? created passes f (path ++ path') origin members =
      change? created passes (change? created passes f path') path origin members := by
  induction path generalizing origin members with
  | nil => rfl
  | cons key path ih => simp only [List.cons_append, change?, ih]

end Paths

theorem changesAt_under? (name : String) (path : List String)
    (f : Origin → Members → Option Members) : ChangesAt name (under? (name :: path) f) :=
  changesAt_change? name path .header

/-- What comes to stand behind the key of a header. -/
def opened? : Option Item → Option Item
  | none => some (.table .header [])
  | some (.table .implied inner) => some (.table .header inner)
  | some _ => none

/-- What comes to stand behind the key of a header of an array of tables. -/
def appended? : Option Item → Option Item
  | none => some (.tables [[]])
  | some (.tables all) => some (.tables (all ++ [[]]))
  | some _ => none

theorem open?_nil (key : String) (members : Members) :
    open? [] key members =
      (opened? (members.lookup key)).map fun item => put key item members := by
  rw [open?, under?, change?]
  cases hold : members.lookup key with
  | none => rw [opened?, Option.map_some, put_of_lookup_eq_none hold]
  | some item =>
    cases item with
    | table origin inner => cases origin <;> rfl
    | _ => rfl

theorem append?_nil (key : String) (members : Members) :
    append? [] key members =
      (appended? (members.lookup key)).map fun item => put key item members := by
  rw [append?, under?, change?]
  cases hold : members.lookup key with
  | none => rw [appended?, Option.map_some, put_of_lookup_eq_none hold]
  | some item => cases item <;> rfl

theorem changesAt_open? {name key : String} {path below : List String}
    (h : path ++ [key] = name :: below) : ChangesAt name (open? path key) := by
  cases path with
  | nil =>
    obtain rfl := (List.cons.inj h).1
    exact ⟨opened?, open?_nil key⟩
  | cons first path =>
    obtain rfl := (List.cons.inj h).1
    exact changesAt_under? first path _

theorem changesAt_append? {name key : String} {path below : List String}
    (h : path ++ [key] = name :: below) : ChangesAt name (append? path key) := by
  cases path with
  | nil =>
    obtain rfl := (List.cons.inj h).1
    exact ⟨appended?, append?_nil key⟩
  | cons first path =>
    obtain rfl := (List.cons.inj h).1
    exact changesAt_under? first path _

end Members

/-! ### Places -/

/-- **A place in a document**: the path of a table, and what is around it. -/
structure Place where
  /-- The path of the table. -/
  path : List String
  /-- The members of the document, given those of the table. -/
  around : Members → Members
  /-- The path leads to the table. -/
  under : ∀ (f : Origin → Members → Option Members) (inner : Members),
    (around inner).under? path f = (f .header inner).map around

namespace Place

/-- The draft in which the table at a place is open and has some members. -/
def draft (place : Place) (inner : Members) : Draft :=
  ⟨place.around inner, place.path⟩

/-- The top of a document. -/
def top : Place where
  path := []
  around inner := inner
  under f inner := by
    rw [Members.under?, Members.change?, Option.map_id']

/-- The last table of an array of tables. -/
def lastTable (array : String) (members : Members) (before : List Members) : Place where
  path := [array]
  around last := members.put array (.tables (before ++ [last]))
  under f last := by
    -- the last table comes first in the reversed array, and goes back to its end
    simp only [Members.under?, Members.change?, Members.lookup_put_self, List.reverse_append,
      List.reverse_cons, List.reverse_nil, List.nil_append, List.cons_append, List.reverse_reverse]
    cases f .header last with
    | none => rfl
    | some last => simp [Members.put_put]

variable (place : Place) (path : List String) (key : String) (inner : Members)

theorem under?_append (f : Origin → Members → Option Members) :
    (place.around inner).under? (place.path ++ path) f =
      (inner.under? path f).map place.around := by
  rw [Members.under?, Members.change?_append]
  exact place.under _ inner

theorem open?_append :
    (place.around inner).open? (place.path ++ path) key =
      (inner.open? path key).map place.around :=
  place.under?_append path inner _

theorem append?_append :
    (place.around inner).append? (place.path ++ path) key =
      (inner.append? path key).map place.around :=
  place.under?_append path inner _

end Place

end Toml

end Interception
