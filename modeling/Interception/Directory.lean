/-!
# Directories

A `Directory` maps finitely many names to entries, each name once, and keeps them
in the order in which they were first entered.

Everything a directory says is said by `Directory.find?` and `Directory.keys`;
each operation has a lemma for both.

| operation | what it is | theorems |
|---|---|---|
| `Directory.put` | enters or replaces | `find?_put`, `mem_keys_put` |
| `Directory.adjust` | changes one entry | `find?_adjust`, `keys_adjust` |
| `Directory.mapEntries` | changes every entry | `find?_mapEntries`, `keys_mapEntries` |
-/

namespace Interception

/-- **A finite map**, in the order of entry. -/
structure Directory (κ α : Type) where
  /-- The names with their entries. -/
  entries : List (κ × α)
  nodup : (entries.map Prod.fst).Nodup

namespace Directory

variable {κ α : Type}

/-- The directory without entries. -/
def empty : Directory κ α :=
  ⟨[], List.nodup_nil⟩

instance : Inhabited (Directory κ α) := ⟨empty⟩

/-- The names, in the order of entry. -/
def keys (d : Directory κ α) : List κ :=
  d.entries.map Prod.fst

/-- How many entries there are. -/
def size (d : Directory κ α) : Nat :=
  d.entries.length

/-- Applies a function to every entry. -/
def mapEntries (f : κ → α → α) (d : Directory κ α) : Directory κ α :=
  { entries := d.entries.map fun entry => (entry.1, f entry.1 entry.2)
    nodup := by simpa [Function.comp_def] using d.nodup }

@[simp] theorem keys_empty : (empty : Directory κ α).keys = [] := rfl

@[simp] theorem keys_mapEntries (f : κ → α → α) (d : Directory κ α) :
    (d.mapEntries f).keys = d.keys := by
  simp [mapEntries, keys, Function.comp_def]

theorem nodup_keys (d : Directory κ α) : d.keys.Nodup :=
  d.nodup

variable [DecidableEq κ]

/-- The first entry of a list with a given name. -/
def findIn (key : κ) : List (κ × α) → Option α
  | [] => none
  | (other, entry) :: rest => if other = key then some entry else findIn key rest

/-- The entry with a given name. -/
def find? (d : Directory κ α) (key : κ) : Option α :=
  findIn key d.entries

/-- Whether a name has an entry. -/
def contains (d : Directory κ α) (key : κ) : Bool :=
  (d.find? key).isSome

/-- Applies a function to the entry with a given name. -/
def adjust (key : κ) (f : α → α) (d : Directory κ α) : Directory κ α :=
  d.mapEntries fun other entry => if other = key then f entry else entry

theorem findIn_eq_none_iff {key : κ} {l : List (κ × α)} :
    findIn key l = none ↔ key ∉ l.map Prod.fst := by
  induction l with
  | nil => simp [findIn]
  | cons entry rest ih =>
    obtain ⟨other, a⟩ := entry
    by_cases h : other = key
    · simp [findIn, h]
    · simp [findIn, h, ih, Ne.symm h]

theorem findIn_append {key : κ} {l r : List (κ × α)} :
    findIn key (l ++ r) = (findIn key l).or (findIn key r) := by
  induction l with
  | nil => simp [findIn]
  | cons entry rest ih =>
    obtain ⟨other, a⟩ := entry
    by_cases h : other = key
    · simp [findIn, h]
    · simp [findIn, h, ih]

theorem findIn_eq_some_iff {key : κ} {a : α} {l : List (κ × α)} (h : (l.map Prod.fst).Nodup) :
    findIn key l = some a ↔ (key, a) ∈ l := by
  induction l with
  | nil => simp [findIn]
  | cons entry rest ih =>
    obtain ⟨other, b⟩ := entry
    obtain ⟨hother, hrest⟩ := List.nodup_cons.mp h
    by_cases he : other = key
    · subst he
      have hnot : (other, a) ∉ rest := fun hmem =>
        hother (List.mem_map.mpr ⟨(other, a), hmem, rfl⟩)
      simp [findIn, hnot, eq_comm]
    · simp [findIn, he, Ne.symm he, ih hrest]

/-- A name is found with the entry that stands under it. -/
theorem find?_eq_some_iff {d : Directory κ α} {key : κ} {a : α} :
    d.find? key = some a ↔ (key, a) ∈ d.entries :=
  findIn_eq_some_iff d.nodup

theorem find?_eq_none_iff {d : Directory κ α} {key : κ} :
    d.find? key = none ↔ key ∉ d.keys :=
  findIn_eq_none_iff

theorem isSome_find?_iff {d : Directory κ α} {key : κ} :
    (d.find? key).isSome ↔ key ∈ d.keys := by
  rw [← Option.ne_none_iff_isSome, Ne, find?_eq_none_iff]
  exact Decidable.not_not

/-- **A directory is its names and what is found under them.** -/
theorem ext_find? {d d' : Directory κ α} (hkeys : d'.keys = d.keys)
    (hfind : ∀ key, d'.find? key = d.find? key) : d' = d := by
  have hlength : d'.entries.length = d.entries.length := by
    simpa [keys] using congrArg List.length hkeys
  have hentries : d'.entries = d.entries := by
    refine List.ext_getElem hlength fun n h' h => ?_
    have hname : d'.entries[n].1 = d.entries[n].1 := by
      have hn := congrArg (fun names : List κ => names[n]?) hkeys
      simpa [keys, h, h'] using hn
    have hhere : d.find? d.entries[n].1 = some d.entries[n].2 :=
      find?_eq_some_iff.mpr (List.getElem_mem h)
    have hthere : d'.find? d'.entries[n].1 = some d'.entries[n].2 :=
      find?_eq_some_iff.mpr (List.getElem_mem h')
    rw [hname, hfind, hhere] at hthere
    exact Prod.ext hname (Option.some.inj hthere).symm
  obtain ⟨entries, nodup⟩ := d
  obtain ⟨entries', nodup'⟩ := d'
  cases hentries
  rfl

/-- Enters a name, in the place of its old entry if it has one. -/
def put (key : κ) (entry : α) (d : Directory κ α) : Directory κ α :=
  if h : key ∈ d.keys then d.adjust key fun _ => entry
  else
    { entries := d.entries ++ [(key, entry)]
      nodup := by
        rw [List.map_append, List.nodup_append]
        refine ⟨d.nodup, by simp, ?_⟩
        intro a ha b hb
        simp only [List.map_cons, List.map_nil, List.mem_singleton] at hb
        rintro rfl
        exact h (hb ▸ ha) }

@[simp] theorem find?_empty (key : κ) : (empty : Directory κ α).find? key = none := rfl

theorem find?_mapEntries (f : κ → α → α) (d : Directory κ α) (key : κ) :
    (d.mapEntries f).find? key = (d.find? key).map (f key) := by
  obtain ⟨l, hl⟩ := d
  simp only [find?, mapEntries]
  clear hl
  induction l with
  | nil => rfl
  | cons entry rest ih =>
    obtain ⟨other, a⟩ := entry
    by_cases h : other = key
    · subst h
      simp [findIn]
    · simpa [findIn, h] using ih

@[simp] theorem keys_adjust (key : κ) (f : α → α) (d : Directory κ α) :
    (d.adjust key f).keys = d.keys :=
  keys_mapEntries ..

theorem find?_adjust (key other : κ) (f : α → α) (d : Directory κ α) :
    (d.adjust key f).find? other =
      if other = key then (d.find? other).map f else d.find? other := by
  rw [adjust, find?_mapEntries]
  by_cases h : other = key
  · simp [h]
  · simp [h]

theorem find?_put (key other : κ) (entry : α) (d : Directory κ α) :
    (d.put key entry).find? other = if other = key then some entry else d.find? other := by
  unfold put
  split
  · next h =>
    rw [find?_adjust]
    by_cases ho : other = key
    · subst ho
      obtain ⟨a, ha⟩ := Option.isSome_iff_exists.mp (isSome_find?_iff.mpr h)
      simp [ha]
    · simp [ho]
  · next h =>
    show findIn other (d.entries ++ [(key, entry)]) = _
    rw [findIn_append]
    by_cases ho : other = key
    · subst ho
      have : findIn other d.entries = none := findIn_eq_none_iff.mpr h
      simp [this, findIn]
    · have hk : key ≠ other := fun e => ho e.symm
      simp [findIn, ho, hk, find?]

/-- Where the name has an entry, the names stay as they are. -/
theorem keys_put_of_mem {key : κ} {entry : α} {d : Directory κ α} (h : key ∈ d.keys) :
    (d.put key entry).keys = d.keys := by
  rw [put, dif_pos h, keys_adjust]

theorem mem_keys_put {key other : κ} {entry : α} {d : Directory κ α} :
    other ∈ (d.put key entry).keys ↔ other = key ∨ other ∈ d.keys := by
  rw [← isSome_find?_iff, find?_put, ← isSome_find?_iff]
  by_cases h : other = key
  · simp [h]
  · simp [h]

end Directory

end Interception
