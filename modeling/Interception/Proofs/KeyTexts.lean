import Interception.Key.Json
import Interception.Proofs.Json.Reading
import Interception.Proofs.Layout

/-!
# Keys written as JSON

A key is read from an object with its three parts, in any order and among members of other names,
or from an array of the three in their order. This file says which documents stand for a key
(`Key.IsTree`), and that a key is read from a text just when the grammar of JSON makes the text such
a document (`Key.read?_eq_some_iff`).

The reader looks the three names up one after the other, where the documents are described by the
members of these names together. Both say the same: picking out what has one of several names is, up
to the order, picking out what has each of them (`Json.Tree.ofNames_perm`).

The text that is written for a key is one of its texts, so keys survive being written and read, and
no two have the same text (`Key.read?_of_texts`).
-/

namespace Interception

namespace Json.Tree

/-! ### Members of some names -/

/-- The members of one name, in their order. -/
def ofName (name : String) (members : List (Option String × Tree)) :
    List (Option String × Tree) :=
  members.filter fun member => member.1 = some name

/-- The members whose name is one of these, in their order. -/
def ofNames (names : List String) (members : List (Option String × Tree)) :
    List (Option String × Tree) :=
  members.filter fun member => member.1.any fun name => names.contains name

/-- Looking a name up among members of several names. -/
theorem ofName_ofNames {name : String} {names : List String} (h : name ∈ names)
    (members : List (Option String × Tree)) :
    ofName name (ofNames names members) = ofName name members := by
  rw [ofName, ofNames, List.filter_filter]
  refine List.filter_congr fun member _ => ?_
  by_cases hname : member.1 = some name
  · simp [hname, h]
  · simp [hname]

/-- **Members of several names** are those of each name, up to the order. The induction is on the
names: the members of the first one are split off. -/
theorem ofNames_perm {names : List String} (hnames : names.Nodup)
    (members : List (Option String × Tree)) :
    (ofNames names members).Perm (names.flatMap fun name => ofName name members) := by
  induction names with
  | nil =>
    have hnone : ofNames [] members = [] := by
      rw [ofNames, List.filter_eq_nil_iff]
      rintro ⟨name | name, tree⟩ _ <;> simp
    rw [hnone, List.flatMap_nil]
  | cons name names ih =>
    obtain ⟨hname, hnames⟩ := List.nodup_cons.mp hnames
    have hfirst : ofName name (ofNames (name :: names) members) = ofName name members :=
      ofName_ofNames List.mem_cons_self members
    -- what does not have the first name has one of the others, because they are different
    have hrest : (ofNames (name :: names) members).filter
        (fun member => !decide (member.1 = some name)) = ofNames names members := by
      rw [ofNames, ofNames, List.filter_filter]
      refine List.filter_congr fun member _ => ?_
      obtain ⟨other | other, tree⟩ := member
      · simp
      · by_cases hother : other = name
        · subst hother
          simp [hname]
        · simp [hother]
    have hsplit := List.filter_append_perm (fun member => decide (member.1 = some name))
      (ofNames (name :: names) members)
    rw [hrest] at hsplit
    rw [List.flatMap_cons, ← hfirst]
    exact hsplit.symm.trans ((ih hnames).append_left _)

/-- Where members of several names are the ones that are expected, up to the order, each name has
what is expected of it. -/
theorem ofName_eq_of_perm {names : List String} {members expected : List (Option String × Tree)}
    (h : (ofNames names members).Perm expected) {name : String} (hname : name ∈ names)
    {member : Option String × Tree} (hone : ofName name expected = [member]) :
    ofName name members = [member] := by
  have hperm := h.filter fun member => member.1 = some name
  rw [← ofName_ofNames hname members, ← List.perm_singleton, ← hone]
  exact hperm

theorem text?_eq_some_iff {tree : Tree} {s : String} :
    text? tree = some s ↔ tree = .string (some s) := by
  cases tree <;> simp [text?]

/-- **A member that must be there once** is the only one of its name. -/
theorem required?_eq_some_iff {name : String} {members : List (Option String × Tree)}
    {tree : Tree} :
    required? name members = some tree ↔ ofName name members = [(some name, tree)] := by
  have hname : ∀ member ∈ ofName name members, member.1 = some name := fun member hmember =>
    of_decide_eq_true (List.mem_filter.mp hmember).2
  unfold required? field
  rw [ofName] at hname ⊢
  generalize (members.filter fun member => decide (member.1 = some name)) = found at hname ⊢
  rcases found with _ | ⟨⟨first, value⟩, _ | ⟨second, rest⟩⟩
  · simp
  · obtain rfl : first = some name := hname _ List.mem_cons_self
    simp
  · simp

end Json.Tree

namespace Level

/-- **A document stands for a level**: the word of the level, or an object that has it as the name
of its only member, with nothing behind it. -/
inductive IsTree (level : Level) : Json.Tree → Prop where
  | word : IsTree level (.string (some level.word))
  | member : IsTree level (.object [(some level.word, .null)])

/-- A string that stands for a level is one of two words. -/
theorem IsTree.string {level : Level} {word : Option String} (h : level.IsTree (.string word)) :
    word = some "instance" ∨ word = some "type" := by
  cases h with
  | word => cases level <;> simp [Level.word]

theorem ofWord?_eq_some_iff {word : String} {level : Level} :
    ofWord? word = some level ↔ word = level.word := by
  constructor
  · intro h
    rw [ofWord?] at h
    split at h
    · next hword =>
      cases h
      exact hword
    · split at h
      · next hword =>
        cases h
        exact hword
      · cases h
  · rintro rfl
    exact ofWord?_word level

theorem ofTree?_eq_some_iff {tree : Json.Tree} {level : Level} :
    ofTree? tree = some level ↔ level.IsTree tree := by
  constructor
  · intro h
    rw [ofTree?.eq_def] at h
    split at h
    · obtain rfl := ofWord?_eq_some_iff.mp h
      exact .word
    · next word tree =>
      split at h
      · next hnothing =>
        obtain rfl := ofWord?_eq_some_iff.mp h
        cases tree with
        | null => exact .member
        | _ => cases hnothing
      · cases h
    · cases h
  · rintro (_ | _)
    · exact ofWord?_word level
    · exact ofWord?_word level

end Level

namespace Key

/-! ### Documents of keys -/

/-- The names of the three members. -/
def memberNames : List String :=
  ["type_name", "operation", "kind"]

/-- The three members of a key, with a document that stands for its level. -/
def membersWith (key : Key) (level : Json.Tree) : List (Option String × Json.Tree) :=
  [(some "type_name", .string (some key.typeName)),
    (some "operation", .string (some key.operation)), (some "kind", level)]

/-- **A document stands for a key**: an object in which the members of the three names are those of
the key, in any order and among others, or an array of the three. -/
inductive IsTree (key : Key) : Json.Tree → Prop where
  | object {members : List (Option String × Json.Tree)} {level : Json.Tree}
      (hlevel : key.level.IsTree level) (hnames : ∀ member ∈ members, member.1 ≠ none)
      (hmembers : (Json.Tree.ofNames memberNames members).Perm (key.membersWith level)) :
      IsTree key (.object members)
  | array {level : Json.Tree} (hlevel : key.level.IsTree level) :
      IsTree key (.array [.string (some key.typeName), .string (some key.operation), level])

theorem ofParts?_eq_some_iff {typeName operation level : Json.Tree} {key : Key} :
    ofParts? typeName operation level = some key ↔
      typeName = .string (some key.typeName) ∧ operation = .string (some key.operation) ∧
        key.level.IsTree level := by
  simp only [ofParts?, Option.bind_eq_bind, Option.bind_eq_some_iff, Json.Tree.text?_eq_some_iff,
    Level.ofTree?_eq_some_iff, Option.some.injEq]
  constructor
  · rintro ⟨typeName, rfl, operation, rfl, level, hlevel, rfl⟩
    exact ⟨rfl, rfl, hlevel⟩
  · rintro ⟨rfl, rfl, hlevel⟩
    exact ⟨_, rfl, _, rfl, _, hlevel, rfl⟩

/-- What objects are read as a key. -/
theorem ofTree?_object_eq_some_iff {members : List (Option String × Json.Tree)} {key : Key} :
    ofTree? (.object members) = some key ↔
      (∀ member ∈ members, member.1 ≠ none) ∧ ∃ level, key.level.IsTree level ∧
        (Json.Tree.ofNames memberNames members).Perm (key.membersWith level) := by
  have hnames : Json.Tree.namesSpell members = true ↔ ∀ member ∈ members, member.1 ≠ none := by
    rw [Json.Tree.namesSpell, List.all_eq_true]
    exact forall₂_congr fun member _ => Option.isSome_iff_ne_none
  rw [ofTree?, Option.ite_none_right_eq_some, hnames]
  refine and_congr_right fun _ => ?_
  simp only [Option.bind_eq_bind, Option.bind_eq_some_iff, Json.Tree.required?_eq_some_iff,
    ofParts?_eq_some_iff]
  -- the reader has looked up one name after the other; what it has found is taken together
  constructor
  · rintro ⟨_, htypeName, _, hoperation, level, hkind, rfl, rfl, hlevel⟩
    refine ⟨level, hlevel, ?_⟩
    have hdistinct : memberNames.Nodup := by decide
    have hperm := Json.Tree.ofNames_perm hdistinct members
    simp only [memberNames, List.flatMap_cons, List.flatMap_nil, htypeName, hoperation,
      hkind] at hperm
    exact hperm
  · rintro ⟨level, hlevel, hperm⟩
    refine ⟨_, Json.Tree.ofName_eq_of_perm hperm (by decide) ?_, _,
      Json.Tree.ofName_eq_of_perm hperm (by decide) ?_, level,
      Json.Tree.ofName_eq_of_perm hperm (by decide) ?_, rfl, rfl, hlevel⟩
    all_goals simp [Json.Tree.ofName, membersWith]

/-- **What documents are read as a key.** -/
theorem ofTree?_eq_some_iff {tree : Json.Tree} {key : Key} :
    ofTree? tree = some key ↔ key.IsTree tree := by
  constructor
  · intro h
    cases tree with
    | object members =>
      obtain ⟨hnames, level, hlevel, hperm⟩ := ofTree?_object_eq_some_iff.mp h
      exact .object hlevel hnames hperm
    | array items =>
      rw [ofTree?.eq_def] at h
      split at h
      · next heq => cases heq
      · next heq =>
        cases heq
        obtain ⟨rfl, rfl, hlevel⟩ := ofParts?_eq_some_iff.mp h
        exact .array hlevel
      · cases h
    | _ => cases h
  · rintro (⟨hlevel, hnames, hperm⟩ | hlevel)
    · exact ofTree?_object_eq_some_iff.mpr ⟨hnames, _, hlevel, hperm⟩
    · exact ofParts?_eq_some_iff.mpr ⟨rfl, rfl, hlevel⟩

/-! ### Texts of keys -/

/-- **What texts are read as a key**: those that the grammar makes a document of the key. -/
theorem read?_eq_some_iff {s : String} {key : Key} :
    read? s = some key ↔ ∃ tree, Json.Written s.toList (.document tree) ∧ key.IsTree tree := by
  rw [read?, Option.bind_eq_some_iff]
  exact exists_congr fun tree =>
    and_congr Json.Tree.read?_eq_some_iff_written ofTree?_eq_some_iff

/-- The three members of a key as they are written. -/
def members (key : Key) : List (Option String × Json.Tree) :=
  key.membersWith (.string (some key.level.word))

/-- **The text of a key** is an object of its members. -/
theorem written_json (key : Key) :
    Json.Written key.json.toList (.document (.object key.members)) := by
  have htext : key.json.toList = key.jsonChars [.own .typeName, .own .operation, .own .level] := by
    simp [json, toValue, Value.compact, Value.compactChars, Value.compactMembers, Value.leafText,
      Quoted.write, jsonChars, jsonMember, Json.Tree.enclosed, Json.Tree.behind, Part.name, part]
  have hmember : ∀ name s : String,
      Json.SpellsMember (Quoted.chars name ++ ':' :: Quoted.chars s)
        (some name, .string (some s)) := fun name s =>
    Json.spellsMember (Json.spells_string name) (Json.spells_string s)
  have hspells : Json.Spells key.json.toList (.object key.members) := by
    rw [htext]
    exact Json.spells_object
      (.cons (hmember _ _) (.cons (hmember _ _) (.cons (hmember _ _) .nil)))
  rw [← Json.read?_eq_some_iff, String.ofList_toList] at hspells
  exact Json.Tree.read?_eq_some_iff_written.mp hspells

/-- What is not a document of any key is not read as one. -/
theorem read?_eq_none_of_written {s : String} {tree : Json.Tree}
    (h : Json.Written s.toList (.document tree)) (hnone : ∀ key : Key, ¬key.IsTree tree) :
    read? s = none := by
  rw [read?, Json.Tree.read?_eq_some_iff_written.mpr h, Option.bind_some,
    Option.eq_none_iff_forall_ne_some]
  exact fun key hkey => hnone key (ofTree?_eq_some_iff.mp hkey)

/-- Among the members of a document of a key, each of the three names is there once, and the one
with the level stands for it. -/
theorem IsTree.members {key : Key} {members : List (Option String × Json.Tree)}
    (h : key.IsTree (.object members)) :
    (∀ name ∈ memberNames, (Json.Tree.ofName name members).length = 1) ∧
      ∀ tree, (some "kind", tree) ∈ members → key.level.IsTree tree := by
  cases h with
  | @object _ level hlevel _ hperm =>
    have hone : ∀ name ∈ memberNames, ∃ member,
        Json.Tree.ofName name (key.membersWith level) = [member] := by
      simp [memberNames, Json.Tree.ofName, membersWith]
    constructor
    · intro name hname
      obtain ⟨member, hmember⟩ := hone name hname
      rw [Json.Tree.ofName_eq_of_perm hperm hname hmember, List.length_singleton]
    · intro tree htree
      have hmem : (some "kind", tree) ∈ Json.Tree.ofNames memberNames members :=
        List.mem_filter.mpr ⟨htree, by simp [memberNames]⟩
      rw [hperm.mem_iff] at hmem
      simp only [membersWith, List.mem_cons, Prod.mk.injEq, Option.some.injEq, List.not_mem_nil,
        or_false] at hmem
      obtain ⟨hname, -⟩ | ⟨hname, -⟩ | ⟨-, rfl⟩ := hmem
      · exact absurd hname (by decide)
      · exact absurd hname (by decide)
      · exact hlevel

/-- An object with the members of a key, in any order and among others, is read as the key. -/
theorem read?_of_object {key : Key} {s : String} {members : List (Option String × Json.Tree)}
    (hs : Json.Written s.toList (.document (.object members)))
    (hnames : ∀ member ∈ members, member.1 ≠ none)
    (hmembers : (Json.Tree.ofNames memberNames members).Perm key.members) :
    read? s = some key :=
  read?_eq_some_iff.mpr ⟨_, hs, .object .word hnames hmembers⟩

theorem read?_json (key : Key) : read? key.json = some key := by
  have hall : Json.Tree.ofNames memberNames key.members = key.members := by
    simp [Json.Tree.ofNames, memberNames, members, membersWith]
  refine read?_of_object (written_json key) ?_ (List.Perm.of_eq hall)
  simp [members, membersWith]

/-- **Keys survive being written as JSON.** The text of a key is a document of its three members,
and is read as the key, so that no other key has the same text.

A key is read from any text that the grammar makes an object in which the members of the three names
are those of the key, in any order, with whatever blanks, and among whatever members of other names;
and from any text of an array of the three in their order. A text is refused if it is an object in
which one of the three names is missing or there more than once, an array of another length, or
either with a level that is a string other than the two words. -/
theorem read?_of_texts (key : Key) :
    (Json.Written key.json.toList (.document (.object key.members)) ∧ read? key.json = some key ∧
        ∀ other : Key, other.json = key.json → other = key) ∧
      (∀ s members, Json.Written s.toList (.document (.object members)) →
        (∀ member ∈ members, member.1 ≠ none) →
          (Json.Tree.ofNames memberNames members).Perm key.members → read? s = some key) ∧
      (∀ s, Json.Written s.toList (.document (.array [.string (some key.typeName),
          .string (some key.operation), .string (some key.level.word)])) → read? s = some key) ∧
      (∀ s members name, Json.Written s.toList (.document (.object members)) →
        name ∈ memberNames → (Json.Tree.ofName name members).length ≠ 1 → read? s = none) ∧
      (∀ s items, Json.Written s.toList (.document (.array items)) →
        items.length ≠ 3 → read? s = none) ∧
      ∀ s word, word ≠ some "instance" → word ≠ some "type" →
        (∀ members, Json.Written s.toList (.document (.object members)) →
          (some "kind", .string word) ∈ members → read? s = none) ∧
        ∀ typeName operation,
          Json.Written s.toList (.document (.array [typeName, operation, .string word])) →
            read? s = none := by
  refine ⟨⟨written_json key, read?_json key, fun other hsame => ?_⟩,
    fun s members => read?_of_object,
    fun s hs => read?_eq_some_iff.mpr ⟨_, hs, .array .word⟩,
    fun s members name hs hname hcount => ?_, fun s items hs hlength => ?_,
    fun s word hinstance htype => ⟨fun members hs hmem => ?_, fun typeName operation hs => ?_⟩⟩
  -- of two keys with one text, each is what the text is read as
  · have hread := read?_json other
    rw [hsame, read?_json key] at hread
    exact (Option.some.inj hread).symm
  · exact read?_eq_none_of_written hs fun other hother => hcount (hother.members.1 name hname)
  · refine read?_eq_none_of_written hs fun other hother => hlength ?_
    cases hother with
    | array hlevel => rfl
  · refine read?_eq_none_of_written hs fun other hother => ?_
    rcases (hother.members.2 _ hmem).string with rfl | rfl
    · exact hinstance rfl
    · exact htype rfl
  · refine read?_eq_none_of_written hs fun other hother => ?_
    cases hother with
    | array hlevel =>
      rcases hlevel.string with rfl | rfl
      · exact hinstance rfl
      · exact htype rfl

end Key

namespace Envelope

/-- A key with a quotation mark, an accent, and a name that is empty. -/
def key : Key :=
  .ofType "A\"é" ""

/-- Its members from last to first, with blanks, escapes, and a member that is not asked for. -/
def object : String :=
  " \x7b\"kind\" : \"type\",\n\"x\":[1e9, \x7b\"kind\":\"\\ud800\"\x7d ],\t\"operation\":\"\", " ++
    "\"\\u0074ype_name\":\"A\\u0022\\u00e9\" \x7d\n"

/-- The members that the object has. -/
def members : List (Option String × Json.Tree) :=
  [(some "kind", .string (some "type")),
    (some "x", .array [.number ⟨false, 1, 9, false⟩, .object [(some "kind", .string none)]]),
    (some "operation", .string (some "")), (some "type_name", .string (some "A\"é"))]

/-- The parts of the key in their order. -/
def array : String :=
  "[ \"A\\\"\\u00e9\",\"\" , \"type\"]"

/-- An object with one name twice, and without the others. -/
def twice : String :=
  "\x7b\"kind\":\"type\",\"kind\":\"type\"\x7d"

/-- An array with a level that is no word. -/
def wrong : String :=
  "[\"\",\"\",\"Type\"]"

/-- A text is known by its tokens. -/
theorem written_of_tokens {s : String} (tokens : List Json.Token) {tree : Json.Tree}
    (hscan : Json.Token.scan? s = some tokens) (htree : Json.Tree.ofTokens? tokens = some tree) :
    Json.Written s.toList (.document tree) := by
  refine Json.Tree.read?_eq_some_iff_written.mp ?_
  rw [Json.Tree.read?, hscan, Option.bind_some, htree]

theorem written_object : Json.Written object.toList (.document (.object members)) :=
  written_of_tokens
    [.openObject, .string (some "kind"), .colon, .string (some "type"), .comma, .string (some "x"),
      .colon, .openArray, .number ⟨false, 1, 9, false⟩, .comma, .openObject, .string (some "kind"),
      .colon, .string none, .closeObject, .closeArray, .comma, .string (some "operation"), .colon,
      .string (some ""), .comma, .string (some "type_name"), .colon, .string (some "A\"é"),
      .closeObject] (by decide +kernel) rfl

theorem written_array :
    Json.Written array.toList (.document (.array [.string (some key.typeName),
      .string (some key.operation), .string (some key.level.word)])) :=
  written_of_tokens
    [.openArray, .string (some "A\"é"), .comma, .string (some ""), .comma, .string (some "type"),
      .closeArray] (by decide +kernel) rfl

/-- The object and the array are read as the key, and the other two texts as none. -/
theorem read?_of_envelope :
    Key.read? object = some key ∧ Key.read? array = some key ∧ Key.read? twice = none ∧
      Key.read? wrong = none := by
  obtain ⟨-, hobject, harray, hcount, -, hword⟩ := Key.read?_of_texts key
  have hfound : Json.Tree.ofNames Key.memberNames members = key.members.reverse := by
    simp [Json.Tree.ofNames, Key.memberNames, members, Key.members, Key.membersWith, key,
      Key.ofType, Level.word]
  refine ⟨hobject _ _ written_object ?_ ?_, harray _ written_array, ?_, ?_⟩
  · simp [members]
  · rw [hfound]
    exact List.reverse_perm _
  · have htwice : Json.Written twice.toList (.document (.object
        [(some "kind", .string (some "type")), (some "kind", .string (some "type"))])) :=
      written_of_tokens
        [.openObject, .string (some "kind"), .colon, .string (some "type"), .comma,
          .string (some "kind"), .colon, .string (some "type"), .closeObject]
        (by decide +kernel) rfl
    exact hcount _ _ "kind" htwice (by decide) (by simp [Json.Tree.ofName])
  · have hwrong : Json.Written wrong.toList (.document (.array
        [.string (some ""), .string (some ""), .string (some "Type")])) :=
      written_of_tokens
        [.openArray, .string (some ""), .comma, .string (some ""), .comma, .string (some "Type"),
          .closeArray] (by decide +kernel) rfl
    exact (hword _ _ (by decide) (by decide)).2 _ _ hwrong

end Envelope

end Interception
