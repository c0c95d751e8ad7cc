import Interception.Proofs.Toml.Sections
import Mathlib.Data.List.Forall2

/-!
# Documents of pairs and tables

What a document says is put together line by line. Lines of three kinds make up the documents here:
pairs of key and value, headers that open the next table of an array, and sections, which are whole
tables and are not looked into.

Whether a pair belongs to the document itself or to a table in it makes no difference to the
pair, which is entered at every `Toml.Place` in the same way.

| lines | what they do |
|---|---|
| a pair | `Toml.IsPair.advances` |
| pairs | `Toml.advances_pairs` |
| a header | `Toml.advances_arrayHeader` |
| sections | `Toml.advances_sections` |
| a table with all its lines | `Toml.advances_table` |
-/

namespace Interception

namespace Toml

/-! ### Pairs at a place -/

/-- What is entered into nothing as one member is entered into other members as that member. -/
theorem Members.enter?_of_lookup_eq_none {path : List String} {key name : String} {leaf item : Item}
    (h : Members.enter? path key leaf .header [] = some [(name, item)]) {members : Members}
    (hnew : members.lookup name = none) :
    Members.enter? path key leaf .header members = some (members ++ [(name, item)]) := by
  cases path with
  | nil =>
    obtain ⟨rfl, rfl⟩ : key = name ∧ leaf = item := by simpa [enter?, change?] using h
    simp [enter?, change?, hnew]
  | cons first path =>
    simp only [enter?, change?, List.lookup_nil, Option.bind_eq_bind, Option.bind_eq_some_iff,
      Option.some.injEq] at h
    obtain ⟨inner, hinner, hput⟩ := h
    obtain ⟨rfl, rfl⟩ : first = name ∧ Item.table .dotted inner = item := by
      simpa [put] using hput
    simp only [enter?, change?, hnew, Option.bind_eq_bind, hinner, Option.bind_some,
      put_of_lookup_eq_none hnew]

/-- **A pair on its lines**: alone it is the only member of a document, and at most a comment
follows it. The key may be quoted or dotted, and the value may reach over several lines. -/
def IsPair (text : List Char) (name : String) (item : Item) : Prop :=
  ∃ rest, Draft.empty.pair? text = some (⟨[(name, item)], []⟩, rest) ∧
    skipComment (skipSpace rest) = []

/-- A pair of some name, whatever its value is. -/
def IsExtra (text : List Char) (name : String) : Prop :=
  ∃ item, IsPair text name item

/-- Whether a text is a pair of some name. -/
def isExtra (text : List Char) (name : String) : Bool :=
  match Draft.empty.pair? text with
  | some (⟨[(key, _)], []⟩, rest) =>
    decide (key = name) && (skipComment (skipSpace rest)).isEmpty
  | _ => false

theorem isExtra_iff {text : List Char} {name : String} :
    isExtra text name = true ↔ IsExtra text name := by
  rw [isExtra]
  constructor
  · intro h
    split at h
    · next key item rest hpair =>
      rw [Bool.and_eq_true, decide_eq_true_iff, List.isEmpty_iff] at h
      obtain ⟨rfl, hrest⟩ := h
      exact ⟨item, rest, hpair, hrest⟩
    · cases h
  · rintro ⟨item, rest, hpair, hrest⟩
    simp [hpair, hrest]

instance (text : List Char) (name : String) : Decidable (IsExtra text name) :=
  decidable_of_iff _ isExtra_iff

/-- **A pair** takes the open table to the table with one member more, if there is none of its name
yet. -/
theorem IsPair.advances {text : List Char} {name : String} {item : Item}
    (h : IsPair text name item) (place : Place) {inner : Members}
    (hnew : inner.lookup name = none) :
    Advances (place.draft inner) (text ++ ['\n']) (place.draft (inner ++ [(name, item)])) := by
  obtain ⟨rest, hpair, hrest⟩ := h
  simp only [Draft.pair?_eq, Option.bind_eq_some_iff, Prod.exists] at hpair
  obtain ⟨line, rest', hread, hline⟩ := hpair
  obtain ⟨draft, hact, hdraft⟩ := Option.map_eq_some_iff.mp hline
  cases hdraft
  refine .of_line (Line.read?_of_pair? hread) ?_ hrest
  obtain ⟨path, key, leaf, rfl⟩ := Line.exists_eq_pair_of_pair? hread
  obtain ⟨members, henter, hmembers⟩ := Option.map_eq_some_iff.mp hact
  obtain rfl : members = [(name, item)] := congrArg Draft.members hmembers
  have hmore := Members.enter?_of_lookup_eq_none henter hnew
  rw [Line.act?, Place.draft, place.under, hmore]
  rfl

/-- Lines, each with its line feed. -/
def linesText (lines : List (List Char)) : List Char :=
  lines.flatMap (· ++ ['\n'])

theorem linesText_cons (line : List Char) (lines : List (List Char)) :
    linesText (line :: lines) = (line ++ ['\n']) ++ linesText lines :=
  List.flatMap_cons

theorem linesText_append (lines lines' : List (List Char)) :
    linesText (lines ++ lines') = linesText lines ++ linesText lines' :=
  List.flatMap_append

/-- **Lines that are the pairs of a table**, each with a name of its own. -/
structure ArePairs (lines : List (List Char)) (members : Members) : Prop where
  /-- Each line is the pair of its member. -/
  pairs : List.Forall₂ (fun line member => IsPair line member.1 member.2) lines members
  /-- No name comes twice. -/
  names : (members.map Prod.fst).Nodup

theorem lookup_eq_none_of_nodup {inner members : Members} {member : String × Item}
    (h : ((inner ++ member :: members).map Prod.fst).Nodup) : inner.lookup member.1 = none := by
  rw [List.map_append, List.nodup_append] at h
  exact lookup_eq_none_of_notMem fun hmem => h.2.2 _ hmem _ List.mem_cons_self rfl

/-- **Pairs** fill the table that is open. -/
theorem advances_pairs (place : Place) {lines : List (List Char)} {inner members : Members}
    (hpairs : List.Forall₂ (fun line member => IsPair line member.1 member.2) lines members)
    (hnames : ((inner ++ members).map Prod.fst).Nodup) :
    Advances (place.draft inner) (linesText lines) (place.draft (inner ++ members)) := by
  induction hpairs generalizing inner with
  | nil =>
    rw [List.append_nil]
    exact .refl _
  | @cons line member lines members hpair hpairs ih =>
    have hfirst := hpair.advances place (lookup_eq_none_of_nodup hnames)
    rw [List.append_cons] at hnames ⊢
    rw [linesText_cons]
    exact hfirst.trans (ih hnames)

/-! ### Bare keys and headers -/

/-- **A bare key**: letters, digits, underscores and dashes, at least one. -/
structure IsBare (name : String) : Prop where
  /-- There is at least one character. -/
  nonempty : name.toList ≠ []
  /-- All characters may stand without quotation marks. -/
  chars : ∀ c ∈ name.toList, isBareKeyChar c = true

instance (name : String) : Decidable (IsBare name) :=
  decidable_of_iff (name.toList ≠ [] ∧ name.toList.all isBareKeyChar = true)
    ⟨fun h => ⟨h.1, List.all_eq_true.mp h.2⟩, fun h => ⟨h.nonempty, List.all_eq_true.mpr h.chars⟩⟩

theorem keyPart?_of_isBare {name : String} (hname : IsBare name) {rest : List Char}
    (hrest : ∀ c inner, rest = c :: inner → isBareKeyChar c = false) :
    keyPart? (name.toList ++ rest) = some (name, rest) := by
  obtain ⟨c, inner, hc⟩ := List.exists_cons_of_ne_nil hname.nonempty
  have hbare : isBareKeyChar c = true := hname.chars c (by rw [hc]; exact List.mem_cons_self)
  have hquote : c ≠ '"' ∧ c ≠ apostrophe := by
    constructor <;> rintro rfl <;> revert hbare <;> decide
  have htake : (name.toList ++ rest).takeWhile isBareKeyChar = name.toList := by
    rw [List.takeWhile_append_of_pos hname.chars]
    cases rest with
    | nil => simp
    | cons d rest =>
      rw [List.takeWhile_cons_of_neg (by rw [hrest d rest rfl]; decide), List.append_nil]
  have hdrop : (name.toList ++ rest).dropWhile isBareKeyChar = rest := by
    rw [List.dropWhile_append_of_pos hname.chars]
    cases rest with
    | nil => rfl
    | cons d rest => exact List.dropWhile_cons_of_neg (by rw [hrest d rest rfl]; decide)
  have hnone : Quoted.line? (name.toList ++ rest) = none := by
    rw [hc, List.cons_append, Quoted.line?_eq_none hquote]
  rw [keyPart?, hnone, htake, hdrop, hc]
  simp only [← hc, String.ofList_toList]

theorem key?_of_isBare {name : String} (hname : IsBare name) {rest : List Char}
    (hrest : ∀ c inner, rest = c :: inner → isBareKeyChar c = false)
    (hdot : ∀ inner, skipSpace rest ≠ '.' :: inner) :
    key? (name.toList ++ rest) = some ([], name, skipSpace rest) := by
  obtain ⟨c, inner, hc⟩ := List.exists_cons_of_ne_nil hname.nonempty
  have hbare : isBareKeyChar c = true := hname.chars c (by rw [hc]; exact List.mem_cons_self)
  have hskip : skipSpace (name.toList ++ rest) = name.toList ++ rest := by
    rw [hc, List.cons_append, skipSpace, List.dropWhile_cons_of_neg]
    rintro hspace
    revert hbare
    rw [isSpace, Bool.or_eq_true, decide_eq_true_iff, decide_eq_true_iff] at hspace
    rcases hspace with rfl | rfl <;> decide
  have hparts : ∀ limit,
      keyUpTo (limit + 1) (name.toList ++ rest) = some ([name], skipSpace rest) := by
    intro limit
    rw [keyUpTo, hskip, keyPart?_of_isBare hname hrest]
    simp only [Option.bind_eq_bind, Option.bind_some]
  rw [key?, depthLimit, hparts]
  rfl

/-- The header of the next table of an array of tables. -/
def arrayHeader (array : String) : List Char :=
  '[' :: '[' :: (array.toList ++ [']', ']'])

/-- The array of all its tables, as it stands in a document: with no table there is no array. -/
def allTables? : List Members → Option Item
  | [] => none
  | tables => some (.tables tables)

/-- **A header** opens the next table of its array. -/
theorem advances_arrayHeader {array : String} (harray : IsBare array) {draft : Draft}
    {before : List Members} (hbefore : draft.members.lookup array = allTables? before) :
    Advances draft (arrayHeader array ++ ['\n'])
      ((Place.lastTable array draft.members before).draft []) := by
  have hkey : key? (array.toList ++ [']', ']']) = some ([], array, [']', ']']) := by
    refine key?_of_isBare harray ?_ ?_
    · rintro c inner h
      rw [← (List.cons.inj h).1]
      decide
    · rintro inner h
      cases h
  have hread : Line.read? (skipSpace (arrayHeader array)) = some (.arrayHeader [] array, []) := by
    have hskip : skipSpace (arrayHeader array) = arrayHeader array := rfl
    rw [hskip, arrayHeader, Line.read?, Line.arrayHeader?, hkey]
    rfl
  refine .of_line hread ?_ rfl
  have happended : Members.appended? (allTables? before) = some (.tables (before ++ [[]])) := by
    cases before <;> rfl
  rw [Line.act?, Members.append?_nil, hbefore, happended]
  rfl

/-! ### Sections and tables -/

/-- The draft behind the first header of an array of tables. -/
def Draft.behindHeader (array : String) : Draft :=
  ⟨[(array, .tables [[]])], [array]⟩

/-- **Sections** change what stands behind their names. -/
theorem advances_sections {first place : Place} (hpath : place.path = first.path)
    {sections : List Section} (hsections : ∀ lines ∈ sections, IsSection (first.draft []) lines)
    (hnames : (sections.map Section.name).Nodup) {inner : Members}
    (hnew : ∀ lines ∈ sections, inner.lookup lines.name = none) (path : List String) :
    ∃ inner' path', Advances ⟨place.around inner, path⟩ (linesText (sections.map Section.text))
        ⟨place.around inner', path'⟩ ∧
      ∀ name ∉ sections.map Section.name, inner'.lookup name = inner.lookup name := by
  induction sections generalizing inner path with
  | nil => exact ⟨inner, path, .refl _, fun _ _ => rfl⟩
  | cons lines sections ih =>
    rw [List.map_cons, List.nodup_cons] at hnames
    obtain ⟨between, path', hfirst, hsame⟩ := (hsections lines List.mem_cons_self).advances hpath
      (hnew lines List.mem_cons_self) path
    have hstill : ∀ later ∈ sections, between.lookup later.name = none := by
      intro later hlater
      have hne : later.name ≠ lines.name :=
        fun h => hnames.1 (h ▸ List.mem_map_of_mem hlater)
      rw [hsame later.name hne]
      exact hnew later (List.mem_cons_of_mem lines hlater)
    obtain ⟨inner', path'', hrest, hsame'⟩ :=
      ih (fun later hlater => hsections later (List.mem_cons_of_mem lines hlater)) hnames.2 hstill
        path'
    refine ⟨inner', path'', ?_, fun name hname => ?_⟩
    · rw [List.map_cons, linesText_cons]
      exact hfirst.trans hrest
    · rw [List.map_cons, List.mem_cons, not_or] at hname
      rw [hsame' name hname.2, hsame name hname.1]

/-- **A table with all its lines** is the next one of its array, and nothing else changes. What
stands behind the names of its sections is left open. -/
theorem advances_table {array : String} (harray : IsBare array) {draft : Draft}
    {before : List Members} (hbefore : draft.members.lookup array = allTables? before)
    {lines : List (List Char)} {pairs : Members} (hpairs : ArePairs lines pairs)
    {sections : List Section}
    (hsections : ∀ lines ∈ sections, IsSection (.behindHeader array) lines)
    (hnames : (sections.map Section.name).Nodup)
    (hnew : ∀ lines ∈ sections, pairs.lookup lines.name = none) :
    ∃ draft' table,
      Advances draft (linesText (arrayHeader array :: lines ++ sections.map Section.text)) draft' ∧
      draft'.members.lookup array = allTables? (before ++ [table]) ∧
      (∀ name ≠ array, draft'.members.lookup name = draft.members.lookup name) ∧
      ∀ name ∉ sections.map Section.name, table.lookup name = pairs.lookup name := by
  have hheader := advances_arrayHeader harray hbefore
  have hinside := @advances_pairs (.lastTable array draft.members before) _ [] _ hpairs.pairs
    hpairs.names
  obtain ⟨table, path, hrest, hsame⟩ :=
    @advances_sections (.lastTable array [] []) (.lastTable array draft.members before) rfl _
      hsections hnames pairs hnew [array]
  refine ⟨⟨draft.members.put array (.tables (before ++ [table])), path⟩, table, ?_, ?_, ?_, hsame⟩
  · rw [linesText_append, linesText_cons]
    exact (hheader.trans hinside).trans hrest
  · rw [Members.lookup_put_self]
    cases before <;> rfl
  · exact fun name hne => Members.lookup_put_of_ne hne _ _

/-! ### Whole documents -/

theorem read?_of_advances {text : List Char} {draft : Draft} (h : Advances .empty text draft) :
    read? (String.ofList text) = some draft.members := by
  obtain ⟨n, hn, hlines⟩ := h.lines
  obtain ⟨limit, hlimit⟩ := Nat.exists_eq_add_of_le (Nat.lt_succ_of_le hn)
  have hend := hlines (limit + 1) []
  rw [List.append_nil] at hend
  have hall : text.length + 1 = limit + 1 + n := by omega
  simp only [read?, String.toList_ofList, if_neg h.unmarked]
  rw [hall, hend]
  rfl

end Toml

end Interception
