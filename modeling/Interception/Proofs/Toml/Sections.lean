import Interception.Proofs.Toml.Lines

/-!
# Sections of a document

A table may have lines of its own: a header that names it, and below it pairs and headers of tables
inside it. Such a text is a `Toml.Section`, and it is well-formed if it can be read right behind the
first header of the table around it and each of its lines leaves a table of the section open
(`Toml.IsSection`). That is a condition on the text alone.

In a document with more in it a section does what it does there, and nothing to the members of other
names (`Toml.IsSection.advances`). The proof follows both documents line by line: the open tables
have the same path, and the same stands behind the name of the section, as far as it has been read
(`Toml.Line.act?_elsewhere`).
-/

namespace Interception

namespace Toml

/-! ### Reading a section -/

/-- Reads the remaining lines, at most `limit` of them. Each of them has to leave a table open that
is the one at a path or inside it. -/
def Draft.linesUnder? (path : List String) : Nat → Draft → List Char → Option Draft
  | 0, _, _ => none
  | limit + 1, draft, cs =>
    match skipLines cs.length cs with
    | [] => some draft
    | cs => do
      let (draft, cs) ← draft.line? cs
      let cs ← endOfLine? cs
      if path.isPrefixOf draft.path then linesUnder? path limit draft cs else none

/-- **Lines of a table of some name.** -/
structure Section where
  /-- The name. -/
  name : String
  /-- The lines. -/
  text : List Char
deriving DecidableEq

/-- **The lines are those of a table of their name** inside the open one, with tables inside it if
need be. There may also be no more than comments. -/
def IsSection (draft : Draft) (lines : Section) : Prop :=
  (draft.linesUnder? (draft.path ++ [lines.name]) (lines.text.length + 1) lines.text).isSome

instance (draft : Draft) (lines : Section) : Decidable (IsSection draft lines) :=
  inferInstanceAs (Decidable (_ = true))

/-- The first line of a section starts with no mark of the byte order. -/
theorem Draft.unmarked_of_linesUnder? {path : List String} {limit : Nat} {draft draft' : Draft}
    {cs : List Char} (h : linesUnder? path limit draft cs = some draft') :
    cs.head? ≠ some '\ufeff' := by
  rintro hmark
  obtain ⟨cs, rfl⟩ := List.head?_eq_some_iff.mp hmark
  cases limit with
  | zero => cases h
  | succ limit =>
    have hskip : skipLines ('\ufeff' :: cs).length ('\ufeff' :: cs) = '\ufeff' :: cs := rfl
    simp only [linesUnder?, hskip, line?_eq, Option.bind_eq_bind, Option.bind_eq_some_iff,
      Prod.exists] at h
    obtain ⟨-, -, ⟨line, rest, hread, -⟩, -⟩ := h
    exact Line.head?_ne_of_read? hread rfl

/-! ### One line in two documents -/

theorem exists_append_of_concat {path front below : List String} {key name : String}
    (h : path ++ [key] = front ++ name :: below) :
    ∃ inside, path = front ++ inside ∧ inside ++ [key] = name :: below := by
  induction front generalizing path with
  | nil => exact ⟨path, rfl, h⟩
  | cons first front ih =>
    cases path with
    | nil =>
      have hnil := (List.cons.inj h).2
      cases front <;> cases hnil
    | cons first' path =>
      obtain ⟨rfl, hrest⟩ := List.cons.inj h
      obtain ⟨inside, rfl, hinside⟩ := ih hrest
      exact ⟨inside, rfl, hinside⟩

/-- **A line that leaves a table open** at or inside a name of a table changes the members of that
table, and only what stands behind the name. A header does so wherever it stands. -/
theorem Line.exists_change {line : Line} {draft draft' : Draft}
    (h : line.act? draft = some draft') {front below : List String} {name : String}
    (hbelow : draft'.path = front ++ name :: below) :
    ∃ change, Members.ChangesAt name change ∧
      ∀ place : Place, place.path = front → ∀ inner path',
        path' = draft.path ∨ draft.path ≠ draft'.path →
        line.act? ⟨place.around inner, path'⟩ =
          (change inner).map fun inner => ⟨place.around inner, draft'.path⟩ := by
  cases line with
  | arrayHeader path key =>
    obtain ⟨members, -, rfl⟩ := Option.map_eq_some_iff.mp h
    obtain ⟨inside, rfl, hinside⟩ := exists_append_of_concat hbelow
    refine ⟨_, Members.changesAt_append? hinside, ?_⟩
    rintro place rfl inner path' -
    rw [act?, place.append?_append, Option.map_map]
    rfl
  | tableHeader path key =>
    obtain ⟨members, -, rfl⟩ := Option.map_eq_some_iff.mp h
    obtain ⟨inside, rfl, hinside⟩ := exists_append_of_concat hbelow
    refine ⟨_, Members.changesAt_open? hinside, ?_⟩
    rintro place rfl inner path' -
    rw [act?, place.open?_append, Option.map_map]
    rfl
  | pair path key item =>
    obtain ⟨members, -, rfl⟩ := Option.map_eq_some_iff.mp h
    refine ⟨_, Members.changesAt_under? name below fun origin members =>
      members.enter? path key item origin, ?_⟩
    rintro place rfl inner path' (rfl | hne)
    · dsimp only at hbelow ⊢
      rw [act?, hbelow, place.under?_append, Option.map_map]
      rfl
    · exact absurd rfl hne

section TwoPlaces

variable {first place : Place} {name : String}

/-- **What a line does in one document it does in the other**, if the same stands behind the name in
both. -/
theorem Line.act?_elsewhere (hpath : place.path = first.path) {line : Line}
    {inner inner' : Members} {path path' : List String} {draft : Draft}
    (h : line.act? ⟨first.around inner, path⟩ = some draft)
    (hunder : first.path ++ [name] <+: draft.path)
    (hopen : path' = path ∨ ¬first.path ++ [name] <+: path)
    (hsame : inner'.lookup name = inner.lookup name) :
    ∃ changed changed', draft = ⟨first.around changed, draft.path⟩ ∧
      line.act? ⟨place.around inner', path'⟩ = some ⟨place.around changed', draft.path⟩ ∧
      changed'.lookup name = changed.lookup name ∧
      ∀ other ≠ name, changed'.lookup other = inner'.lookup other := by
  obtain ⟨below, hbelow⟩ := hunder
  have hname : draft.path = first.path ++ name :: below := by rw [← hbelow]; simp
  obtain ⟨change, hat, hchange⟩ := Line.exists_change h hname
  have hopen' : path' = path ∨ path ≠ draft.path :=
    hopen.imp_right fun hnot hsame => hnot ⟨below, hbelow.trans hsame.symm⟩
  rw [hchange first rfl inner path (.inl rfl)] at h
  obtain ⟨changed, hchanged, hdraft⟩ := Option.map_eq_some_iff.mp h
  obtain ⟨changed', hchanged', hlookup, hothers⟩ := hat.elsewhere hchanged hsame
  refine ⟨changed, changed', hdraft.symm, ?_, hlookup, hothers⟩
  rw [hchange place hpath inner' path' hopen', hchanged']
  rfl

/-! ### All lines in two documents -/

/-- **What a section does in one document it does in the other.** The induction is on the lines. -/
theorem Draft.exists_lines?_of_linesUnder? (hpath : place.path = first.path) {limit : Nat}
    {inner inner' : Members} {path path' : List String} {cs : List Char} {draft : Draft}
    (h : linesUnder? (first.path ++ [name]) limit ⟨first.around inner, path⟩ cs = some draft)
    (hopen : path' = path ∨ ¬first.path ++ [name] <+: path)
    (hsame : inner'.lookup name = inner.lookup name) :
    ∃ n < limit, ∃ inner'' path'',
      (∀ limit t, lines? (limit + n) ⟨place.around inner', path'⟩ (cs ++ '\n' :: t) =
        lines? limit ⟨place.around inner'', path''⟩ t) ∧
      ∀ other ≠ name, inner''.lookup other = inner'.lookup other := by
  induction limit generalizing inner inner' path path' cs with
  | zero => cases h
  | succ limit ih =>
    rw [linesUnder?] at h
    cases hskip : skipLines cs.length cs with
    | nil =>
      exact ⟨0, Nat.succ_pos limit, inner', path', fun limit t => lines?_blank hskip limit _ t,
        fun _ _ => rfl⟩
    | cons c start =>
      simp only [hskip, line?_eq, Option.bind_eq_bind, Option.bind_eq_some_iff, Prod.exists] at h
      obtain ⟨between, cs', ⟨line, rest, hread, hline⟩, cs'', hend, h⟩ := h
      obtain ⟨acted, hact, hbetween⟩ := Option.map_eq_some_iff.mp hline
      cases hbetween
      split at h
      · next hunder =>
        have hunder := List.isPrefixOf_iff_prefix.mp hunder
        obtain ⟨changed, changed', hdraft, hact', hsame', hothers⟩ :=
          Line.act?_elsewhere hpath hact hunder hopen hsame
        rw [hdraft] at h
        obtain ⟨n, hn, inner'', path'', hlines, hothers'⟩ := ih h (.inl rfl) hsame'
        refine ⟨n + 1, Nat.succ_lt_succ hn, inner'', path'', fun limit t => ?_, fun other hne =>
          (hothers' other hne).trans (hothers other hne)⟩
        obtain ⟨rest', hend', hsamelines⟩ := exists_endOfLine?_line hend t
        rw [← Nat.add_assoc, lines?_line hskip hread hact' hend', hsamelines, hlines]
      · cases h

/-- **A section behind anything** changes what stands behind its name, and nothing else. The open
table may be any. -/
theorem IsSection.advances {lines : Section} (h : IsSection (first.draft []) lines)
    (hpath : place.path = first.path) {inner : Members} (hnew : inner.lookup lines.name = none)
    (path : List String) :
    ∃ inner' path', Advances ⟨place.around inner, path⟩ (lines.text ++ ['\n'])
        ⟨place.around inner', path'⟩ ∧
      ∀ other ≠ lines.name, inner'.lookup other = inner.lookup other := by
  obtain ⟨draft, hdraft⟩ := Option.isSome_iff_exists.mp h
  have hopen : ¬first.path ++ [lines.name] <+: first.path := by
    rintro ⟨below, hbelow⟩
    have hlength := congrArg List.length hbelow
    simp at hlength
  obtain ⟨n, hn, inner', path', hlines, hothers⟩ :=
    Draft.exists_lines?_of_linesUnder? hpath hdraft
      (show path = first.path ∨ _ from .inr hopen) hnew
  refine ⟨inner', path', ⟨⟨n, ?_, fun limit t => ?_⟩, ?_⟩, hothers⟩
  · rw [List.length_append]
    omega
  · rw [List.append_assoc]
    exact hlines limit t
  · have hmark := Draft.unmarked_of_linesUnder? hdraft
    cases htext : lines.text with
    | nil => decide
    | cons c text => rwa [htext] at hmark

end TwoPlaces

/-- **A section of the document itself** changes what stands behind its name, and nothing else. -/
theorem IsSection.advances_top {lines : Section} (h : IsSection .empty lines) {draft : Draft}
    (hnew : draft.members.lookup lines.name = none) :
    ∃ draft', Advances draft (lines.text ++ ['\n']) draft' ∧
      ∀ other ≠ lines.name, draft'.members.lookup other = draft.members.lookup other := by
  obtain ⟨members, path, hadvances, hothers⟩ :=
    @IsSection.advances .top .top lines h rfl draft.members hnew draft.path
  exact ⟨⟨members, path⟩, hadvances, hothers⟩

end Toml

end Interception
