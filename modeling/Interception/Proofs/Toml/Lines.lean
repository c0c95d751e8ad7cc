import Interception.Proofs.Toml.Places
import Interception.Proofs.Toml.Values
import Mathlib.Data.List.DropRight
import Mathlib.Tactic.FinCases

/-!
# Lines of a document

What stands on a line is the same whatever has been read before; a `Toml.Line` is that, and what it
does to a draft comes second (`Toml.Draft.line?_eq`). So a text behind the line needs to be
looked at only once, and for all drafts (`Toml.Line.read?_line`).

Whole lines take one draft to another whatever lines come after them (`Toml.Advances`), and texts
that do so can be put one behind the other (`Toml.Advances.trans`). A document is what they make
of the empty draft (`Toml.read?_of_advances`).
-/

namespace Interception

namespace Toml

/-! ### What a line says and what it does -/

/-- **What stands on a line.** -/
inductive Line where
  /-- The header of the next table of an array. -/
  | arrayHeader (path : List String) (key : String)
  /-- The header of a table. -/
  | tableHeader (path : List String) (key : String)
  /-- A value behind its key. -/
  | pair (path : List String) (key : String) (item : Item)

namespace Line

/-- A header of an array of tables, behind its opening brackets. -/
def arrayHeader? (cs : List Char) : Option (Line × List Char) := do
  let (path, key, cs) ← key? cs
  match cs with
  | ']' :: ']' :: rest => some (.arrayHeader path key, rest)
  | _ => none

/-- A header of a table, behind its opening bracket. -/
def tableHeader? (cs : List Char) : Option (Line × List Char) := do
  let (path, key, cs) ← key? cs
  match cs with
  | ']' :: rest => some (.tableHeader path key, rest)
  | _ => none

/-- A pair of key and value. -/
def pair? (cs : List Char) : Option (Line × List Char) := do
  let (path, key, cs) ← key? cs
  match cs with
  | '=' :: cs =>
    let (item, rest) ← value? (cs.length + 1) (depthLimit - 1) (skipSpace cs)
    some (.pair path key item, rest)
  | _ => none

/-- A line of any kind. -/
def read? (cs : List Char) : Option (Line × List Char) :=
  match cs with
  | '[' :: '[' :: cs => arrayHeader? cs
  | '[' :: cs => tableHeader? cs
  | cs => pair? cs

/-- What a line makes of a draft. -/
def act? (draft : Draft) : Line → Option Draft
  | .arrayHeader path key =>
    (draft.members.append? path key).map fun members => ⟨members, path ++ [key]⟩
  | .tableHeader path key =>
    (draft.members.open? path key).map fun members => ⟨members, path ++ [key]⟩
  | .pair path key item =>
    (draft.members.under? draft.path fun origin members =>
      members.enter? path key item origin).map fun members => ⟨members, draft.path⟩

end Line

namespace Draft

variable (draft : Draft) (cs : List Char)

theorem arrayHeader?_eq :
    draft.arrayHeader? cs =
      (Line.arrayHeader? cs).bind fun (line, rest) => (line.act? draft).map (·, rest) := by
  rw [arrayHeader?, Line.arrayHeader?]
  cases key? cs with
  | none => rfl
  | some parts =>
    obtain ⟨path, key, cs⟩ := parts
    simp only [Option.bind_eq_bind, Option.bind_some]
    split
    · simp only [Option.bind_some, Line.act?]
      cases draft.members.append? path key <;> rfl
    · simp

theorem tableHeader?_eq :
    draft.tableHeader? cs =
      (Line.tableHeader? cs).bind fun (line, rest) => (line.act? draft).map (·, rest) := by
  rw [tableHeader?, Line.tableHeader?]
  cases key? cs with
  | none => rfl
  | some parts =>
    obtain ⟨path, key, cs⟩ := parts
    simp only [Option.bind_eq_bind, Option.bind_some]
    split
    · simp only [Option.bind_some, Line.act?]
      cases draft.members.open? path key <;> rfl
    · simp

theorem pair?_eq :
    draft.pair? cs =
      (Line.pair? cs).bind fun (line, rest) => (line.act? draft).map (·, rest) := by
  rw [pair?, Line.pair?]
  cases key? cs with
  | none => rfl
  | some parts =>
    obtain ⟨path, key, cs⟩ := parts
    simp only [Option.bind_eq_bind, Option.bind_some]
    split
    · next cs =>
      simp only [Option.bind_assoc, Option.bind_some, Line.act?]
      cases value? (cs.length + 1) (depthLimit - 1) (skipSpace cs) with
      | none => rfl
      | some value =>
        rw [Option.bind_some, Option.bind_some]
        cases draft.members.under? draft.path fun origin members =>
          members.enter? path key value.1 origin <;> rfl
    · simp

/-- **What a line does** to a draft is what stands on it, and then what that makes of the draft. -/
theorem line?_eq :
    draft.line? cs =
      (Line.read? cs).bind fun (line, rest) => (line.act? draft).map (·, rest) := by
  rw [line?.eq_def]
  split
  · exact draft.arrayHeader?_eq _
  · next cs hone =>
    rw [Line.read?]
    · exact draft.tableHeader?_eq cs
    · exact hone
  · next harray htable =>
    rw [Line.read?]
    · exact draft.pair?_eq cs
    · exact harray
    · exact htable

end Draft

/-! ### A line feed and more behind a line -/

namespace Line

theorem arrayHeader?_line {cs rest : List Char} {line : Line}
    (h : arrayHeader? cs = some (line, rest)) (t : List Char) :
    arrayHeader? (cs ++ '\n' :: t) = some (line, rest ++ '\n' :: t) := by
  simp only [arrayHeader?, Option.bind_eq_bind, Option.bind_eq_some_iff, Prod.exists] at h
  obtain ⟨path, key, cs', hkey, h⟩ := h
  simp only [arrayHeader?, key?_line hkey, Option.bind_eq_bind, Option.bind_some]
  split at h
  · cases h
    rfl
  · cases h

theorem tableHeader?_line {cs rest : List Char} {line : Line}
    (h : tableHeader? cs = some (line, rest)) (t : List Char) :
    tableHeader? (cs ++ '\n' :: t) = some (line, rest ++ '\n' :: t) := by
  simp only [tableHeader?, Option.bind_eq_bind, Option.bind_eq_some_iff, Prod.exists] at h
  obtain ⟨path, key, cs', hkey, h⟩ := h
  simp only [tableHeader?, key?_line hkey, Option.bind_eq_bind, Option.bind_some]
  split at h
  · cases h
    rfl
  · cases h

theorem pair?_line {cs rest : List Char} {line : Line} (h : pair? cs = some (line, rest))
    (t : List Char) : pair? (cs ++ '\n' :: t) = some (line, rest ++ '\n' :: t) := by
  simp only [pair?, Option.bind_eq_bind, Option.bind_eq_some_iff, Prod.exists] at h
  obtain ⟨path, key, cs', hkey, h⟩ := h
  simp only [pair?, key?_line hkey, Option.bind_eq_bind, Option.bind_some]
  split at h
  · next cs'' =>
    simp only [Option.bind_eq_some_iff, Prod.exists] at h
    obtain ⟨item, rest', hitem, h⟩ := h
    have hmore : cs''.length + 1 ≤ (cs'' ++ '\n' :: t).length + 1 := by
      rw [List.length_append]
      omega
    simp only [List.cons_append, skipSpace_line, (LineStable.all _).value hitem hmore t,
      Option.bind_some]
    cases h
    rfl
  · cases h

/-- **A line** is read the same with a line feed and more behind it. -/
theorem read?_line {cs rest : List Char} {line : Line} (h : read? cs = some (line, rest))
    (t : List Char) : read? (cs ++ '\n' :: t) = some (line, rest ++ '\n' :: t) := by
  rw [read?.eq_def] at h
  split at h
  · exact arrayHeader?_line h t
  · next cs hone =>
    rw [List.cons_append, read?]
    · exact tableHeader?_line h t
    · rintro inner hinner
      obtain ⟨inner, rfl, -⟩ := eq_cons_of_line (by decide) hinner
      exact hone inner rfl
  · next harray htable =>
    rw [read?]
    · exact pair?_line h t
    · rintro inner hinner
      obtain ⟨inner, rfl, -⟩ := eq_cons_of_line (by decide) hinner
      exact htable inner rfl
    · rintro inner hinner
      obtain ⟨inner, rfl, -⟩ := eq_cons_of_line (by decide) hinner
      exact htable inner rfl

end Line

/-! ### Where lines start -/

theorem exists_cons_of_keyPart? {cs rest : List Char} {s : String}
    (h : keyPart? cs = some (s, rest)) :
    ∃ c inner, cs = c :: inner ∧ (c = '"' ∨ c = apostrophe ∨ isBareKeyChar c = true) := by
  cases cs with
  | nil => cases h
  | cons c cs =>
    refine ⟨c, cs, rfl, ?_⟩
    by_contra hc
    rw [not_or, not_or] at hc
    obtain ⟨hquote, hapostrophe, hbare⟩ := hc
    rw [keyPart?, Quoted.line?_eq_none ⟨hquote, hapostrophe⟩, List.takeWhile_cons_of_neg hbare] at h
    cases h

theorem skipSpace_skipSpace (cs : List Char) : skipSpace (skipSpace cs) = skipSpace cs := by
  rw [skipSpace, skipSpace, List.dropWhile_idempotent]

theorem keyUpTo_skipSpace (limit : Nat) (cs : List Char) :
    keyUpTo limit (skipSpace cs) = keyUpTo limit cs := by
  cases limit with
  | zero => rfl
  | succ limit => rw [keyUpTo, keyUpTo, skipSpace_skipSpace]

theorem exists_cons_of_keyUpTo {limit : Nat} {cs rest : List Char} {parts : List String}
    (h : keyUpTo limit cs = some (parts, rest)) :
    ∃ c inner, skipSpace cs = c :: inner ∧
      (c = '"' ∨ c = apostrophe ∨ isBareKeyChar c = true) := by
  cases limit with
  | zero => cases h
  | succ limit =>
    simp only [keyUpTo, Option.bind_eq_bind, Option.bind_eq_some_iff, Prod.exists] at h
    obtain ⟨part, cs', hpart, -⟩ := h
    exact exists_cons_of_keyPart? hpart

namespace Line

theorem pair?_skipSpace (cs : List Char) : pair? (skipSpace cs) = pair? cs := by
  rw [pair?, pair?, key?, key?, keyUpTo_skipSpace]

theorem exists_eq_pair_of_pair? {cs rest : List Char} {line : Line}
    (h : pair? cs = some (line, rest)) : ∃ path key item, line = .pair path key item := by
  simp only [pair?, Option.bind_eq_bind, Option.bind_eq_some_iff, Prod.exists] at h
  obtain ⟨path, key, cs', -, h⟩ := h
  split at h
  · obtain ⟨item, rest', -, hline⟩ := by
      simpa only [Option.bind_eq_some_iff, Prod.exists] using h
    cases hline
    exact ⟨path, key, item, rfl⟩
  · cases h

theorem exists_cons_of_pair? {cs rest : List Char} {line : Line}
    (h : pair? cs = some (line, rest)) :
    ∃ c inner, skipSpace cs = c :: inner ∧ c ∉ ['#', '\n', '\r', '[', '\ufeff'] := by
  simp only [pair?, key?, Option.bind_eq_bind, Option.bind_eq_some_iff, Prod.exists] at h
  obtain ⟨-, -, -, ⟨parts, cs, hparts, -⟩, -⟩ := h
  obtain ⟨c, inner, hc, hstart⟩ := exists_cons_of_keyUpTo hparts
  refine ⟨c, inner, hc, fun hmem => ?_⟩
  have hno : ∀ c ∈ ['#', '\n', '\r', '[', '\ufeff'],
      ¬(c = '"' ∨ c = apostrophe ∨ isBareKeyChar c = true) := by
    intro c hc
    fin_cases hc <;> decide
  exact hno c hmem hstart

/-- A line starts with something to be read: no comment, no line break, and no mark of the byte
order, which would be taken away at the start of a document. -/
theorem exists_cons_of_read? {cs rest : List Char} {line : Line}
    (h : read? cs = some (line, rest)) :
    ∃ c inner, skipSpace cs = c :: inner ∧ c ∉ ['#', '\n', '\r', '\ufeff'] := by
  rw [read?.eq_def] at h
  split at h
  · exact ⟨'[', _, rfl, by decide⟩
  · exact ⟨'[', _, rfl, by decide⟩
  · obtain ⟨c, inner, hstart, hc⟩ := exists_cons_of_pair? h
    refine ⟨c, inner, hstart, fun hmem => hc ?_⟩
    simp only [List.mem_cons] at hmem ⊢
    tauto

theorem exists_not_break_of_read? {cs rest : List Char} {line : Line}
    (h : read? cs = some (line, rest)) : ∃ c inner, cs = c :: inner ∧ c ≠ '\n' ∧ c ≠ '\r' := by
  obtain ⟨c, inner, hstart, hc⟩ := exists_cons_of_read? h
  cases cs with
  | nil => cases hstart
  | cons d cs =>
    refine ⟨d, cs, rfl, ?_, ?_⟩
    all_goals
      rintro rfl
      obtain rfl := (List.cons.inj hstart).1
      exact hc (by decide)

/-- A pair may be read as a line. -/
theorem read?_of_pair? {cs rest : List Char} {line : Line} (h : pair? cs = some (line, rest)) :
    read? (skipSpace cs) = some (line, rest) := by
  obtain ⟨c, inner, hstart, hc⟩ := exists_cons_of_pair? h
  have hbracket : c ≠ '[' := by
    rintro rfl
    exact hc (by decide)
  rw [← pair?_skipSpace, hstart] at h
  rw [hstart, read?]
  · exact h
  · exact fun rest h => hbracket (List.cons.inj h).1
  · exact fun rest h => hbracket (List.cons.inj h).1

/-- No line starts with a mark of the byte order. -/
theorem head?_ne_of_read? {cs rest : List Char} {line : Line}
    (h : read? cs = some (line, rest)) : cs.head? ≠ some '\ufeff' := by
  rintro hmark
  obtain ⟨cs, rfl⟩ := List.head?_eq_some_iff.mp hmark
  obtain ⟨c, inner, hstart, hc⟩ := exists_cons_of_read? h
  obtain rfl := (List.cons.inj hstart).1
  exact hc (by decide)

/-- A line that is there at once is all that skipping leaves. -/
theorem skipLines_of_read? {cs rest : List Char} {line : Line}
    (h : read? (skipSpace cs) = some (line, rest)) :
    skipLines cs.length cs = skipSpace cs := by
  obtain ⟨c, inner, hstart, hc⟩ := exists_cons_of_read? h
  rw [skipSpace_skipSpace] at hstart
  simp only [List.mem_cons, List.not_mem_nil, or_false, not_or] at hc
  obtain ⟨hcomment, hn, hr, -⟩ := hc
  cases cs with
  | nil => rfl
  | cons d cs =>
    have hstays : skipComment (skipSpace (d :: cs)) = skipSpace (d :: cs) := by
      rw [hstart, skipComment]
      exact fun rest h => hcomment (List.cons.inj h).1
    rw [List.length_cons, skipLines, hstays, hstart, newline?_eq_none hn hr]

end Line

/-! ### Whole lines -/

/-- Lines that say nothing may be left out. -/
theorem Draft.lines?_blank {cs : List Char} (h : skipLines cs.length cs = []) (limit : Nat)
    (draft : Draft) (t : List Char) :
    lines? limit draft (cs ++ '\n' :: t) = lines? limit draft t := by
  cases limit with
  | zero => rfl
  | succ limit => rw [lines?, lines?, skipLines_blank h]

/-- **One line**, and what comes after it. -/
theorem Draft.lines?_line {cs cs' rest : List Char} {line : Line} {draft draft' : Draft}
    (hskip : skipLines cs.length cs = cs') (hread : Line.read? cs' = some (line, rest))
    (hact : line.act? draft = some draft') {t rest' : List Char}
    (hend : endOfLine? (rest ++ '\n' :: t) = some rest') (limit : Nat) :
    lines? (limit + 1) draft (cs ++ '\n' :: t) = lines? limit draft' rest' := by
  obtain ⟨c, inner, rfl, hn, hr⟩ := Line.exists_not_break_of_read? hread
  have hmore : cs.length ≤ (cs ++ '\n' :: t).length := by
    rw [List.length_append]
    omega
  rw [lines?, skipLines_line (Nat.le_refl _) hmore hskip hn hr]
  have hline := Line.read?_line hread t
  rw [List.cons_append] at hline ⊢
  simp only [line?_eq, hline, Option.bind_some, hact, Option.map_some, Option.bind_eq_bind, hend]

/-- The end of a line with more behind it. If the text ends there, it ends with the line feed; that
is all the same to what reads on. -/
theorem exists_endOfLine?_line {cs rest : List Char} (h : endOfLine? cs = some rest)
    (t : List Char) :
    ∃ rest', endOfLine? (cs ++ '\n' :: t) = some rest' ∧ ∀ limit draft,
      Draft.lines? limit draft rest' = Draft.lines? limit draft (rest ++ '\n' :: t) := by
  cases hskip : skipComment (skipSpace cs) with
  | nil =>
    rw [endOfLine?, hskip] at h
    cases h
    exact ⟨t, endOfLine?_line hskip t, fun limit draft => (Draft.lines?_blank rfl ..).symm⟩
  | cons c inner =>
    rw [endOfLine?, hskip] at h
    refine ⟨rest ++ '\n' :: t, ?_, fun _ _ => rfl⟩
    rw [endOfLine?, skipSpace_line, skipComment_line, hskip]
    exact newline?_append h _

/-- **A text of whole lines takes one draft to another**, whatever lines come after it. No mark of
the byte order stands in front: at the start of a document it would be taken away. -/
structure Advances (draft : Draft) (text : List Char) (draft' : Draft) : Prop where
  /-- The lines, with their number. -/
  lines : ∃ n ≤ text.length, ∀ limit t,
    Draft.lines? (limit + n) draft (text ++ t) = Draft.lines? limit draft' t
  /-- What stands in front is not taken away. -/
  unmarked : text.head? ≠ some '\ufeff'

namespace Advances

theorem refl (draft : Draft) : Advances draft [] draft where
  lines := ⟨0, Nat.le_refl _, fun _ _ => rfl⟩
  unmarked := by decide

theorem trans {draft draft' draft'' : Draft} {text text' : List Char}
    (h : Advances draft text draft') (h' : Advances draft' text' draft'') :
    Advances draft (text ++ text') draft'' where
  lines := by
    obtain ⟨n, hn, hlines⟩ := h.lines
    obtain ⟨n', hn', hlines'⟩ := h'.lines
    refine ⟨n' + n, by rw [List.length_append]; omega, fun limit t => ?_⟩
    rw [← Nat.add_assoc, List.append_assoc, hlines, hlines']
  unmarked := by
    cases text with
    | nil => exact h'.unmarked
    | cons c text => exact h.unmarked

/-- One line, or a pair over several, with no more than a comment behind. -/
theorem of_line {draft draft' : Draft} {text rest : List Char} {line : Line}
    (hread : Line.read? (skipSpace text) = some (line, rest))
    (hact : line.act? draft = some draft') (hrest : skipComment (skipSpace rest) = []) :
    Advances draft (text ++ ['\n']) draft' where
  lines := by
    refine ⟨1, by rw [List.length_append]; exact Nat.le_add_left 1 _, fun limit t => ?_⟩
    rw [List.append_assoc]
    exact Draft.lines?_line (Line.skipLines_of_read? hread) hread hact
      (endOfLine?_line hrest t) limit
  unmarked := by
    cases text with
    | nil => decide
    | cons d text =>
      rintro hmark
      obtain rfl : d = '\ufeff' := by simpa using hmark
      -- a byte order mark is no space, so it would be where the line starts
      exact Line.head?_ne_of_read? hread rfl

end Advances

end Toml

end Interception
