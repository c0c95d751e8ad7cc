import Interception.Proofs.Toml.LineBound
import Mathlib.Tactic.SplitIfs

/-!
# Strings with more text behind them

A string ends where its closing mark stands, so what comes after it should not matter. For the
strings of one line that is so whatever comes after (`Toml.Quoted.line?_append`). A string over
several lines may end in up to five quotation marks, of which the last three close it: there one
mark more behind the text would be part of the run, and so the text behind has to start with
something else. A line feed is enough (`Toml.Quoted.any?_line`).

Readers count their steps, and a longer text gives them more; so each lemma here also lets the
limit grow.
-/

namespace Interception

namespace Toml

namespace Quoted

/-! ### Escapes and strings of one line -/

theorem hexEscape?_append {count : Nat} {c : Char} {cs rest : List Char}
    (h : hexEscape? count cs = some (c, rest)) (t : List Char) :
    hexEscape? count (cs ++ t) = some (c, rest ++ t) := by
  rw [hexEscape?] at h ⊢
  split at h
  · next hdigits =>
    have hcount : count ≤ cs.length := by
      have := hdigits.1
      rw [List.length_take] at this
      omega
    rw [List.take_append_of_le_length hcount, List.drop_append_of_le_length hcount,
      if_pos hdigits]
    cases hscalar : scalar? (radixValue 16 (cs.take count)) with
    | none => simp [hscalar] at h
    | some d =>
      simp only [hscalar, Option.map_some, Option.some.injEq, Prod.mk.injEq] at h ⊢
      exact ⟨h.1, by rw [h.2]⟩
  · cases h

/-- What a letter behind a backslash does to the text after it: it takes none of it, or a number of
hexadecimal digits, or there is no such escape. -/
theorem escape?_cases (e : Char) :
    (∃ c, ∀ cs, escape? (e :: cs) = some (c, cs)) ∨
      (∃ count, ∀ cs, escape? (e :: cs) = hexEscape? count cs) ∨
      ∀ cs, escape? (e :: cs) = none := by
  simp only [escape?]
  repeat' split
  all_goals first
    | exact .inl ⟨_, fun _ => rfl⟩
    | exact .inr (.inl ⟨_, fun _ => rfl⟩)
    | exact .inr (.inr fun _ => rfl)

theorem escape?_append {c : Char} {cs rest : List Char} (h : escape? cs = some (c, rest))
    (t : List Char) : escape? (cs ++ t) = some (c, rest ++ t) := by
  cases cs with
  | nil => cases h
  | cons e cs =>
    rw [List.cons_append]
    obtain ⟨d, hletter⟩ | ⟨count, hdigits⟩ | hnone := escape?_cases e
    · rw [hletter] at h ⊢
      cases h
      rfl
    · rw [hdigits] at h ⊢
      exact hexEscape?_append h t
    · rw [hnone] at h
      cases h

/-- What follows a backslash in an escape is neither a blank nor a line break. -/
theorem not_blank_of_escape? {c e : Char} {cs rest : List Char}
    (h : escape? (e :: cs) = some (c, rest)) : isSpace e = false ∧ e ≠ '\n' ∧ e ≠ '\r' := by
  refine ⟨Bool.eq_false_iff.mpr fun hspace => ?_, ?_, ?_⟩
  · obtain rfl | rfl : e = ' ' ∨ e = '\t' := by simpa [isSpace] using hspace
    all_goals cases h
  all_goals
    rintro rfl
    cases h

theorem basicUpTo_append {limit limit' : Nat} {cs s rest : List Char}
    (h : basicUpTo limit cs = some (s, rest)) (hlimit : limit ≤ limit') (t : List Char) :
    basicUpTo limit' (cs ++ t) = some (s, rest ++ t) := by
  fun_induction basicUpTo limit cs generalizing limit' s rest with
  | case1 limit cs =>
    cases h
    cases limit' <;> rfl
  | case2 limit cs ih =>
    obtain ⟨limit', rfl⟩ := Nat.exists_eq_add_of_lt hlimit
    simp only [Option.bind_eq_bind, Option.bind_eq_some_iff, Prod.exists, Option.some.injEq,
      Prod.mk.injEq] at h
    obtain ⟨c, cs', hescape, s', rest', hrest, rfl, rfl⟩ := h
    rw [List.cons_append, basicUpTo, escape?_append hescape]
    simp only [Option.bind_eq_bind, Option.bind_some, ih cs' hrest (Nat.le_add_right _ _)]
  | case3 limit c cs hquote hback hplain ih =>
    obtain ⟨limit', rfl⟩ := Nat.exists_eq_add_of_lt hlimit
    simp only [Option.bind_eq_bind, Option.bind_eq_some_iff, Prod.exists, Option.some.injEq,
      Prod.mk.injEq] at h
    obtain ⟨s', rest', hrest, rfl, rfl⟩ := h
    rw [List.cons_append, basicUpTo, if_pos hplain]
    · rw [ih hrest (by omega)]
      rfl
    · exact hquote
    · exact hback
  | case4 => cases h
  | case5 => cases h

theorem literal?_append {cs s rest : List Char} (h : literal? cs = some (s, rest))
    (t : List Char) : literal? (cs ++ t) = some (s, rest ++ t) := by
  fun_induction literal? cs generalizing s rest with
  | case1 => cases h
  | case2 cs =>
    cases h
    rfl
  | case3 c cs hmark hplain ih =>
    simp only [Option.bind_eq_bind, Option.bind_eq_some_iff, Prod.exists, Option.some.injEq,
      Prod.mk.injEq] at h
    obtain ⟨s', rest', hrest, rfl, rfl⟩ := h
    rw [List.cons_append, literal?, if_neg hmark, if_pos hplain, ih hrest]
    rfl
  | case4 => cases h

/-- **A string of one line** is read the same with anything behind it. -/
theorem line?_append {cs s rest : List Char} (h : line? cs = some (s, rest)) (t : List Char) :
    line? (cs ++ t) = some (s, rest ++ t) := by
  cases cs with
  | nil => cases h
  | cons c cs =>
    simp only [List.cons_append, line?] at h ⊢
    split_ifs at h ⊢
    · refine basicUpTo_append h ?_ t
      rw [List.length_append]
      omega
    · exact literal?_append h t

theorem line?_eq_none {c : Char} (hc : c ≠ '"' ∧ c ≠ apostrophe) (cs : List Char) :
    line? (c :: cs) = none := by
  rw [line?, if_neg hc.1, if_neg hc.2]

/-! ### Strings over several lines -/

theorem lineContinuation?_line {c : Char} {cs rest : List Char}
    (h : lineContinuation? cs = some (c :: rest)) (hn : c ≠ '\n') (hr : c ≠ '\r')
    (t : List Char) : lineContinuation? (cs ++ '\n' :: t) = some (c :: rest ++ '\n' :: t) := by
  rw [lineContinuation?] at h ⊢
  cases hbreak : newline? (skipSpace cs) with
  | none => simp [hbreak] at h
  | some behind =>
    simp only [hbreak, Option.some.injEq, skipBlankLines_eq] at h
    rw [skipSpace_line, newline?_append hbreak]
    simp only [skipBlankLines_eq, Option.some.injEq]
    refine skipping_line length_skipSpace skipSpace_line (Nat.le_refl _) ?_ h hn hr t
    rw [List.length_append]
    omega

theorem newline?_of_lineContinuation? {cs rest : List Char}
    (h : lineContinuation? cs = some rest) : newline? rest = none := by
  rw [lineContinuation?] at h
  split at h
  · cases h
    rw [skipBlankLines_eq]
    exact newline?_skipping length_skipSpace (Nat.le_refl _)
  · cases h

/-- A string goes on with something, and not with a carriage return that breaks no line. -/
theorem exists_cons_of_linesUpTo {mark : Char} (hmark : mark ≠ '\n' ∧ mark ≠ '\r')
    {escapes : Bool} {limit : Nat} {cs s rest : List Char}
    (h : linesUpTo mark escapes limit cs = some (s, rest)) (hbreak : newline? cs = none) :
    ∃ c inner, cs = c :: inner ∧ c ≠ '\n' ∧ c ≠ '\r' := by
  cases limit with
  | zero => cases h
  | succ limit =>
    cases cs with
    | nil => cases h
    | cons c cs =>
      refine ⟨c, cs, rfl, ?_, ?_⟩
      · rintro rfl
        cases hbreak
      · rintro rfl
        rw [linesUpTo, if_neg (Ne.symm hmark.2), if_neg (by simp), if_neg (by decide), hbreak] at h
        cases h

/-- The induction is on the pieces of the string. At a run of marks the line feed behind the text
is what keeps the run from growing; at a backslash it matters that what is skipped is followed by
more of the string, so that the line feed cannot be skipped as well. -/
theorem linesUpTo_line {mark : Char} (hmark : mark ≠ '\n' ∧ mark ≠ '\r') {escapes : Bool}
    {limit limit' : Nat} {cs s rest : List Char}
    (h : linesUpTo mark escapes limit cs = some (s, rest)) (hlimit : limit ≤ limit')
    (t : List Char) :
    linesUpTo mark escapes limit' (cs ++ '\n' :: t) = some (s, rest ++ '\n' :: t) := by
  fun_induction linesUpTo mark escapes limit cs generalizing limit' s rest with
  | case1 => cases h
  | case2 => cases h
  | case3 limit cs marks =>
    rename_i behind ih
    have hmarks : (mark :: cs).takeWhile (fun c => decide (c = mark)) = marks := rfl
    have hbehind : (mark :: cs).dropWhile (fun c => decide (c = mark)) = behind := rfl
    obtain ⟨limit', rfl⟩ := Nat.exists_eq_add_of_lt hlimit
    have hnot : decide ('\n' = mark) = false := decide_eq_false (Ne.symm hmark.1)
    have htake := takeWhile_append_cons (p := fun c => decide (c = mark)) hnot (mark :: cs) t
    have hdrop := dropWhile_append_cons (p := fun c => decide (c = mark)) hnot (mark :: cs) t
    rw [List.cons_append, linesUpTo, if_pos rfl, ← List.cons_append, htake, hdrop,
      hmarks, hbehind]
    clear_value marks behind
    dsimp only
    rw [Option.bind_eq_bind] at h ⊢
    cases hrun : quoteRun? marks.length with
    | none => rw [hrun] at h; cases h
    | some run =>
      obtain ⟨inside, ends⟩ := run
      simp only [hrun, Option.bind_some] at h ⊢
      split at h
      · next hends =>
        cases h
        rw [if_pos hends]
      · next hends =>
        simp only [Option.bind_eq_bind, Option.bind_eq_some_iff, Prod.exists, Option.some.injEq,
          Prod.mk.injEq] at h
        obtain ⟨s', rest', hrest, rfl, rfl⟩ := h
        rw [if_neg hends, ih hrest (by omega)]
        rfl
  | case4 limit c cs hc hback behind hcontinue ih =>
    obtain ⟨limit', rfl⟩ := Nat.exists_eq_add_of_lt hlimit
    have hbreak := newline?_of_lineContinuation? hcontinue
    obtain ⟨d, inner, rfl, hn, hr⟩ := exists_cons_of_linesUpTo hmark h hbreak
    rw [List.cons_append, linesUpTo, if_neg hc, if_pos hback,
      lineContinuation?_line hcontinue hn hr]
    exact ih h (by omega)
  | case5 limit c cs hc hback hcontinue ih =>
    obtain ⟨limit', rfl⟩ := Nat.exists_eq_add_of_lt hlimit
    simp only [Option.bind_eq_bind, Option.bind_eq_some_iff, Prod.exists, Option.some.injEq,
      Prod.mk.injEq] at h
    obtain ⟨e, cs', hescape, s', rest', hrest, rfl, rfl⟩ := h
    have hstays : lineContinuation? (cs ++ '\n' :: t) = none := by
      cases cs with
      | nil => cases hescape
      | cons d cs =>
        obtain ⟨hspace, hn, hr⟩ := not_blank_of_escape? hescape
        rw [List.cons_append, lineContinuation?, skipSpace,
          List.dropWhile_cons_of_neg (by rw [hspace]; decide), newline?_eq_none hn hr]
    rw [List.cons_append, linesUpTo, if_neg hc, if_pos hback, hstays]
    simp only [escape?_append hescape, Option.bind_eq_bind, Option.bind_some,
      ih cs' hrest (Nat.le_add_right _ _)]
  | case6 limit c cs hc hback hplain ih =>
    obtain ⟨limit', rfl⟩ := Nat.exists_eq_add_of_lt hlimit
    simp only [Option.bind_eq_bind, Option.bind_eq_some_iff, Prod.exists, Option.some.injEq,
      Prod.mk.injEq] at h
    obtain ⟨s', rest', hrest, rfl, rfl⟩ := h
    rw [List.cons_append, linesUpTo, if_neg hc, if_neg hback, if_pos hplain,
      ih hrest (by omega)]
    rfl
  | case7 limit c cs hc hback hplain ih =>
    obtain ⟨limit', rfl⟩ := Nat.exists_eq_add_of_lt hlimit
    simp only [Option.bind_eq_bind, Option.bind_eq_some_iff, Prod.exists, Option.some.injEq,
      Prod.mk.injEq] at h
    obtain ⟨cs', hbreak, s', rest', hrest, rfl, rfl⟩ := h
    rw [List.cons_append, linesUpTo, if_neg hc, if_neg hback, if_neg hplain, ← List.cons_append,
      newline?_append hbreak, Option.bind_eq_bind, Option.bind_some, ih cs' hrest (by omega)]
    rfl

theorem lines?_line {mark : Char} (hmark : mark ≠ '\n' ∧ mark ≠ '\r') {escapes : Bool}
    {cs s rest : List Char} (h : lines? mark escapes cs = some (s, rest)) (t : List Char) :
    lines? mark escapes (cs ++ '\n' :: t) = some (s, rest ++ '\n' :: t) := by
  have hskip : (newline? (cs ++ '\n' :: t)).getD (cs ++ '\n' :: t)
      = (newline? cs).getD cs ++ '\n' :: t := by
    cases hbreak : newline? cs with
    | some behind => rw [newline?_append hbreak]; rfl
    | none =>
      rw [lines?, hbreak] at h
      obtain ⟨c, inner, rfl, hn, hr⟩ := exists_cons_of_linesUpTo hmark h hbreak
      rw [List.cons_append, newline?_eq_none hn hr]
      rfl
  rw [lines?] at h ⊢
  simp only [hskip] at h ⊢
  refine linesUpTo_line hmark h ?_ t
  rw [List.length_append]
  omega

/-! ### Strings of any kind -/

/-- **A string of any kind** is read the same with a line feed and more behind it. -/
theorem any?_line {cs s rest : List Char} (h : any? cs = some (s, rest)) (t : List Char) :
    any? (cs ++ '\n' :: t) = some (s, rest ++ '\n' :: t) := by
  obtain _ | ⟨a, _ | ⟨b, _ | ⟨c, cs⟩⟩⟩ := cs
  · cases h
  · have hline := @line?_append [a] s rest h ('\n' :: t)
    cases t with
    | nil => exact hline
    | cons d t =>
      rw [List.singleton_append, any?, if_neg (by simp), if_neg (by simp [apostrophe])]
      exact hline
  · have hline := @line?_append [a, b] s rest h ('\n' :: t)
    rw [List.cons_append, List.singleton_append, any?, if_neg (by simp),
      if_neg (by simp [apostrophe])]
    exact hline
  · simp only [List.cons_append, any?] at h ⊢
    split_ifs at h ⊢
    · exact lines?_line (by decide) h t
    · exact lines?_line (by decide) h t
    · exact line?_append h ('\n' :: t)

theorem any?_eq_none {c : Char} (hc : c ≠ '"' ∧ c ≠ apostrophe) (cs : List Char) :
    any? (c :: cs) = none := by
  obtain _ | ⟨a, _ | ⟨b, cs⟩⟩ := cs
  · exact line?_eq_none hc []
  · exact line?_eq_none hc [a]
  · rw [any?, if_neg fun h => hc.1 h.1, if_neg fun h => hc.2 h.1]
    exact line?_eq_none hc _

end Quoted

end Toml

end Interception
