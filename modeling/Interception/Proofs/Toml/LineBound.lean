import Interception.Proofs.Written
import Interception.Toml.Document

/-!
# Readers that a line feed bounds

A TOML document is read from its first character to its last, but what one line says should
depend on that line only. The readers of a document are therefore compared on two texts: one
that ends, and the same text with a line feed and anything else behind it.

Most readers do exactly the same on both, up to the rest they leave. Such a reader is
`Toml.LineBound`, and the combinators below it say that whatever is put together from such
readers is one of them again. The readers of numbers and times are all of this kind, and so is
`Toml.plainValue?`, which chooses between them: it would not do that a text which is *no* number
became one through what stands on the next line.

| reader | theorem |
|---|---|
| spaces and comments | `Toml.skipSpace_line`, `Toml.skipComment_line` |
| lines that say nothing | `Toml.skipLines_line` |
| what may follow on a line | `Toml.endOfLine?_line` |
| numbers and times | `Toml.lineBound_plainValue?` |
-/

namespace Interception

namespace Toml

/-! ### A line feed and more behind a text -/

/-- What a text starts with is already there without the line feed behind it. -/
theorem eq_cons_of_line {c : Char} {cs rest t : List Char} (hc : c ≠ '\n')
    (h : cs ++ '\n' :: t = c :: rest) : ∃ inner, cs = c :: inner ∧ inner ++ '\n' :: t = rest := by
  cases cs with
  | nil => exact absurd (List.cons.inj h).1.symm hc
  | cons d cs =>
    obtain ⟨rfl, rfl⟩ := List.cons.inj h
    exact ⟨cs, rfl, rfl⟩

/-! ### Spaces and line breaks -/

theorem skipSpace_line (cs t : List Char) :
    skipSpace (cs ++ '\n' :: t) = skipSpace cs ++ '\n' :: t :=
  dropWhile_append_cons (by decide) cs t

theorem skipComment_line (cs t : List Char) :
    skipComment (cs ++ '\n' :: t) = skipComment cs ++ '\n' :: t := by
  rw [skipComment.eq_def cs]
  split
  · exact dropWhile_append_cons (by decide) _ t
  · next hne =>
    rw [skipComment]
    intro rest h
    obtain ⟨inner, rfl, -⟩ := eq_cons_of_line (by decide) h
    exact hne inner rfl

/-- A line break is there whatever stands behind it. -/
theorem newline?_append {cs rest : List Char} (h : newline? cs = some rest) (t : List Char) :
    newline? (cs ++ t) = some (rest ++ t) := by
  rw [newline?.eq_def] at h
  split at h
  · cases h
    rfl
  · cases h
    rfl
  · cases h

theorem newline?_eq_none {c : Char} (hn : c ≠ '\n') (hr : c ≠ '\r') (cs : List Char) :
    newline? (c :: cs) = none := by
  rw [newline?]
  · rintro rest h
    exact hn (List.cons.inj h).1
  · rintro rest h
    exact hr (List.cons.inj h).1

theorem length_newline? {cs rest : List Char} (h : newline? cs = some rest) :
    rest.length < cs.length := by
  rw [newline?.eq_def] at h
  split at h <;> cases h <;> simp only [List.length_cons] <;> omega

/-- **Where nothing but a comment is left**, the line ends at the line feed. -/
theorem endOfLine?_line {cs : List Char} (h : skipComment (skipSpace cs) = []) (t : List Char) :
    endOfLine? (cs ++ '\n' :: t) = some t := by
  rw [endOfLine?, skipSpace_line, skipComment_line, h]
  rfl

/-- Skips line breaks, at most `limit` of them, and in front of each what `pass` skips. Both
readers that skip lines are of this form. -/
def skipping (pass : List Char → List Char) : Nat → List Char → List Char
  | 0, cs => cs
  | limit + 1, cs =>
    match newline? (pass cs) with
    | some rest => skipping pass limit rest
    | none => pass cs

theorem skipLines_eq (limit : Nat) (cs : List Char) :
    skipLines limit cs = skipping (fun cs => skipComment (skipSpace cs)) limit cs := by
  induction limit generalizing cs with
  | zero => rfl
  | succ limit ih =>
    rw [skipLines, skipping]
    cases newline? (skipComment (skipSpace cs)) with
    | none => rfl
    | some rest => exact ih rest

theorem skipBlankLines_eq (limit : Nat) (cs : List Char) :
    Quoted.lineContinuation?.skipBlankLines limit cs = skipping skipSpace limit cs := by
  induction limit generalizing cs with
  | zero => rfl
  | succ limit ih =>
    rw [Quoted.lineContinuation?.skipBlankLines, skipping]
    cases newline? (skipSpace cs) with
    | none => rfl
    | some rest => exact ih rest

section Skipping

variable {pass : List Char → List Char}

/-- Skipping stops at the same character, provided that this character breaks no line: a carriage
return at the end of the text would break one together with the line feed. -/
theorem skipping_line (hlength : ∀ cs, (pass cs).length ≤ cs.length)
    (hpass : ∀ cs t, pass (cs ++ '\n' :: t) = pass cs ++ '\n' :: t) {limit limit' : Nat}
    {c : Char} {cs rest : List Char} (henough : cs.length ≤ limit) (hlimit : limit ≤ limit')
    (h : skipping pass limit cs = c :: rest) (hn : c ≠ '\n') (hr : c ≠ '\r') (t : List Char) :
    skipping pass limit' (cs ++ '\n' :: t) = c :: rest ++ '\n' :: t := by
  induction limit generalizing cs limit' with
  | zero =>
    obtain rfl := List.length_eq_zero_iff.mp (Nat.le_zero.mp henough)
    exact absurd h (by simp [skipping])
  | succ limit ih =>
    obtain ⟨limit', rfl⟩ := Nat.exists_eq_add_of_lt hlimit
    rw [skipping] at h ⊢
    rw [hpass]
    cases hbreak : newline? (pass cs) with
    | none =>
      simp only [hbreak] at h
      rw [h, List.cons_append, newline?_eq_none hn hr]
    | some rest' =>
      simp only [hbreak] at h
      rw [newline?_append hbreak]
      have hshort := length_newline? hbreak
      have hpassed := hlength cs
      exact ih (by omega) (by omega) h

/-- With enough steps, skipping leaves no line break in front. -/
theorem newline?_skipping (hlength : ∀ cs, (pass cs).length ≤ cs.length) {limit : Nat}
    {cs : List Char} (henough : cs.length ≤ limit) : newline? (skipping pass limit cs) = none := by
  induction limit generalizing cs with
  | zero =>
    obtain rfl := List.length_eq_zero_iff.mp (Nat.le_zero.mp henough)
    rfl
  | succ limit ih =>
    rw [skipping]
    cases hbreak : newline? (pass cs) with
    | none => exact hbreak
    | some rest =>
      have hshort := length_newline? hbreak
      have hpassed := hlength cs
      exact ih (by omega)

/-- With enough steps, it does not matter how many there are. -/
theorem skipping_congr (hlength : ∀ cs, (pass cs).length ≤ cs.length) {limit limit' : Nat}
    {cs : List Char} (henough : cs.length ≤ limit) (henough' : cs.length ≤ limit') :
    skipping pass limit cs = skipping pass limit' cs := by
  have hnil : ∀ limit, skipping pass limit [] = [] := by
    have hpass : pass [] = [] := List.length_eq_zero_iff.mp (Nat.le_zero.mp (hlength []))
    rintro (_ | limit)
    · rfl
    · rw [skipping, hpass]
      rfl
  induction limit generalizing cs limit' with
  | zero =>
    obtain rfl := List.length_eq_zero_iff.mp (Nat.le_zero.mp henough)
    rw [hnil, hnil]
  | succ limit ih =>
    cases limit' with
    | zero =>
      obtain rfl := List.length_eq_zero_iff.mp (Nat.le_zero.mp henough')
      rw [hnil, hnil]
    | succ limit' =>
      rw [skipping, skipping]
      cases hbreak : newline? (pass cs) with
      | none => rfl
      | some rest =>
        have hshort := length_newline? hbreak
        have hpassed := hlength cs
        exact ih (by omega) (by omega)

/-- Where nothing is left, skipping goes on behind the line feed. -/
theorem skipping_blank (hlength : ∀ cs, (pass cs).length ≤ cs.length)
    (hpass : ∀ cs t, pass (cs ++ '\n' :: t) = pass cs ++ '\n' :: t) {limit limit' : Nat}
    {cs t : List Char} (henough : cs.length ≤ limit) (h : skipping pass limit cs = [])
    (henough' : (cs ++ '\n' :: t).length ≤ limit') :
    skipping pass limit' (cs ++ '\n' :: t) = skipping pass t.length t := by
  rw [List.length_append, List.length_cons] at henough'
  have hend : ∀ {cs limit'}, t.length < limit' → pass cs = [] →
      skipping pass limit' (cs ++ '\n' :: t) = skipping pass t.length t := by
    intro cs limit' hmore hnil
    obtain ⟨limit', rfl⟩ : ∃ n, limit' = n + 1 := Nat.exists_eq_add_one.mpr (by omega)
    rw [skipping, hpass, hnil]
    exact skipping_congr hlength (by omega) (Nat.le_refl _)
  induction limit generalizing cs limit' with
  | zero =>
    obtain rfl := List.length_eq_zero_iff.mp (Nat.le_zero.mp henough)
    exact hend (by omega) (List.length_eq_zero_iff.mp (Nat.le_zero.mp (hlength [])))
  | succ limit ih =>
    rw [skipping] at h
    cases hbreak : newline? (pass cs) with
    | none =>
      rw [hbreak] at h
      exact hend (by omega) h
    | some rest =>
      rw [hbreak] at h
      obtain ⟨limit', rfl⟩ : ∃ n, limit' = n + 1 := Nat.exists_eq_add_one.mpr (by omega)
      have hshort := length_newline? hbreak
      have hpassed := hlength cs
      rw [skipping, hpass, newline?_append hbreak]
      exact ih (by omega) h (by omega)

end Skipping

theorem length_skipSpace (cs : List Char) : (skipSpace cs).length ≤ cs.length :=
  List.dropWhile_suffix isSpace |>.length_le

theorem length_skipComment (cs : List Char) : (skipComment cs).length ≤ cs.length := by
  rw [skipComment.eq_def]
  split
  · next rest =>
    exact Nat.le_succ_of_le (List.dropWhile_suffix (l := rest) isPlain).length_le
  · exact Nat.le_refl _

/-- **Skipping lines** stops where it stopped, with more text behind. -/
theorem skipLines_line {limit limit' : Nat} {c : Char} {cs rest : List Char}
    (henough : cs.length ≤ limit) (hlimit : limit ≤ limit') (h : skipLines limit cs = c :: rest)
    (hn : c ≠ '\n') (hr : c ≠ '\r') (t : List Char) :
    skipLines limit' (cs ++ '\n' :: t) = c :: rest ++ '\n' :: t := by
  rw [skipLines_eq] at h ⊢
  refine skipping_line (fun cs => ?_) (fun cs t => ?_) henough hlimit h hn hr t
  · exact Nat.le_trans (length_skipComment _) (length_skipSpace cs)
  · rw [skipSpace_line, skipComment_line]

/-- Where nothing is left, skipping lines goes on behind the line feed. -/
theorem skipLines_blank {cs : List Char} (h : skipLines cs.length cs = []) (t : List Char) :
    skipLines (cs ++ '\n' :: t).length (cs ++ '\n' :: t) = skipLines t.length t := by
  simp only [skipLines_eq] at h ⊢
  refine skipping_blank (fun cs => ?_) (fun cs t => ?_) (Nat.le_refl _) h (Nat.le_refl _)
  · exact Nat.le_trans (length_skipComment _) (length_skipSpace cs)
  · rw [skipSpace_line, skipComment_line]

/-! ### Readers -/

/-- Outcomes of a reader with a rest in them: what has not been read. -/
class HasRest (γ : Type) where
  /-- Changes the rest. -/
  mapRest : (List Char → List Char) → γ → γ

instance : HasRest (List Char) :=
  ⟨fun f rest => f rest⟩

instance {α : Type} : HasRest (α × List Char) :=
  ⟨fun f outcome => (outcome.1, f outcome.2)⟩

open HasRest

/-- **A reader that a line feed bounds**: with a line feed and more behind the text it does what
it does without, and leaves them behind. -/
def LineBound {γ : Type} [HasRest γ] (read : List Char → Option γ) : Prop :=
  ∀ cs t, read (cs ++ '\n' :: t) = (read cs).map (mapRest (· ++ '\n' :: t))

namespace LineBound

variable {α γ : Type} [HasRest γ]

/-- A reader, and then another one that may depend on what the first one read. -/
theorem bind {read : List Char → Option (α × List Char)} {next : α × List Char → Option γ}
    (hread : LineBound read) (hnext : ∀ a, LineBound fun cs => next (a, cs)) :
    LineBound fun cs => (read cs).bind next := by
  intro cs t
  have hfirst := hread cs t
  dsimp only
  rw [hfirst]
  cases read cs with
  | none => rfl
  | some outcome => exact hnext outcome.1 outcome.2 t

/-- A reader, and then another one. -/
theorem andThen {read : List Char → Option (List Char)} {next : List Char → Option γ}
    (hread : LineBound read) (hnext : LineBound next) :
    LineBound fun cs => (read cs).bind next := by
  intro cs t
  have hfirst := hread cs t
  dsimp only
  rw [hfirst]
  cases read cs with
  | none => rfl
  | some rest => exact hnext rest t

theorem ite {p : Prop} [Decidable p] {yes no : List Char → Option γ} (hyes : LineBound yes)
    (hno : LineBound no) : LineBound fun cs => if p then yes cs else no cs := by
  intro cs t
  by_cases hp : p
  · simpa only [if_pos hp] using hyes cs t
  · simpa only [if_neg hp] using hno cs t

theorem or {first second : List Char → Option γ} (hfirst : LineBound first)
    (hsecond : LineBound second) : LineBound fun cs => (first cs).or (second cs) := by
  intro cs t
  have hone := hfirst cs t
  have htwo := hsecond cs t
  dsimp only
  rw [hone, htwo]
  cases first cs <;> rfl

theorem none : LineBound fun _ => (none : Option γ) :=
  fun _ _ => rfl

theorem value (a : α) : LineBound fun cs => some (a, cs) :=
  fun _ _ => rfl

theorem rest : LineBound fun cs => some cs :=
  fun _ _ => rfl

end LineBound

namespace Number

/-! ### Times -/

theorem lineBound_fixed? (count : Nat) : LineBound (fixed? count) := by
  intro cs t
  by_cases hcount : count ≤ cs.length
  · simp only [fixed?, List.take_append_of_le_length hcount, List.drop_append_of_le_length hcount]
    split <;> rfl
  · -- there are too few digits, and the line feed that makes up for it is none
    have hshort : (cs.take count).length ≠ count := by
      rw [List.length_take]
      omega
    have hbreak : '\n' ∈ (cs ++ '\n' :: t).take count := by
      rw [List.take_append]
      obtain ⟨n, hn⟩ := Nat.exists_eq_succ_of_ne_zero (show count - cs.length ≠ 0 by omega)
      rw [hn, List.take_succ_cons]
      simp
    have hnot : ¬((cs ++ '\n' :: t).take count).all isDigit := by
      intro h
      exact absurd (List.all_eq_true.mp h '\n' hbreak) (by decide)
    rw [fixed?, fixed?, if_neg fun h => hnot h.2, if_neg fun h => hshort h.1]
    rfl

theorem lineBound_char? {c : Char} (hc : '\n' ≠ c) : LineBound (char? c) := by
  intro cs t
  cases cs with
  | nil => exact if_neg hc
  | cons d cs =>
    simp only [List.cons_append, char?]
    split <;> rfl

theorem lineBound_afterDate? : LineBound afterDate? :=
  (lineBound_fixed? 4).bind fun _ => (lineBound_char? (by decide)).andThen <|
    (lineBound_fixed? 2).bind fun _ => (lineBound_char? (by decide)).andThen <|
      (lineBound_fixed? 2).bind fun _ => .ite .rest .none

theorem lineBound_afterMinutes? : LineBound afterMinutes? :=
  (lineBound_fixed? 2).bind fun _ => (lineBound_char? (by decide)).andThen <|
    (lineBound_fixed? 2).bind fun _ => .ite .rest .none

/-- The decimals of a second, if there are any, are read to their end. -/
theorem lineBound_decimalsOfSecond : LineBound fun cs : List Char =>
    match cs with
    | '.' :: rest =>
      if (rest.takeWhile isDigit).isEmpty then some cs else some (rest.dropWhile isDigit)
    | _ => some cs := by
  intro cs t
  dsimp only
  split
  · next heq =>
    obtain ⟨inner, rfl, rfl⟩ := eq_cons_of_line (by decide) heq
    have hbreak : isDigit '\n' = false := by decide
    simp only [takeWhile_append_cons hbreak, dropWhile_append_cons hbreak]
    split <;> rfl
  · next hpoint =>
    split
    · exact absurd rfl (hpoint _)
    · rfl

theorem lineBound_afterTime? : LineBound afterTime? :=
  lineBound_afterMinutes?.andThen <| (lineBound_char? (by decide)).andThen <|
    (lineBound_fixed? 2).bind fun _ => .ite .none lineBound_decimalsOfSecond

theorem skipOffset_line (cs t : List Char) :
    skipOffset (cs ++ '\n' :: t) = skipOffset cs ++ '\n' :: t := by
  cases cs with
  | nil => rfl
  | cons c cs =>
    simp only [List.cons_append, skipOffset]
    split
    · rfl
    · split
      · rw [lineBound_afterMinutes? cs t]
        cases afterMinutes? cs <;> rfl
      · rfl

theorem lineBound_afterMoment? : LineBound afterMoment? := by
  intro cs t
  rw [afterMoment?, afterMoment?, lineBound_afterDate? cs t]
  rcases afterDate? cs with _ | _ | ⟨c, rest⟩
  · exact lineBound_afterTime? cs t
  · rfl
  · have htime := lineBound_afterTime? rest t
    simp only [Option.map_some, mapRest, List.cons_append, htime]
    split
    · cases afterTime? rest with
      | none => rfl
      | some rest => simp only [Option.map_some, skipOffset_line]
    · rfl

/-! ### Digits -/

theorem underscored_cons {digit : Char → Bool} {c : Char} (hc : c ≠ '_') (cs : List Char) :
    underscored digit (c :: cs) =
      if digit c then (c :: (underscored digit cs).1, (underscored digit cs).2)
      else ([], c :: cs) := by
  rw [underscored]
  exact fun _ _ h => absurd h hc

theorem underscored_break {digit : Char → Bool} (hbreak : digit '\n' = false) (t : List Char) :
    underscored digit ('\n' :: t) = ([], '\n' :: t) := by
  rw [underscored_cons (by decide), if_neg (by rw [hbreak]; decide)]

theorem underscored_line {digit : Char → Bool} (hbreak : digit '\n' = false)
    (hunder : digit '_' = false) (cs t : List Char) :
    underscored digit (cs ++ '\n' :: t) = mapRest (· ++ '\n' :: t) (underscored digit cs) := by
  fun_induction underscored digit cs with
  | case1 c cs hc digits rest heq ih =>
    rw [List.cons_append, List.cons_append, underscored, if_pos hc, ih, heq]
    rfl
  | case2 c cs hc =>
    rw [List.cons_append, List.cons_append, underscored, if_neg hc]
    rfl
  | case3 c cs hne hc digits rest heq ih =>
    have hdigit : c ≠ '_' := fun h => absurd (h ▸ hc) (by rw [hunder]; decide)
    rw [List.cons_append, underscored_cons hdigit, if_pos hc, ih, heq]
    rfl
  | case4 c cs hne hc =>
    by_cases hdash : c = '_'
    · -- nothing stands behind the underscore, and a line feed there is no digit
      obtain rfl : cs = [] := by
        cases cs with
        | nil => rfl
        | cons d cs => exact (hne d cs hdash rfl).elim
      rw [hdash, List.singleton_append, underscored, if_neg (by rw [hbreak]; decide)]
      rfl
    · rw [List.cons_append, underscored_cons hdash, if_neg hc]
      rfl
  | case5 => exact underscored_break hbreak t

theorem lineBound_digits? {digit : Char → Bool} (hbreak : digit '\n' = false)
    (hunder : digit '_' = false) : LineBound (digits? digit) := by
  intro cs t
  cases cs with
  | nil => exact if_neg (by rw [hbreak]; decide)
  | cons c cs =>
    simp only [List.cons_append, digits?, underscored_line hbreak hunder]
    split <;> rfl

theorem lineBound_decimal? : LineBound decimal? := by
  intro cs t
  rw [decimal?.eq_def cs]
  split
  · rfl
  · next hzero =>
    rw [decimal?]
    · exact lineBound_digits? (by decide) (by decide) cs t
    · intro rest h
      obtain ⟨inner, rfl, -⟩ := eq_cons_of_line (by decide) h
      exact hzero inner rfl

theorem sign_line (cs t : List Char) :
    sign (cs ++ '\n' :: t) = mapRest (· ++ '\n' :: t) (sign cs) := by
  rw [sign.eq_def cs]
  split
  · rfl
  · rfl
  · next hplus hminus =>
    rw [sign]
    · rfl
    · intro rest h
      obtain ⟨inner, rfl, -⟩ := eq_cons_of_line (by decide) h
      exact hplus inner rfl
    · intro rest h
      obtain ⟨inner, rfl, -⟩ := eq_cons_of_line (by decide) h
      exact hminus inner rfl

/-! ### Integers -/

theorem lineBound_based? (radix : Nat) {digit : Char → Bool} (hbreak : digit '\n' = false)
    (hunder : digit '_' = false) : LineBound (based? radix digit) := by
  refine (lineBound_digits? hbreak hunder).bind fun digits => ?_
  intro cs t
  dsimp only
  cases fits? (radixValue radix digits) <;> rfl

theorem lineBound_integer? : LineBound integer? := by
  intro cs t
  rw [integer?.eq_def cs]
  split
  · next cs => exact lineBound_based? 16 (by decide) (by decide) cs t
  · next cs => exact lineBound_based? 8 (by decide) (by decide) cs t
  · next cs => exact lineBound_based? 2 (by decide) (by decide) cs t
  · next hx ho hb =>
    have hother : ∀ {c : Char}, c ≠ '\n' → (∀ rest, cs = '0' :: c :: rest → False) →
        ∀ rest, cs ++ '\n' :: t = '0' :: c :: rest → False := by
      intro c hc hne rest h
      obtain ⟨inner, rfl, hinner⟩ := eq_cons_of_line (by decide) h
      obtain ⟨inner, rfl, -⟩ := eq_cons_of_line hc hinner
      exact hne inner rfl
    rw [integer?, sign_line]
    · refine LineBound.bind (γ := Int × List Char) lineBound_decimal? (fun digits => ?_)
        (sign cs).2 t
      intro cs t
      dsimp only
      cases fits? _ <;> rfl
    · exact hother (by decide) hx
    · exact hother (by decide) ho
    · exact hother (by decide) hb

/-! ### Floating-point numbers -/

theorem lineBound_decimals? : LineBound decimals? := by
  intro cs t
  fun_cases decimals? cs with
  | case1 cs =>
    exact ((lineBound_digits? (by decide) (by decide)).bind fun digits => .value (some digits)) cs t
  | case2 cs hpoint =>
    rw [decimals?]
    · rfl
    · intro rest h
      obtain ⟨inner, rfl, -⟩ := eq_cons_of_line (by decide) h
      exact hpoint inner rfl

theorem lineBound_exponent? : LineBound exponent? := by
  intro cs t
  cases cs with
  | nil => rfl
  | cons c cs =>
    rw [List.cons_append, exponent?, exponent?]
    split
    · rw [sign_line]
      have hdigits : LineBound (digits? isDigit) := lineBound_digits? (by decide) (by decide)
      exact LineBound.bind (γ := Option Int × List Char) hdigits (fun digits => .value _)
        (sign cs).2 t
    · rfl

theorem lineBound_decimalFloat? : LineBound decimalFloat? := by
  intro cs t
  rw [decimalFloat?, decimalFloat?, sign_line]
  refine LineBound.bind (γ := List Char) lineBound_decimal? (fun _ => ?_) (sign cs).2 t
  exact lineBound_decimals?.bind fun _ => lineBound_exponent?.bind fun _ =>
    .ite .none (.ite .rest .none)

theorem lineBound_specialFloat? : LineBound specialFloat? := by
  intro cs t
  rw [specialFloat?, specialFloat?, sign_line]
  dsimp only [mapRest]
  generalize (sign cs).2 = cs
  split
  · next rest h =>
    obtain ⟨inner, rfl, h₁⟩ := eq_cons_of_line (by decide) h
    obtain ⟨inner, rfl, h₂⟩ := eq_cons_of_line (by decide) h₁
    obtain ⟨inner, rfl, rfl⟩ := eq_cons_of_line (by decide) h₂
    rfl
  · next rest h =>
    obtain ⟨inner, rfl, h₁⟩ := eq_cons_of_line (by decide) h
    obtain ⟨inner, rfl, h₂⟩ := eq_cons_of_line (by decide) h₁
    obtain ⟨inner, rfl, rfl⟩ := eq_cons_of_line (by decide) h₂
    rfl
  · next hinf hnan =>
    split
    · exact absurd rfl (hinf _)
    · exact absurd rfl (hnan _)
    · rfl

theorem lineBound_afterFloat? : LineBound afterFloat? :=
  lineBound_decimalFloat?.or lineBound_specialFloat?

end Number

/-! ### Values that are neither strings nor nested -/

theorem isPrefixOf_line {word : List Char} (hword : '\n' ∉ word) (cs t : List Char) :
    word.isPrefixOf (cs ++ '\n' :: t) = word.isPrefixOf cs := by
  induction word generalizing cs with
  | nil => simp
  | cons c word ih =>
    rw [List.mem_cons, not_or] at hword
    cases cs with
    | nil => simp [List.isPrefixOf, Ne.symm hword.1]
    | cons d cs =>
      rw [List.cons_append, List.isPrefixOf, List.isPrefixOf, ih hword.2]

theorem lineBound_word? {word : String} (hword : '\n' ∉ word.toList) (item : Item) :
    LineBound (word? word item) := by
  intro cs t
  rw [word?, word?, isPrefixOf_line hword]
  split
  · next h =>
    have hlength := (List.isPrefixOf_iff_prefix.mp h).length_le
    rw [String.length_toList] at hlength
    rw [List.drop_append_of_le_length hlength]
    rfl
  · rfl

/-- **What is no word, number or time** on its line is none with more text behind it. -/
theorem lineBound_plainValue? : LineBound plainValue? := by
  intro cs t
  rw [plainValue?.eq_def cs]
  split
  · next cs => exact lineBound_word? (by decide) _ ('t' :: cs) t
  · next cs => exact lineBound_word? (by decide) _ ('f' :: cs) t
  · next ht hf =>
    rw [plainValue?, Number.lineBound_afterMoment? cs t, Number.lineBound_afterFloat? cs t,
      Number.lineBound_integer? cs t]
    · cases Number.afterMoment? cs with
      | some rest => rfl
      | none =>
        cases Number.afterFloat? cs with
        | some rest => rfl
        | none => cases Number.integer? cs <;> rfl
    · intro rest h
      obtain ⟨inner, rfl, -⟩ := eq_cons_of_line (by decide) h
      exact ht inner rfl
    · intro rest h
      obtain ⟨inner, rfl, -⟩ := eq_cons_of_line (by decide) h
      exact hf inner rfl

end Toml

end Interception
