import Interception.Proofs.Toml.Strings

/-!
# Keys and values with more text behind them

A value may reach over several lines, so what a reader of values does with a text that ends too
early says nothing about a longer text. What it reads *successfully*, though, it reads the same
with a line feed and more behind it. This is `Toml.LineStable`, a statement about everything
that can be nested, by induction on the steps that the readers may take:

| what is read | step |
|---|---|
| a value | `Toml.LineStable.value_succ` |
| the items of an array | `Toml.LineStable.items_succ` |
| the members of an inline table | `Toml.LineStable.members_succ` |

The one choice that has to be looked at twice is between strings and everything else: a text
that is no string must not become one. It does not, because a value that is no string starts
with none of the quotation marks (`Toml.plainValue?_eq_none`).

Keys stand on one line and are no harder than strings (`Toml.key?_line`).
-/

namespace Interception

namespace Toml

/-! ### What no number and no word starts with -/

namespace Number

section NoDigit

variable {c : Char}

theorem fixed?_eq_none (hc : isDigit c = false) (count : Nat) (cs : List Char) :
    fixed? (count + 1) (c :: cs) = none := by
  rw [fixed?]
  refine if_neg fun h => ?_
  have hall := h.2
  rw [List.take_succ_cons, List.all_cons, hc] at hall
  cases hall

theorem afterMoment?_eq_none (hc : isDigit c = false) (cs : List Char) :
    afterMoment? (c :: cs) = none := by
  have hdate : afterDate? (c :: cs) = none := by
    rw [afterDate?, fixed?_eq_none hc]
    rfl
  have htime : afterTime? (c :: cs) = none := by
    rw [afterTime?, afterMinutes?, fixed?_eq_none hc]
    rfl
  rw [afterMoment?, hdate, htime]

theorem sign_of_ne (hplus : c ≠ '+') (hminus : c ≠ '-') (cs : List Char) :
    sign (c :: cs) = (false, c :: cs) := by
  rw [sign]
  · exact fun rest h => hplus (List.cons.inj h).1
  · exact fun rest h => hminus (List.cons.inj h).1

theorem decimal?_eq_none (hc : isDigit c = false) (cs : List Char) :
    decimal? (c :: cs) = none := by
  rw [decimal?, digits?, if_neg (by rw [hc]; decide)]
  rintro rest h
  rw [(List.cons.inj h).1] at hc
  cases hc

theorem integer?_eq_none (hc : isDigit c = false) (hplus : c ≠ '+') (hminus : c ≠ '-')
    (cs : List Char) : integer? (c :: cs) = none := by
  have hzero : ∀ d rest, c :: cs ≠ '0' :: d :: rest := by
    rintro d rest h
    rw [(List.cons.inj h).1] at hc
    cases hc
  rw [integer?]
  · simp only [sign_of_ne hplus hminus, decimal?_eq_none hc, Option.bind_eq_bind, Option.bind_none]
  · exact hzero 'x'
  · exact hzero 'o'
  · exact hzero 'b'

theorem afterFloat?_eq_none (hc : isDigit c = false) (hplus : c ≠ '+') (hminus : c ≠ '-')
    (hi : c ≠ 'i') (hn : c ≠ 'n') (cs : List Char) : afterFloat? (c :: cs) = none := by
  have hdecimal : decimalFloat? (c :: cs) = none := by
    simp only [decimalFloat?, sign_of_ne hplus hminus, decimal?_eq_none hc, Option.bind_eq_bind,
      Option.bind_none]
  have hspecial : specialFloat? (c :: cs) = none := by
    rw [specialFloat?, sign_of_ne hplus hminus]
    split
    · next h => exact absurd (List.cons.inj h).1 hi
    · next h => exact absurd (List.cons.inj h).1 hn
    · rfl
  rw [afterFloat?, hdecimal, hspecial]
  rfl

end NoDigit

end Number

/-- **A value without quotation marks and brackets** starts with a digit, a sign or a letter. -/
theorem plainValue?_eq_none {c : Char} (hc : isDigit c = false)
    (hletters : c ∉ ['+', '-', 'i', 'n', 't', 'f']) (cs : List Char) :
    plainValue? (c :: cs) = none := by
  simp only [List.mem_cons, List.not_mem_nil, or_false, not_or] at hletters
  obtain ⟨hplus, hminus, hi, hn, ht, hf⟩ := hletters
  rw [plainValue?, Number.afterMoment?_eq_none hc, Number.afterFloat?_eq_none hc hplus hminus hi hn,
    Number.integer?_eq_none hc hplus hminus]
  · rfl
  · exact fun rest h => ht (List.cons.inj h).1
  · exact fun rest h => hf (List.cons.inj h).1


/-! ### Keys -/

theorem keyPart?_line {cs rest : List Char} {s : String} (h : keyPart? cs = some (s, rest))
    (t : List Char) : keyPart? (cs ++ '\n' :: t) = some (s, rest ++ '\n' :: t) := by
  rw [keyPart?] at h ⊢
  cases hline : Quoted.line? cs with
  | some p =>
    simp only [hline] at h
    cases h
    rw [Quoted.line?_append hline]
  | none =>
    simp only [hline] at h
    rw [takeWhile_append_cons (by decide), dropWhile_append_cons (by decide)]
    cases cs with
    | nil => cases h
    | cons c cs =>
      have hquote : c ≠ '"' ∧ c ≠ apostrophe := by
        constructor <;> rintro rfl <;> cases h
      rw [List.cons_append, Quoted.line?_eq_none hquote]
      cases hpart : (c :: cs).takeWhile isBareKeyChar with
      | nil => rw [hpart] at h; cases h
      | cons d part =>
        rw [hpart] at h
        cases h
        rfl

theorem keyUpTo_line {limit : Nat} {cs rest : List Char} {parts : List String}
    (h : keyUpTo limit cs = some (parts, rest)) (t : List Char) :
    keyUpTo limit (cs ++ '\n' :: t) = some (parts, rest ++ '\n' :: t) := by
  induction limit generalizing cs parts rest with
  | zero => cases h
  | succ limit ih =>
    simp only [keyUpTo, Option.bind_eq_bind, Option.bind_eq_some_iff, Prod.exists] at h
    obtain ⟨part, cs', hpart, h⟩ := h
    rw [keyUpTo, skipSpace_line, keyPart?_line hpart]
    simp only [Option.bind_eq_bind, Option.bind_some]
    rw [skipSpace_line]
    split at h
    · next cs'' hdot =>
      simp only [Option.bind_eq_some_iff, Prod.exists, Option.some.injEq, Prod.mk.injEq] at h
      obtain ⟨parts', rest', hrest, rfl, rfl⟩ := h
      rw [hdot]
      simp only [List.cons_append, ih hrest, Option.bind_some]
    · next hdot =>
      cases h
      split
      · next hpoint =>
        obtain ⟨inner, hinner, -⟩ := eq_cons_of_line (by decide) hpoint
        exact (hdot inner hinner).elim
      · rfl

/-- **A key** is read the same with a line feed and more behind it. -/
theorem key?_line {cs rest : List Char} {path : List String} {key : String}
    (h : key? cs = some (path, key, rest)) (t : List Char) :
    key? (cs ++ '\n' :: t) = some (path, key, rest ++ '\n' :: t) := by
  simp only [key?, Option.bind_eq_bind, Option.bind_eq_some_iff, Prod.exists, Option.some.injEq,
    Prod.mk.injEq] at h ⊢
  obtain ⟨parts, rest', hparts, last, hlast, rfl, rfl, rfl⟩ := h
  exact ⟨parts, _, keyUpTo_line hparts t, last, hlast, rfl, rfl, rfl⟩

/-! ### Values -/

/-- A value that is not nested. -/
def leaf? (cs : List Char) : Option (Item × List Char) :=
  match Quoted.any? cs with
  | some (s, rest) => some (.string (String.ofList s), rest)
  | none => plainValue? cs

theorem value?_eq_leaf? {limit room : Nat} {c : Char} (harray : c ≠ '[') (htable : c ≠ '\x7b')
    (cs : List Char) : value? (limit + 1) room (c :: cs) = leaf? (c :: cs) := by
  rw [value?]
  · rfl
  · exact fun rest h => harray (List.cons.inj h).1
  · exact fun rest h => htable (List.cons.inj h).1

theorem exists_cons_of_leaf? {cs rest : List Char} {item : Item}
    (h : leaf? cs = some (item, rest)) :
    ∃ c inner, cs = c :: inner ∧ c ≠ '\n' ∧ c ≠ '\r' := by
  cases cs with
  | nil => cases (show leaf? [] = none from rfl).symm.trans h
  | cons c cs =>
    refine ⟨c, cs, rfl, ?_, ?_⟩
    all_goals
      rintro rfl
      rw [leaf?, Quoted.any?_eq_none (by decide), plainValue?_eq_none (by decide) (by decide)] at h
      cases h

theorem leaf?_line {cs rest : List Char} {item : Item} (h : leaf? cs = some (item, rest))
    (t : List Char) : leaf? (cs ++ '\n' :: t) = some (item, rest ++ '\n' :: t) := by
  rw [leaf?] at h ⊢
  cases hquoted : Quoted.any? cs with
  | some p =>
    simp only [hquoted] at h
    cases h
    rw [Quoted.any?_line hquoted]
  | none =>
    simp only [hquoted] at h
    cases cs with
    | nil => cases (show plainValue? [] = none from rfl).symm.trans h
    | cons c cs =>
      have hquote : c ≠ '"' ∧ c ≠ apostrophe := by
        constructor <;> rintro rfl <;> rw [plainValue?_eq_none (by decide) (by decide)] at h <;>
          cases h
      rw [List.cons_append, Quoted.any?_eq_none hquote, ← List.cons_append]
      have hplain := lineBound_plainValue? (c :: cs) t
      rw [h] at hplain
      exact hplain

/-- A value starts with a character that breaks no line. -/
theorem exists_cons_of_value? {limit room : Nat} {cs rest : List Char} {item : Item}
    (h : value? limit room cs = some (item, rest)) :
    ∃ c inner, cs = c :: inner ∧ c ≠ '\n' ∧ c ≠ '\r' := by
  rw [value?.eq_def] at h
  split at h
  · cases h
  · exact ⟨'[', _, rfl, by decide⟩
  · exact ⟨'\x7b', _, rfl, by decide⟩
  · exact exists_cons_of_leaf? h

/-- **What is read in at most `limit` steps** is read the same with a line feed and more behind
it, and with more steps. -/
structure LineStable (limit : Nat) : Prop where
  /-- Values. -/
  value : ∀ {limit' room : Nat} {cs rest : List Char} {item : Item},
    value? limit room cs = some (item, rest) → limit ≤ limit' → ∀ t : List Char,
      value? limit' room (cs ++ '\n' :: t) = some (item, rest ++ '\n' :: t)
  /-- The items of an array. -/
  items : ∀ {limit' room : Nat} {cs rest : List Char} {items : List Item},
    arrayItems? limit room cs = some (items, rest) → limit ≤ limit' → ∀ t : List Char,
      arrayItems? limit' room (cs ++ '\n' :: t) = some (items, rest ++ '\n' :: t)
  /-- The members of an inline table. -/
  members : ∀ {limit' room : Nat} {cs rest : List Char} {before members : Members},
    inlineMembers? limit room before cs = some (members, rest) → limit ≤ limit' →
      ∀ t : List Char,
        inlineMembers? limit' room before (cs ++ '\n' :: t) = some (members, rest ++ '\n' :: t)

namespace LineStable

variable {limit : Nat}

theorem zero : LineStable 0 where
  value h := by cases h
  items h := by cases h
  members h := by cases h

theorem value_succ (stable : LineStable limit) {limit' room : Nat} {cs rest : List Char}
    {item : Item} (h : value? (limit + 1) room cs = some (item, rest)) (hlimit : limit ≤ limit')
    (t : List Char) :
    value? (limit' + 1) room (cs ++ '\n' :: t) = some (item, rest ++ '\n' :: t) := by
  by_cases harray : ∃ inner, cs = '[' :: inner
  · obtain ⟨inner, rfl⟩ := harray
    cases room with
    | zero => cases h
    | succ room =>
      simp only [value?, Option.bind_eq_bind, Option.bind_eq_some_iff, Prod.exists,
        Option.some.injEq, Prod.mk.injEq] at h
      obtain ⟨items, rest', hitems, rfl, rfl⟩ := h
      simp only [List.cons_append, value?, stable.items hitems hlimit t, Option.bind_eq_bind,
        Option.bind_some]
  by_cases htable : ∃ inner, cs = '\x7b' :: inner
  · obtain ⟨inner, rfl⟩ := htable
    cases room with
    | zero => cases h
    | succ room =>
      rw [List.cons_append]
      rw [value?.eq_5] at h ⊢
      rw [skipSpace_line]
      split at h
      · next hclose =>
        cases h
        rw [hclose]
        rfl
      · next hclose =>
        simp only [Option.bind_eq_bind, Option.bind_eq_some_iff, Prod.exists,
          Option.some.injEq, Prod.mk.injEq] at h
        obtain ⟨members, rest', hmembers, rfl, rfl⟩ := h
        split
        · next h =>
          obtain ⟨inner, hinner, -⟩ := eq_cons_of_line (by decide) h
          exact (hclose inner hinner).elim
        · rw [stable.members hmembers hlimit t]
          rfl
  obtain ⟨c, inner, rfl, -⟩ := exists_cons_of_value? h
  have hc : c ≠ '[' ∧ c ≠ '\x7b' :=
    ⟨fun hc => harray ⟨inner, by rw [hc]⟩, fun hc => htable ⟨inner, by rw [hc]⟩⟩
  rw [value?_eq_leaf? hc.1 hc.2] at h
  rw [List.cons_append, value?_eq_leaf? hc.1 hc.2]
  exact leaf?_line h t

theorem items_succ (stable : LineStable limit) {limit' room : Nat} {cs rest : List Char}
    {items : List Item} (h : arrayItems? (limit + 1) room cs = some (items, rest))
    (hlimit : limit ≤ limit') (t : List Char) :
    arrayItems? (limit' + 1) room (cs ++ '\n' :: t) = some (items, rest ++ '\n' :: t) := by
  have hmore : ∀ cs : List Char, cs.length ≤ (cs ++ '\n' :: t).length := by
    intro cs
    rw [List.length_append]
    omega
  rw [arrayItems?.eq_2] at h ⊢
  split at h
  · next hclose =>
    cases h
    rw [skipLines_line (Nat.le_refl _) (hmore cs) hclose (by decide) (by decide)]
    rfl
  · next hclose =>
    simp only [Option.bind_eq_bind, Option.bind_eq_some_iff, Prod.exists] at h
    obtain ⟨item, cs', hitem, h⟩ := h
    obtain ⟨c, inner, hskip, hn, hr⟩ := exists_cons_of_value? hitem
    have hc : c ≠ ']' := fun hc => hclose inner (by rw [hskip, hc])
    have hvalue := stable.value hitem hlimit t
    rw [skipLines_line (Nat.le_refl _) (hmore cs) hskip hn hr]
    rw [hskip] at hvalue
    split
    · next h => exact absurd (List.cons.inj h).1 hc
    simp only [hvalue, Option.bind_eq_bind, Option.bind_some]
    split at h
    · next hlast =>
      cases h
      rw [skipLines_line (Nat.le_refl _) (hmore cs') hlast (by decide) (by decide)]
      rfl
    · next hcomma =>
      simp only [Option.bind_eq_some_iff, Prod.exists, Option.some.injEq, Prod.mk.injEq] at h
      obtain ⟨items', rest', hitems, rfl, rfl⟩ := h
      rw [skipLines_line (Nat.le_refl _) (hmore cs') hcomma (by decide) (by decide)]
      simp only [List.cons_append, stable.items hitems hlimit t, Option.bind_some]
    · cases h

theorem members_succ (stable : LineStable limit) {limit' room : Nat} {cs rest : List Char}
    {before members : Members}
    (h : inlineMembers? (limit + 1) room before cs = some (members, rest))
    (hlimit : limit ≤ limit') (t : List Char) :
    inlineMembers? (limit' + 1) room before (cs ++ '\n' :: t) =
      some (members, rest ++ '\n' :: t) := by
  simp only [inlineMembers?, Option.bind_eq_bind, Option.bind_eq_some_iff, Prod.exists] at h
  obtain ⟨path, key, cs', hkey, h⟩ := h
  simp only [inlineMembers?, key?_line hkey, Option.bind_eq_bind, Option.bind_some]
  split at h
  · next cs'' =>
    simp only [Option.bind_eq_some_iff, Prod.exists] at h
    obtain ⟨item, cs', hitem, members', henter, h⟩ := h
    simp only [List.cons_append, skipSpace_line, stable.value hitem hlimit t, henter,
      Option.bind_some]
    split at h
    · next hclose =>
      cases h
      rw [hclose]
      rfl
    · next hcomma =>
      rw [hcomma]
      exact stable.members h hlimit t
    · cases h
  · cases h

theorem succ (stable : LineStable limit) : LineStable (limit + 1) where
  value h hlimit t := by
    obtain ⟨limit', rfl⟩ := Nat.exists_eq_add_of_lt hlimit
    exact stable.value_succ h (Nat.le_add_right _ _) t
  items h hlimit t := by
    obtain ⟨limit', rfl⟩ := Nat.exists_eq_add_of_lt hlimit
    exact stable.items_succ h (Nat.le_add_right _ _) t
  members h hlimit t := by
    obtain ⟨limit', rfl⟩ := Nat.exists_eq_add_of_lt hlimit
    exact stable.members_succ h (Nat.le_add_right _ _) t

theorem all (limit : Nat) : LineStable limit := by
  induction limit with
  | zero => exact zero
  | succ limit ih => exact ih.succ

end LineStable

end Toml

end Interception
