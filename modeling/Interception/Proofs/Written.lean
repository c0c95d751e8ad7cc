import Interception.Json.Quoted
import Mathlib.Tactic.SplitIfs

/-!
# Numbers and strings as they are written

The two formats agree on how a natural number is written, in decimal digits, and nearly on how a
string is: between quotation marks, with escapes. What a reader of either has to know about
these notations is stated here once.

* `lookup_eq_none_of_notMem` – what no member is named after cannot be looked up.
* `takeWhile_append_cons`, `dropWhile_append_cons` – what is read up to some character that stops
  it is read the same with such a character and more behind it.
* `exists_cons_toDigits` – only zero starts with a zero.
* `Quoted.encodeChar_cases` – a character stands for itself, or is written as a letter behind a
  backslash, or by its number.
-/

namespace Interception

/-! ### Members -/

theorem lookup_eq_none_of_notMem {β : Type} {name : String} {members : List (String × β)}
    (h : name ∉ members.map Prod.fst) : members.lookup name = none := by
  rw [List.lookup_eq_none_iff]
  intro member hmember
  refine bne_iff_ne.mpr fun hname => h ?_
  rw [hname]
  exact List.mem_map_of_mem hmember

/-! ### Texts with more behind them -/

theorem takeWhile_append_cons {α : Type} {p : α → Bool} {d : α} (hd : p d = false)
    (cs t : List α) :
    (cs ++ d :: t).takeWhile p = cs.takeWhile p := by
  induction cs with
  | nil => exact List.takeWhile_cons_of_neg (by rw [hd]; decide)
  | cons c cs ih => rw [List.cons_append, List.takeWhile_cons, List.takeWhile_cons, ih]

theorem dropWhile_append_cons {α : Type} {p : α → Bool} {d : α} (hd : p d = false)
    (cs t : List α) :
    (cs ++ d :: t).dropWhile p = cs.dropWhile p ++ d :: t := by
  induction cs with
  | nil => exact List.dropWhile_cons_of_neg (by rw [hd]; decide)
  | cons c cs ih =>
    rw [List.cons_append, List.dropWhile_cons, List.dropWhile_cons, ih]
    split <;> rfl

/-! ### Digits -/

theorem digitChar_ne_zero {n : Nat} (hpos : 0 < n) (hn : n < 10) : n.digitChar ≠ '0' := by
  revert hpos
  revert n
  decide

/-- **A positive number** starts with no zero. -/
theorem exists_cons_toDigits {n : Nat} (hn : 0 < n) :
    ∃ c digits, Nat.toDigits 10 n = c :: digits ∧ c ≠ '0' := by
  induction n using Nat.strongRecOn with
  | ind n ih =>
    rw [Nat.toDigits_eq_if (by decide)]
    by_cases hsmall : n < 10
    · rw [if_pos hsmall]
      exact ⟨_, [], rfl, digitChar_ne_zero hn hsmall⟩
    · obtain ⟨c, digits, hdigits, hc⟩ := ih (n / 10) (by omega) (by omega)
      rw [if_neg hsmall, hdigits]
      exact ⟨c, _, rfl, hc⟩

theorem digit_of_mem_toDigits {n : Nat} {c : Char} (h : c ∈ Nat.toDigits 10 n) :
    '0' ≤ c ∧ c ≤ '9' := by
  have hdigit := Nat.isDigit_of_mem_toDigits (by decide) (by decide) h
  rw [Char.isDigit, Bool.and_eq_true, decide_eq_true_iff, decide_eq_true_iff] at hdigit
  exact hdigit

namespace Quoted

/-! ### Characters between quotation marks -/

/-- The letters behind a backslash that a writer uses, and what they stand for. -/
def letters : List (Char × Char) :=
  [('"', '"'), ('\\', '\\'), ('n', '\n'), ('r', '\r'), ('t', '\t'), ('b', '\x08'), ('f', '\x0c')]

/-- **How a character is written**: as itself, as a letter, or by its number. -/
theorem encodeChar_cases (c : Char) :
    (encodeChar c = [c] ∧ 32 ≤ c.toNat ∧ c ≠ '"' ∧ c ≠ '\\') ∨
      (∃ letter, encodeChar c = ['\\', letter] ∧ (letter, c) ∈ letters) ∨
      (encodeChar c = '\\' :: 'u' :: hexDigits 4 c.toNat ∧ c.toNat < 32) := by
  rw [encodeChar]
  split_ifs with hquote hback hn hr ht hb hf hsmall
  · exact .inr (.inl ⟨'"', rfl, by rw [hquote]; decide⟩)
  · exact .inr (.inl ⟨'\\', rfl, by rw [hback]; decide⟩)
  · exact .inr (.inl ⟨'n', rfl, by rw [hn]; decide⟩)
  · exact .inr (.inl ⟨'r', rfl, by rw [hr]; decide⟩)
  · exact .inr (.inl ⟨'t', rfl, by rw [ht]; decide⟩)
  · exact .inr (.inl ⟨'b', rfl, by rw [hb]; decide⟩)
  · exact .inr (.inl ⟨'f', rfl, by rw [hf]; decide⟩)
  · exact .inr (.inr ⟨rfl, hsmall⟩)
  · exact .inl ⟨rfl, Nat.le_of_not_lt hsmall, hquote, hback⟩

end Quoted

end Interception
