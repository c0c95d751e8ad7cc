import Interception.Proofs.Json.Documents
import Interception.Proofs.Json.Grammar

/-!
# Documents without parts

Strings and numbers of the grammar are documents of one token. What is written for a text or a
natural number is of the grammar, so it is read back: an escape stands for one character, and as a
text has no halves of surrogate pairs, its code units are its characters (`Quoted.joins_toNat`).

| document | text |
|---|---|
| nothing | `Json.spells_null` |
| a truth value | `Json.spells_bool` |
| a string | `Json.spells_letters` |
| a number | `Json.spells_number` |
| what is written for a text | `Json.spells_string` |
| what is written for a natural number | `Json.spells_nat` |
-/

namespace Interception

namespace Quoted

/-! ### Texts -/

theorem hexNumber?_hexDigits : ∀ n < 32, hexNumber? (hexDigits 4 n) = some n := by
  decide

/-- **A character** is written as a letter of a string that stands for it. -/
theorem letter_encodeChar (c : Char) : Letter (encodeChar c) c.toNat := by
  rcases encodeChar_cases c with
    ⟨hself, hlarge, hquote, hback⟩ | ⟨letter, hletter, hmem⟩ | ⟨hnumber, hsmall⟩
  · rw [hself]
    exact .plain hquote hback hlarge
  · rw [hletter]
    exact .escape (List.mem_cons_of_mem _ hmem)
  · rw [hnumber]
    exact .number (hexNumber?_hexDigits _ hsmall)

theorem letters_encode (s : List Char) : Letters (encode s) (s.map Char.toNat) := by
  induction s with
  | nil => exact .nil
  | cons c s ih => exact .cons (letter_encodeChar c) ih

theorem joins_toNat (s : List Char) : Joins (s.map Char.toNat) s := by
  induction s with
  | nil => exact .nil
  | cons c s ih => exact .one c ih

end Quoted

namespace Json

/-! ### Documents of one token -/

theorem spells_of_token {c : Char} {cs : List Char} {token : Token} {tree : Tree}
    (hc : isBlank c = false) (hfirst : Token.first? (c :: cs) = some (token, []))
    (htree : Tree.Makes [token] tree) : Spells (c :: cs) tree :=
  ⟨[token], Token.Scans.token hc hfirst, htree⟩

theorem spells_null : Spells "null".toList .null := by
  have hmakes : Tree.Makes [.null] .null := fun _ _ _ => rfl
  exact spells_of_token (c := 'n') (by decide) rfl hmakes

/-- **A truth value.** -/
theorem spells_bool (b : Bool) : Spells (toString b).toList (.bool b) := by
  have hmakes : Tree.Makes [.bool b] (.bool b) := fun _ _ _ => rfl
  cases b
  · exact spells_of_token (c := 'f') (by decide) rfl hmakes
  · exact spells_of_token (c := 't') (by decide) rfl hmakes

/-! ### Strings -/

/-- **A string**, and what text it spells, if any. -/
theorem spells_letters {cs : List Char} {units : List Nat} (h : Quoted.Letters cs units) :
    Spells ('"' :: (cs ++ ['"'])) (.string ((Quoted.join? units).map String.ofList)) := by
  have hfirst : Token.first? ('"' :: (cs ++ ['"'])) =
      some (.string ((Quoted.join? units).map String.ofList), []) := by
    rw [Token.first?, Quoted.read?, Quoted.units?_of_letters h]
    rfl
  exact spells_of_token (by decide) hfirst fun _ _ _ => rfl

/-- **A text.** -/
theorem spells_string (s : String) : Spells (Quoted.chars s) (.string (some s)) := by
  have hread := spells_letters (Quoted.letters_encode s.toList)
  rw [Quoted.join?_of_joins (Quoted.joins_toNat s.toList), Option.map_some,
    String.ofList_toList] at hread
  exact hread

/-! ### Numbers -/

/-- A number starts with a digit or a sign. -/
theorem exists_cons_of_number {cs : List Char} {n : Numeral} (h : Number cs n) :
    ∃ c inner, cs = c :: inner ∧ (isDigit c = true ∨ c = '-') := by
  cases h with
  | plain hwhole _ _ =>
    obtain ⟨c, inner, rfl⟩ := List.exists_cons_of_ne_nil hwhole.1.1
    exact ⟨c, _, rfl, .inl (hwhole.1.2 c List.mem_cons_self)⟩
  | minus _ _ _ => exact ⟨'-', _, rfl, .inr rfl⟩

theorem first?_of_number {cs : List Char} {n : Numeral} (h : Number cs n) :
    Token.first? cs = some (.number n, []) := by
  have hread := Token.number?_of_number h
  obtain ⟨c, inner, rfl, hc⟩ := exists_cons_of_number h
  have hother : ∀ {mark : Char}, isDigit mark = false → mark ≠ '-' →
      ∀ rest, c :: inner = mark :: rest → False := by
    intro mark hdigit hminus rest hcons
    obtain ⟨rfl, -⟩ := List.cons.inj hcons
    rcases hc with hc | hc
    · rw [hdigit] at hc
      cases hc
    · exact hminus hc
  rw [Token.first?]
  · rw [hread]
    rfl
  · exact List.cons_ne_nil c inner
  all_goals exact hother (by decide) (by decide)

/-- **A number.** -/
theorem spells_number {cs : List Char} {n : Numeral} (h : Number cs n) :
    Spells cs (.number n) := by
  have hfirst := first?_of_number h
  obtain ⟨c, inner, rfl, hc⟩ := exists_cons_of_number h
  refine spells_of_token ?_ hfirst fun _ _ _ => rfl
  by_contra hblank
  have hender := Token.ender_of_blank (Bool.not_eq_false _ ▸ hblank)
  rcases hc with hc | rfl
  · rw [Token.not_digit_of_ender hender] at hc
    cases hc
  · exact absurd hender (by decide)

/-- The numeral of a natural number. -/
def numeral (n : Nat) : Numeral :=
  { negative := false, mantissa := n, exponent := 0, integral := true }

theorem digitsValue_toDigits (n : Nat) : digitsValue (Nat.toDigits 10 n) = n :=
  Nat.ofDigitChars_toDigits (by decide) (by decide)

theorem isWhole_toDigits (n : Nat) : IsWhole (Nat.toDigits 10 n) := by
  refine ⟨⟨Nat.toDigits_ne_nil, fun c hc => decide_eq_true (digit_of_mem_toDigits hc)⟩,
    fun rest hrest => ?_⟩
  rcases Nat.eq_zero_or_pos n with rfl | hn
  · cases hrest
    rfl
  · obtain ⟨c, digits, hdigits, hc⟩ := exists_cons_toDigits hn
    exact absurd (List.cons.inj (hdigits.symm.trans hrest)).1 hc

/-- **A natural number.** -/
theorem spells_nat (n : Nat) : Spells (toString n).toList (.number (numeral n)) := by
  have htext : (toString n).toList = Nat.toDigits 10 n := String.toList_ofList
  have hnumber := Number.plain (isWhole_toDigits n) .none .none
  have hnumeral : numeralOf false (Nat.toDigits 10 n) none none = numeral n := by
    simp [numeralOf, numeral, digitsValue_toDigits]
  rw [hnumeral, List.append_nil, List.append_nil] at hnumber
  rw [htext]
  exact spells_number hnumber

end Json

end Interception
