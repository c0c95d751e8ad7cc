import Interception.Proofs.Toml.Documents
import Interception.Proofs.Written

/-!
# Writing pairs of key and value

A truth value, a natural number and a text have one obvious way to be written each, and written
that way they are read back. For numbers this is not for free: digits could also be the beginning
of a date or a time, or the whole part of a floating-point number, and a reader tries those first.

| value | read back |
|---|---|
| a truth value | `Toml.isPair_bool` |
| a natural number of 64 bits, signed | `Toml.isPair_nat` |
| a text, as a basic string | `Toml.isPair_basicString` |
-/

namespace Interception

namespace Toml

/-! ### Basic strings -/

/-- How a character is written in a basic string: U+007F may not stand there either. -/
def encodeChar (c : Char) : List Char :=
  if c = '\x7f' then "\\u007f".toList else Interception.Quoted.encodeChar c

/-- A text as a basic string. -/
def basicString (s : String) : List Char :=
  '"' :: (s.toList.flatMap encodeChar ++ ['"'])

namespace Quoted

theorem escape?_letter {letter c : Char} (h : (letter, c) ∈ Interception.Quoted.letters)
    (rest : List Char) : escape? (letter :: rest) = some (c, rest) := by
  simp only [Interception.Quoted.letters, List.mem_cons, List.not_mem_nil, or_false,
    Prod.mk.injEq] at h
  rcases h with ⟨rfl, rfl⟩ | ⟨rfl, rfl⟩ | ⟨rfl, rfl⟩ | ⟨rfl, rfl⟩ | ⟨rfl, rfl⟩ | ⟨rfl, rfl⟩ |
    ⟨rfl, rfl⟩ <;> rfl

theorem hexEscape?_hexDigits : ∀ n < 32,
    hexEscape? 4 (Interception.Quoted.hexDigits 4 n) = some (Char.ofNat n, []) := by
  decide

theorem basicUpTo_plain {c : Char} (hquote : c ≠ '"') (hback : c ≠ '\\') (hc : isPlain c = true)
    (limit : Nat) (cs : List Char) :
    basicUpTo (limit + 1) (c :: cs) =
      (basicUpTo limit cs).map fun (s, rest) => (c :: s, rest) := by
  rw [basicUpTo, if_pos hc]
  · cases basicUpTo limit cs <;> rfl
  · exact hquote
  · exact hback

theorem basicUpTo_escape {c : Char} {cs rest : List Char} (h : escape? cs = some (c, rest))
    (limit : Nat) :
    basicUpTo (limit + 1) ('\\' :: cs) =
      (basicUpTo limit rest).map fun (s, rest) => (c :: s, rest) := by
  simp only [basicUpTo, h, Option.bind_eq_bind, Option.bind_some]
  cases basicUpTo limit rest <;> rfl

/-- **A character** is read back in one step. -/
theorem basicUpTo_encodeChar (c : Char) (limit : Nat) (cs : List Char) :
    basicUpTo (limit + 1) (encodeChar c ++ cs) =
      (basicUpTo limit cs).map fun (s, rest) => (c :: s, rest) := by
  rw [encodeChar]
  split_ifs with hdelete
  · subst hdelete
    exact basicUpTo_escape rfl limit
  rcases Interception.Quoted.encodeChar_cases c with
    ⟨hself, hlarge, hquote, hback⟩ | ⟨letter, hletter, hmem⟩ | ⟨hnumber, hsmall⟩
  · rw [hself]
    refine basicUpTo_plain hquote hback ?_ limit cs
    rw [isPlain, Bool.or_eq_true, decide_eq_true_iff, decide_eq_true_iff]
    exact .inr ⟨hlarge, hdelete⟩
  · rw [hletter]
    exact basicUpTo_escape (escape?_letter hmem cs) limit
  · rw [hnumber]
    have hhex := hexEscape?_append (hexEscape?_hexDigits c.toNat hsmall) cs
    rw [Char.ofNat_toNat] at hhex
    have hescape : escape? ('u' :: (Interception.Quoted.hexDigits 4 c.toNat ++ cs)) =
        some (c, cs) := hhex
    exact basicUpTo_escape hescape limit

theorem basicUpTo_encode (s : List Char) {limit : Nat} (hlimit : s.length ≤ limit)
    (rest : List Char) :
    basicUpTo limit (s.flatMap encodeChar ++ '"' :: rest) = some (s, rest) := by
  induction s generalizing limit with
  | nil => cases limit <;> rfl
  | cons c s ih =>
    obtain ⟨limit, rfl⟩ := Nat.exists_eq_add_of_lt hlimit
    rw [List.flatMap_cons, List.append_assoc, basicUpTo_encodeChar, ih (Nat.le_add_right _ _)]
    rfl

theorem exists_cons_encodeChar (c : Char) :
    ∃ d inner, encodeChar c = d :: inner ∧ d ≠ '"' := by
  rw [encodeChar]
  split_ifs
  · exact ⟨'\\', _, rfl, by decide⟩
  rcases Interception.Quoted.encodeChar_cases c with
    ⟨hself, -, hquote, -⟩ | ⟨letter, hletter, -⟩ | ⟨hnumber, -⟩
  · exact ⟨c, [], hself, hquote⟩
  · exact ⟨'\\', _, hletter, by decide⟩
  · exact ⟨'\\', _, hnumber, by decide⟩

theorem length_le_encode (s : List Char) : s.length ≤ (s.flatMap encodeChar).length := by
  induction s with
  | nil => exact Nat.le_refl 0
  | cons c s ih =>
    obtain ⟨d, inner, hc, -⟩ := exists_cons_encodeChar c
    rw [List.flatMap_cons, hc, List.length_append, List.length_cons, List.length_cons]
    omega

/-- Two quotation marks in front are a string without characters, unless there is a third one. -/
theorem any?_eq_line? {cs : List Char} (h : ∀ rest, cs ≠ '"' :: '"' :: rest) :
    any? ('"' :: cs) = line? ('"' :: cs) := by
  obtain _ | ⟨a, _ | ⟨b, cs⟩⟩ := cs
  · rfl
  · rfl
  · rw [any?, if_neg, if_neg]
    · rintro ⟨hquote, -⟩
      exact absurd hquote (by decide)
    · rintro ⟨-, rfl, rfl⟩
      exact h cs rfl

/-- **A text** is read back from its basic string. -/
theorem any?_basicString (s : String) : any? (basicString s) = some (s.toList, []) := by
  rw [basicString, any?_eq_line?]
  · refine basicUpTo_encode s.toList ?_ []
    rw [List.length_append]
    exact Nat.le_add_right_of_le (length_le_encode s.toList)
  · -- the first character of the text does not look like a mark
    rintro rest h
    cases hs : s.toList with
    | nil =>
      rw [hs] at h
      cases h
    | cons c cs =>
      obtain ⟨d, inner, hc, hd⟩ := exists_cons_encodeChar c
      rw [hs, List.flatMap_cons, hc] at h
      exact hd (List.cons.inj h).1

end Quoted

theorem leaf?_basicString (s : String) : leaf? (basicString s) = some (.string s, []) := by
  rw [leaf?, Quoted.any?_basicString]
  simp only [String.ofList_toList]


/-! ### Integers -/

namespace Number

section Digits

variable {digits : List Char}

theorem char?_eq_none {c : Char} (hc : isDigit c = false)
    (hdigits : ∀ d ∈ digits, isDigit d = true) : char? c digits = none := by
  cases digits with
  | nil => rfl
  | cons d digits =>
    rw [char?, if_neg]
    rintro rfl
    have hd := hdigits d List.mem_cons_self
    rw [hc] at hd
    cases hd

/-- Behind a fixed number of digits there are only digits. -/
theorem digits_of_fixed? {count n : Nat} {rest : List Char}
    (h : fixed? count digits = some (n, rest)) (hdigits : ∀ d ∈ digits, isDigit d = true) :
    ∀ d ∈ rest, isDigit d = true := by
  rw [fixed?] at h
  split at h
  · cases h
    exact fun d hd => hdigits d (List.mem_of_mem_drop hd)
  · cases h

theorem afterDate?_digits (hdigits : ∀ d ∈ digits, isDigit d = true) :
    afterDate? digits = none := by
  rw [afterDate?]
  cases h : fixed? 4 digits with
  | none => rfl
  | some outcome =>
    have hdash := char?_eq_none (c := '-') (by decide) (digits_of_fixed? h hdigits)
    simp only [Option.bind_eq_bind, Option.bind_some, hdash, Option.bind_none]

theorem afterTime?_digits (hdigits : ∀ d ∈ digits, isDigit d = true) :
    afterTime? digits = none := by
  rw [afterTime?, afterMinutes?]
  cases h : fixed? 2 digits with
  | none => rfl
  | some outcome =>
    have hcolon := char?_eq_none (c := ':') (by decide) (digits_of_fixed? h hdigits)
    simp only [Option.bind_eq_bind, Option.bind_some, hcolon, Option.bind_none]

theorem underscored_digits {digit : Char → Bool} (hunder : digit '_' = false)
    (hdigits : ∀ d ∈ digits, digit d = true) : underscored digit digits = (digits, []) := by
  induction digits with
  | nil => rfl
  | cons c digits ih =>
    have hc := hdigits c List.mem_cons_self
    have hne : c ≠ '_' := fun h => by rw [h, hunder] at hc; cases hc
    rw [underscored_cons hne, if_pos hc, ih fun d hd => hdigits d (List.mem_cons_of_mem c hd)]

end Digits

theorem isDigit_of_mem_toDigits {n : Nat} {c : Char} (h : c ∈ Nat.toDigits 10 n) :
    isDigit c = true :=
  decide_eq_true (digit_of_mem_toDigits h)

theorem decimal?_toDigits (n : Nat) :
    decimal? (Nat.toDigits 10 n) = some (Nat.toDigits 10 n, []) := by
  rcases Nat.eq_zero_or_pos n with rfl | hn
  · rfl
  · obtain ⟨c, digits, hdigits, hc⟩ := exists_cons_toDigits hn
    have hall : ∀ d ∈ c :: digits, isDigit d = true := by
      rw [← hdigits]
      exact fun d => isDigit_of_mem_toDigits
    rw [hdigits, decimal?, digits?, if_pos (hall c List.mem_cons_self),
      underscored_digits (by decide) fun d hd => hall d (List.mem_cons_of_mem c hd)]
    exact fun rest h => hc (List.cons.inj h).1

theorem radixValue_toDigits (n : Nat) : radixValue 10 (Nat.toDigits 10 n) = n := by
  have hfold : ∀ (digits : List Char), (∀ d ∈ digits, isDigit d = true) →
      radixValue 10 digits = Nat.ofDigitChars 10 digits 0 := by
    intro digits hdigits
    rw [radixValue, Nat.ofDigitChars]
    refine List.foldl_ext _ _ 0 fun n c hc => ?_
    rw [if_pos (hdigits c hc)]
  rw [hfold _ fun d => isDigit_of_mem_toDigits]
  exact Nat.ofDigitChars_toDigits (by decide) (by decide)

theorem sign_toDigits (n : Nat) : sign (Nat.toDigits 10 n) = (false, Nat.toDigits 10 n) := by
  rw [sign]
  · intro rest h
    have hplus : '+' ∈ Nat.toDigits 10 n := h ▸ List.mem_cons_self
    cases isDigit_of_mem_toDigits hplus
  · intro rest h
    have hminus : '-' ∈ Nat.toDigits 10 n := h ▸ List.mem_cons_self
    cases isDigit_of_mem_toDigits hminus

theorem afterFloat?_toDigits (n : Nat) : afterFloat? (Nat.toDigits 10 n) = none := by
  have hdecimal : decimalFloat? (Nat.toDigits 10 n) = none := by
    simp only [decimalFloat?, sign_toDigits, decimal?_toDigits, decimals?, exponent?,
      Option.bind_eq_bind, Option.bind_some]
    exact if_pos (by decide)
  have hspecial : specialFloat? (Nat.toDigits 10 n) = none := by
    rw [specialFloat?, sign_toDigits]
    dsimp only
    split
    · next h =>
      have hletter : 'i' ∈ Nat.toDigits 10 n := h ▸ List.mem_cons_self
      cases isDigit_of_mem_toDigits hletter
    · next h =>
      have hletter : 'n' ∈ Nat.toDigits 10 n := h ▸ List.mem_cons_self
      cases isDigit_of_mem_toDigits hletter
    · rfl
  rw [afterFloat?, hdecimal, hspecial]
  rfl

theorem integer?_toDigits {n : Nat} (hn : IsInt64 n) :
    integer? (Nat.toDigits 10 n) = some (↑n, []) := by
  have hmark : ∀ c, isDigit c = false → ∀ rest, Nat.toDigits 10 n ≠ '0' :: c :: rest := by
    rintro c hc rest h
    have hmem : c ∈ Nat.toDigits 10 n := h ▸ List.mem_cons_of_mem _ List.mem_cons_self
    rw [isDigit_of_mem_toDigits hmem] at hc
    cases hc
  have hfits : fits? (n : Int) = some ↑n := if_pos hn
  rw [integer?]
  · simp only [sign_toDigits, decimal?_toDigits, radixValue_toDigits, Option.bind_eq_bind,
      Option.bind_some, Bool.false_eq_true, if_false, hfits]
  · exact hmark 'x' (by decide)
  · exact hmark 'o' (by decide)
  · exact hmark 'b' (by decide)

end Number

/-- **A natural number** is read back from its digits: they are no date, no time and no
floating-point number. -/
theorem leaf?_toDigits {n : Nat} (hn : IsInt64 n) :
    leaf? (Nat.toDigits 10 n) = some (.integer n, []) := by
  obtain ⟨c, digits, hdigits⟩ :=
    List.exists_cons_of_ne_nil (Nat.toDigits_ne_nil (n := n) (b := 10))
  have hc : isDigit c = true := Number.isDigit_of_mem_toDigits (hdigits ▸ List.mem_cons_self)
  have hne : ∀ d, isDigit d = false → c ≠ d := by
    rintro d hd rfl
    rw [hc] at hd
    cases hd
  have hquoted : Quoted.any? (Nat.toDigits 10 n) = none := by
    rw [hdigits]
    exact Quoted.any?_eq_none ⟨hne _ (by decide), hne _ (by decide)⟩ digits
  rw [leaf?, hquoted, plainValue?, Number.afterMoment?,
    Number.afterDate?_digits fun d => Number.isDigit_of_mem_toDigits,
    Number.afterTime?_digits fun d => Number.isDigit_of_mem_toDigits,
  Number.afterFloat?_toDigits, Number.integer?_toDigits hn]
  · rfl
  · exact fun rest h => hne 't' (by decide) (List.cons.inj (hdigits.symm.trans h)).1
  · exact fun rest h => hne 'f' (by decide) (List.cons.inj (hdigits.symm.trans h)).1

/-! ### Pairs -/

/-- A bare key, an equals sign, and the text of a value. -/
def pairLine (name : String) (value : List Char) : List Char :=
  name.toList ++ ' ' :: '=' :: ' ' :: value

/-- A pair whose value is not nested. -/
theorem isPair_pairLine {name : String} (hname : IsBare name) {c : Char} {cs : List Char}
    {item : Item} (hc : c ∉ [' ', '\t', '[', '\x7b']) (hleaf : leaf? (c :: cs) = some (item, [])) :
    IsPair (pairLine name (c :: cs)) name item := by
  simp only [List.mem_cons, List.not_mem_nil, or_false, not_or] at hc
  obtain ⟨hblank, htab, harray, htable⟩ := hc
  have hskip : skipSpace (' ' :: '=' :: ' ' :: c :: cs) = '=' :: ' ' :: c :: cs := rfl
  have hspace : skipSpace (' ' :: c :: cs) = c :: cs := by
    rw [skipSpace, List.dropWhile_cons_of_pos (by decide), List.dropWhile_cons_of_neg]
    simp [isSpace, hblank, htab]
  have hkey : key? (name.toList ++ ' ' :: '=' :: ' ' :: c :: cs) =
      some ([], name, skipSpace (' ' :: '=' :: ' ' :: c :: cs)) := by
    refine key?_of_isBare hname ?_ ?_
    · rintro d inner h
      rw [← (List.cons.inj h).1]
      decide
    · rw [hskip]
      rintro inner h
      cases h
  refine ⟨[], ?_, rfl⟩
  rw [pairLine, Draft.pair?, hkey, hskip]
  simp only [Option.bind_eq_bind, Option.bind_some, hspace, List.length_cons]
  rw [value?_eq_leaf? harray htable, hleaf]
  rfl

/-- **A truth value** behind its key. -/
theorem isPair_bool {name : String} (hname : IsBare name) (b : Bool) :
    IsPair (pairLine name (toString b).toList) name (.boolean b) := by
  cases b
  · exact isPair_pairLine hname (c := 'f') (by decide) rfl
  · exact isPair_pairLine hname (c := 't') (by decide) rfl

/-- **A natural number** behind its key. -/
theorem isPair_nat {name : String} (hname : IsBare name) {n : Nat} (hn : IsInt64 n) :
    IsPair (pairLine name (toString n).toList) name (.integer n) := by
  have hleaf := leaf?_toDigits hn
  have htext : (toString n).toList = Nat.toDigits 10 n := String.toList_ofList
  rw [htext]
  cases hdigits : Nat.toDigits 10 n with
  | nil => exact absurd hdigits Nat.toDigits_ne_nil
  | cons c digits =>
    rw [hdigits] at hleaf
    refine isPair_pairLine hname ?_ hleaf
    rintro hc
    have hdigit : isDigit c = true :=
      Number.isDigit_of_mem_toDigits (hdigits ▸ List.mem_cons_self)
    have hno : ∀ d ∈ [' ', '\t', '[', '\x7b'], isDigit d = false := by
      intro d hd
      fin_cases hd <;> rfl
    rw [hno c hc] at hdigit
    cases hdigit

/-- **A text** behind its key. -/
theorem isPair_basicString {name : String} (hname : IsBare name) (s : String) :
    IsPair (pairLine name (basicString s)) name (.string s) :=
  isPair_pairLine hname (by decide) (leaf?_basicString s)

end Toml

end Interception
