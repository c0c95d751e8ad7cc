import Interception.Json.Tree
import Interception.Proofs.Written
import Mathlib.Data.List.TakeWhile
import Mathlib.Tactic.FinCases

/-!
# Tokens with more text behind them

A document inside another one is followed by a comma, a colon or a closing mark, or by blanks.
None of them can continue a number, so the tokens of the inner document are the same as when it
stands alone (`Json.Token.first?_append`). The marks are no blanks either, so the tokens of the
whole text are those of its parts in order (`Json.Token.Scans.append`).
-/

namespace Interception

namespace Quoted

/-! ### Strings -/

theorem units?_append {cs rest : List Char} {units : List Nat} (h : units? cs = some (units, rest))
    (t : List Char) : units? (cs ++ t) = some (units, rest ++ t) := by
  fun_induction units? cs generalizing units rest with
  | case1 => cases h
  | case2 =>
    cases h
    rfl
  | case3 a b c d cs ih =>
    simp only [Option.bind_eq_bind, Option.bind_eq_some_iff, Prod.exists, Option.some.injEq,
      Prod.mk.injEq] at h
    obtain ⟨n, hn, units', rest', hrest, rfl, rfl⟩ := h
    simp only [List.cons_append, units?, hn, ih hrest, Option.bind_eq_bind, Option.bind_some]
  | case4 letter cs hnumber ih =>
    simp only [Option.bind_eq_bind, Option.bind_eq_some_iff, Prod.exists, Option.some.injEq,
      Prod.mk.injEq] at h
    obtain ⟨c, hc, units', rest', hrest, rfl, rfl⟩ := h
    have hletter : letter ≠ 'u' := by
      rintro rfl
      cases hc
    rw [List.cons_append, List.cons_append, units?]
    · simp only [hc, ih hrest, Option.bind_eq_bind, Option.bind_some]
    · exact fun _ _ _ _ _ hu _ => hletter hu
  | case5 => cases h
  | case6 c cs hquote hnumber hletter hlarge ih =>
    simp only [Option.bind_eq_bind, Option.bind_eq_some_iff, Prod.exists, Option.some.injEq,
      Prod.mk.injEq] at h
    obtain ⟨units', rest', hrest, rfl, rfl⟩ := h
    -- a backslash with nothing behind it is followed by no closing mark
    have hback : c ≠ '\\' := by
      rintro rfl
      cases cs with
      | nil => cases hrest
      | cons e cs => exact hletter e cs rfl rfl
    rw [List.cons_append, units?, if_neg hlarge, ih hrest]
    · rfl
    · exact hquote
    · exact fun _ _ _ _ _ h _ => hback h
    · exact fun _ _ h _ => hback h

/-- **A string** is read the same with anything behind it. -/
theorem read?_append {cs rest : List Char} {s : Option String} (h : read? cs = some (s, rest))
    (t : List Char) : read? (cs ++ t) = some (s, rest ++ t) := by
  rw [read?] at h ⊢
  cases hunits : units? cs with
  | none => rw [hunits] at h; cases h
  | some p =>
    rw [hunits] at h
    cases h
    rw [units?_append hunits]
    rfl

end Quoted

namespace Json

namespace Token

/-! ### Tokens -/

/-- The marks that may stand behind a document inside another one. -/
def separators : List Char := [',', ':', ']', '\x7d']

/-- The characters that may stand behind any token: those marks, and the blanks. -/
def enders : List Char := [',', ':', ']', '\x7d', ' ', '\t', '\n', '\r']

section Separated

variable {d : Char}

theorem not_digit_of_ender (hd : d ∈ enders) : isDigit d = false := by
  fin_cases hd <;> rfl

theorem not_blank_of_separator (hd : d ∈ separators) : isBlank d = false := by
  fin_cases hd <;> rfl

theorem ender_of_separator (hd : d ∈ separators) : d ∈ enders :=
  List.mem_append_left [' ', '\t', '\n', '\r'] hd

theorem ender_of_blank (hd : isBlank d = true) : d ∈ enders := by
  simp only [isBlank, Bool.or_eq_true, decide_eq_true_eq] at hd
  obtain ((rfl | rfl) | rfl) | rfl := hd <;> decide

theorem whole?_append (hd : d ∈ enders) {cs digits rest : List Char}
    (h : whole? cs = some (digits, rest)) (t : List Char) :
    whole? (cs ++ d :: t) = some (digits, rest ++ d :: t) := by
  have hdigit := not_digit_of_ender hd
  rw [whole?, takeWhile_append_cons hdigit, dropWhile_append_cons hdigit]
  rw [whole?] at h
  split at h
  · cases h
  · cases h
  · cases h
    rfl

theorem decimals?_append (hd : d ∈ enders) {cs rest : List Char}
    {decimals : Option (List Char)} (h : decimals? cs = some (decimals, rest)) (t : List Char) :
    decimals? (cs ++ d :: t) = some (decimals, rest ++ d :: t) := by
  have hdigit := not_digit_of_ender hd
  cases cs with
  | nil =>
    cases h
    have hpoint : d ≠ '.' := by
      fin_cases hd <;> decide
    rw [List.nil_append, decimals?]
    exact fun rest h => hpoint (List.cons.inj h).1
  | cons c cs =>
    by_cases hc : c = '.'
    · subst hc
      rw [decimals?] at h
      rw [List.cons_append, decimals?, takeWhile_append_cons hdigit, dropWhile_append_cons hdigit]
      split at h
      · cases h
      · cases h
        rfl
    · have hnone : ∀ cs, decimals? (c :: cs) = some (none, c :: cs) := by
        intro cs
        rw [decimals?]
        exact fun rest h => hc (List.cons.inj h).1
      rw [hnone] at h
      cases h
      exact hnone _

theorem exponentDigits?_append (hd : d ∈ enders) {negative : Bool} {cs rest : List Char}
    {exponent : Option Int} (h : exponentDigits? negative cs = some (exponent, rest))
    (t : List Char) :
    exponentDigits? negative (cs ++ d :: t) = some (exponent, rest ++ d :: t) := by
  have hdigit := not_digit_of_ender hd
  rw [exponentDigits?] at h
  rw [exponentDigits?, takeWhile_append_cons hdigit, dropWhile_append_cons hdigit]
  split at h
  · cases h
  · cases h
    rfl

/-- The digits of an exponent with an optional sign. -/
def signedExponent? : List Char → Option (Option Int × List Char)
  | '+' :: cs => exponentDigits? false cs
  | '-' :: cs => exponentDigits? true cs
  | cs => exponentDigits? false cs

theorem exponent?_cons (c : Char) (cs : List Char) :
    exponent? (c :: cs) =
      if c = 'e' ∨ c = 'E' then signedExponent? cs else some (none, c :: cs) :=
  rfl

theorem signedExponent?_append (hd : d ∈ enders) {cs rest : List Char}
    {exponent : Option Int} (h : signedExponent? cs = some (exponent, rest)) (t : List Char) :
    signedExponent? (cs ++ d :: t) = some (exponent, rest ++ d :: t) := by
  rw [signedExponent?.eq_def] at h
  split at h
  · exact exponentDigits?_append hd h t
  · exact exponentDigits?_append hd h t
  · next hplus hminus =>
    cases cs with
    | nil => cases h
    | cons c cs =>
      rw [List.cons_append, signedExponent?]
      · exact exponentDigits?_append hd h t
      · exact fun rest h => hplus cs (by rw [(List.cons.inj h).1])
      · exact fun rest h => hminus cs (by rw [(List.cons.inj h).1])

theorem exponent?_append (hd : d ∈ enders) {cs rest : List Char}
    {exponent : Option Int} (h : exponent? cs = some (exponent, rest)) (t : List Char) :
    exponent? (cs ++ d :: t) = some (exponent, rest ++ d :: t) := by
  cases cs with
  | nil =>
    cases h
    have hletter : ¬(d = 'e' ∨ d = 'E') := by
      fin_cases hd <;> decide
    exact if_neg hletter
  | cons c cs =>
    rw [exponent?_cons] at h
    rw [List.cons_append, exponent?_cons]
    split at h
    · next hc =>
      rw [if_pos hc]
      exact signedExponent?_append hd h t
    · next hc =>
      cases h
      exact if_neg hc

theorem unsigned?_append (hd : d ∈ enders) {negative : Bool} {cs rest : List Char}
    {n : Numeral} (h : unsigned? negative cs = some (n, rest)) (t : List Char) :
    unsigned? negative (cs ++ d :: t) = some (n, rest ++ d :: t) := by
  simp only [unsigned?, Option.bind_eq_bind, Option.bind_eq_some_iff, Prod.exists] at h
  obtain ⟨whole, cs₁, hwhole, decimals, cs₂, hdecimals, exponent, cs₃, hexponent, h⟩ := h
  cases h
  simp only [unsigned?, whole?_append hd hwhole, decimals?_append hd hdecimals,
    exponent?_append hd hexponent, Option.bind_eq_bind, Option.bind_some]

theorem number?_append (hd : d ∈ enders) {cs rest : List Char} {n : Numeral}
    (h : number? cs = some (n, rest)) (t : List Char) :
    number? (cs ++ d :: t) = some (n, rest ++ d :: t) := by
  rw [number?.eq_def] at h
  split at h
  · exact unsigned?_append hd h t
  · next hminus =>
    cases cs with
    | nil => cases h
    | cons c cs =>
      rw [List.cons_append, number?]
      · exact unsigned?_append hd h t
      · exact fun rest h => hminus cs (by rw [(List.cons.inj h).1])

theorem word?_append {word cs rest : List Char} (h : word? word cs = some rest) (t : List Char) :
    word? word (cs ++ t) = some (rest ++ t) := by
  rw [word?] at h
  split at h
  · next hword =>
    cases h
    obtain ⟨behind, rfl⟩ := List.isPrefixOf_iff_prefix.mp hword
    rw [word?, if_pos, List.append_assoc, List.drop_left, List.drop_left]
    rw [List.isPrefixOf_iff_prefix, List.append_assoc]
    exact List.prefix_append word (behind ++ t)
  · cases h

/-- **A token** is read the same with a character behind it that ends it, and more. -/
theorem first?_append (hd : d ∈ enders) {cs rest : List Char} {token : Token}
    (h : first? cs = some (token, rest)) (t : List Char) :
    first? (cs ++ d :: t) = some (token, rest ++ d :: t) := by
  rw [first?.eq_def] at h
  split at h
  · cases h
  · cases h
    rfl
  · cases h
    rfl
  · cases h
    rfl
  · cases h
    rfl
  · cases h
    rfl
  · cases h
    rfl
  · simp only [Option.map_eq_some_iff, Prod.exists] at h
    obtain ⟨s, rest', hs, h⟩ := h
    cases h
    simp only [List.cons_append, first?, Quoted.read?_append hs, Option.map_some]
  · simp only [Option.map_eq_some_iff] at h
    obtain ⟨rest', hword, h⟩ := h
    cases h
    simp only [List.cons_append, first?, word?_append hword, Option.map_some]
  · simp only [Option.map_eq_some_iff] at h
    obtain ⟨rest', hword, h⟩ := h
    cases h
    simp only [List.cons_append, first?, word?_append hword, Option.map_some]
  · simp only [Option.map_eq_some_iff] at h
    obtain ⟨rest', hword, h⟩ := h
    cases h
    simp only [List.cons_append, first?, word?_append hword, Option.map_some]
  · -- a number: whatever its first character is, it is none of the others' first characters
    simp only [Option.map_eq_some_iff, Prod.exists] at h
    obtain ⟨n, rest', hn, h⟩ := h
    cases h
    have hnumber := number?_append hd hn t
    cases cs with
    | nil => cases hn
    | cons c cs =>
      have hother : ∀ {mark : Char}, (∀ inner, c :: cs = mark :: inner → False) →
          ∀ inner, c :: (cs ++ d :: t) = mark :: inner → False := by
        intro mark hmark inner hinner
        exact hmark cs (by rw [(List.cons.inj hinner).1])
      rw [List.cons_append] at hnumber ⊢
      rw [first?]
      · rw [hnumber]
        rfl
      · exact fun h => absurd h (List.cons_ne_nil _ _)
      all_goals exact hother (by assumption)

end Separated

/-! ### Splitting texts -/

theorem scanUpTo_congr {cs cs' : List Char} (h : cs.dropWhile isBlank = cs'.dropWhile isBlank)
    (limit : Nat) : scanUpTo limit cs = scanUpTo limit cs' := by
  cases limit <;> rw [scanUpTo, scanUpTo, h]

theorem length_le_of_scanUpTo {limit : Nat} {cs : List Char} {tokens : List Token}
    (h : scanUpTo limit cs = some tokens) : tokens.length ≤ limit := by
  fun_induction scanUpTo limit cs generalizing tokens with
  | case1 =>
    cases h
    exact Nat.le_refl 0
  | case2 => cases h
  | case3 limit =>
    cases h
    exact Nat.zero_le _
  | case4 limit cs c inner heq ih =>
    simp only [Option.bind_eq_bind, Option.bind_eq_some_iff, Prod.exists, Option.some.injEq] at h
    obtain ⟨token, rest, hfirst, tokens', hrest, rfl⟩ := h
    exact Nat.succ_le_succ (ih rest hrest)

theorem scanUpTo_of_dropWhile_eq_nil {cs : List Char} (h : cs.dropWhile isBlank = [])
    (limit : Nat) : scanUpTo limit cs = some [] := by
  cases limit <;> rw [scanUpTo, h]
  rfl

theorem scanUpTo_of_dropWhile_eq_cons {cs inner rest : List Char} {c : Char} {token : Token}
    (h : cs.dropWhile isBlank = c :: inner) (hfirst : first? (c :: inner) = some (token, rest))
    (limit : Nat) : scanUpTo (limit + 1) cs = (scanUpTo limit rest).map (token :: ·) := by
  rw [scanUpTo, h]
  simp only [hfirst, Option.bind_eq_bind, Option.bind_some]
  cases scanUpTo limit rest <;> rfl

/-- As many steps as there are tokens are enough. -/
theorem scanUpTo_of_length_le {limit limit' : Nat} {cs : List Char} {tokens : List Token}
    (h : scanUpTo limit cs = some tokens) (hlimit : tokens.length ≤ limit') :
    scanUpTo limit' cs = some tokens := by
  fun_induction scanUpTo limit cs generalizing limit' tokens with
  | case1 cs hblank =>
    cases h
    exact scanUpTo_of_dropWhile_eq_nil (List.isEmpty_iff.mp hblank) limit'
  | case2 => cases h
  | case3 limit cs hblank =>
    cases h
    exact scanUpTo_of_dropWhile_eq_nil hblank limit'
  | case4 limit cs c inner heq ih =>
    simp only [Option.bind_eq_bind, Option.bind_eq_some_iff, Prod.exists, Option.some.injEq] at h
    obtain ⟨token, rest, hfirst, tokens', hrest, rfl⟩ := h
    obtain ⟨limit', rfl⟩ := Nat.exists_eq_add_of_lt hlimit
    rw [scanUpTo_of_dropWhile_eq_cons heq hfirst, ih rest hrest (Nat.le_add_right _ _)]
    rfl

/-- The induction is on the tokens of the first text. Behind its last one there may be blanks, and
they are skipped in front of the separator as they were at the end. -/
theorem scanUpTo_append {d : Char} (hd : d ∈ separators) {limit limit' : Nat} {cs t : List Char}
    {tokens tokens' : List Token} (h : scanUpTo limit cs = some tokens)
    (h' : scanUpTo limit' (d :: t) = some tokens') :
    scanUpTo (limit' + limit) (cs ++ d :: t) = some (tokens ++ tokens') := by
  have hblank := @dropWhile_append_cons Char isBlank d (not_blank_of_separator hd)
  have hstop : (d :: t).dropWhile isBlank = d :: t :=
    List.dropWhile_cons_of_neg (by rw [not_blank_of_separator hd]; decide)
  have hpassed : ∀ cs : List Char, cs.dropWhile isBlank = [] →
      (cs ++ d :: t).dropWhile isBlank = (d :: t).dropWhile isBlank := by
    intro cs hcs
    rw [hblank, hcs, hstop, List.nil_append]
  have hmore : ∀ limit, scanUpTo (limit' + limit) (d :: t) = some tokens' := fun limit =>
    scanUpTo_of_length_le h' (Nat.le_add_right_of_le (length_le_of_scanUpTo h'))
  fun_induction scanUpTo limit cs generalizing tokens with
  | case1 cs hnil =>
    cases h
    exact (scanUpTo_congr (hpassed cs (List.isEmpty_iff.mp hnil)) _).trans (hmore _)
  | case2 => cases h
  | case3 limit cs hnil =>
    cases h
    exact (scanUpTo_congr (hpassed cs hnil) _).trans (hmore _)
  | case4 limit cs c inner heq ih =>
    simp only [Option.bind_eq_bind, Option.bind_eq_some_iff, Prod.exists, Option.some.injEq] at h
    obtain ⟨token, rest, hfirst, tokens', hrest, rfl⟩ := h
    have hcons : (cs ++ d :: t).dropWhile isBlank = c :: (inner ++ d :: t) := by
      rw [hblank, heq]
      rfl
    have hfirst' := first?_append (ender_of_separator hd) hfirst t
    rw [Nat.add_succ, scanUpTo_of_dropWhile_eq_cons hcons hfirst', ih rest hrest]
    rfl

/-- **A text has these tokens.** -/
def Scans (cs : List Char) (tokens : List Token) : Prop :=
  scanUpTo cs.length cs = some tokens

/-- **The tokens of two texts**, of which the second starts with a separator. -/
theorem Scans.append {d : Char} (hd : d ∈ separators) {cs t : List Char}
    {tokens tokens' : List Token} (h : Scans cs tokens) (h' : Scans (d :: t) tokens') :
    Scans (cs ++ d :: t) (tokens ++ tokens') := by
  rw [Scans, List.length_append, Nat.add_comm]
  exact scanUpTo_append hd h h'

/-- A mark in front of a text. -/
theorem Scans.cons {c : Char} (hc : isBlank c = false) {t : List Char} {token : Token}
    {tokens : List Token} (hfirst : first? (c :: t) = some (token, t)) (h : Scans t tokens) :
    Scans (c :: t) (token :: tokens) := by
  have hstop : (c :: t).dropWhile isBlank = c :: t :=
    List.dropWhile_cons_of_neg (by rw [hc]; decide)
  rw [Scans, List.length_cons, scanUpTo_of_dropWhile_eq_cons hstop hfirst, h]
  rfl

/-- A blank in front of a text. -/
theorem Scans.before {c : Char} (hc : isBlank c = true) {cs : List Char} {tokens : List Token}
    (h : Scans cs tokens) : Scans (c :: cs) tokens := by
  rw [Scans, scanUpTo_congr (List.dropWhile_cons_of_pos hc)]
  exact scanUpTo_of_length_le h (Nat.le_succ_of_le (length_le_of_scanUpTo h))

theorem scanUpTo_behind {c : Char} (hc : isBlank c = true) {limit : Nat} {cs : List Char}
    {tokens : List Token} (h : scanUpTo limit cs = some tokens) :
    scanUpTo limit (cs ++ [c]) = some tokens := by
  have hnil : ∀ {cs : List Char}, cs.dropWhile isBlank = [] →
      (cs ++ [c]).dropWhile isBlank = [] := by
    intro cs hcs
    rw [List.dropWhile_append_of_pos (List.dropWhile_eq_nil_iff.mp hcs)]
    exact List.dropWhile_cons_of_pos hc
  fun_induction scanUpTo limit cs generalizing tokens with
  | case1 cs hblank =>
    cases h
    exact scanUpTo_of_dropWhile_eq_nil (hnil (List.isEmpty_iff.mp hblank)) 0
  | case2 => cases h
  | case3 limit cs hblank =>
    cases h
    exact scanUpTo_of_dropWhile_eq_nil (hnil hblank) _
  | case4 limit cs d inner heq ih =>
    simp only [Option.bind_eq_bind, Option.bind_eq_some_iff, Prod.exists, Option.some.injEq] at h
    obtain ⟨token, rest, hfirst, tokens', hrest, rfl⟩ := h
    have hcons : (cs ++ [c]).dropWhile isBlank = d :: (inner ++ [c]) := by
      rw [List.dropWhile_append, heq]
      rfl
    rw [scanUpTo_of_dropWhile_eq_cons hcons (first?_append (ender_of_blank hc) hfirst []),
      ih rest hrest]
    rfl

/-- A blank behind a text. -/
theorem Scans.behind {c : Char} (hc : isBlank c = true) {cs : List Char} {tokens : List Token}
    (h : Scans cs tokens) : Scans (cs ++ [c]) tokens := by
  rw [Scans, List.length_append]
  exact scanUpTo_of_length_le (scanUpTo_behind hc h)
    (Nat.le_add_right_of_le (length_le_of_scanUpTo h))

theorem Scans.nil : Scans [] [] :=
  rfl

/-- A text that is one token. -/
theorem Scans.token {c : Char} (hc : isBlank c = false) {cs : List Char} {token : Token}
    (hfirst : first? (c :: cs) = some (token, [])) : Scans (c :: cs) [token] := by
  have hstop : (c :: cs).dropWhile isBlank = c :: cs :=
    List.dropWhile_cons_of_neg (by rw [hc]; decide)
  rw [Scans, List.length_cons, scanUpTo_of_dropWhile_eq_cons hstop hfirst,
    scanUpTo_of_dropWhile_eq_nil rfl]
  rfl

end Token

end Json

end Interception
