import Interception.Proofs.Json.Tokens

/-!
# The grammar of JSON

Which text is a document, and which one, is said here without a reader: by what a text may be made
of. `Json.Written` has one rule for each way to write something, and blanks may stand around any
document. The parts of an array and of an object have judgments of their own, which a `Json.Phrase`
tells apart, so that one induction goes over all of them.

| text | judgment | read by |
|---|---|---|
| one character of a string | `Quoted.Letter` | |
| the inside of a string | `Quoted.Letters` | `Quoted.units?_eq_some_iff` |
| code units that spell a text | `Quoted.Joins` | `Quoted.join?_eq_some_iff` |
| a number | `Json.Number` | `Json.Token.number?_of_number`, `Json.number_of_number?` |
| a document, items, members | `Json.Written` | `Json.Tree.read?_eq_some_iff_written` |

For strings and numbers this file also shows that the readers go by the grammar. Documents are the
business of `Interception.Proofs.Json.Reading`.
-/

namespace Interception

namespace Quoted

/-! ### Strings -/

/-- **One character of a string** stands for a code unit. -/
inductive Letter : List Char → Nat → Prop where
  /-- Most characters stand for themselves. -/
  | plain {c : Char} (hquote : c ≠ '"') (hback : c ≠ '\\') (hlarge : 32 ≤ c.toNat) :
      Letter [c] c.toNat
  /-- A letter behind a backslash. A reader also knows the slash, which a writer leaves as it is. -/
  | escape {letter c : Char} (h : (letter, c) ∈ ('/', '/') :: letters) :
      Letter ['\\', letter] c.toNat
  /-- A number behind a backslash, in four hexadecimal digits. -/
  | number {a b c d : Char} {n : Nat} (h : hexNumber? [a, b, c, d] = some n) :
      Letter ['\\', 'u', a, b, c, d] n

/-- **The inside of a string** stands for code units. -/
inductive Letters : List Char → List Nat → Prop where
  | nil : Letters [] []
  | cons {cs rest : List Char} {unit : Nat} {units : List Nat} (h : Letter cs unit)
      (hrest : Letters rest units) : Letters (cs ++ rest) (unit :: units)

/-- **Code units spell a text.** A unit is a character, or it is the first half of a character
beyond U+FFFF and the second half comes next. -/
inductive Joins : List Nat → List Char → Prop where
  | nil : Joins [] []
  | one (c : Char) {units : List Nat} {cs : List Char} (h : Joins units cs) :
      Joins (c.toNat :: units) (c :: cs)
  | pair (c : Char) {high low : Nat} {units : List Nat} {cs : List Char}
      (hhigh : 0xD800 ≤ high ∧ high < 0xDC00) (hlow : 0xDC00 ≤ low ∧ low < 0xE000)
      (hc : c.toNat = 0x10000 + (high - 0xD800) * 0x400 + (low - 0xDC00)) (h : Joins units cs) :
      Joins (high :: low :: units) (c :: cs)

end Quoted

namespace Json

/-! ### Numbers -/

/-- Decimal digits, at least one. -/
def IsDigits (cs : List Char) : Prop :=
  cs ≠ [] ∧ ∀ c ∈ cs, isDigit c = true

/-- **The digits before the point**: a zero alone, or digits of which the first is none. -/
def IsWhole (cs : List Char) : Prop :=
  IsDigits cs ∧ ∀ rest, cs = '0' :: rest → rest = []

/-- **The digits behind the point**, if there is one. -/
inductive Decimals : List Char → Option (List Char) → Prop where
  | none : Decimals [] none
  | point {digits : List Char} (h : IsDigits digits) : Decimals ('.' :: digits) (some digits)

/-- **The exponent**, if there is one. -/
inductive Exponent : List Char → Option Int → Prop where
  | none : Exponent [] none
  | unsigned {letter : Char} (hletter : letter = 'e' ∨ letter = 'E') {digits : List Char}
      (h : IsDigits digits) : Exponent (letter :: digits) (some (digitsValue digits))
  | plus {letter : Char} (hletter : letter = 'e' ∨ letter = 'E') {digits : List Char}
      (h : IsDigits digits) : Exponent (letter :: '+' :: digits) (some (digitsValue digits))
  | minus {letter : Char} (hletter : letter = 'e' ∨ letter = 'E') {digits : List Char}
      (h : IsDigits digits) : Exponent (letter :: '-' :: digits) (some (-digitsValue digits))

/-- The number that the parts of a text say. -/
def numeralOf (negative : Bool) (whole : List Char) (decimals : Option (List Char))
    (exponent : Option Int) : Numeral :=
  { negative
    mantissa := digitsValue (whole ++ decimals.getD [])
    exponent := exponent.getD 0 - (decimals.getD []).length
    integral := decimals.isNone && exponent.isNone }

/-- **A number** has a sign, digits, and perhaps decimals and an exponent. -/
inductive Number : List Char → Numeral → Prop where
  | plain {whole cs ds : List Char} {decimals : Option (List Char)} {exponent : Option Int}
      (hwhole : IsWhole whole) (hdecimals : Decimals cs decimals)
      (hexponent : Exponent ds exponent) :
      Number (whole ++ (cs ++ ds)) (numeralOf false whole decimals exponent)
  | minus {whole cs ds : List Char} {decimals : Option (List Char)} {exponent : Option Int}
      (hwhole : IsWhole whole) (hdecimals : Decimals cs decimals)
      (hexponent : Exponent ds exponent) :
      Number ('-' :: (whole ++ (cs ++ ds))) (numeralOf true whole decimals exponent)

/-! ### Documents -/

/-- **What a text may be**: a document, or the inside of an array or an object with at least one
part. -/
inductive Phrase where
  | document (tree : Tree)
  | items (trees : List Tree)
  | members (members : List (Option String × Tree))

/-- **What is written in a text.** -/
inductive Written : List Char → Phrase → Prop where
  /-- Blanks may stand before a document. -/
  | before {c : Char} (hc : isBlank c = true) {cs : List Char} {tree : Tree}
      (h : Written cs (.document tree)) : Written (c :: cs) (.document tree)
  /-- Blanks may stand behind a document. -/
  | behind {c : Char} (hc : isBlank c = true) {cs : List Char} {tree : Tree}
      (h : Written cs (.document tree)) : Written (cs ++ [c]) (.document tree)
  | null : Written "null".toList (.document .null)
  | bool (b : Bool) : Written (toString b).toList (.document (.bool b))
  | number {cs : List Char} {n : Numeral} (h : Number cs n) : Written cs (.document (.number n))
  /-- A string that spells a text. -/
  | string {cs : List Char} {units : List Nat} (h : Quoted.Letters cs units) {s : List Char}
      (hs : Quoted.Joins units s) :
      Written ('"' :: (cs ++ ['"'])) (.document (.string (some (String.ofList s))))
  /-- A string with half a surrogate pair alone. -/
  | broken {cs : List Char} {units : List Nat} (h : Quoted.Letters cs units)
      (hs : ∀ s, ¬Quoted.Joins units s) : Written ('"' :: (cs ++ ['"'])) (.document (.string none))
  | noItems {blanks : List Char} (h : ∀ c ∈ blanks, isBlank c = true) :
      Written ('[' :: (blanks ++ [']'])) (.document (.array []))
  | array {cs : List Char} {trees : List Tree} (h : Written cs (.items trees)) :
      Written ('[' :: (cs ++ [']'])) (.document (.array trees))
  | lastItem {cs : List Char} {tree : Tree} (h : Written cs (.document tree)) :
      Written cs (.items [tree])
  | nextItem {cs rest : List Char} {tree : Tree} {trees : List Tree}
      (h : Written cs (.document tree)) (hrest : Written rest (.items trees)) :
      Written (cs ++ ',' :: rest) (.items (tree :: trees))
  | noMembers {blanks : List Char} (h : ∀ c ∈ blanks, isBlank c = true) :
      Written ('\x7b' :: (blanks ++ ['\x7d'])) (.document (.object []))
  | object {cs : List Char} {members : List (Option String × Tree)}
      (h : Written cs (.members members)) :
      Written ('\x7b' :: (cs ++ ['\x7d'])) (.document (.object members))
  | lastMember {name cs : List Char} {s : Option String} {tree : Tree}
      (hname : Written name (.document (.string s))) (h : Written cs (.document tree)) :
      Written (name ++ ':' :: cs) (.members [(s, tree)])
  | nextMember {name cs rest : List Char} {s : Option String} {tree : Tree}
      {members : List (Option String × Tree)} (hname : Written name (.document (.string s)))
      (h : Written cs (.document tree)) (hrest : Written rest (.members members)) :
      Written (name ++ ':' :: cs ++ ',' :: rest) (.members ((s, tree) :: members))

end Json

namespace Quoted

/-! ### Strings are read by their grammar -/

theorem escaped?_eq_some_iff {letter c : Char} :
    escaped? letter = some c ↔ (letter, c) ∈ ('/', '/') :: letters := by
  constructor
  · intro h
    rw [escaped?] at h
    split_ifs at h with hself hb hf hn hr ht <;> cases h
    · obtain rfl | rfl | rfl := hself <;> decide
    · rw [hb]; decide
    · rw [hf]; decide
    · rw [hn]; decide
    · rw [hr]; decide
    · rw [ht]; decide
  · intro h
    fin_cases h <;> rfl

theorem units?_plain {c : Char} (hquote : c ≠ '"') (hback : c ≠ '\\') (hlarge : 32 ≤ c.toNat)
    (cs : List Char) :
    units? (c :: cs) = (units? cs).map fun (units, rest) => (c.toNat :: units, rest) := by
  rw [units?, if_neg (Nat.not_lt.mpr hlarge)]
  · cases units? cs <;> rfl
  · exact hquote
  · exact fun _ _ _ _ _ h _ => hback h
  · exact fun _ _ h _ => hback h

theorem units?_escape {letter c : Char} (h : (letter, c) ∈ ('/', '/') :: letters)
    (cs : List Char) :
    units? ('\\' :: letter :: cs) =
      (units? cs).map fun (units, rest) => (c.toNat :: units, rest) := by
  have hc := escaped?_eq_some_iff.mpr h
  have hletter : letter ≠ 'u' := by
    rintro rfl
    cases hc
  rw [units?]
  · simp only [hc, Option.bind_eq_bind, Option.bind_some]
    cases units? cs <;> rfl
  · exact fun _ _ _ _ _ h _ => hletter h

theorem units?_letter_append {cs : List Char} {unit : Nat} (h : Letter cs unit)
    (rest : List Char) :
    units? (cs ++ rest) = (units? rest).map fun (units, rest) => (unit :: units, rest) := by
  cases h with
  | plain hquote hback hlarge => exact units?_plain hquote hback hlarge rest
  | escape h => exact units?_escape h rest
  | number h =>
    simp only [List.cons_append, List.nil_append]
    rw [units?, h]
    cases units? rest <;> rfl

theorem units?_of_letters {cs : List Char} {units : List Nat} (h : Letters cs units)
    (rest : List Char) : units? (cs ++ '"' :: rest) = some (units, rest) := by
  induction h with
  | nil => rfl
  | cons h _ ih =>
    rw [List.append_assoc, units?_letter_append h, ih]
    rfl

/-- **The inside of a string** is what is read up to the closing mark. -/
theorem units?_eq_some_iff {cs rest : List Char} {units : List Nat} :
    units? cs = some (units, rest) ↔
      ∃ inner, cs = inner ++ '"' :: rest ∧ Letters inner units := by
  constructor
  · intro h
    fun_induction units? cs generalizing units rest with
    | case1 => cases h
    | case2 =>
      cases h
      exact ⟨[], rfl, .nil⟩
    | case3 a b c d cs ih =>
      simp only [Option.bind_eq_bind, Option.bind_eq_some_iff, Prod.exists, Option.some.injEq,
        Prod.mk.injEq] at h
      obtain ⟨n, hn, units', rest', hrest, rfl, rfl⟩ := h
      obtain ⟨inner, rfl, hinner⟩ := ih hrest
      exact ⟨_, rfl, .cons (.number hn) hinner⟩
    | case4 letter cs hnumber ih =>
      simp only [Option.bind_eq_bind, Option.bind_eq_some_iff, Prod.exists, Option.some.injEq,
        Prod.mk.injEq] at h
      obtain ⟨c, hc, units', rest', hrest, rfl, rfl⟩ := h
      obtain ⟨inner, rfl, hinner⟩ := ih hrest
      exact ⟨_, rfl, .cons (.escape (escaped?_eq_some_iff.mp hc)) hinner⟩
    | case5 => cases h
    | case6 c cs hquote hnumber hletter hlarge ih =>
      simp only [Option.bind_eq_bind, Option.bind_eq_some_iff, Prod.exists, Option.some.injEq,
        Prod.mk.injEq] at h
      obtain ⟨units', rest', hrest, rfl, rfl⟩ := h
      obtain ⟨inner, rfl, hinner⟩ := ih hrest
      -- a backslash with a character behind it is one of the escapes
      have hback : c ≠ '\\' := by
        rintro rfl
        cases inner with
        | nil => exact hletter '"' _ rfl rfl
        | cons e inner => exact hletter e _ rfl rfl
      exact ⟨_, rfl, .cons (.plain hquote hback (Nat.le_of_not_lt hlarge)) hinner⟩
  · rintro ⟨inner, rfl, h⟩
    exact units?_of_letters h rest

/-! ### Code units -/

theorem hexValue?_lt {c : Char} {n : Nat} (h : hexValue? c = some n) : n < 16 := by
  have hrange : ∀ {a b : Char}, a ≤ c ∧ c ≤ b → a.toNat ≤ c.toNat ∧ c.toNat ≤ b.toNat := id
  rw [hexValue?] at h
  split_ifs at h with hdigit hsmall hlarge <;> cases h
  · have hc := (hrange hdigit).2
    simp only [Char.reduceToNat] at hc ⊢
    omega
  · have hc := (hrange hsmall).2
    simp only [Char.reduceToNat] at hc ⊢
    omega
  · have hc := (hrange hlarge).2
    simp only [Char.reduceToNat] at hc ⊢
    omega

theorem hexNumber?_lt {a b c d : Char} {n : Nat} (h : hexNumber? [a, b, c, d] = some n) :
    n < 0x10000 := by
  simp only [hexNumber?, List.foldlM_cons, List.foldlM_nil, Option.bind_eq_bind,
    Option.bind_eq_some_iff, Option.map_eq_some_iff] at h
  obtain ⟨_, ⟨va, ha, rfl⟩, _, ⟨vb, hb, rfl⟩, _, ⟨vc, hc, rfl⟩, _, ⟨vd, hd, rfl⟩, h⟩ := h
  cases h
  have hva := hexValue?_lt ha
  have hvb := hexValue?_lt hb
  have hvc := hexValue?_lt hc
  have hvd := hexValue?_lt hd
  omega

theorem toNat_lt (c : Char) : c.toNat < 0x110000 := by
  have hvalid : c.toNat < 0xD800 ∨ 0xDFFF < c.toNat ∧ c.toNat < 0x110000 := c.valid
  omega

/-- Units are code points, or halves of surrogate pairs, which are smaller. -/
theorem Letters.lt {cs : List Char} {units : List Nat} (h : Letters cs units) :
    ∀ unit ∈ units, unit < 0x110000 := by
  induction h with
  | nil => exact fun _ h => absurd h List.not_mem_nil
  | cons h _ ih =>
    intro unit hunit
    obtain rfl | hunit := List.mem_cons.mp hunit
    · cases h with
      | plain => exact toNat_lt _
      | escape => exact toNat_lt _
      | number h => exact (hexNumber?_lt h).trans (by decide)
    · exact ih unit hunit

theorem toNat_ofNat {n : Nat} (h : n < 0xD800 ∨ 0xDFFF < n ∧ n < 0x110000) :
    (Char.ofNat n).toNat = n := by
  rw [Char.ofNat, dif_pos h]
  exact UInt32.toNat_ofNatLT

theorem Joins.one_of_not_surrogate {n : Nat} (hn : n < 0x110000)
    (hhigh : ¬isHighSurrogate n = true) (hlow : ¬isLowSurrogate n = true) {units : List Nat}
    {cs : List Char} (h : Joins units cs) : Joins (n :: units) (Char.ofNat n :: cs) := by
  rw [isHighSurrogate, decide_eq_true_iff] at hhigh
  rw [isLowSurrogate, decide_eq_true_iff] at hlow
  have hvalid : n < 0xD800 ∨ 0xDFFF < n ∧ n < 0x110000 := by omega
  have hone := Joins.one (Char.ofNat n) h
  rwa [toNat_ofNat hvalid] at hone

/-- No character is half of a surrogate pair. -/
theorem not_surrogate (c : Char) :
    isHighSurrogate c.toNat = false ∧ isLowSurrogate c.toNat = false := by
  have hvalid : c.toNat < 0xD800 ∨ 0xDFFF < c.toNat ∧ c.toNat < 0x110000 := c.valid
  rw [isHighSurrogate, isLowSurrogate, decide_eq_false_iff_not, decide_eq_false_iff_not]
  omega

theorem join?_cons_of_not_surrogate {n : Nat} (hhigh : isHighSurrogate n = false)
    (hlow : isLowSurrogate n = false) (units : List Nat) :
    join? (n :: units) = (join? units).map (Char.ofNat n :: ·) := by
  cases units with
  | nil => simp [join?, hhigh, hlow]
  | cons m units =>
    rw [join?, if_neg (by rw [hhigh]; decide), if_neg (by rw [hlow]; decide)]

theorem join?_of_joins {units : List Nat} {cs : List Char} (h : Joins units cs) :
    join? units = some cs := by
  induction h with
  | nil => rfl
  | one c _ ih =>
    obtain ⟨hhigh, hlow⟩ := not_surrogate c
    rw [join?_cons_of_not_surrogate hhigh hlow, ih, Char.ofNat_toNat]
    rfl
  | pair c hhigh hlow hc _ ih =>
    have hhigh' : isHighSurrogate _ = true := decide_eq_true hhigh
    have hlow' : isLowSurrogate _ = true := decide_eq_true hlow
    rw [join?, if_pos hhigh', if_pos hlow', ih, ← hc, Char.ofNat_toNat]
    rfl

/-- **Code units are put together** just when they spell a text. -/
theorem join?_eq_some_iff {units : List Nat} (hunits : ∀ unit ∈ units, unit < 0x110000)
    {cs : List Char} : join? units = some cs ↔ Joins units cs := by
  refine ⟨fun h => ?_, join?_of_joins⟩
  fun_induction join? units generalizing cs with
  | case1 =>
    cases h
    exact .nil
  | case2 => cases h
  | case3 n hn =>
    cases h
    simp only [Bool.or_eq_true, not_or] at hn
    exact .one_of_not_surrogate (hunits n List.mem_cons_self) hn.1 hn.2 .nil
  | case4 n m rest hhigh hlow ih =>
    rw [Option.map_eq_some_iff] at h
    obtain ⟨cs, hcs, rfl⟩ := h
    have hrest := ih (fun unit hunit => hunits unit (by simp [hunit])) hcs
    rw [isHighSurrogate, decide_eq_true_iff] at hhigh
    rw [isLowSurrogate, decide_eq_true_iff] at hlow
    exact .pair _ hhigh hlow (toNat_ofNat (by omega)) hrest
  | case5 => cases h
  | case6 => cases h
  | case7 n m rest hhigh hlow ih =>
    rw [Option.map_eq_some_iff] at h
    obtain ⟨cs, hcs, rfl⟩ := h
    have hrest := ih (fun unit hunit => hunits unit (List.mem_cons_of_mem n hunit)) hcs
    exact .one_of_not_surrogate (hunits n List.mem_cons_self) hhigh hlow hrest

end Quoted

namespace Json

namespace Token

/-! ### Numbers are read by their grammar -/

/-- A text that goes on with no digit. -/
def Stops (cs : List Char) : Prop :=
  cs.takeWhile isDigit = []

theorem takeWhile_of_isDigits {digits rest : List Char} (h : IsDigits digits) (hrest : Stops rest) :
    (digits ++ rest).takeWhile isDigit = digits ∧ (digits ++ rest).dropWhile isDigit = rest := by
  have hall := List.takeWhile_append_dropWhile (p := isDigit) (l := rest)
  rw [hrest, List.nil_append] at hall
  rw [List.takeWhile_append_of_pos h.2, List.dropWhile_append_of_pos h.2, hrest, hall,
    List.append_nil]
  exact ⟨rfl, rfl⟩

theorem whole?_of_isWhole {digits rest : List Char} (h : IsWhole digits) (hrest : Stops rest) :
    whole? (digits ++ rest) = some (digits, rest) := by
  obtain ⟨htake, hdrop⟩ := takeWhile_of_isDigits h.1 hrest
  rw [whole?, htake, hdrop]
  split
  · exact absurd rfl h.1.1
  · cases h.2 _ rfl
  · rfl

theorem exponent_stops {ds : List Char} {exponent : Option Int} (h : Exponent ds exponent) :
    Stops ds ∧ ∀ rest, ds ≠ '.' :: rest := by
  have hletter : ∀ {letter : Char} (rest : List Char), letter = 'e' ∨ letter = 'E' →
      Stops (letter :: rest) ∧ ∀ rest', letter :: rest ≠ '.' :: rest' := by
    intro letter rest h
    obtain rfl | rfl := h <;> exact ⟨rfl, fun _ h => absurd (List.cons.inj h).1 (by decide)⟩
  cases h with
  | none => exact ⟨rfl, fun _ h => by cases h⟩
  | unsigned h _ | plus h _ | minus h _ => exact hletter _ h

theorem decimals_stops {cs ds : List Char} {decimals : Option (List Char)}
    (h : Decimals cs decimals) (hds : Stops ds) : Stops (cs ++ ds) := by
  cases h with
  | none => exact hds
  | point _ => rfl

theorem decimals?_of_decimals {cs ds : List Char} {decimals : Option (List Char)}
    (h : Decimals cs decimals) (hds : Stops ds) (hpoint : ∀ rest, ds ≠ '.' :: rest) :
    decimals? (cs ++ ds) = some (decimals, ds) := by
  cases h with
  | none =>
    rw [List.nil_append, decimals?]
    exact fun rest h => hpoint rest h
  | @point digits h =>
    obtain ⟨htake, hdrop⟩ := takeWhile_of_isDigits h hds
    rw [List.cons_append, decimals?, htake, hdrop]
    split
    · exact absurd rfl h.1
    · rfl

theorem exponentDigits?_of_isDigits {negative : Bool} {digits : List Char} (h : IsDigits digits) :
    exponentDigits? negative digits =
      some (some (if negative then -(digitsValue digits : Int) else digitsValue digits), []) := by
  have hend : Stops [] := rfl
  obtain ⟨htake, hdrop⟩ := takeWhile_of_isDigits h hend
  rw [List.append_nil] at htake hdrop
  rw [exponentDigits?, htake, hdrop]
  split
  · exact absurd rfl h.1
  · rfl

theorem exponent?_of_exponent {ds : List Char} {exponent : Option Int}
    (h : Exponent ds exponent) : exponent? ds = some (exponent, []) := by
  cases h with
  | none => rfl
  | @unsigned letter hletter digits h =>
    have hsign : ∀ {mark : Char}, isDigit mark = false →
        ∀ rest, digits = mark :: rest → False := by
      intro mark hmark rest hdigits
      rw [h.2 mark (hdigits ▸ List.mem_cons_self)] at hmark
      cases hmark
    rw [exponent?_cons, if_pos hletter, signedExponent?, exponentDigits?_of_isDigits h]
    · rfl
    · exact hsign (by decide)
    · exact hsign (by decide)
  | plus hletter h =>
    rw [exponent?_cons, if_pos hletter, signedExponent?, exponentDigits?_of_isDigits h]
    rfl
  | minus hletter h =>
    rw [exponent?_cons, if_pos hletter, signedExponent?, exponentDigits?_of_isDigits h]
    rfl

theorem unsigned?_of_parts {whole cs ds : List Char} {decimals : Option (List Char)}
    {exponent : Option Int} (hwhole : IsWhole whole) (hdecimals : Decimals cs decimals)
    (hexponent : Exponent ds exponent) (negative : Bool) :
    unsigned? negative (whole ++ (cs ++ ds)) =
      some (numeralOf negative whole decimals exponent, []) := by
  obtain ⟨hds, hpoint⟩ := exponent_stops hexponent
  rw [unsigned?]
  simp only [whole?_of_isWhole hwhole (decimals_stops hdecimals hds),
    decimals?_of_decimals hdecimals hds hpoint, exponent?_of_exponent hexponent,
    Option.bind_eq_bind, Option.bind_some]
  rfl

/-- **A number** of the grammar is read. -/
theorem number?_of_number {cs : List Char} {n : Numeral} (h : Number cs n) :
    number? cs = some (n, []) := by
  cases h with
  | plain hwhole hdecimals hexponent =>
    rw [number?]
    · exact unsigned?_of_parts hwhole hdecimals hexponent false
    · intro rest h
      obtain ⟨c, inner, rfl⟩ := List.exists_cons_of_ne_nil hwhole.1.1
      cases hwhole.1.2 '-' ((List.cons.inj h).1 ▸ List.mem_cons_self)
  | minus hwhole hdecimals hexponent => exact unsigned?_of_parts hwhole hdecimals hexponent true

theorem isDigits_takeWhile {cs : List Char} (hne : cs.takeWhile isDigit ≠ []) :
    IsDigits (cs.takeWhile isDigit) :=
  ⟨hne, fun _ hc => List.mem_takeWhile_imp hc⟩

theorem isWhole_of_whole? {cs digits rest : List Char} (h : whole? cs = some (digits, rest)) :
    cs = digits ++ rest ∧ IsWhole digits := by
  have hall := List.takeWhile_append_dropWhile (p := isDigit) (l := cs)
  rw [whole?] at h
  split at h
  · cases h
  · cases h
  · next hne hzero =>
    cases h
    refine ⟨hall.symm, isDigits_takeWhile hne, fun rest hrest => ?_⟩
    cases rest with
    | nil => rfl
    | cons c rest => exact (hzero c rest hrest).elim

theorem decimals_of_decimals? {cs rest : List Char} {decimals : Option (List Char)}
    (h : decimals? cs = some (decimals, rest)) :
    ∃ t, cs = t ++ rest ∧ Decimals t decimals := by
  rw [decimals?.eq_def] at h
  split at h
  · next cs =>
    have hall := List.takeWhile_append_dropWhile (p := isDigit) (l := cs)
    split at h
    · cases h
    · next hne =>
      cases h
      exact ⟨_, congrArg ('.' :: ·) hall.symm, .point (isDigits_takeWhile hne)⟩
  · cases h
    exact ⟨[], rfl, .none⟩

theorem isDigits_of_exponentDigits? {negative : Bool} {cs rest : List Char}
    {exponent : Option Int} (h : exponentDigits? negative cs = some (exponent, rest)) :
    ∃ digits, cs = digits ++ rest ∧ IsDigits digits ∧
      exponent = some (if negative then -(digitsValue digits : Int) else digitsValue digits) := by
  have hall := List.takeWhile_append_dropWhile (p := isDigit) (l := cs)
  rw [exponentDigits?] at h
  split at h
  · cases h
  · next hne =>
    cases h
    exact ⟨_, hall.symm, isDigits_takeWhile hne, rfl⟩

theorem exponent_of_exponent? {cs rest : List Char} {exponent : Option Int}
    (h : exponent? cs = some (exponent, rest)) : ∃ t, cs = t ++ rest ∧ Exponent t exponent := by
  cases cs with
  | nil =>
    cases h
    exact ⟨[], rfl, .none⟩
  | cons letter cs =>
    rw [exponent?_cons] at h
    split at h
    · next hletter =>
      rw [signedExponent?.eq_def] at h
      split at h
      · obtain ⟨digits, rfl, hdigits, rfl⟩ := isDigits_of_exponentDigits? h
        exact ⟨_, rfl, .plus hletter hdigits⟩
      · obtain ⟨digits, rfl, hdigits, rfl⟩ := isDigits_of_exponentDigits? h
        exact ⟨_, rfl, .minus hletter hdigits⟩
      · obtain ⟨digits, rfl, hdigits, rfl⟩ := isDigits_of_exponentDigits? h
        exact ⟨_, rfl, .unsigned hletter hdigits⟩
    · cases h
      exact ⟨[], rfl, .none⟩

theorem parts_of_unsigned? {negative : Bool} {cs rest : List Char} {n : Numeral}
    (h : unsigned? negative cs = some (n, rest)) :
    ∃ whole t t' decimals exponent, cs = whole ++ (t ++ t') ++ rest ∧ IsWhole whole ∧
      Decimals t decimals ∧ Exponent t' exponent ∧
        n = numeralOf negative whole decimals exponent := by
  simp only [unsigned?, Option.bind_eq_bind, Option.bind_eq_some_iff, Prod.exists] at h
  obtain ⟨whole, cs₁, hwhole, decimals, cs₂, hdecimals, exponent, cs₃, hexponent, h⟩ := h
  cases h
  obtain ⟨rfl, hdigits⟩ := isWhole_of_whole? hwhole
  obtain ⟨t, rfl, ht⟩ := decimals_of_decimals? hdecimals
  obtain ⟨t', rfl, ht'⟩ := exponent_of_exponent? hexponent
  refine ⟨whole, t, t', decimals, exponent, ?_, hdigits, ht, ht', rfl⟩
  simp only [List.append_assoc]

/-- **What is read as a number** is one of the grammar. -/
theorem number_of_number? {cs rest : List Char} {n : Numeral} (h : number? cs = some (n, rest)) :
    ∃ t, cs = t ++ rest ∧ Number t n := by
  rw [number?.eq_def] at h
  split at h
  · obtain ⟨whole, t, t', decimals, exponent, rfl, hwhole, ht, ht', rfl⟩ := parts_of_unsigned? h
    exact ⟨_, rfl, .minus hwhole ht ht'⟩
  · obtain ⟨whole, t, t', decimals, exponent, rfl, hwhole, ht, ht', rfl⟩ := parts_of_unsigned? h
    exact ⟨_, rfl, .plain hwhole ht ht'⟩

end Token

end Json

end Interception
