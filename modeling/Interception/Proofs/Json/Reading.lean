import Interception.Proofs.Json.Writing

/-!
# Documents are read by their grammar

The reader of documents splits a text into tokens and then puts the tokens together. The grammar
knows no tokens, and it lets blanks stand around documents instead of between tokens. This file
shows that the two agree on every text (`Json.Tree.read?_eq_some_iff_written`): what the grammar
writes is read as what it is, and nothing else is read.

* **What is written is read.** Every rule of the grammar leads from texts that spell documents to
  one that spells a document, by what is known of arrays, objects and blanks (`Json.Phrase.IsRead`,
  `Json.Written.isRead`).
* **What is read is written.** A text that has tokens is cut into their words, with blanks before
  each (`Json.Token.Lexed`). Whatever the reader makes of the first tokens then goes back to a first
  part of the text (`Json.Tree.Sound`, by induction on the steps that the reader may take).

How deep documents are nested does not matter on either side.
-/

namespace Interception

namespace Json

/-! ### What is written is read -/

theorem Spells.before {c : Char} (hc : isBlank c = true) {cs : List Char} {tree : Tree}
    (h : Spells cs tree) : Spells (c :: cs) tree := by
  obtain ⟨tokens, hscans, hmakes⟩ := h
  exact ⟨tokens, hscans.before hc, hmakes⟩

theorem Spells.behind {c : Char} (hc : isBlank c = true) {cs : List Char} {tree : Tree}
    (h : Spells cs tree) : Spells (cs ++ [c]) tree := by
  obtain ⟨tokens, hscans, hmakes⟩ := h
  exact ⟨tokens, hscans.behind hc, hmakes⟩

theorem scans_blanks {blanks cs : List Char} (h : ∀ c ∈ blanks, isBlank c = true)
    {tokens : List Token} (hcs : Token.Scans cs tokens) : Token.Scans (blanks ++ cs) tokens := by
  induction blanks with
  | nil => exact hcs
  | cons c blanks ih =>
    exact (ih fun d hd => h d (List.mem_cons_of_mem c hd)).before (h c List.mem_cons_self)

/-- Nothing but blanks between an opening and a closing mark. -/
theorem scans_empty {opening close : Char} {openToken closeToken : Token}
    (hopening : isBlank opening = false) (hclose : isBlank close = false)
    (hopenToken : ∀ t, Token.first? (opening :: t) = some (openToken, t))
    (hcloseToken : ∀ t, Token.first? (close :: t) = some (closeToken, t)) {blanks : List Char}
    (h : ∀ c ∈ blanks, isBlank c = true) :
    Token.Scans (opening :: (blanks ++ [close])) [openToken, closeToken] := by
  have hend : Token.Scans [close] [closeToken] := .cons hclose (hcloseToken []) .nil
  exact .cons hopening (hopenToken _) (scans_blanks h hend)

theorem spells_noItems {blanks : List Char} (h : ∀ c ∈ blanks, isBlank c = true) :
    Spells ('[' :: (blanks ++ [']'])) (.array []) :=
  ⟨_, scans_empty (by decide) (by decide) (fun _ => rfl) (fun _ => rfl) h, fun _ _ _ => rfl⟩

theorem spells_noMembers {blanks : List Char} (h : ∀ c ∈ blanks, isBlank c = true) :
    Spells ('\x7b' :: (blanks ++ ['\x7d'])) (.object []) :=
  ⟨_, scans_empty (by decide) (by decide) (fun _ => rfl) (fun _ => rfl) h, fun _ _ _ => rfl⟩

/-- **What reading a phrase comes to.** A document is spelled. Of items and members, each is, and
the text is made of them as an array or an object is. -/
def Phrase.IsRead (text : List Char) : Phrase → Prop
  | .document tree => Spells text tree
  | .items trees =>
    ∃ first texts, text ++ [']'] = first ++ Tree.behind ',' ']' texts ∧
      List.Forall₂ Spells (first :: texts) trees
  | .members list =>
    ∃ first texts, text ++ ['\x7d'] = first ++ Tree.behind ',' '\x7d' texts ∧
      List.Forall₂ SpellsMember (first :: texts) list

/-- **What is written is read**, by one case for each rule of the grammar. -/
theorem Written.isRead {text : List Char} {phrase : Phrase} (h : Written text phrase) :
    phrase.IsRead text := by
  induction h with
  | before hc _ ih => exact Spells.before hc ih
  | behind hc _ ih => exact Spells.behind hc ih
  | null => exact spells_null
  | bool b => exact spells_bool b
  | number h => exact spells_number h
  | string h hs =>
    have hread := spells_letters h
    rw [Quoted.join?_of_joins hs] at hread
    exact hread
  | @broken cs units h hs =>
    have hnone : Quoted.join? units = none := by
      rw [Option.eq_none_iff_forall_ne_some]
      exact fun s hjoin => hs s ((Quoted.join?_eq_some_iff h.lt).mp hjoin)
    have hread := spells_letters h
    rw [hnone] at hread
    exact hread
  | noItems h => exact spells_noItems h
  | array _ ih =>
    obtain ⟨first, texts, htext, hspells⟩ := ih
    have hread := spells_array hspells
    rw [Tree.enclosed, ← htext] at hread
    exact hread
  | @lastItem cs tree _ ih => exact ⟨cs, [], rfl, .cons ih .nil⟩
  | @nextItem cs rest tree trees _ _ ih ihrest =>
    obtain ⟨first, texts, htext, hspells⟩ := ihrest
    refine ⟨cs, first :: texts, ?_, .cons ih hspells⟩
    rw [Tree.behind, ← htext, List.append_assoc, List.cons_append]
  | noMembers h => exact spells_noMembers h
  | object _ ih =>
    obtain ⟨first, texts, htext, hspells⟩ := ih
    have hread := spells_object hspells
    rw [Tree.enclosed, ← htext] at hread
    exact hread
  | lastMember _ _ ihname ih => exact ⟨_, [], rfl, .cons (spellsMember ihname ih) .nil⟩
  | nextMember _ _ _ ihname ih ihrest =>
    obtain ⟨first, texts, htext, hspells⟩ := ihrest
    refine ⟨_, first :: texts, ?_, .cons (spellsMember ihname ih) hspells⟩
    rw [Tree.behind, ← htext, List.append_assoc, List.cons_append]

/-! ### What is read is written -/

/-- Blanks before a document. -/
theorem Written.blanks {blanks : List Char} (h : ∀ c ∈ blanks, isBlank c = true) {cs : List Char}
    {tree : Tree} (hcs : Written cs (.document tree)) :
    Written (blanks ++ cs) (.document tree) := by
  induction blanks with
  | nil => exact hcs
  | cons c blanks ih =>
    exact .before (h c List.mem_cons_self) (ih fun d hd => h d (List.mem_cons_of_mem c hd))

/-- Blanks behind a document. -/
theorem Written.append_blanks {cs blanks : List Char} {tree : Tree}
    (hcs : Written cs (.document tree)) (h : ∀ c ∈ blanks, isBlank c = true) :
    Written (cs ++ blanks) (.document tree) := by
  induction blanks generalizing cs with
  | nil => rwa [List.append_nil]
  | cons c blanks ih =>
    have hnext := ih (.behind (h c List.mem_cons_self) hcs)
      fun d hd => h d (List.mem_cons_of_mem c hd)
    rwa [List.append_assoc] at hnext

namespace Token

/-- **The word of a token.** Tokens that make a document alone are written as the document is. -/
def IsWord (word : List Char) : Token → Prop
  | .openArray => word = ['[']
  | .closeArray => word = [']']
  | .openObject => word = ['\x7b']
  | .closeObject => word = ['\x7d']
  | .comma => word = [',']
  | .colon => word = [':']
  | .null => Written word (.document .null)
  | .bool b => Written word (.document (.bool b))
  | .number n => Written word (.document (.number n))
  | .string s => Written word (.document (.string s))

/-- **A text is made of the words of tokens**, with blanks before each and at the end. -/
inductive Lexed : List Char → List Token → Prop where
  | nil {blanks : List Char} (h : ∀ c ∈ blanks, isBlank c = true) : Lexed blanks []
  | cons {blanks word rest : List Char} {token : Token} {tokens : List Token}
      (h : ∀ c ∈ blanks, isBlank c = true) (hword : IsWord word token) (hrest : Lexed rest tokens) :
      Lexed (blanks ++ (word ++ rest)) (token :: tokens)

theorem eq_of_word? {word cs rest : List Char} (h : word? word cs = some rest) :
    cs = word ++ rest := by
  rw [word?] at h
  split at h
  · next hword =>
    cases h
    obtain ⟨behind, rfl⟩ := List.isPrefixOf_iff_prefix.mp hword
    rw [List.drop_left]
  · cases h

theorem written_of_read? {cs rest : List Char} {s : Option String}
    (h : Quoted.read? cs = some (s, rest)) :
    ∃ word, '"' :: cs = word ++ rest ∧ Written word (.document (.string s)) := by
  rw [Quoted.read?, Option.map_eq_some_iff] at h
  obtain ⟨⟨units, rest'⟩, hunits, h⟩ := h
  obtain ⟨rfl, rfl⟩ := Prod.mk.inj h
  obtain ⟨inner, rfl, hinner⟩ := Quoted.units?_eq_some_iff.mp hunits
  refine ⟨'"' :: (inner ++ ['"']), by simp, ?_⟩
  cases hjoin : Quoted.join? units with
  | none =>
    refine .broken hinner fun s hs => ?_
    rw [Quoted.join?_of_joins hs] at hjoin
    cases hjoin
  | some s => exact .string hinner ((Quoted.join?_eq_some_iff hinner.lt).mp hjoin)

/-- **The first token** of a text has its word there. -/
theorem exists_word_of_first? {cs rest : List Char} {token : Token}
    (h : first? cs = some (token, rest)) : ∃ word, cs = word ++ rest ∧ IsWord word token := by
  rw [first?.eq_def] at h
  split at h
  · cases h
  · cases h
    exact ⟨_, List.singleton_append.symm, rfl⟩
  · cases h
    exact ⟨_, List.singleton_append.symm, rfl⟩
  · cases h
    exact ⟨_, List.singleton_append.symm, rfl⟩
  · cases h
    exact ⟨_, List.singleton_append.symm, rfl⟩
  · cases h
    exact ⟨_, List.singleton_append.symm, rfl⟩
  · cases h
    exact ⟨_, List.singleton_append.symm, rfl⟩
  · simp only [Option.map_eq_some_iff, Prod.exists] at h
    obtain ⟨s, rest', hs, h⟩ := h
    cases h
    exact written_of_read? hs
  · simp only [Option.map_eq_some_iff] at h
    obtain ⟨rest', hword, h⟩ := h
    cases h
    exact ⟨_, congrArg ('n' :: ·) (eq_of_word? hword), .null⟩
  · simp only [Option.map_eq_some_iff] at h
    obtain ⟨rest', hword, h⟩ := h
    cases h
    exact ⟨_, congrArg ('t' :: ·) (eq_of_word? hword), .bool true⟩
  · simp only [Option.map_eq_some_iff] at h
    obtain ⟨rest', hword, h⟩ := h
    cases h
    exact ⟨_, congrArg ('f' :: ·) (eq_of_word? hword), .bool false⟩
  · simp only [Option.map_eq_some_iff, Prod.exists] at h
    obtain ⟨n, rest', hn, h⟩ := h
    cases h
    obtain ⟨word, hword, hnumber⟩ := number_of_number? hn
    exact ⟨word, hword, .number hnumber⟩

/-- **A text that has tokens** is made of their words. -/
theorem lexed_of_scanUpTo {limit : Nat} {cs : List Char} {tokens : List Token}
    (h : scanUpTo limit cs = some tokens) : Lexed cs tokens := by
  have hblank : ∀ {cs : List Char}, cs.dropWhile isBlank = [] → Lexed cs [] := fun hcs =>
    .nil (List.dropWhile_eq_nil_iff.mp hcs)
  fun_induction scanUpTo limit cs generalizing tokens with
  | case1 cs hnil =>
    cases h
    exact hblank (List.isEmpty_iff.mp hnil)
  | case2 => cases h
  | case3 limit cs hnil =>
    cases h
    exact hblank hnil
  | case4 limit cs c inner heq ih =>
    simp only [Option.bind_eq_bind, Option.bind_eq_some_iff, Prod.exists, Option.some.injEq] at h
    obtain ⟨token, rest, hfirst, tokens', hrest, rfl⟩ := h
    obtain ⟨word, hword, htoken⟩ := exists_word_of_first? hfirst
    have hcs := List.takeWhile_append_dropWhile (p := isBlank) (l := cs)
    rw [heq, hword] at hcs
    rw [← hcs]
    exact .cons (fun c hc => List.mem_takeWhile_imp hc) htoken (ih rest hrest)

end Token

namespace Tree

open Token

/-- **What is read in at most `limit` steps** from the tokens of a text goes back to a first part of
the text. The part of items and members ends in front of the closing mark. -/
structure Sound (limit : Nat) : Prop where
  /-- Documents. -/
  value : ∀ {tokens rest : List Token} {tree : Tree} {cs : List Char},
    readValue limit tokens = some (tree, rest) → Lexed cs tokens →
      ∃ text behind, cs = text ++ behind ∧ Written text (.document tree) ∧ Lexed behind rest
  /-- The items of an array. -/
  items : ∀ {tokens rest : List Token} {trees : List Tree} {cs : List Char},
    readItems limit tokens = some (trees, rest) → Lexed cs tokens →
      ∃ text behind, cs = text ++ ']' :: behind ∧ Written text (.items trees) ∧ Lexed behind rest
  /-- The members of an object. -/
  members : ∀ {tokens rest : List Token} {members : List (Option String × Tree)} {cs : List Char},
    readMembers limit tokens = some (members, rest) → Lexed cs tokens →
      ∃ text behind, cs = text ++ '\x7d' :: behind ∧ Written text (.members members) ∧
        Lexed behind rest

namespace Sound

variable {limit : Nat}

theorem zero : Sound 0 where
  value h := by cases h
  items h := by cases h
  members h := by cases h

/-- A document of one word. -/
theorem word {blanks word rest : List Char} {tokens : List Token} {tree : Tree}
    (h : ∀ c ∈ blanks, isBlank c = true) (hword : Written word (.document tree))
    (hrest : Lexed rest tokens) :
    ∃ text behind, blanks ++ (word ++ rest) = text ++ behind ∧ Written text (.document tree) ∧
      Lexed behind tokens :=
  ⟨blanks ++ word, rest, by rw [List.append_assoc], .blanks h hword, hrest⟩

/-- A document between two marks. -/
theorem between {blanks inner behind : List Char} {tokens : List Token} {tree : Tree}
    {opening close : Char} (h : ∀ c ∈ blanks, isBlank c = true)
    (hinner : Written (opening :: (inner ++ [close])) (.document tree))
    (hrest : Lexed behind tokens) :
    ∃ text rest, blanks ++ ([opening] ++ (inner ++ close :: behind)) = text ++ rest ∧
      Written text (.document tree) ∧ Lexed rest tokens :=
  ⟨blanks ++ opening :: (inner ++ [close]), behind, by simp, .blanks h hinner, hrest⟩

theorem value_succ (sound : Sound limit) {tokens rest : List Token} {tree : Tree} {cs : List Char}
    (h : readValue (limit + 1) tokens = some (tree, rest)) (hcs : Lexed cs tokens) :
    ∃ text behind, cs = text ++ behind ∧ Written text (.document tree) ∧ Lexed behind rest := by
  rw [readValue.eq_def] at h
  split at h
  · cases h
  · cases h
    obtain _ | ⟨hblanks, hword, hrest⟩ := hcs
    exact word hblanks hword hrest
  · cases h
    obtain _ | ⟨hblanks, hword, hrest⟩ := hcs
    exact word hblanks hword hrest
  · cases h
    obtain _ | ⟨hblanks, hword, hrest⟩ := hcs
    exact word hblanks hword hrest
  · cases h
    obtain _ | ⟨hblanks, hword, hrest⟩ := hcs
    exact word hblanks hword hrest
  · cases h
    obtain _ | ⟨hblanks, rfl, hrest⟩ := hcs
    obtain _ | ⟨hinner, rfl, hrest⟩ := hrest
    exact between hblanks (.noItems hinner) hrest
  · next tokens hclose heq =>
    cases heq
    simp only [Option.bind_eq_bind, Option.bind_eq_some_iff, Prod.exists, Option.some.injEq,
      Prod.mk.injEq] at h
    obtain ⟨items, rest', hitems, rfl, rfl⟩ := h
    obtain _ | ⟨hblanks, rfl, hrest⟩ := hcs
    obtain ⟨text, behind, rfl, htext, hbehind⟩ := sound.items hitems hrest
    exact between hblanks (.array htext) hbehind
  · cases h
    obtain _ | ⟨hblanks, rfl, hrest⟩ := hcs
    obtain _ | ⟨hinner, rfl, hrest⟩ := hrest
    exact between hblanks (.noMembers hinner) hrest
  · next tokens hclose heq =>
    cases heq
    simp only [Option.bind_eq_bind, Option.bind_eq_some_iff, Prod.exists, Option.some.injEq,
      Prod.mk.injEq] at h
    obtain ⟨members, rest', hmembers, rfl, rfl⟩ := h
    obtain _ | ⟨hblanks, rfl, hrest⟩ := hcs
    obtain ⟨text, behind, rfl, htext, hbehind⟩ := sound.members hmembers hrest
    exact between hblanks (.object htext) hbehind
  · cases h

theorem items_succ (sound : Sound limit) {tokens rest : List Token} {trees : List Tree}
    {cs : List Char} (h : readItems (limit + 1) tokens = some (trees, rest))
    (hcs : Lexed cs tokens) :
    ∃ text behind, cs = text ++ ']' :: behind ∧ Written text (.items trees) ∧
      Lexed behind rest := by
  simp only [readItems, Option.bind_eq_bind, Option.bind_eq_some_iff, Prod.exists] at h
  obtain ⟨item, rest', hitem, h⟩ := h
  obtain ⟨text, behind, rfl, htext, hbehind⟩ := sound.value hitem hcs
  split at h
  · cases h
    obtain _ | ⟨hblanks, rfl, hrest⟩ := hbehind
    exact ⟨_, _, (List.append_assoc ..).symm, .lastItem (htext.append_blanks hblanks), hrest⟩
  · simp only [Option.bind_eq_some_iff, Prod.exists, Option.some.injEq, Prod.mk.injEq] at h
    obtain ⟨items, rest'', hitems, rfl, rfl⟩ := h
    obtain _ | ⟨hblanks, rfl, hrest⟩ := hbehind
    obtain ⟨text', behind', rfl, htext', hbehind'⟩ := sound.items hitems hrest
    exact ⟨_, behind', by simp, .nextItem (htext.append_blanks hblanks) htext', hbehind'⟩
  · cases h

theorem members_succ (sound : Sound limit) {tokens rest : List Token}
    {members : List (Option String × Tree)} {cs : List Char}
    (h : readMembers (limit + 1) tokens = some (members, rest)) (hcs : Lexed cs tokens) :
    ∃ text behind, cs = text ++ '\x7d' :: behind ∧ Written text (.members members) ∧
      Lexed behind rest := by
  rw [readMembers.eq_def] at h
  split at h
  · next name tokens heq =>
    cases heq
    simp only [Option.bind_eq_bind, Option.bind_eq_some_iff, Prod.exists] at h
    obtain ⟨item, rest', hitem, h⟩ := h
    obtain _ | ⟨hblanks, hword, hcolon⟩ := hcs
    obtain _ | ⟨hblanks', rfl, hvalue⟩ := hcolon
    obtain ⟨text, behind, rfl, htext, hbehind⟩ := sound.value hitem hvalue
    have hname := (Written.blanks hblanks hword).append_blanks hblanks'
    split at h
    · cases h
      obtain _ | ⟨hblanks, rfl, hrest⟩ := hbehind
      exact ⟨_, _, by simp, .lastMember hname (htext.append_blanks hblanks), hrest⟩
    · simp only [Option.bind_eq_some_iff, Prod.exists, Option.some.injEq, Prod.mk.injEq] at h
      obtain ⟨members', rest'', hmembers, rfl, rfl⟩ := h
      obtain _ | ⟨hblanks, rfl, hrest⟩ := hbehind
      obtain ⟨text', behind', rfl, htext', hbehind'⟩ := sound.members hmembers hrest
      exact ⟨_, behind', by simp, .nextMember hname (htext.append_blanks hblanks) htext', hbehind'⟩
    · cases h
  · cases h

theorem all (limit : Nat) : Sound limit := by
  induction limit with
  | zero => exact zero
  | succ limit ih => exact ⟨ih.value_succ, ih.items_succ, ih.members_succ⟩

end Sound

/-- **What a reader takes a text for** is what the grammar says, and it takes no other texts. -/
theorem read?_eq_some_iff_written {s : String} {tree : Tree} :
    read? s = some tree ↔ Written s.toList (.document tree) := by
  constructor
  -- the document takes up all tokens, so there are only blanks behind the text it goes back to
  · intro h
    obtain ⟨tokens, hscan, htokens⟩ := Option.bind_eq_some_iff.mp h
    rw [ofTokens?] at htokens
    split at htokens
    · next htree =>
      cases htokens
      obtain ⟨text, behind, hs, htext, hbehind⟩ :=
        (Sound.all _).value htree (lexed_of_scanUpTo hscan)
      obtain hblanks | _ := hbehind
      rw [hs]
      exact htext.append_blanks hblanks
    · cases htokens
  · intro h
    have hread : Spells s.toList tree := h.isRead
    rw [← read?_eq_some_iff, String.ofList_toList] at hread
    exact hread

end Tree

end Json

end Interception
