import Interception.Proofs.Json.Tokens
import Mathlib.Data.List.Forall2

/-!
# Documents made of documents

A document made of others is read as one whose parts are read on their own. On the side of the
tokens this is a matter of more tokens behind a document (`Json.Tree.Stable`, by induction on the
steps that the readers may take), and of what stands between the parts of an array or an object.
On the side of the texts the parts are already known to keep their tokens.

Both sides meet in `Json.Spells`, which is what a reader goes by (`Json.read?_eq_some_iff`):

| text | theorem |
|---|---|
| an array of texts | `Json.spells_array` |
| an object of members | `Json.spells_object` |
| a name and a text | `Json.spellsMember` |
-/

namespace Interception

namespace Json

namespace Tree

/-- A document starts with a token, and not with the one that ends an array. -/
theorem exists_cons_of_readValue {limit : Nat} {tokens rest : List Token} {tree : Tree}
    (h : readValue limit tokens = some (tree, rest)) :
    ∃ token inner, tokens = token :: inner ∧ token ≠ .closeArray := by
  cases limit with
  | zero => cases h
  | succ limit =>
    cases tokens with
    | nil => cases h
    | cons token tokens =>
      refine ⟨token, tokens, rfl, ?_⟩
      rintro rfl
      cases h

theorem exists_cons_of_readItems {limit : Nat} {tokens rest : List Token} {items : List Tree}
    (h : readItems limit tokens = some (items, rest)) :
    ∃ token inner, tokens = token :: inner := by
  cases tokens with
  | nil =>
    cases limit with
    | zero => cases h
    | succ limit => cases limit <;> cases h
  | cons token tokens => exact ⟨token, tokens, rfl⟩

theorem exists_cons_of_readMembers {limit : Nat} {tokens rest : List Token}
    {members : List (Option String × Tree)}
    (h : readMembers limit tokens = some (members, rest)) :
    ∃ token inner, tokens = token :: inner := by
  cases tokens with
  | nil => cases limit <;> cases h
  | cons token tokens => exact ⟨token, tokens, rfl⟩

/-! ### More tokens behind a document -/

/-- **What is read in at most `limit` steps** is read the same with more tokens behind it, and with
more steps. -/
structure Stable (limit : Nat) : Prop where
  /-- Documents. -/
  value : ∀ {limit' : Nat} {tokens rest : List Token} {tree : Tree},
    readValue limit tokens = some (tree, rest) → limit ≤ limit' → ∀ more : List Token,
      readValue limit' (tokens ++ more) = some (tree, rest ++ more)
  /-- The items of an array. -/
  items : ∀ {limit' : Nat} {tokens rest : List Token} {items : List Tree},
    readItems limit tokens = some (items, rest) → limit ≤ limit' → ∀ more : List Token,
      readItems limit' (tokens ++ more) = some (items, rest ++ more)
  /-- The members of an object. -/
  members : ∀ {limit' : Nat} {tokens rest : List Token} {members : List (Option String × Tree)},
    readMembers limit tokens = some (members, rest) → limit ≤ limit' → ∀ more : List Token,
      readMembers limit' (tokens ++ more) = some (members, rest ++ more)

namespace Stable

variable {limit : Nat}

theorem zero : Stable 0 where
  value h := by cases h
  items h := by cases h
  members h := by cases h

theorem value_succ (stable : Stable limit) {limit' : Nat} {tokens rest : List Token} {tree : Tree}
    (h : readValue (limit + 1) tokens = some (tree, rest)) (hlimit : limit ≤ limit')
    (more : List Token) :
    readValue (limit' + 1) (tokens ++ more) = some (tree, rest ++ more) := by
  rw [readValue.eq_def] at h
  split at h
  · cases h
  · cases h
    rfl
  · cases h
    rfl
  · cases h
    rfl
  · cases h
    rfl
  · cases h
    rfl
  · next tokens hclose heq =>
    cases heq
    simp only [Option.bind_eq_bind, Option.bind_eq_some_iff, Prod.exists, Option.some.injEq,
      Prod.mk.injEq] at h
    obtain ⟨items, rest', hitems, rfl, rfl⟩ := h
    obtain ⟨first, inner, rfl⟩ := exists_cons_of_readItems hitems
    have hlonger := stable.items hitems hlimit more
    rw [List.cons_append] at hlonger
    rw [List.cons_append, List.cons_append, readValue]
    · simp only [hlonger, Option.bind_eq_bind, Option.bind_some]
    · exact fun rest h => hclose inner (by rw [(List.cons.inj h).1])
  · cases h
    rfl
  · next tokens hclose heq =>
    cases heq
    simp only [Option.bind_eq_bind, Option.bind_eq_some_iff, Prod.exists, Option.some.injEq,
      Prod.mk.injEq] at h
    obtain ⟨members, rest', hmembers, rfl, rfl⟩ := h
    obtain ⟨first, inner, rfl⟩ := exists_cons_of_readMembers hmembers
    have hlonger := stable.members hmembers hlimit more
    rw [List.cons_append] at hlonger
    rw [List.cons_append, List.cons_append, readValue]
    · simp only [hlonger, Option.bind_eq_bind, Option.bind_some]
    · exact fun rest h => hclose inner (by rw [(List.cons.inj h).1])
  · cases h

theorem items_succ (stable : Stable limit) {limit' : Nat} {tokens rest : List Token}
    {items : List Tree} (h : readItems (limit + 1) tokens = some (items, rest))
    (hlimit : limit ≤ limit') (more : List Token) :
    readItems (limit' + 1) (tokens ++ more) = some (items, rest ++ more) := by
  simp only [readItems, Option.bind_eq_bind, Option.bind_eq_some_iff, Prod.exists] at h
  obtain ⟨item, behind, hitem, h⟩ := h
  simp only [readItems, stable.value hitem hlimit more, Option.bind_eq_bind, Option.bind_some]
  split at h
  · cases h
    rfl
  · simp only [Option.bind_eq_some_iff, Prod.exists, Option.some.injEq, Prod.mk.injEq] at h
    obtain ⟨items', rest', hitems, rfl, rfl⟩ := h
    simp only [List.cons_append, stable.items hitems hlimit more, Option.bind_some]
  · cases h

theorem members_succ (stable : Stable limit) {limit' : Nat} {tokens rest : List Token}
    {members : List (Option String × Tree)}
    (h : readMembers (limit + 1) tokens = some (members, rest)) (hlimit : limit ≤ limit')
    (more : List Token) :
    readMembers (limit' + 1) (tokens ++ more) = some (members, rest ++ more) := by
  rw [readMembers.eq_def] at h
  split at h
  · next name tokens heq =>
    cases heq
    simp only [Option.bind_eq_bind, Option.bind_eq_some_iff, Prod.exists] at h
    obtain ⟨item, behind, hitem, h⟩ := h
    simp only [List.cons_append, readMembers, stable.value hitem hlimit more, Option.bind_eq_bind,
      Option.bind_some]
    split at h
    · cases h
      rfl
    · simp only [Option.bind_eq_some_iff, Prod.exists, Option.some.injEq, Prod.mk.injEq] at h
      obtain ⟨members', rest', hmembers, rfl, rfl⟩ := h
      simp only [List.cons_append, stable.members hmembers hlimit more, Option.bind_some]
    · cases h
  · cases h

theorem succ (stable : Stable limit) : Stable (limit + 1) where
  value h hlimit more := by
    obtain ⟨limit', rfl⟩ := Nat.exists_eq_add_of_lt hlimit
    exact stable.value_succ h (Nat.le_add_right _ _) more
  items h hlimit more := by
    obtain ⟨limit', rfl⟩ := Nat.exists_eq_add_of_lt hlimit
    exact stable.items_succ h (Nat.le_add_right _ _) more
  members h hlimit more := by
    obtain ⟨limit', rfl⟩ := Nat.exists_eq_add_of_lt hlimit
    exact stable.members_succ h (Nat.le_add_right _ _) more

theorem all (limit : Nat) : Stable limit := by
  induction limit with
  | zero => exact zero
  | succ limit ih => exact ih.succ

end Stable

/-! ### Tokens that make documents -/

/-- **Tokens that make a document**, whatever tokens come after them. -/
def Makes (tokens : List Token) (tree : Tree) : Prop :=
  ∀ limit more, tokens.length ≤ limit →
    readValue (limit + 1) (tokens ++ more) = some (tree, more)

theorem makes_of_ofTokens? {tokens : List Token} {tree : Tree} (h : ofTokens? tokens = some tree) :
    Makes tokens tree := by
  intro limit more hlimit
  rw [ofTokens?] at h
  split at h
  · next htree =>
    cases h
    exact (Stable.all _).value htree (Nat.succ_le_succ hlimit) more
  · cases h

theorem ofTokens?_of_makes {tokens : List Token} {tree : Tree} (h : Makes tokens tree) :
    ofTokens? tokens = some tree := by
  have hall := h tokens.length [] (Nat.le_refl _)
  rw [List.append_nil] at hall
  rw [ofTokens?, hall]

theorem exists_cons_of_makes {tokens : List Token} {tree : Tree} (h : Makes tokens tree) :
    ∃ token inner, tokens = token :: inner ∧ token ≠ .closeArray := by
  have hall := h tokens.length [] (Nat.le_refl _)
  rw [List.append_nil] at hall
  exact exists_cons_of_readValue hall

/-- A string is made by one token only. -/
theorem eq_of_makes_string {tokens : List Token} {s : Option String}
    (h : Makes tokens (.string s)) : tokens = [.string s] := by
  have hall := h tokens.length [] (Nat.le_refl _)
  rw [List.append_nil, readValue.eq_def] at hall
  split at hall
  · cases hall
  · cases hall
  · cases hall
  · cases hall
  · cases hall
    rfl
  · cases hall
  · simp only [Option.bind_eq_bind, Option.bind_eq_some_iff, Prod.exists, Option.some.injEq,
      Prod.mk.injEq] at hall
    obtain ⟨items, rest, -, h, -⟩ := hall
    cases h
  · cases hall
  · simp only [Option.bind_eq_bind, Option.bind_eq_some_iff, Prod.exists, Option.some.injEq,
      Prod.mk.injEq] at hall
    obtain ⟨members, rest, -, h, -⟩ := hall
    cases h
  · cases hall

/-! ### Arrays and objects -/

/-- The parts behind another one, each behind a comma, and a closing mark. -/
def behind {α : Type} (comma close : α) : List (List α) → List α
  | [] => [close]
  | part :: parts => comma :: (part ++ behind comma close parts)

/-- Parts between an opening and a closing mark, with commas between them. -/
def enclosed {α : Type} (opening comma close : α) : List (List α) → List α
  | [] => [opening, close]
  | part :: parts => opening :: (part ++ behind comma close parts)

theorem readItems_behind {part : List Token} {parts : List (List Token)} {tree : Tree}
    {trees : List Tree} (hpart : Makes part tree) (hparts : List.Forall₂ Makes parts trees)
    {limit : Nat} (more : List Token)
    (hlimit : (part ++ behind .comma .closeArray parts).length ≤ limit) :
    readItems (limit + 1) (part ++ behind .comma .closeArray parts ++ more) =
      some (tree :: trees, more) := by
  induction hparts generalizing part tree limit with
  | nil =>
    rw [List.length_append, behind, List.length_singleton] at hlimit
    obtain ⟨limit, rfl⟩ := Nat.exists_eq_add_of_le' (Nat.le_trans (Nat.le_add_left 1 _) hlimit)
    have hfirst := hpart limit (.closeArray :: more) (by omega)
    rw [behind, List.append_assoc, readItems]
    simp only [List.singleton_append, hfirst, Option.bind_eq_bind, Option.bind_some]
  | @cons next tree' parts trees hnext hparts ih =>
    rw [List.length_append, behind, List.length_cons] at hlimit
    obtain ⟨limit, rfl⟩ := Nat.exists_eq_add_of_le' (Nat.le_trans (Nat.le_add_left 1 _) hlimit)
    have hfirst := hpart limit
      (.comma :: (next ++ behind .comma .closeArray parts ++ more)) (by omega)
    have hrest := @ih next tree' hnext limit (by omega)
    rw [behind, List.append_assoc, readItems]
    simp only [List.cons_append, hfirst, hrest, Option.bind_eq_bind, Option.bind_some]

/-- Tokens that make a member. -/
def MakesMember (tokens : List Token) (member : Option String × Tree) : Prop :=
  ∃ value, tokens = .string member.1 :: .colon :: value ∧ Makes value member.2

theorem readMembers_behind {part : List Token} {parts : List (List Token)}
    {member : Option String × Tree} {members : List (Option String × Tree)}
    (hpart : MakesMember part member) (hparts : List.Forall₂ MakesMember parts members)
    {limit : Nat} (more : List Token)
    (hlimit : (part ++ behind .comma .closeObject parts).length ≤ limit) :
    readMembers (limit + 1) (part ++ behind .comma .closeObject parts ++ more) =
      some (member :: members, more) := by
  obtain ⟨value, rfl, hvalue⟩ := hpart
  induction hparts generalizing member value limit with
  | nil =>
    rw [List.length_append, behind, List.length_singleton] at hlimit
    obtain ⟨limit, rfl⟩ := Nat.exists_eq_add_of_le' (Nat.le_trans (Nat.le_add_left 1 _) hlimit)
    rw [List.length_cons, List.length_cons] at hlimit
    have hfirst := hvalue limit (.closeObject :: more) (by omega)
    rw [behind, List.append_assoc, List.cons_append, List.cons_append, readMembers]
    simp only [List.singleton_append, hfirst, Option.bind_eq_bind, Option.bind_some]
  | @cons next member' parts members hnext hparts ih =>
    obtain ⟨value', rfl, hvalue'⟩ := hnext
    simp only [List.length_append, behind, List.length_cons] at hlimit
    obtain ⟨limit, rfl⟩ := Nat.exists_eq_add_of_le' (Nat.le_trans (Nat.le_add_left 1 _) hlimit)
    have hshort : (.string member'.1 :: .colon :: value' ++
        behind .comma .closeObject parts).length ≤ limit := by
      simp only [List.length_append, List.length_cons]
      omega
    have hfirst := hvalue limit (.comma :: (.string member'.1 :: .colon :: value' ++
      behind .comma .closeObject parts ++ more)) (by omega)
    have hrest := @ih member' limit value' hvalue' hshort
    rw [behind, List.append_assoc, List.cons_append, List.cons_append, readMembers]
    simp only [List.cons_append] at hfirst hrest ⊢
    simp only [hfirst, hrest, Option.bind_eq_bind, Option.bind_some]

/-- **The documents of an array**, between brackets. -/
theorem makes_array {parts : List (List Token)} {trees : List Tree}
    (h : List.Forall₂ Makes parts trees) :
    Makes (enclosed .openArray .comma .closeArray parts) (.array trees) := by
  intro limit more hlimit
  cases h with
  | nil => rfl
  | @cons part tree parts trees hpart hparts =>
    rw [enclosed, List.length_cons] at hlimit
    obtain ⟨limit, rfl⟩ := Nat.exists_eq_add_of_le' (Nat.le_trans (Nat.le_add_left 1 _) hlimit)
    have hitems := readItems_behind hpart hparts more (Nat.le_of_succ_le_succ hlimit)
    obtain ⟨first, inner, rfl, hclose⟩ := exists_cons_of_makes hpart
    simp only [List.cons_append] at hitems
    simp only [enclosed, List.cons_append]
    rw [readValue]
    · simp only [hitems, Option.bind_eq_bind, Option.bind_some]
    · exact fun rest h => hclose (List.cons.inj h).1

/-- **The members of an object**, between braces. -/
theorem makes_object {parts : List (List Token)} {members : List (Option String × Tree)}
    (h : List.Forall₂ MakesMember parts members) :
    Makes (enclosed .openObject .comma .closeObject parts) (.object members) := by
  intro limit more hlimit
  cases h with
  | nil => rfl
  | @cons part member parts members hpart hparts =>
    rw [enclosed, List.length_cons] at hlimit
    obtain ⟨limit, rfl⟩ := Nat.exists_eq_add_of_le' (Nat.le_trans (Nat.le_add_left 1 _) hlimit)
    have hmembers := readMembers_behind hpart hparts more (Nat.le_of_succ_le_succ hlimit)
    obtain ⟨value, rfl, hvalue⟩ := hpart
    simp only [List.cons_append] at hmembers
    simp only [enclosed, List.cons_append]
    rw [readValue]
    · simp only [hmembers, Option.bind_eq_bind, Option.bind_some]
    · exact fun rest h => by cases h

end Tree

namespace Token

/-- The tokens of parts behind another one. The text starts with a separator, and so may itself
stand behind a part. -/
theorem scans_behind {comma close : Char} {commaToken closeToken : Token}
    (hcomma : comma ∈ separators) (hclose : close ∈ separators)
    (hcommaToken : ∀ t, first? (comma :: t) = some (commaToken, t))
    (hcloseToken : ∀ t, first? (close :: t) = some (closeToken, t))
    {texts : List (List Char)} {parts : List (List Token)} (h : List.Forall₂ Scans texts parts) :
    Scans (Tree.behind comma close texts) (Tree.behind commaToken closeToken parts) ∧
      ∃ d t, Tree.behind comma close texts = d :: t ∧ d ∈ separators := by
  induction h with
  | nil =>
    have hend : Scans [close] [closeToken] :=
      .cons (not_blank_of_separator hclose) (hcloseToken []) .nil
    exact ⟨hend, close, [], rfl, hclose⟩
  | @cons text part texts parts htext htexts ih =>
    obtain ⟨htail, d, t, ht, hd⟩ := ih
    refine ⟨.cons (not_blank_of_separator hcomma) (hcommaToken _) ?_, comma, _, rfl, hcomma⟩
    rw [ht] at htail ⊢
    exact htext.append hd htail

/-- The tokens of parts between an opening and a closing mark. -/
theorem scans_enclosed {opening comma close : Char} {openToken commaToken closeToken : Token}
    (hopening : isBlank opening = false) (hcomma : comma ∈ separators) (hclose : close ∈ separators)
    (hopenToken : ∀ t, first? (opening :: t) = some (openToken, t))
    (hcommaToken : ∀ t, first? (comma :: t) = some (commaToken, t))
    (hcloseToken : ∀ t, first? (close :: t) = some (closeToken, t))
    {texts : List (List Char)} {parts : List (List Token)} (h : List.Forall₂ Scans texts parts) :
    Scans (Tree.enclosed opening comma close texts)
      (Tree.enclosed openToken commaToken closeToken parts) := by
  cases h with
  | nil =>
    exact .cons hopening (hopenToken _)
      (.cons (not_blank_of_separator hclose) (hcloseToken []) .nil)
  | @cons text part texts parts htext htexts =>
    obtain ⟨htail, d, t, ht, hd⟩ := scans_behind hcomma hclose hcommaToken hcloseToken htexts
    refine .cons hopening (hopenToken _) ?_
    rw [ht] at htail ⊢
    exact htext.append hd htail

end Token

/-! ### Texts -/

/-- **A text spells a document**: its tokens make it. -/
def Spells (text : List Char) (tree : Tree) : Prop :=
  ∃ tokens, Token.Scans text tokens ∧ Tree.Makes tokens tree

/-- **What a reader takes a text for** is the document that it spells. -/
theorem read?_eq_some_iff {text : List Char} {tree : Tree} :
    Tree.read? (String.ofList text) = some tree ↔ Spells text tree := by
  rw [Tree.read?, Token.scan?, String.toList_ofList, Option.bind_eq_some_iff]
  refine exists_congr fun tokens => and_congr_right fun _ => ?_
  exact ⟨Tree.makes_of_ofTokens?, Tree.ofTokens?_of_makes⟩

/-- A text spells a member of an object. -/
def SpellsMember (text : List Char) (member : Option String × Tree) : Prop :=
  ∃ tokens, Token.Scans text tokens ∧ Tree.MakesMember tokens member

/-- Lists related by a composition of relations have a list between them. -/
theorem exists_parts {α β γ : Type} {R : α → γ → Prop} {S : γ → β → Prop} {as : List α}
    {bs : List β} (h : List.Forall₂ (fun a b => ∃ c, R a c ∧ S c b) as bs) :
    ∃ cs, List.Forall₂ R as cs ∧ List.Forall₂ S cs bs := by
  induction h with
  | nil => exact ⟨[], .nil, .nil⟩
  | cons h _ ih =>
    obtain ⟨c, hR, hS⟩ := h
    obtain ⟨cs, hRs, hSs⟩ := ih
    exact ⟨c :: cs, .cons hR hRs, .cons hS hSs⟩

/-- **A text of an array** is made of the texts of its items. -/
theorem spells_array {texts : List (List Char)} {trees : List Tree}
    (h : List.Forall₂ Spells texts trees) :
    Spells (Tree.enclosed '[' ',' ']' texts) (.array trees) := by
  obtain ⟨parts, hscans, hmakes⟩ := exists_parts h
  refine ⟨Tree.enclosed .openArray .comma .closeArray parts, ?_, Tree.makes_array hmakes⟩
  exact Token.scans_enclosed (by decide) (by decide) (by decide) (fun _ => rfl) (fun _ => rfl)
    (fun _ => rfl) hscans

/-- **A text of an object** is made of the texts of its members. -/
theorem spells_object {texts : List (List Char)} {members : List (Option String × Tree)}
    (h : List.Forall₂ SpellsMember texts members) :
    Spells (Tree.enclosed '\x7b' ',' '\x7d' texts) (.object members) := by
  obtain ⟨parts, hscans, hmakes⟩ := exists_parts h
  refine ⟨Tree.enclosed .openObject .comma .closeObject parts, ?_, Tree.makes_object hmakes⟩
  exact Token.scans_enclosed (by decide) (by decide) (by decide) (fun _ => rfl) (fun _ => rfl)
    (fun _ => rfl) hscans

/-- A name, a colon, and the text of a document. -/
theorem spellsMember {nameText valueText : List Char} {name : Option String} {tree : Tree}
    (hname : Spells nameText (.string name)) (hvalue : Spells valueText tree) :
    SpellsMember (nameText ++ ':' :: valueText) (name, tree) := by
  obtain ⟨nameTokens, hnameScans, hnameMakes⟩ := hname
  obtain ⟨valueTokens, hvalueScans, hvalueMakes⟩ := hvalue
  obtain rfl := Tree.eq_of_makes_string hnameMakes
  have hcolon : Token.Scans (':' :: valueText) (.colon :: valueTokens) :=
    .cons (by decide) rfl hvalueScans
  exact ⟨_, hnameScans.append (by decide) hcolon, valueTokens, rfl, hvalueMakes⟩

/-! ### Members of any value -/

/-- **A member of some name**, whatever its value is: a text of the name, a colon, and a text of a
document, each with any blanks around it. -/
def IsExtra (text : List Char) (name : String) : Prop :=
  ∃ nameText valueText, text = nameText ++ ':' :: valueText ∧
    Tree.read? (String.ofList nameText) = some (.string (some name)) ∧
    (Tree.read? (String.ofList valueText)).isSome

theorem IsExtra.spellsMember {text : List Char} {name : String} (h : IsExtra text name) :
    ∃ tree, SpellsMember text (some name, tree) := by
  obtain ⟨nameText, valueText, rfl, hname, hvalue⟩ := h
  obtain ⟨tree, hvalue⟩ := Option.isSome_iff_exists.mp hvalue
  exact ⟨tree, Json.spellsMember (read?_eq_some_iff.mp hname) (read?_eq_some_iff.mp hvalue)⟩

end Json

end Interception
