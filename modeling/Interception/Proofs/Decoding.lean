import Interception.Config.Json
import Interception.Config.Toml
import Interception.Proofs.Json.Writing
import Interception.Proofs.Layout

/-!
# Configurations are read back

A configuration can be kept as a TOML document or as a JSON object. The two formats have little
in common, and the two readers nothing; still, both get back what was written
(`Config.read_back`), and so they agree with each other.

For both formats the proof takes the same steps. The members of a document are read one by one,
each field as its value and everything else as something; under the name of a field there is then
its value, or nothing if the field was left out; and where there is nothing the reader takes the
value of `Config.standard`.

| what is read | TOML | JSON |
|---|---|---|
| a target | `Config.Table.Fits.exists_table` | `Key.exists_tree` |
| the targets | `Config.exists_advances_blocks` | `Config.exists_trees` |
| a field that may be missing | `Config.memberOr_of_lookup` | `Config.fieldOr_of_lookup` |
| the configuration | `Config.read?_tomlText` | `Config.readJson?_jsonText` |

Only one of the readers validates: a TOML document is refused where an object with the same
members is not.
-/

namespace Interception

/-! ### Names -/

theorem Key.Part.name_injective : Function.Injective Key.Part.name := by
  rintro (_ | _ | _) (_ | _ | _) h <;> first | rfl | exact absurd h (by decide)

theorem Config.Field.name_injective : Function.Injective Config.Field.name := by
  rintro (_ | _ | _ | _ | _) (_ | _ | _ | _ | _) h <;> first | rfl | exact absurd h (by decide)

theorem Key.Part.isBare_name (part : Key.Part) : Toml.IsBare part.name := by
  cases part <;> decide

theorem Config.Field.isBare_name (field : Config.Field) : Toml.IsBare field.name := by
  cases field <;> decide

/-! ### Documents of pairs and tables -/

/-- A table of a key is known by what stands behind the names of its parts. -/
theorem Key.keyOfItem?_of_lookup {key : Key} {members : Toml.Members}
    (h : ∀ part, members.lookup (Part.name part) = some (.string (key.part part))) :
    Config.keyOfItem? (.table .header members) = some key := by
  have htype : members.lookup "type_name" = some (.string key.typeName) := h .typeName
  have hoperation : members.lookup "operation" = some (.string key.operation) := h .operation
  have hlevel : members.lookup "kind" = some (.string key.level.word) := h .level
  simp only [Config.keyOfItem?, Toml.Item.members?, htype, hoperation, hlevel,
    Option.bind_eq_bind, Option.bind_some, Config.keyOfParts?, Config.stringOfItem?,
    Config.levelOfItem?, Level.ofWord?_word]

/-- **The table of a key** is read as the key, and is the next one of its array. -/
theorem Config.Table.Fits.exists_table {table : Table} (h : table.Fits) (key : Key)
    {draft : Toml.Draft} {before : List Toml.Members}
    (hbefore : draft.members.lookup Field.targets.name = Toml.allTables? before) :
    ∃ draft' members,
      Toml.Advances draft (Toml.linesText (table.lines key)) draft' ∧
      draft'.members.lookup Field.targets.name = Toml.allTables? (before ++ [members]) ∧
      (∀ name ≠ Field.targets.name, draft'.members.lookup name = draft.members.lookup name) ∧
      keyOfItem? (.table .header members) = some key := by
  obtain ⟨honce, hentries, hsections, hwhole⟩ := h
  obtain ⟨pairs, hpairs, hnames, hlookup⟩ := Entry.exists_members Key.Part.name_injective
    (fun part => Toml.Item.string (key.part part)) key.tomlLine
    (fun line member => Toml.IsPair line member.1 member.2) hentries
    (fun part _ => Toml.isPair_basicString part.isBare_name _) (fun _ _ h => h)
  rw [← hnames, List.nodup_append] at honce
  obtain ⟨hpairsOnce, hsectionsOnce, hapart⟩ := honce
  have hnew : ∀ lines ∈ table.sections, pairs.lookup lines.name = none :=
    fun lines hlines => lookup_eq_none_of_notMem fun hname =>
      hapart _ hname _ (List.mem_map_of_mem hlines) rfl
  obtain ⟨draft', members, hadvances, harray, hothers, hsame⟩ :=
    Toml.advances_table (Field.isBare_name .targets) hbefore ⟨hpairs, hpairsOnce⟩
      (fun lines hlines => (hsections lines hlines).2) hsectionsOnce hnew
  refine ⟨draft', members, hadvances, harray, hothers, Key.keyOfItem?_of_lookup fun part => ?_⟩
  have hnot : part.name ∉ table.sections.map Toml.Section.name := by
    rintro hmem
    obtain ⟨lines, hlines, hname⟩ := List.mem_map.mp hmem
    exact (hsections lines hlines).1 part hname.symm
  rw [hsame part.name hnot, hlookup, if_pos (hwhole part)]

namespace Config

/-- A value that may have been left out. -/
theorem memberOr_of_lookup {α : Type} {standard a : α} {read : Toml.Item → Option α}
    {name : String} {members : Toml.Members} {p : Prop} [Decidable p] {item : Toml.Item}
    (hlookup : members.lookup name = if p then some item else none) (hread : read item = some a) :
    memberOr standard read name members = some (if p then a else standard) := by
  rw [memberOr, hlookup]
  by_cases hp : p
  · simp only [if_pos hp, hread]
  · simp only [if_neg hp]

theorem natOfItem?_natCast (n : Nat) : natOfItem? (.integer n) = some n :=
  rfl

theorem memberOr_allTables? {members : Toml.Members} {tables : List Toml.Members} {keys : List Key}
    (hlookup : members.lookup "target" = Toml.allTables? tables)
    (hkeys : (tables.map (Toml.Item.table .header)).mapM keyOfItem? = some keys) :
    memberOr standard.targets targetsOfItem? "target" members = some keys := by
  rw [memberOr, hlookup]
  cases tables with
  | nil =>
    obtain rfl : [] = keys := Option.some.inj hkeys
    rfl
  | cons table tables => exact hkeys

theorem Block.name_ne_of_mem {blocks : List Block} (hfits : ∀ block ∈ blocks, block.Fits)
    {name : String} (hname : name ∈ blocks.filterMap Block.name?) (field : Field) :
    name ≠ field.name := by
  obtain ⟨block, hblock, hsome⟩ := List.mem_filterMap.mp hname
  cases block with
  | target table => cases hsome
  | other lines =>
    cases hsome
    exact ((hfits _ hblock).1 field).symm

/-- **The parts behind the pairs** fill the array of targets, and change nothing but that and what
stands behind the names of the other parts. The induction is on the parts; a part may stand behind
any others, whatever table is open there. -/
theorem exists_advances_blocks {keys : List Key} {blocks : List Block}
    (hfits : ∀ block ∈ blocks, block.Fits) (hcount : blocks.countP Block.isTarget = keys.length)
    (hnames : (blocks.filterMap Block.name?).Nodup) {draft : Toml.Draft}
    {before : List Toml.Members}
    (hbefore : draft.members.lookup Field.targets.name = Toml.allTables? before)
    (hnew : ∀ name ∈ blocks.filterMap Block.name?, draft.members.lookup name = none) :
    ∃ draft' tables, Toml.Advances draft (Toml.linesText (Block.lines keys blocks)) draft' ∧
      draft'.members.lookup Field.targets.name = Toml.allTables? (before ++ tables) ∧
      (tables.map (Toml.Item.table .header)).mapM keyOfItem? = some keys ∧
      ∀ name ≠ Field.targets.name, name ∉ blocks.filterMap Block.name? →
        draft'.members.lookup name = draft.members.lookup name := by
  induction blocks generalizing keys draft before with
  | nil =>
    obtain rfl := List.length_eq_zero_iff.mp hcount.symm
    exact ⟨draft, [], .refl _, by rw [List.append_nil]; exact hbefore, rfl, fun _ _ _ => rfl⟩
  | cons block blocks ih =>
    have hlater : ∀ block ∈ blocks, block.Fits :=
      fun later hmem => hfits later (List.mem_cons_of_mem block hmem)
    cases block with
    | target table =>
      rw [List.countP_cons_of_pos rfl] at hcount
      cases keys with
      | nil => cases hcount
      | cons key keys =>
        have htable : table.Fits := hfits _ List.mem_cons_self
        obtain ⟨between, members, hfirst, hnext, hsame, hkey⟩ := htable.exists_table key hbefore
        have hstill : ∀ name ∈ blocks.filterMap Block.name?,
            between.members.lookup name = none := by
          intro name hname
          rw [hsame name (Block.name_ne_of_mem hlater hname _)]
          exact hnew name hname
        obtain ⟨draft', tables, hrest, htargets, hkeys, hsame'⟩ :=
          ih hlater (Nat.succ.inj hcount) hnames hnext hstill
        refine ⟨draft', members :: tables, ?_, ?_, ?_, fun name hne hname => ?_⟩
        · rw [Block.lines, Toml.linesText_append]
          exact hfirst.trans hrest
        · rw [htargets, ← List.append_cons]
        · rw [List.map_cons, List.mapM_cons, hkey, hkeys]
          rfl
        · rw [hsame' name hne hname, hsame name hne]
    | other lines =>
      rw [List.countP_cons_of_neg Bool.false_ne_true] at hcount
      have hcons : (Block.other lines :: blocks).filterMap Block.name? =
          lines.name :: blocks.filterMap Block.name? := rfl
      rw [hcons, List.nodup_cons] at hnames
      obtain ⟨hforeign, hsection⟩ : lines.Fits Field.name .empty := hfits _ List.mem_cons_self
      obtain ⟨between, hfirst, hsame⟩ := hsection.advances_top (hnew _ List.mem_cons_self)
      have hnext : between.members.lookup Field.targets.name = Toml.allTables? before :=
        (hsame _ (hforeign .targets)).trans hbefore
      have hstill : ∀ name ∈ blocks.filterMap Block.name?,
          between.members.lookup name = none := by
        intro name hname
        rw [hsame name fun h => hnames.1 (h ▸ hname)]
        exact hnew name (List.mem_cons_of_mem _ hname)
      obtain ⟨draft', tables, hrest, htargets, hkeys, hsame'⟩ :=
        ih hlater hcount hnames.2 hnext hstill
      refine ⟨draft', tables, ?_, htargets, hkeys, fun name hne hname => ?_⟩
      · rw [Block.lines, Toml.linesText_cons]
        exact hfirst.trans hrest
      · rw [hcons, List.mem_cons, not_or] at hname
        exact (hsame' name hne hname.2).trans (hsame name hname.1)

/-- What a field that is a line is read as; the targets are no line. -/
def item (config : Config) : Field → Toml.Item
  | .enabledByDefault => .boolean config.enabledByDefault
  | .collectorCapacity => .integer config.collectorCapacity
  | .slowCallThreshold => .integer config.slowCallThreshold
  | .captureArguments => .boolean config.captureArguments
  | .targets => .array []

/-- **What a TOML document is read as**, before it is known to be valid. -/
theorem read?_tomlText {config : Config} (hcapacity : IsInt64 config.collectorCapacity)
    (hthreshold : IsInt64 config.slowCallThreshold) {layout : TomlLayout}
    (hlayout : layout.Suits config) :
    (Toml.read? (config.tomlText layout)).bind ofMembers? =
      some (config.keeping layout.entries) := by
  obtain ⟨honce, hentries, hblocks, hcount⟩ := hlayout
  have hlines : ∀ field, .own field ∈ layout.entries.filter (· ≠ .own .targets) →
      Toml.IsPair (config.tomlLine (.own field)) field.name (config.item field) := by
    rintro (_ | _ | _ | _ | _) hmem
    · exact Toml.isPair_bool (Field.isBare_name _) _
    · exact Toml.isPair_nat (Field.isBare_name _) hcapacity
    · exact Toml.isPair_nat (Field.isBare_name _) hthreshold
    · exact Toml.isPair_bool (Field.isBare_name _) _
    · simp at hmem
  obtain ⟨members, hpairs, hnames, hlookup⟩ := Entry.exists_members Field.name_injective
    config.item config.tomlLine (fun line member => Toml.IsPair line member.1 member.2)
    (fun entry hentry => hentries entry (List.mem_filter.mp hentry).1) hlines (fun _ _ h => h)
  obtain ⟨hentriesOnce, hblocksOnce, hapart⟩ := List.nodup_append.mp honce
  have hpairsOnce : (members.map Prod.fst).Nodup := by
    rw [hnames]
    exact (List.filter_sublist.map _).nodup hentriesOnce
  have htargets : members.lookup Field.targets.name = none := by
    rw [hlookup, if_neg]
    simp
  have hnew : ∀ name ∈ layout.blocks.filterMap Block.name?, members.lookup name = none := by
    intro name hname
    refine lookup_eq_none_of_notMem fun hmem => ?_
    rw [hnames] at hmem
    exact hapart name ((List.filter_sublist.map _).subset hmem) name hname rfl
  have hfront := @Toml.advances_pairs .top _ [] _ hpairs hpairsOnce
  have hbefore : (Toml.Place.top.draft members).members.lookup Field.targets.name =
      Toml.allTables? [] := htargets
  obtain ⟨draft, tables, hback, harray, hkeys, hsame⟩ :=
    exists_advances_blocks hblocks hcount hblocksOnce hbefore hnew
  have hread : Toml.read? (config.tomlText layout) = some draft.members := by
    rw [tomlText, Toml.linesText_append]
    exact Toml.read?_of_advances (hfront.trans hback)
  have hfield : ∀ field ≠ Field.targets, draft.members.lookup field.name =
      if .own field ∈ layout.entries then some (config.item field) else none := by
    intro field hfield
    have hmem : (Entry.own field ∈ layout.entries.filter (· ≠ .own .targets)) ↔
        .own field ∈ layout.entries := by
      simp [List.mem_filter, hfield]
    have hnot : field.name ∉ layout.blocks.filterMap Block.name? :=
      fun hname => Block.name_ne_of_mem hblocks hname field rfl
    rw [hsame field.name (fun h => hfield (Field.name_injective h)) hnot]
    exact (hlookup field).trans (by simp only [hmem])
  have henabled : memberOr standard.enabledByDefault boolOfItem? "enabled_by_default"
      draft.members = some _ :=
    memberOr_of_lookup (hfield .enabledByDefault (by decide)) rfl
  have hroom : memberOr standard.collectorCapacity natOfItem? "collector_capacity"
      draft.members = some _ :=
    memberOr_of_lookup (hfield .collectorCapacity (by decide)) (natOfItem?_natCast _)
  have hslow : memberOr standard.slowCallThreshold natOfItem? "slow_call_threshold_us"
      draft.members = some _ :=
    memberOr_of_lookup (hfield .slowCallThreshold (by decide)) (natOfItem?_natCast _)
  have hcapture : memberOr standard.captureArguments boolOfItem? "capture_arguments"
      draft.members = some _ :=
    memberOr_of_lookup (hfield .captureArguments (by decide)) rfl
  rw [hread, Option.bind_some]
  simp only [ofMembers?, henabled, hroom, hslow, hcapture, memberOr_allTables? harray hkeys,
    Option.bind_eq_bind, Option.bind_some, keeping]

end Config

/-! ### Objects -/

namespace Json

namespace Tree

/-- Members with names that spell texts. -/
def named (members : List (String × Tree)) : List (Option String × Tree) :=
  members.map fun member => (some member.1, member.2)

theorem namesSpell_named (members : List (String × Tree)) : namesSpell (named members) = true := by
  rw [namesSpell, named, List.all_map, List.all_eq_true]
  exact fun _ _ => rfl

/-- Where no name comes twice, looking one up is looking it up in a list. -/
theorem field_named {members : List (String × Tree)} (hnames : (members.map Prod.fst).Nodup)
    (name : String) :
    field name (named members) =
      match members.lookup name with
      | none => .missing
      | some tree => .once tree := by
  have hfilter : (named members).filter (fun member => member.1 = some name) =
      match members.lookup name with
      | none => []
      | some tree => [(some name, tree)] := by
    induction members with
    | nil => rfl
    | cons member members ih =>
      obtain ⟨first, tree⟩ := member
      rw [List.map_cons, List.nodup_cons] at hnames
      have hrest := ih hnames.2
      by_cases hfirst : name = first
      · subst hfirst
        rw [lookup_eq_none_of_notMem hnames.1] at hrest
        rw [List.lookup_cons_self, named, List.map_cons, List.filter_cons_of_pos (by simp)]
        exact congrArg _ hrest
      · have hne : (name == first) = false := beq_eq_false_iff_ne.mpr hfirst
        rw [List.lookup_cons, hne, named, List.map_cons,
          List.filter_cons_of_neg (by simpa using Ne.symm hfirst)]
        exact hrest
  rw [field, hfilter]
  cases members.lookup name <;> rfl

end Tree

end Json

/-- **The object of a key** is read as the key. -/
theorem Key.exists_tree (key : Key) {entries : List (Entry Key.Part)}
    (hentries : Json.Admissible Key.Part.name entries) (hwhole : ∀ part, .own part ∈ entries) :
    ∃ tree, Json.Spells (key.jsonChars entries) tree ∧ Key.ofTree? tree = some key := by
  obtain ⟨members, hspells, hnames, hlookup⟩ := Entry.exists_members Key.Part.name_injective
    (fun part => Json.Tree.string (some (key.part part))) key.jsonMember
    (fun text member => Json.SpellsMember text (some member.1, member.2)) hentries.fits
    (fun part _ => Json.spellsMember (Json.spells_string _) (Json.spells_string _))
    (fun _ _ h => h.spellsMember)
  have honce : (members.map Prod.fst).Nodup := by
    rw [hnames]
    exact hentries.once
  have hfield : ∀ part, Json.Tree.required? (Part.name part) (Json.Tree.named members) =
      some (.string (some (key.part part))) := by
    intro part
    rw [Json.Tree.required?, Json.Tree.field_named honce, hlookup, if_pos (hwhole part)]
  have htype : Json.Tree.required? "type_name" (Json.Tree.named members) = some _ :=
    hfield .typeName
  have hoperation : Json.Tree.required? "operation" (Json.Tree.named members) = some _ :=
    hfield .operation
  have hlevel : Json.Tree.required? "kind" (Json.Tree.named members) = some _ := hfield .level
  refine ⟨.object (Json.Tree.named members), Json.spells_object ?_, ?_⟩
  · rw [Json.Tree.named, List.forall₂_map_right_iff]
    exact hspells
  · simp only [Key.ofTree?, Json.Tree.namesSpell_named, if_true, htype, hoperation, hlevel,
      Option.bind_eq_bind, Option.bind_some, Key.ofParts?, Json.Tree.text?, Key.part,
      Level.ofTree?, Level.ofWord?_word]

/-- **The objects of keys** are read as the keys. -/
theorem Config.exists_trees {keys : List Key} {tables : List (List (Entry Key.Part))}
    (hlength : tables.length = keys.length)
    (htables : ∀ table ∈ tables, Json.Admissible Key.Part.name table)
    (hwhole : ∀ table ∈ tables, ∀ part, .own part ∈ table) :
    ∃ trees, List.Forall₂ Json.Spells (List.zipWith Key.jsonChars keys tables) trees ∧
      trees.mapM Key.ofTree? = some keys := by
  induction keys generalizing tables with
  | nil =>
    obtain rfl := List.length_eq_zero_iff.mp hlength
    exact ⟨[], .nil, rfl⟩
  | cons key keys ih =>
    cases tables with
    | nil => cases hlength
    | cons table tables =>
      obtain ⟨first, hfirst, hkey⟩ := key.exists_tree (htables table List.mem_cons_self)
        (hwhole table List.mem_cons_self)
      obtain ⟨trees, htrees, hkeys⟩ := ih (Nat.succ.inj hlength)
        (fun t h => htables t (List.mem_cons_of_mem table h))
        (fun t h => hwhole t (List.mem_cons_of_mem table h))
      refine ⟨first :: trees, .cons hfirst htrees, ?_⟩
      rw [List.mapM_cons, hkey, hkeys]
      rfl

namespace Config

/-- A value that may have been left out. -/
theorem fieldOr_of_lookup {α : Type} {standard a : α} {read : Json.Tree → Option α}
    {name : String} {members : List (String × Json.Tree)}
    (hnames : (members.map Prod.fst).Nodup) {p : Prop} [Decidable p] {tree : Json.Tree}
    (hlookup : members.lookup name = if p then some tree else none) (hread : read tree = some a) :
    fieldOr standard read (Json.Tree.field name (Json.Tree.named members)) =
      some (if p then a else standard) := by
  rw [Json.Tree.field_named hnames, hlookup]
  by_cases hp : p
  · simp only [if_pos hp, fieldOr, hread]
  · simp only [if_neg hp, fieldOr]

theorem natOfTree?_numeral {n : Nat} (hn : IsInt64 n) :
    natOfTree? (.number (Json.numeral n)) = some n := by
  have hsmall : n < wordSize := by
    rw [wordSize]
    have hbound := hn.2
    omega
  simp [natOfTree?, Json.numeral, Json.Numeral.nat?, hsmall]

/-- What a field is read as, given the documents of the targets. -/
def tree (config : Config) (targets : List Json.Tree) : Field → Json.Tree
  | .enabledByDefault => .bool config.enabledByDefault
  | .collectorCapacity => .number (Json.numeral config.collectorCapacity)
  | .slowCallThreshold => .number (Json.numeral config.slowCallThreshold)
  | .captureArguments => .bool config.captureArguments
  | .targets => .array targets

/-- **What a JSON object is read as.** -/
theorem readJson?_jsonText {config : Config} (hcapacity : IsInt64 config.collectorCapacity)
    (hthreshold : IsInt64 config.slowCallThreshold) {layout : JsonLayout}
    (hlayout : layout.Suits config) :
    readJson? (config.jsonText layout) = some (config.keeping layout.entries) := by
  obtain ⟨hentries, hlength, htables, hwhole⟩ := hlayout
  obtain ⟨trees, htrees, hkeys⟩ := exists_trees hlength htables hwhole
  have hown : ∀ field, Json.Spells (config.jsonChars layout.tables field)
      (config.tree trees field) := by
    rintro (_ | _ | _ | _ | _)
    · exact Json.spells_bool _
    · exact Json.spells_nat _
    · exact Json.spells_nat _
    · exact Json.spells_bool _
    · exact Json.spells_array htrees
  obtain ⟨members, hspells, hnames, hlookup⟩ := Entry.exists_members Field.name_injective
    (config.tree trees) (config.jsonMember layout.tables)
    (fun text member => Json.SpellsMember text (some member.1, member.2)) hentries.fits
    (fun field _ => Json.spellsMember (Json.spells_string _) (hown field))
    (fun _ _ h => h.spellsMember)
  have honce : (members.map Prod.fst).Nodup := by
    rw [hnames]
    exact hentries.once
  have hobject : Json.Tree.read? (config.jsonText layout) =
      some (.object (Json.Tree.named members)) := by
    refine Json.read?_eq_some_iff.mpr (Json.spells_object ?_)
    rw [Json.Tree.named, List.forall₂_map_right_iff]
    exact hspells
  have henabled : fieldOr standard.enabledByDefault boolOfTree?
      (Json.Tree.field "enabled_by_default" (Json.Tree.named members)) = some _ :=
    fieldOr_of_lookup honce (hlookup .enabledByDefault) rfl
  have hroom : fieldOr standard.collectorCapacity natOfTree?
      (Json.Tree.field "collector_capacity" (Json.Tree.named members)) = some _ :=
    fieldOr_of_lookup honce (hlookup .collectorCapacity) (natOfTree?_numeral hcapacity)
  have hslow : fieldOr standard.slowCallThreshold natOfTree?
      (Json.Tree.field "slow_call_threshold_us" (Json.Tree.named members)) = some _ :=
    fieldOr_of_lookup honce (hlookup .slowCallThreshold) (natOfTree?_numeral hthreshold)
  have hcapture : fieldOr standard.captureArguments boolOfTree?
      (Json.Tree.field "capture_arguments" (Json.Tree.named members)) = some _ :=
    fieldOr_of_lookup honce (hlookup .captureArguments) rfl
  have htargets : fieldOr standard.targets keysOfTree?
      (Json.Tree.field "target" (Json.Tree.named members)) = some _ :=
    fieldOr_of_lookup honce (hlookup .targets) hkeys
  rw [readJson?, hobject, Option.bind_some]
  simp only [ofTree?, Json.Tree.namesSpell_named, if_true, ofFields?, henabled, hroom, hslow,
    hcapture, htargets, Option.bind_eq_bind, Option.bind_some, keeping]

/-! ### Both readers -/

/-- With all fields written, nothing is lost. -/
theorem keeping_of_forall_mem (config : Config) {entries : List (Entry Field)}
    (h : ∀ field, .own field ∈ entries) : config.keeping entries = config := by
  simp only [keeping, h, if_true]

/-- **A configuration is read back from both its texts**, whatever the order of the members is,
whichever fields are left out, and whatever else stands between them. Fields that are left out are
as in `Config.standard`. The TOML document is accepted if what was written is valid and refused
with its first offence otherwise; the JSON object is read valid or not. -/
theorem read_back {config : Config} (hcapacity : IsInt64 config.collectorCapacity)
    (hthreshold : IsInt64 config.slowCallThreshold) {toml : TomlLayout} {json : JsonLayout}
    (htoml : toml.Suits config) (hjson : json.Suits config) :
    (readToml (config.tomlText toml) =
        match (config.keeping toml.entries).validate with
        | some offence => .error (.invalid offence)
        | none => .ok (config.keeping toml.entries)) ∧
      readJson? (config.jsonText json) = some (config.keeping json.entries) ∧
      ∀ entries : List (Entry Field), (∀ field, .own field ∈ entries) →
        config.keeping entries = config := by
  refine ⟨?_, readJson?_jsonText hcapacity hthreshold hjson, fun _ => config.keeping_of_forall_mem⟩
  have hread := read?_tomlText hcapacity hthreshold htoml
  cases hvalid : (config.keeping toml.entries).validate <;> simp only [readToml, hread, hvalid]

end Config

namespace Assorted

/-- A configuration with two targets; the names of the first need escapes. -/
def config : Config :=
  { Config.strict with targets := [.ofInstance "Größe \"x\"" "füllen\n\x7f", .ofType "A" "b"] }

/-- The table of the first target, with something else between its parts and a table in it. -/
def table : Config.Table :=
  { entries :=
      [.own .level, .other "note" "note = 2026-01-31".toList, .own .typeName, .own .operation]
    sections := [⟨"tags", "[target.tags] # of this one\nteam = \"a\"".toList⟩] }

/-- The table of the second target. -/
def shortTable : Config.Table :=
  { entries := [.own .typeName, .own .operation, .own .level], sections := [] }

/-- A document in which two fields are left out, and nothing is in its usual order. Something else
stands between the fields and around the targets. -/
def toml : Config.TomlLayout :=
  { entries :=
      [.own .targets, .other "owner" "owner.name = [ 1, 'two', # three\n 3.0 ] # who".toList,
        .own .captureArguments, .own .collectorCapacity]
    blocks :=
      [.other ⟨"log", "# where to\n[log]\nlevel = 3\n\n[log.file]\nname = 'x'\n".toList⟩,
        .target table, .other ⟨"rotation", "[[rotation]]\n[[rotation]]\nat = 07:32:00".toList⟩,
        .target shortTable] }

/-- The text of something else in an object. -/
def note : List Char :=
  Quoted.chars "note" ++ ':' :: " [null, 2.5e3, \x7b\"a\" : \"\\u00e4\"\x7d] ".toList

/-- An object with all fields. -/
def json : Config.JsonLayout :=
  { entries :=
      [.own .slowCallThreshold, .own .targets, .other "note" note, .own .enabledByDefault,
        .own .captureArguments, .own .collectorCapacity]
    tables :=
      [[.own .operation, .own .level, .own .typeName],
        [.other "note" note, .own .level, .own .typeName, .own .operation]] }

theorem fits_table : table.Fits where
  once := by decide
  entries := by
    simp only [table, List.forall_mem_cons]
    exact ⟨trivial, ⟨by rintro (_ | _ | _) <;> decide, by decide +kernel⟩, trivial, trivial,
      by simp⟩
  sections := by
    simp only [table, List.forall_mem_singleton]
    exact ⟨by rintro (_ | _ | _) <;> decide, by decide +kernel⟩
  whole := by rintro (_ | _ | _) <;> decide

theorem fits_shortTable : shortTable.Fits where
  once := by decide
  entries := by
    simp only [shortTable, List.forall_mem_cons]
    exact ⟨trivial, trivial, trivial, by simp⟩
  sections := by simp [shortTable]
  whole := by rintro (_ | _ | _) <;> decide

theorem suits_toml : toml.Suits config where
  once := by decide
  entries := by
    simp only [toml, List.forall_mem_cons]
    exact ⟨trivial, ⟨by rintro (_ | _ | _ | _ | _) <;> decide, by decide +kernel⟩, trivial,
      trivial, by simp⟩
  blocks := by
    simp only [toml, List.forall_mem_cons]
    exact ⟨⟨by rintro (_ | _ | _ | _ | _) <;> decide, by decide +kernel⟩, fits_table,
      ⟨by rintro (_ | _ | _ | _ | _) <;> decide, by decide +kernel⟩, fits_shortTable, by simp⟩
  count := by decide

theorem isExtra_note : Json.IsExtra note "note" :=
  ⟨Quoted.chars "note", _, rfl, Json.read?_eq_some_iff.mpr (Json.spells_string "note"),
    by decide +kernel⟩

theorem suits_json : json.Suits config where
  entries := by
    refine ⟨by decide, ?_⟩
    simp only [json, List.forall_mem_cons]
    exact ⟨trivial, trivial, ⟨by rintro (_ | _ | _ | _ | _) <;> decide, isExtra_note⟩, trivial,
      trivial, trivial, by simp⟩
  length := rfl
  tables := by
    simp only [json, List.forall_mem_cons]
    refine ⟨⟨by decide, ?_⟩, ⟨by decide, ?_⟩, by simp⟩
    · simp only [List.forall_mem_cons]
      exact ⟨trivial, trivial, trivial, by simp⟩
    · simp only [List.forall_mem_cons]
      exact ⟨⟨by rintro (_ | _ | _) <;> decide, isExtra_note⟩, trivial, trivial, trivial, by simp⟩
  whole := by
    simp only [json, List.forall_mem_cons]
    exact ⟨by rintro (_ | _ | _) <;> decide, by rintro (_ | _ | _) <;> decide, by simp⟩

/-- The document is read as what is written in it, and the object as all of the configuration. -/
theorem read_back_config :
    IsInt64 config.collectorCapacity ∧ IsInt64 config.slowCallThreshold ∧
      toml.Suits config ∧ json.Suits config ∧
      Config.readToml (config.tomlText toml) =
        .ok { config with
          enabledByDefault := Config.standard.enabledByDefault
          slowCallThreshold := Config.standard.slowCallThreshold } ∧
      Config.readJson? (config.jsonText json) = some config := by
  have hcapacity : IsInt64 config.collectorCapacity := by decide
  have hthreshold : IsInt64 config.slowCallThreshold := by decide
  obtain ⟨htoml, hjson, hall⟩ := Config.read_back hcapacity hthreshold suits_toml suits_json
  refine ⟨hcapacity, hthreshold, suits_toml, suits_json, htoml.trans (by decide), ?_⟩
  rw [hjson, hall _ fun field => by cases field <;> decide]

end Assorted

end Interception
