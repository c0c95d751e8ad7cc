import Interception.Config
import Interception.Proofs.Json.Documents
import Interception.Proofs.Toml.Writing

/-!
# Layouts of configuration files

The same configuration can be written in many ways: its fields come in any order, some of them
may be left out, each target has its three parts in any order, and between all of these there may
be members that nobody asks for. A `Config.TomlLayout` or a `Config.JsonLayout` says which of these
ways is meant, and `Config.tomlText` and `Config.jsonText` are the texts.

What a layout has to satisfy is that no member comes twice and that the members nobody asks for
are well-formed, whatever that means for the format, and are not named like a field
(`Entry.Fits`). From such members a reader gets what it looks for under each name, and nothing
where it was left out (`Entry.exists_members`).

In a TOML document a member may also be a table with lines of its own. Such sections come behind all
pairs, since a pair behind them would belong to them (`Toml.Section.Fits`).
-/

namespace Interception

/-! ### Entries -/

/-- **A member as it is written**: one that belongs to what is written, or another one, with its
name and its text. -/
inductive Entry (φ : Type) where
  /-- One of the fields. -/
  | own (field : φ)
  /-- Something else. -/
  | other (name : String) (text : List Char)
deriving DecidableEq

namespace Entry

variable {φ β : Type}

/-- The name of an entry, where fields have names. -/
def name (nameOf : φ → String) : Entry φ → String
  | .own field => nameOf field
  | .other name _ => name

/-- What an entry has to satisfy on its own: if it is no field, it is not named like one, and it is
well-formed. -/
def Fits (nameOf : φ → String) (wellFormed : List Char → String → Prop) : Entry φ → Prop
  | .own _ => True
  | .other name text => (∀ field, nameOf field ≠ name) ∧ wellFormed text name

/-- **What entries are read as.** If the text of every entry spells a member of its name, and that
of a field spells its value, then under the name of each field there is its value if the field is
among the entries, and nothing otherwise. -/
theorem exists_members [DecidableEq φ] {nameOf : φ → String} (hname : Function.Injective nameOf)
    {wellFormed : List Char → String → Prop} (value : φ → β) (text : Entry φ → List Char)
    (spells : List Char → String × β → Prop) {entries : List (Entry φ)}
    (hfits : ∀ entry ∈ entries, entry.Fits nameOf wellFormed)
    (hown : ∀ field, .own field ∈ entries → spells (text (.own field)) (nameOf field, value field))
    (hother : ∀ name content, wellFormed content name →
      ∃ b, spells (text (.other name content)) (name, b)) :
    ∃ members : List (String × β), List.Forall₂ spells (entries.map text) members ∧
      members.map Prod.fst = entries.map (name nameOf) ∧
      ∀ field, members.lookup (nameOf field) =
        if .own field ∈ entries then some (value field) else none := by
  induction entries with
  | nil => exact ⟨[], .nil, rfl, fun field => rfl⟩
  | cons entry entries ih =>
    obtain ⟨members, hspells, hnames, hlookup⟩ :=
      ih (fun other h => hfits other (List.mem_cons_of_mem entry h))
        (fun field h => hown field (List.mem_cons_of_mem entry h))
    cases entry with
    | own first =>
      refine ⟨(nameOf first, value first) :: members,
        .cons (hown first List.mem_cons_self) hspells, by rw [List.map_cons, hnames]; rfl, ?_⟩
      intro field
      by_cases hfield : field = first
      · subst hfield
        rw [List.lookup_cons_self, if_pos List.mem_cons_self]
      · have hne : (nameOf field == nameOf first) = false :=
          beq_eq_false_iff_ne.mpr fun h => hfield (hname h)
        have hmem : (Entry.own field ∈ Entry.own first :: entries) ↔ .own field ∈ entries := by
          rw [List.mem_cons, Entry.own.injEq]
          exact or_iff_right hfield
        simp only [List.lookup_cons, hne, hlookup, hmem]
    | other first content =>
      obtain ⟨hforeign, hwell⟩ := hfits (.other first content) List.mem_cons_self
      obtain ⟨b, hb⟩ := hother first content hwell
      refine ⟨(first, b) :: members, .cons hb hspells, by rw [List.map_cons, hnames]; rfl, ?_⟩
      intro field
      have hne : (nameOf field == first) = false :=
        beq_eq_false_iff_ne.mpr (hforeign field)
      have hmem : (Entry.own field ∈ Entry.other first content :: entries) ↔
          .own field ∈ entries := by
        rw [List.mem_cons]
        exact or_iff_right (by rintro h; cases h)
      simp only [List.lookup_cons, hne, hlookup, hmem]

end Entry

/-- What a section has to satisfy on its own: it is not named like a field, and it is read like one
right behind the header of the table around it. -/
def Toml.Section.Fits {φ : Type} (nameOf : φ → String) (header : Toml.Draft)
    (lines : Toml.Section) : Prop :=
  (∀ field, nameOf field ≠ lines.name) ∧ Toml.IsSection header lines

/-- **What can stand in a JSON object.** -/
structure Json.Admissible {φ : Type} (nameOf : φ → String) (entries : List (Entry φ)) : Prop where
  /-- No name comes twice. -/
  once : (entries.map (Entry.name nameOf)).Nodup
  /-- Each member is in order. -/
  fits : ∀ entry ∈ entries, entry.Fits nameOf Json.IsExtra

/-! ### Keys -/

namespace Key

/-- The parts of a key. -/
inductive Part where
  | typeName
  | operation
  | level
deriving DecidableEq, Repr

/-- The name of a part in a document. -/
def Part.name : Part → String
  | .typeName => "type_name"
  | .operation => "operation"
  | .level => "kind"

/-- The text that a part of a key is. -/
def part (key : Key) : Part → String
  | .typeName => key.typeName
  | .operation => key.operation
  | .level => key.level.word

/-- A line of the table of a key. -/
def tomlLine (key : Key) : Entry Part → List Char
  | .own part => Toml.pairLine part.name (Toml.basicString (key.part part))
  | .other _ text => text

/-- A member of the object of a key. -/
def jsonMember (key : Key) : Entry Part → List Char
  | .own part => Quoted.chars part.name ++ ':' :: Quoted.chars (key.part part)
  | .other _ text => text

/-- The object of a key. -/
def jsonChars (key : Key) (entries : List (Entry Part)) : List Char :=
  Json.Tree.enclosed '\x7b' ',' '\x7d' (entries.map key.jsonMember)

end Key

/-! ### Configurations -/

namespace Config

/-- The fields of a configuration. -/
inductive Field where
  | enabledByDefault
  | collectorCapacity
  | slowCallThreshold
  | captureArguments
  | targets
deriving DecidableEq, Repr

/-- The name of a field in a document. -/
def Field.name : Field → String
  | .enabledByDefault => "enabled_by_default"
  | .collectorCapacity => "collector_capacity"
  | .slowCallThreshold => "slow_call_threshold_us"
  | .captureArguments => "capture_arguments"
  | .targets => "target"

/-- **What is left of a configuration** when only some fields are written: the others are as in
`Config.standard`. -/
def keeping (config : Config) (entries : List (Entry Field)) : Config :=
  { enabledByDefault :=
      if .own .enabledByDefault ∈ entries then config.enabledByDefault
      else standard.enabledByDefault
    collectorCapacity :=
      if .own .collectorCapacity ∈ entries then config.collectorCapacity
      else standard.collectorCapacity
    slowCallThreshold :=
      if .own .slowCallThreshold ∈ entries then config.slowCallThreshold
      else standard.slowCallThreshold
    captureArguments :=
      if .own .captureArguments ∈ entries then config.captureArguments
      else standard.captureArguments
    targets := if .own .targets ∈ entries then config.targets else standard.targets }

/-! ### TOML -/

/-- **The table of a target**: pairs, and behind them sections. -/
structure Table where
  /-- The pairs. -/
  entries : List (Entry Key.Part)
  /-- The sections. -/
  sections : List Toml.Section

/-- **A table is in order.** -/
structure Table.Fits (table : Table) : Prop where
  /-- No name comes twice. -/
  once : (table.entries.map (Entry.name Key.Part.name) ++
    table.sections.map Toml.Section.name).Nodup
  /-- Each pair is in order. -/
  entries : ∀ entry ∈ table.entries, entry.Fits Key.Part.name Toml.IsExtra
  /-- Each section is in order. -/
  sections : ∀ lines ∈ table.sections,
    lines.Fits Key.Part.name (.behindHeader Field.targets.name)
  /-- No part of the target is left out. -/
  whole : ∀ part, .own part ∈ table.entries

/-- **A part of a TOML document** behind its pairs. -/
inductive Block where
  /-- A target. -/
  | target (table : Table)
  /-- Something else. -/
  | other (lines : Toml.Section)

namespace Block

/-- A part is in order. -/
def Fits : Block → Prop
  | .target table => table.Fits
  | .other lines => lines.Fits Field.name .empty

/-- Whether a part is a target. -/
def isTarget : Block → Bool
  | .target _ => true
  | .other _ => false

/-- The name of a part that is something else. -/
def name? : Block → Option String
  | .target _ => none
  | .other lines => some lines.name

end Block

/-- **How a configuration is laid out as a TOML document**: what is written, in which order, and
the same for each target. -/
structure TomlLayout where
  /-- The pairs. The targets are among them if they are written. -/
  entries : List (Entry Field)
  /-- The parts behind the pairs. -/
  blocks : List Block

/-- **A layout for a configuration**: the targets that are written are all there, with all their
parts. -/
structure TomlLayout.Suits (layout : TomlLayout) (config : Config) : Prop where
  /-- No name comes twice. -/
  once : (layout.entries.map (Entry.name Field.name) ++ layout.blocks.filterMap Block.name?).Nodup
  /-- Each pair is in order. -/
  entries : ∀ entry ∈ layout.entries, entry.Fits Field.name Toml.IsExtra
  /-- Each part behind the pairs is in order. -/
  blocks : ∀ block ∈ layout.blocks, block.Fits
  /-- There are as many tables as targets. -/
  count : layout.blocks.countP Block.isTarget = (config.keeping layout.entries).targets.length

/-- A line of a file. The targets have none of their own: they come behind all lines. -/
def tomlLine (config : Config) : Entry Field → List Char
  | .own .enabledByDefault =>
    Toml.pairLine Field.enabledByDefault.name (toString config.enabledByDefault).toList
  | .own .collectorCapacity =>
    Toml.pairLine Field.collectorCapacity.name (toString config.collectorCapacity).toList
  | .own .slowCallThreshold =>
    Toml.pairLine Field.slowCallThreshold.name (toString config.slowCallThreshold).toList
  | .own .captureArguments =>
    Toml.pairLine Field.captureArguments.name (toString config.captureArguments).toList
  | .own .targets => []
  | .other _ text => text

/-- The lines of the table of a target. -/
def Table.lines (key : Key) (table : Table) : List (List Char) :=
  Toml.arrayHeader Field.targets.name :: table.entries.map key.tomlLine ++
    table.sections.map Toml.Section.text

/-- The lines of the parts behind the pairs, where the targets are some keys. -/
def Block.lines : List Key → List Block → List (List Char)
  | keys, .other lines :: blocks => lines.text :: Block.lines keys blocks
  | key :: keys, .target table :: blocks => table.lines key ++ Block.lines keys blocks
  | [], .target _ :: blocks => Block.lines [] blocks
  | _, [] => []

/-- **A configuration as a TOML document**: pairs of key and value, and then a table for each
target. -/
def tomlText (config : Config) (layout : TomlLayout) : String :=
  String.ofList (Toml.linesText
    ((layout.entries.filter (· ≠ .own .targets)).map config.tomlLine ++
      Block.lines (config.keeping layout.entries).targets layout.blocks))

/-! ### JSON -/

/-- **How a configuration is laid out as a JSON object**: what is written, in which order, and the
same for each target. -/
structure JsonLayout where
  /-- The members of the configuration. -/
  entries : List (Entry Field)
  /-- The members of its targets, one list for each. -/
  tables : List (List (Entry Key.Part))

/-- **A layout for a configuration**: the targets are all there, with all their parts. -/
structure JsonLayout.Suits (layout : JsonLayout) (config : Config) : Prop where
  /-- The members of the configuration can stand together. -/
  entries : Json.Admissible Field.name layout.entries
  /-- There are as many lists as targets. -/
  length : layout.tables.length = config.targets.length
  /-- The members of a target can stand together. -/
  tables : ∀ table ∈ layout.tables, Json.Admissible Key.Part.name table
  /-- No part of a target is left out. -/
  whole : ∀ table ∈ layout.tables, ∀ part, .own part ∈ table

/-- The text of a field. -/
def jsonChars (config : Config) (tables : List (List (Entry Key.Part))) : Field → List Char
  | .enabledByDefault => (toString config.enabledByDefault).toList
  | .collectorCapacity => (toString config.collectorCapacity).toList
  | .slowCallThreshold => (toString config.slowCallThreshold).toList
  | .captureArguments => (toString config.captureArguments).toList
  | .targets =>
    Json.Tree.enclosed '[' ',' ']' (List.zipWith Key.jsonChars config.targets tables)

/-- A member of the object of a configuration. -/
def jsonMember (config : Config) (tables : List (List (Entry Key.Part))) :
    Entry Field → List Char
  | .own field => Quoted.chars field.name ++ ':' :: config.jsonChars tables field
  | .other _ text => text

/-- **A configuration as a JSON object.** -/
def jsonText (config : Config) (layout : JsonLayout) : String :=
  String.ofList (Json.Tree.enclosed '\x7b' ',' '\x7d'
    (layout.entries.map (config.jsonMember layout.tables)))

end Config

end Interception
