import Interception.Proofs.Ownership
import Interception.Proofs.Tallies
import Interception.Report
import Interception.Statistics.Summary
import Mathlib.Data.Prod.Lex
import Mathlib.Data.String.Basic

/-!
# Listings have one order

What has happened does not show in a listing but by what there is to list: the same operations are
listed in the same order, whichever of them came first (`Interception.listings_of_history`).

The reason is that no two things in a listing are tied: each has a rank in a linear order, and the
ranks are different (`Listing.mergeSort_eq_of_perm`). The rank of an operation is its display name
and then its type name, and these two determine the operation (`Key.eq_of_display_eq`): `a` and
`b.c` read like `a.b` and `c` and yet come apart. Rows of statistics are ranked by their totals
first.

| listing | its order | strict, each once | whatever came first |
|---|---|---|---|
| of a table | `Key.Before` | `Key.pairwise_mergeSort` | `Key.mergeSort_eq_of_perm` |
| of statistics | `RowBefore` | `pairwise_sorted` | `sorted_eq_of_perm` |

For statistics one thing is left to do: that after two histories with the same entries each
operation has the same tally (`Statistics.Reflects.perm`).
-/

namespace Interception

/-! ### Sorting by rank -/

namespace Listing

variable {α β : Type} [LinearOrder β] {rank : α → β} {le : α → α → Bool} {l l' : List α}
  (hle : ∀ a b, le a b = true ↔ rank a ≤ rank b) (hranks : (l.map rank).Nodup)
include hle hranks

/-- **What has different ranks** is listed in strict order. -/
theorem pairwise_mergeSort : (l.mergeSort le).Pairwise fun a b => rank a < rank b := by
  have hsorted : (l.mergeSort le).Pairwise fun a b => le a b = true := by
    refine @List.pairwise_mergeSort _ le (fun a b c => ?_) (fun a b => ?_) l
    · rw [hle, hle, hle]
      exact le_trans
    · rw [Bool.or_eq_true, hle, hle]
      exact le_total _ _
  have hnodup : ((l.mergeSort le).map rank).Nodup :=
    ((List.mergeSort_perm l le).map rank).nodup_iff.mpr hranks
  exact (hsorted.and (List.pairwise_map.mp hnodup)).imp fun ⟨hab, hne⟩ =>
    lt_of_le_of_ne ((hle _ _).mp hab) hne

/-- **The same things**, if they have different ranks, are listed in the same order. -/
theorem mergeSort_eq_of_perm (h : l.Perm l') : l.mergeSort le = l'.mergeSort le :=
  List.Perm.eq_of_pairwise (fun _ _ _ _ hab hba => absurd hba hab.asymm)
    (pairwise_mergeSort hle hranks)
    (pairwise_mergeSort hle ((h.map rank).nodup_iff.mp hranks))
    ((List.mergeSort_perm l le).trans (h.trans (List.mergeSort_perm l' le).symm))

end Listing

/-! ### Operations -/

namespace Key

variable {a b : Key} {keys keys' : List Key}

/-- **The order of listings**: by display name, and by type name where display names agree. -/
def Before (a b : Key) : Prop :=
  a.display < b.display ∨ a.display = b.display ∧ a.typeName < b.typeName

/-- The rank of an operation: its display name first, its type name second. -/
def rank (key : Key) : String ×ₗ String :=
  toLex (key.display, key.typeName)

/-- **No two operations have one rank**: where they read the same, their types differ. -/
theorem rank_injective : Function.Injective rank := by
  intro a b h
  have hnames : (a.display, a.typeName) = (b.display, b.typeName) := toLex.injective h
  obtain ⟨hdisplay, htype⟩ := Prod.mk.inj hnames
  exact eq_of_display_eq hdisplay htype

theorem before_iff : a.Before b ↔ a.rank < b.rank := by
  rw [rank, rank, Prod.Lex.toLex_lt_toLex, Before]

theorem le_iff (a b : Key) : a.le b = true ↔ a.rank ≤ b.rank := by
  rw [rank, rank, Prod.Lex.toLex_le_toLex]
  simp only [le, Bool.or_eq_true, Bool.and_eq_true, decide_eq_true_eq]

/-- Two operations that read the same come apart by their types. -/
example : (ofType "a" "b.c").display = (ofType "a.b" "c").display ∧
    (ofType "a" "b.c").typeName < (ofType "a.b" "c").typeName := by
  decide

instance : IsStrictTotalOrder Key Before :=
  (RelEmbedding.mk ⟨rank, rank_injective⟩ before_iff.symm :
    Before ↪r ((· < ·) : String ×ₗ String → String ×ₗ String → Prop)).isStrictTotalOrder

theorem nodup_map_rank (h : keys.Nodup) : (keys.map rank).Nodup :=
  h.map rank_injective

/-- **Operations that are listed once each** are listed in strict order. -/
theorem pairwise_mergeSort (h : keys.Nodup) : (keys.mergeSort le).Pairwise Before :=
  (Listing.pairwise_mergeSort le_iff (nodup_map_rank h)).imp before_iff.mpr

/-- **The same operations** are listed in the same order. -/
theorem mergeSort_eq_of_perm (hnodup : keys.Nodup) (h : keys.Perm keys') :
    keys.mergeSort le = keys'.mergeSort le :=
  Listing.mergeSort_eq_of_perm le_iff (nodup_map_rank hnodup) h

end Key

/-! ### Rows -/

namespace Statistics

/-- **The order of rows**: the longer total first, and equal totals in the order of
operations. -/
def RowBefore (a b : Key × Tally) : Prop :=
  b.2.total < a.2.total ∨ a.2.total = b.2.total ∧ a.1.Before b.1

/-- The rank of a row: its total first, where more is less, and its operation second. -/
def rowRank (row : Key × Tally) : ℕᵒᵈ ×ₗ String ×ₗ String :=
  toLex (OrderDual.toDual row.2.total, row.1.rank)

section

variable {a b : Key × Tally}

/-- Rows of one rank are about one operation. -/
theorem eq_of_rowRank_eq (h : rowRank a = rowRank b) : a.1 = b.1 :=
  Key.rank_injective (congrArg (fun rank => (ofLex rank).2) h)

theorem rowBefore_iff : RowBefore a b ↔ rowRank a < rowRank b := by
  rw [rowRank, rowRank, Prod.Lex.toLex_lt_toLex, RowBefore, Key.before_iff]
  rfl

theorem rowLe_iff (a b : Key × Tally) : rowLe a b = true ↔ rowRank a ≤ rowRank b := by
  rw [rowRank, rowRank, Prod.Lex.toLex_le_toLex]
  simp only [rowLe, Bool.or_eq_true, Bool.and_eq_true, decide_eq_true_eq, Key.le_iff]
  rfl

end

section

variable {s s' : Statistics}

theorem sorted_perm (s : Statistics) : s.sorted.Perm s.tallies.entries :=
  List.mergeSort_perm _ _

/-- No operation has two rows. -/
theorem nodup_keys_sorted (s : Statistics) : (s.sorted.map Prod.fst).Nodup :=
  (s.sorted_perm.map Prod.fst).nodup_iff.mpr s.tallies.nodup

theorem nodup_map_rowRank (s : Statistics) : (s.tallies.entries.map rowRank).Nodup :=
  List.pairwise_map.mpr ((List.pairwise_map.mp s.tallies.nodup).imp fun hne h =>
    hne (eq_of_rowRank_eq h))

/-- **Statistics with the same listings**: the same rows in the same order, and the same totals, in
the table and in the report too. -/
structure SameListings (s s' : Statistics) : Prop where
  sorted_eq : s.sorted = s'.sorted
  totals_eq : s.totals = s'.totals
  summary_eq : s.summary = s'.summary
  report_eq : Report.ofStatistics s = Report.ofStatistics s'

/-- **Statistics that list some entries.** -/
structure Lists (s : Statistics) (entries : List (Key × Nat)) : Prop where
  /-- No operation has two rows. -/
  nodup : (s.sorted.map Prod.fst).Nodup
  /-- Just the operations that have an entry have a row. -/
  mem_iff : ∀ key, key ∈ s.sorted.map Prod.fst ↔ ∃ micros, (key, micros) ∈ entries
  /-- A row has the tally of its operation. -/
  find?_eq : ∀ row ∈ s.sorted, s.find? row.1 = some row.2
  /-- Longer totals come first. Equal totals are in the order of display names, and of type names
  where display names agree. -/
  pairwise : s.sorted.Pairwise fun a b => b.2.total < a.2.total ∨
    a.2.total = b.2.total ∧ (a.1.display < b.1.display ∨
      a.1.display = b.1.display ∧ a.1.typeName < b.1.typeName)

/-- **Rows are listed in strict order.** -/
theorem pairwise_sorted (s : Statistics) : s.sorted.Pairwise RowBefore :=
  (Listing.pairwise_mergeSort rowLe_iff s.nodup_map_rowRank).imp rowBefore_iff.mpr

variable (h : s.tallies.entries.Perm s'.tallies.entries)
include h

/-- **The same tallies** are listed in the same order. -/
theorem sorted_eq_of_perm : s.sorted = s'.sorted :=
  Listing.mergeSort_eq_of_perm rowLe_iff s.nodup_map_rowRank h

theorem totals_eq_of_perm : s.totals = s'.totals := by
  have hsum : ∀ measure : Tally → Nat, s.tallies.total measure = s'.tallies.total measure :=
    fun measure => (h.map _).sum_eq
  have hoperations : s.totals.operations = s'.totals.operations := h.length_eq
  have hcalls : s.totals.calls = s'.totals.calls := by
    rw [calls_totals, calls_totals, hsum]
  have htotal : s.totals.total = s'.totals.total := by
    rw [total_totals, total_totals, hsum]
  cases hs : s.totals
  cases hs' : s'.totals
  rw [hs, hs'] at hoperations hcalls htotal
  rw [Totals.mk.injEq]
  exact ⟨hoperations, hcalls, htotal⟩

theorem summary_eq_of_perm : s.summary = s'.summary := by
  rw [summary, summary, summaryLines, summaryLines, isEmpty, isEmpty, h.isEmpty_eq,
    sorted_eq_of_perm h, totals_eq_of_perm h]

theorem ofStatistics_eq_of_perm : Report.ofStatistics s = Report.ofStatistics s' := by
  rw [Report.ofStatistics, Report.ofStatistics, sorted_eq_of_perm h, totals_eq_of_perm h]

/-- **The same tallies** give the same listings. -/
theorem SameListings.of_perm : s.SameListings s' where
  sorted_eq := sorted_eq_of_perm h
  totals_eq := totals_eq_of_perm h
  summary_eq := summary_eq_of_perm h
  report_eq := ofStatistics_eq_of_perm h

end

/-- The rows are for the operations that have an entry. -/
theorem Reflects.mem_keys_sorted_iff {s : Statistics} {entries : List (Key × Nat)}
    (h : s.Reflects entries) (key : Key) :
    key ∈ s.sorted.map Prod.fst ↔ ∃ micros, (key, micros) ∈ entries := by
  have hknown : key ∈ s.tallies.keys ↔ key ∈ entries.map Prod.fst :=
    Directory.isSome_find?_iff.symm.trans (h.isSome_find?_iff key)
  rw [(s.sorted_perm.map Prod.fst).mem_iff]
  exact hknown.trans (by simp)

/-- **The rows list the entries.** -/
theorem Reflects.lists {s : Statistics} {entries : List (Key × Nat)} (h : s.Reflects entries) :
    s.Lists entries where
  nodup := s.nodup_keys_sorted
  mem_iff := h.mem_keys_sorted_iff
  find?_eq _ hrow := mem_sorted_iff.mp hrow
  pairwise := s.pairwise_sorted

/-- **The same entries, in whatever order, give the same tallies.** -/
theorem Reflects.perm {s s' : Statistics} {entries entries' : List (Key × Nat)}
    (h : s.Reflects entries) (h' : s'.Reflects entries') (hperm : entries.Perm entries') :
    s.tallies.entries.Perm s'.tallies.entries := by
  have hdurations : ∀ key, (durationsOf entries key).Perm (durationsOf entries' key) :=
    fun key => (hperm.filter _).map Prod.snd
  have hfind : ∀ key, s.find? key = s'.find? key := by
    intro key
    cases hs : s.find? key with
    | none =>
      rw [h.find?_eq_none_iff] at hs
      exact ((h'.find?_eq_none_iff key).mpr (hs ▸ hdurations key).nil_eq.symm).symm
    | some tally =>
      obtain ⟨tally', hs'⟩ : ∃ tally', s'.find? key = some tally' := by
        rw [← Option.isSome_iff_exists, h'.isSome_find?_iff, ← (hperm.map Prod.fst).mem_iff,
          ← h.isSome_find?_iff, hs]
        rfl
      rw [hs', (h.sums key tally hs).eq_of_perm (h'.sums key tally' hs') (hdurations key)
        (h.durationsOf_ne_nil hs)]
  rw [List.perm_ext_iff_of_nodup (List.Nodup.of_map _ s.tallies.nodup)
    (List.Nodup.of_map _ s'.tallies.nodup)]
  rintro ⟨key, tally⟩
  rw [← Directory.find?_eq_some_iff, ← Directory.find?_eq_some_iff]
  exact iff_of_eq (congrArg (· = some tally) (hfind key))

end Statistics

/-- **The orders of listings are strict.** -/
structure Listing.Strict : Prop where
  /-- Operations are in a strict total order. -/
  keys : IsStrictTotalOrder Key Key.Before
  /-- So they are because display name and type name determine the operation. -/
  eq_of_names : ∀ a b : Key, a.display = b.display → a.typeName = b.typeName → a = b
  /-- Rows are in a transitive order. -/
  rows_trans : ∀ a b c, Statistics.RowBefore a b → Statistics.RowBefore b c →
    Statistics.RowBefore a c
  /-- Of two rows for different operations, just one is before the other. -/
  rows_connected : ∀ a b, a.1 ≠ b.1 → (Statistics.RowBefore a b ↔ ¬Statistics.RowBefore b a)

theorem Listing.strict : Listing.Strict where
  keys := inferInstance
  eq_of_names _ _ hdisplay htype := Key.eq_of_display_eq hdisplay htype
  rows_trans a b c := by
    simp only [Statistics.rowBefore_iff]
    exact lt_trans
  rows_connected a b hne := by
    rw [Statistics.rowBefore_iff, Statistics.rowBefore_iff, not_lt]
    exact (Ne.le_iff_lt (mt Statistics.eq_of_rowRank_eq hne)).symm

/-! ### Tables -/

namespace Table

variable {σ : Type} {table table' : Table σ} {key : Key}

/-- **A way for an operation to come to be listed**: it is defined, or an interceptor takes it
over. -/
inductive Arrival (σ : Type) where
  /-- The operation is defined. -/
  | define (key : Key) (implementation : Implementation σ)
  /-- The interceptor takes its operation over. -/
  | intercept (owner : Handle)

/-- The table with one arrival more, unless it is refused. -/
def accept (table : Table σ) : Arrival σ → Except CallError (Table σ)
  | .define key implementation => table.define key implementation
  | .intercept owner => table.intercept owner

/-- The table after several arrivals, if none of them is refused. -/
def acceptAll (table : Table σ) (arrivals : List (Arrival σ)) : Except CallError (Table σ) :=
  arrivals.foldlM accept table

theorem acceptAll_cons_eq_ok_iff {arrival : Arrival σ} {rest : List (Arrival σ)} :
    table.acceptAll (arrival :: rest) = .ok table' ↔
      ∃ next, table.accept arrival = .ok next ∧ next.acceptAll rest = .ok table' := by
  rw [acceptAll, List.foldlM_cons]
  cases h : table.accept arrival with
  | error error => simp [bind, Except.bind]
  | ok next => simp [bind, Except.bind, acceptAll]

/-- An operation is defined after an arrival if it was before, or if it is what arrived. -/
theorem isSome_find?_of_accept {arrival : Arrival σ} (h : table.accept arrival = .ok table') :
    (table'.find? key).isSome ↔
      (table.find? key).isSome ∨ ∃ implementation, arrival = .define key implementation := by
  cases arrival with
  | define other implementation =>
    obtain ⟨-, rfl⟩ := define_eq_ok_iff.mp h
    rw [Directory.find?_put]
    by_cases he : key = other
    · simp [he]
    · simp [he, Ne.symm he]
  | intercept owner =>
    obtain ⟨slot, hslot, -, rfl⟩ := intercept_eq_ok_iff.mp h
    rw [Directory.find?_put]
    by_cases he : key = owner.key
    · simp [he, hslot]
    · simp [he]

/-- An operation is owned after an arrival if it was before, or if it was just taken over. -/
theorem isSome_owner?_of_accept {arrival : Arrival σ} (h : table.accept arrival = .ok table') :
    (table'.owner? key).isSome ↔
      (table.owner? key).isSome ∨ ∃ owner, arrival = .intercept owner ∧ owner.key = key := by
  cases arrival with
  | define other implementation =>
    obtain ⟨hfind, rfl⟩ := define_eq_ok_iff.mp h
    rw [owner?_put]
    by_cases he : key = other
    · simp [he, owner?_eq_none_of_find?_eq_none hfind]
    · simp [he]
  | intercept owner =>
    obtain ⟨slot, -, -, rfl⟩ := intercept_eq_ok_iff.mp h
    rw [owner?_put]
    by_cases he : key = owner.key
    · simp [he]
    · simp [he, Ne.symm he]

/-- **What several arrivals bring about**, whatever their order, if each brings something about
that stays. -/
theorem iff_of_acceptAll {holds : Table σ → Prop} {brings : Arrival σ → Prop}
    (hstep : ∀ {table table' : Table σ} {arrival}, table.accept arrival = .ok table' →
      (holds table' ↔ holds table ∨ brings arrival))
    {arrivals : List (Arrival σ)} (h : table.acceptAll arrivals = .ok table') :
    holds table' ↔ holds table ∨ ∃ arrival ∈ arrivals, brings arrival := by
  induction arrivals generalizing table with
  | nil =>
    obtain rfl := Except.ok.inj h
    simp
  | cons arrival rest ih =>
    obtain ⟨next, hnext, hrest⟩ := acceptAll_cons_eq_ok_iff.mp h
    rw [ih hrest, hstep hnext, or_assoc, List.exists_mem_cons_iff]

theorem pairwise_operations (table : Table σ) : table.operations.Pairwise Key.Before :=
  Key.pairwise_mergeSort table.nodup_keys

theorem pairwise_intercepted (table : Table σ) : table.intercepted.Pairwise Key.Before :=
  Key.pairwise_mergeSort (table.nodup.sublist (List.filter_sublist.map Prod.fst))

/-- **Tables with the same operations** list them in the same order. -/
theorem operations_congr
    (h : ∀ key, (table.find? key).isSome ↔ (table'.find? key).isSome) :
    table.operations = table'.operations := by
  refine Key.mergeSort_eq_of_perm table.nodup_keys ?_
  rw [List.perm_ext_iff_of_nodup table.nodup_keys table'.nodup_keys]
  intro key
  rw [← Directory.isSome_find?_iff, h, Directory.isSome_find?_iff]

/-- **Tables with the same operations owned** list these in the same order. -/
theorem intercepted_congr
    (h : ∀ key, (table.owner? key).isSome ↔ (table'.owner? key).isSome) :
    table.intercepted = table'.intercepted := by
  refine List.Perm.eq_of_pairwise (fun a b _ _ hab hba => absurd hba (asymm hab))
    table.pairwise_intercepted table'.pairwise_intercepted ?_
  rw [List.perm_ext_iff_of_nodup table.nodup_intercepted table'.nodup_intercepted]
  intro key
  rw [mem_intercepted_iff, mem_intercepted_iff, ← Option.isSome_iff_exists,
    ← Option.isSome_iff_exists, h]

/-- **Tables with the same listings.** -/
structure SameListings (table table' : Table σ) : Prop where
  operations_eq : table.operations = table'.operations
  intercepted_eq : table.intercepted = table'.intercepted

/-- **What a table lists**: its operations, and those of them that are owned. -/
structure Lists (table : Table σ) : Prop where
  /-- An operation is listed just if it is defined. -/
  mem_operations_iff : ∀ key, key ∈ table.operations ↔ (table.find? key).isSome
  /-- It is listed once. -/
  nodup_operations : table.operations.Nodup
  /-- Operations are listed in their order. -/
  pairwise_operations : table.operations.Pairwise Key.Before
  /-- A table with the same operations lists them alike. -/
  operations_congr : ∀ table' : Table σ,
    (∀ key, (table.find? key).isSome ↔ (table'.find? key).isSome) →
      table.operations = table'.operations
  /-- An operation is listed as intercepted just if it is owned. -/
  mem_intercepted_iff : ∀ key, key ∈ table.intercepted ↔ (table.owner? key).isSome
  nodup_intercepted : table.intercepted.Nodup
  pairwise_intercepted : table.intercepted.Pairwise Key.Before
  /-- A table with the same operations owned lists these alike. -/
  intercepted_congr : ∀ table' : Table σ,
    (∀ key, (table.owner? key).isSome ↔ (table'.owner? key).isSome) →
      table.intercepted = table'.intercepted

theorem lists (table : Table σ) : table.Lists where
  mem_operations_iff key := by
    rw [mem_operations_iff, Directory.isSome_find?_iff]
  nodup_operations := (List.mergeSort_perm _ _).nodup_iff.mpr table.nodup_keys
  pairwise_operations := table.pairwise_operations
  operations_congr _ := operations_congr
  mem_intercepted_iff key := by
    rw [mem_intercepted_iff, Option.isSome_iff_exists]
  nodup_intercepted := table.nodup_intercepted
  pairwise_intercepted := table.pairwise_intercepted
  intercepted_congr _ := intercepted_congr

/-- **The same arrivals, in whatever order, give the same listings.** -/
theorem SameListings.of_perm {start : Table σ} {arrivals arrivals' : List (Arrival σ)}
    (hperm : arrivals.Perm arrivals') (h : start.acceptAll arrivals = .ok table)
    (h' : start.acceptAll arrivals' = .ok table') : table.SameListings table' where
  operations_eq := by
    refine operations_congr fun key => ?_
    rw [iff_of_acceptAll isSome_find?_of_accept h, iff_of_acceptAll isSome_find?_of_accept h']
    simp only [hperm.mem_iff]
  intercepted_eq := by
    refine intercepted_congr fun key => ?_
    rw [iff_of_acceptAll isSome_owner?_of_accept h, iff_of_acceptAll isSome_owner?_of_accept h']
    simp only [hperm.mem_iff]

end Table

/-! ### Histories -/

/-- **Listings do not depend on the order of events.**

* After two histories with the same entries, told in whatever order and by whatever means,
  statistics have the same rows, totals, summary and report.
* The rows are those of the operations that have an entry, once each, with longer totals first and
  equal totals in the order of operations.
* The order of operations, by display name and then by type name, is a strict total order: these
  two names determine the operation. So is the order of rows, for rows of different operations.
* A table lists the operations that are defined, and those that are owned, in this order, once
  each; and nothing but which these are has an influence on it.
* So it lists the same, whatever the order in which they came to be defined or owned. -/
theorem listings_of_history {σ : Type} :
    (∀ inputs inputs', (Statistics.entriesOf inputs).Perm (Statistics.entriesOf inputs') →
      (Statistics.after inputs).SameListings (Statistics.after inputs')) ∧
      (∀ inputs, (Statistics.after inputs).Lists (Statistics.entriesOf inputs)) ∧
      Listing.Strict ∧
      (∀ table : Table σ, table.Lists) ∧
      ∀ (start table table' : Table σ) (arrivals arrivals' : List (Table.Arrival σ)),
        arrivals.Perm arrivals' → start.acceptAll arrivals = .ok table →
          start.acceptAll arrivals' = .ok table' → table.SameListings table' := by
  refine ⟨fun inputs inputs' hperm => ?_, fun inputs => (Statistics.Reflects.after inputs).lists,
    Listing.strict, Table.lists, fun _ _ _ _ _ => Table.SameListings.of_perm⟩
  exact .of_perm ((Statistics.Reflects.after inputs).perm (.after inputs') hperm)

end Interception
