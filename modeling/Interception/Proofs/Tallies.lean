import Interception.Statistics
import Mathlib.Algebra.Group.Action.Defs
import Mathlib.Algebra.GroupWithZero.Nat
import Mathlib.Algebra.Order.BigOperators.Group.List
import Mathlib.Algebra.Order.Ring.Nat
import Mathlib.Data.Finset.Card
import Mathlib.Order.Bounds.Basic

/-!
# What statistics say of what they were told

Statistics are told of calls in several ways: by records, one at a time or together, and by bare
durations. Whichever way, what they take in is *entries*, operations with durations, and what they
come to can be said of the entries without saying how and in which order these came
(`Interception.Statistics.tallies_of_history`).

| what is kept up | for one entry more | for a history |
|---|---|---|
| a tally and the durations of its operation (`Tally.Sums`) | `Sums.add` | |
| all tallies, and the totals (`Statistics.Reflects`) | `Reflects.addDuration` | `Reflects.after` |

The totals are about the entries of a directory as a whole: `Directory.total_put` says what
entering one of them does to a sum over all.
-/

namespace Interception

/-! ### Sums over a directory -/

namespace Directory

variable {κ α : Type} [DecidableEq κ]

/-- The sum of a measure over all entries. -/
def total (measure : α → Nat) (d : Directory κ α) : Nat :=
  (d.entries.map fun entry => measure entry.2).sum

/-- Replacing the one entry of a name in a list. -/
theorem sum_map_replace (measure : α → Nat) {key : κ} {old : α} (new : α) {l : List (κ × α)}
    (hnodup : (l.map Prod.fst).Nodup) (hmem : (key, old) ∈ l) :
    (l.map fun entry => measure (if entry.1 = key then new else entry.2)).sum + measure old =
      (l.map fun entry => measure entry.2).sum + measure new := by
  induction l with
  | nil => cases hmem
  | cons entry rest ih =>
    obtain ⟨hnew, hrest⟩ := List.nodup_cons.mp hnodup
    rw [List.map_cons, List.map_cons, List.sum_cons, List.sum_cons]
    rcases List.mem_cons.mp hmem with rfl | hmem
    -- the entry is the first one, and no other one has its name
    · have hothers : (rest.map fun entry => measure (if entry.1 = key then new else entry.2)) =
          rest.map fun entry => measure entry.2 := by
        refine List.map_congr_left fun other hother => ?_
        have hne : other.1 ≠ key := fun he => hnew (List.mem_map.mpr ⟨other, hother, he⟩)
        rw [if_neg hne]
      rw [hothers, if_pos rfl, Nat.add_right_comm, Nat.add_comm (measure new)]
      exact Nat.add_right_comm ..
    · have hne : entry.1 ≠ key := fun he => hnew (List.mem_map.mpr ⟨_, hmem, he.symm⟩)
      have hsum := ih hrest hmem
      rw [if_neg hne]
      omega

/-- **Entering something** adds it to a sum, and takes away what stood under its name. -/
theorem total_put (measure : α → Nat) (key : κ) (new : α) (d : Directory κ α) :
    (d.put key new).total measure + (d.find? key).elim 0 measure =
      d.total measure + measure new := by
  unfold put
  split
  · next hmem =>
    obtain ⟨old, hold⟩ := Option.isSome_iff_exists.mp (isSome_find?_iff.mpr hmem)
    have hentries : ((d.adjust key fun _ => new).entries.map fun entry => measure entry.2) =
        d.entries.map fun entry => measure (if entry.1 = key then new else entry.2) := by
      simp [adjust, mapEntries, Function.comp_def]
    rw [hold, Option.elim_some, total, hentries]
    exact sum_map_replace measure new d.nodup (find?_eq_some_iff.mp hold)
  · next hnot =>
    rw [find?_eq_none_iff.mpr hnot]
    simp [total]

end Directory

/-! ### What a tally says of durations -/

/-- **What a tally says of the durations it has counted**: how many there are, what they come to,
and which is the least and which the greatest. -/
structure Tally.Sums (tally : Tally) (durations : List Nat) : Prop where
  calls_eq : tally.calls = durations.length
  total_eq : tally.total = durations.sum
  isLeast : durations ≠ [] → IsLeast {micros | micros ∈ durations} tally.least
  isGreatest : durations ≠ [] → IsGreatest {micros | micros ∈ durations} tally.greatest

namespace Tally.Sums

variable {tally other : Tally} {durations durations' : List Nat}

theorem empty : Tally.empty.Sums [] :=
  ⟨rfl, rfl, absurd rfl, absurd rfl⟩

/-- **One more duration.** The first one is both the least and the greatest, whatever the tally
showed when it had counted nothing. -/
theorem add (h : tally.Sums durations) (micros : Nat) :
    (tally.add micros).Sums (durations ++ [micros]) := by
  have hinsert : {m | m ∈ durations ++ [micros]} = insert micros {m | m ∈ durations} := by
    ext m
    simp [or_comm]
  have hnone : tally.calls = 0 ↔ durations = [] := by
    rw [h.calls_eq, List.length_eq_zero_iff]
  refine ⟨?_, ?_, fun _ => ?_, fun _ => ?_⟩
  · rw [Tally.add, h.calls_eq, List.length_append, List.length_singleton]
  · rw [Tally.add, h.total_eq, List.sum_append, List.sum_singleton]
  · rw [hinsert]
    by_cases hnil : durations = []
    · simp [Tally.add, hnone.mpr hnil, hnil]
    · have hmin : (tally.add micros).least = min micros tally.least := by
        rw [Tally.add, if_neg (mt hnone.mp hnil), min_comm]
      rw [hmin]
      exact (h.isLeast hnil).insert micros
  · rw [hinsert]
    by_cases hnil : durations = []
    · simp [Tally.add, hnone.mpr hnil, hnil]
    · have hmax : (tally.add micros).greatest = max micros tally.greatest := by
        simp only [Tally.add, if_neg (mt hnone.mp hnil), max_comm]
      rw [hmax]
      exact (h.isGreatest hnil).insert micros

/-- **The durations determine the tally**, and their order does not matter. -/
theorem eq_of_perm (h : tally.Sums durations) (h' : other.Sums durations')
    (hperm : durations.Perm durations') (hne : durations ≠ []) : tally = other := by
  have hset : {micros | micros ∈ durations'} = {micros | micros ∈ durations} :=
    Set.ext fun _ => hperm.mem_iff.symm
  have hne' : durations' ≠ [] := fun hnil => hne (hnil ▸ hperm).eq_nil
  have hleast := (h.isLeast hne).unique (hset ▸ h'.isLeast hne')
  have hgreatest := (h.isGreatest hne).unique (hset ▸ h'.isGreatest hne')
  have hcalls : tally.calls = other.calls := by rw [h.calls_eq, h'.calls_eq, hperm.length_eq]
  have htotal : tally.total = other.total := by rw [h.total_eq, h'.total_eq, hperm.sum_eq]
  obtain ⟨calls, total, least, greatest⟩ := tally
  obtain ⟨calls', total', least', greatest'⟩ := other
  cases hcalls
  cases htotal
  cases hleast
  cases hgreatest
  rfl

theorem calls_pos (h : tally.Sums durations) (hne : durations ≠ []) : 0 < tally.calls := by
  rw [h.calls_eq]
  exact List.length_pos_iff.mpr hne

/-- The mean is not below the least duration. -/
theorem least_le_average (h : tally.Sums durations) (hne : durations ≠ []) :
    tally.least ≤ tally.average := by
  have hsum : durations.length • tally.least ≤ durations.sum :=
    List.card_nsmul_le_sum durations tally.least fun _ hmem => (h.isLeast hne).2 hmem
  rw [smul_eq_mul, ← h.calls_eq, ← h.total_eq, Nat.mul_comm] at hsum
  exact (Nat.le_div_iff_mul_le (h.calls_pos hne)).mpr hsum

/-- The mean is not above the greatest duration. -/
theorem average_le_greatest (h : tally.Sums durations) (hne : durations ≠ []) :
    tally.average ≤ tally.greatest := by
  have hsum : durations.sum ≤ durations.length • tally.greatest :=
    List.sum_le_card_nsmul durations tally.greatest fun _ hmem => (h.isGreatest hne).2 hmem
  rw [smul_eq_mul, ← h.calls_eq, ← h.total_eq] at hsum
  exact Nat.div_le_of_le_mul hsum

end Tally.Sums

/-! ### Entries -/

theorem Record.eq_ofSpan_of_make? {callId : Nat} {key : Key} {start : Instant} {span : Span}
    {record : Record} (h : make? callId key start span = some record) :
    record = ofSpan callId key start span := by
  rw [make?] at h
  split at h
  · exact (Option.some.inj h).symm
  · cases h

/-- What statistics take in of a record: its operation, and how long the call took. -/
def Record.entry (record : Record) : Key × Nat :=
  (record.key, record.micros)

namespace Statistics

/-- **A way to tell statistics of calls.** -/
inductive Input where
  /-- The record of a call. -/
  | recorded (record : Record)
  /-- The duration of a call of an operation, in microseconds. -/
  | lasted (key : Key) (micros : Nat)
  /-- Several records together. -/
  | batch (records : List Record)

/-- The calls that statistics are told of, as operations with durations. -/
def Input.entries : Input → List (Key × Nat)
  | .recorded record => [record.entry]
  | .lasted key micros => [(key, micros)]
  | .batch records => records.map Record.entry

/-- Takes in what is told. -/
def feed (s : Statistics) : Input → Statistics
  | .recorded record => s.add record
  | .lasted key micros => s.addDuration key micros
  | .batch records => s.addAll records

/-- **Statistics after a history**: nothing at first, and then one thing told after the other. -/
def after (inputs : List Input) : Statistics :=
  inputs.foldl feed .empty

theorem after_append_singleton (inputs : List Input) (input : Input) :
    after (inputs ++ [input]) = (after inputs).feed input := by
  rw [after, List.foldl_append]
  rfl

/-- All that a history tells. -/
def entriesOf (inputs : List Input) : List (Key × Nat) :=
  inputs.flatMap Input.entries

/-- The durations of the entries of an operation, in order. -/
def durationsOf (entries : List (Key × Nat)) (key : Key) : List Nat :=
  (entries.filter fun entry => entry.1 = key).map Prod.snd

theorem mem_durationsOf_iff {entries : List (Key × Nat)} {key : Key} {micros : Nat} :
    micros ∈ durationsOf entries key ↔ (key, micros) ∈ entries := by
  simp [durationsOf]

theorem durationsOf_eq_nil_iff {entries : List (Key × Nat)} {key : Key} :
    durationsOf entries key = [] ↔ key ∉ entries.map Prod.fst := by
  simp [List.eq_nil_iff_forall_not_mem, mem_durationsOf_iff]

theorem durationsOf_append_singleton (entries : List (Key × Nat)) (key other : Key) (micros : Nat) :
    durationsOf (entries ++ [(key, micros)]) other =
      if other = key then durationsOf entries key ++ [micros] else durationsOf entries other := by
  by_cases h : other = key
  · simp [durationsOf, h]
  · simp [durationsOf, h, Ne.symm h]

theorem length_durationsOf (entries : List (Key × Nat)) (key : Key) :
    (durationsOf entries key).length = (entries.map Prod.fst).count key := by
  rw [durationsOf, List.length_map, List.count, List.countP_map, List.countP_eq_length_filter]
  rfl

theorem durationsOf_sublist (entries : List (Key × Nat)) (key : Key) :
    (durationsOf entries key).Sublist (entries.map Prod.snd) :=
  List.filter_sublist.map Prod.snd

/-! ### What statistics say of entries -/

/-- **Statistics that reflect entries**: they know the operations that have an entry, and no
others; each tally says what there is to say of the durations of its operation; and the totals are
those of all entries. -/
structure Reflects (s : Statistics) (entries : List (Key × Nat)) : Prop where
  find?_eq_none_iff : ∀ key, s.find? key = none ↔ durationsOf entries key = []
  sums : ∀ key tally, s.find? key = some tally → tally.Sums (durationsOf entries key)
  calls_eq : s.totals.calls = entries.length
  total_eq : s.totals.total = (entries.map Prod.snd).sum

theorem calls_totals (s : Statistics) : s.totals.calls = s.tallies.total Tally.calls := by
  rw [totals, Directory.total, List.sum_eq_foldl, List.foldl_map]

theorem total_totals (s : Statistics) : s.totals.total = s.tallies.total Tally.total := by
  rw [totals, Directory.total, List.sum_eq_foldl, List.foldl_map]

/-- **One more call** adds to a sum over all tallies what it adds to a tally, if a tally that has
counted nothing does not count. -/
theorem total_addDuration {measure : Tally → Nat} {micros more : Nat} (s : Statistics) (key : Key)
    (hempty : measure .empty = 0)
    (hadd : ∀ tally, measure (tally.add micros) = measure tally + more) :
    (s.addDuration key micros).tallies.total measure = s.tallies.total measure + more := by
  have hput := Directory.total_put measure key (((s.find? key).getD .empty).add micros) s.tallies
  have hold : measure ((s.find? key).getD .empty) = (s.tallies.find? key).elim 0 measure := by
    rw [find?]
    cases s.tallies.find? key with
    | none => exact hempty
    | some old => rfl
  have hentered : (s.addDuration key micros).tallies = s.tallies.put key
      (((s.find? key).getD .empty).add micros) := rfl
  rw [hadd, hold, ← hentered] at hput
  omega

namespace Reflects

variable {s : Statistics} {entries : List (Key × Nat)}

theorem empty : Reflects .empty [] where
  find?_eq_none_iff key := iff_of_true rfl rfl
  sums key tally h := by cases h
  calls_eq := rfl
  total_eq := rfl

/-- **One more entry.** -/
theorem addDuration (h : s.Reflects entries) (key : Key) (micros : Nat) :
    (s.addDuration key micros).Reflects (entries ++ [(key, micros)]) where
  find?_eq_none_iff other := by
    rw [find?_addDuration, durationsOf_append_singleton]
    by_cases hkey : other = key
    · simp [hkey]
    · simp [hkey, h.find?_eq_none_iff]
  sums other tally hfind := by
    rw [find?_addDuration] at hfind
    rw [durationsOf_append_singleton]
    by_cases hkey : other = key
    · rw [if_pos hkey] at hfind ⊢
      obtain rfl := Option.some.inj hfind
      refine Tally.Sums.add ?_ micros
      -- an operation that is new starts from nothing
      cases hold : s.find? key with
      | none => rw [(h.find?_eq_none_iff key).mp hold]; exact .empty
      | some old => exact h.sums key old hold
    · rw [if_neg hkey] at hfind ⊢
      exact h.sums other tally hfind
  calls_eq := by
    rw [calls_totals, total_addDuration s key rfl fun _ => rfl, ← calls_totals, h.calls_eq,
      List.length_append, List.length_singleton]
  total_eq := by
    rw [total_totals, total_addDuration s key rfl fun _ => rfl, ← total_totals, h.total_eq,
      List.map_append, List.sum_append, List.map_singleton, List.sum_singleton]

/-- Several records are taken in one by one. -/
theorem addAll (h : s.Reflects entries) (records : List Record) :
    (s.addAll records).Reflects (entries ++ records.map Record.entry) := by
  induction records generalizing s entries with
  | nil => simpa [Statistics.addAll] using h
  | cons record rest ih =>
    have hrest := ih (h.addDuration record.key record.micros)
    rw [List.append_assoc] at hrest
    exact hrest

theorem feed (h : s.Reflects entries) (input : Input) :
    (s.feed input).Reflects (entries ++ input.entries) := by
  cases input with
  | recorded record => exact h.addDuration record.key record.micros
  | lasted key micros => exact h.addDuration key micros
  | batch records => exact h.addAll records

/-- **After any history, statistics reflect what was told.** -/
theorem after (inputs : List Input) : (after inputs).Reflects (entriesOf inputs) := by
  have hrun : ∀ (s : Statistics) (entries : List (Key × Nat)), s.Reflects entries →
      (inputs.foldl Statistics.feed s).Reflects (entries ++ entriesOf inputs) := by
    induction inputs with
    | nil => exact fun s entries h => by simpa [entriesOf] using h
    | cons input rest ih =>
      intro s entries h
      have hrest := ih _ _ (h.feed input)
      rw [List.append_assoc] at hrest
      exact hrest
  exact hrun .empty [] .empty

theorem isSome_find?_iff (h : s.Reflects entries) (key : Key) :
    (s.find? key).isSome ↔ key ∈ entries.map Prod.fst := by
  rw [← Option.ne_none_iff_isSome, Ne, h.find?_eq_none_iff, durationsOf_eq_nil_iff, not_not]

/-- A tally that is there has counted something. -/
theorem durationsOf_ne_nil (h : s.Reflects entries) {key : Key} {tally : Tally}
    (hfind : s.find? key = some tally) : durationsOf entries key ≠ [] := by
  rw [Ne, ← h.find?_eq_none_iff, hfind]
  nofun

/-- Nothing is known just if nothing was told. -/
theorem isEmpty_iff (h : s.Reflects entries) : s.isEmpty = true ↔ entries = [] := by
  have hkeys : s.tallies.keys = [] ↔ entries.map Prod.fst = [] := by
    simp only [List.eq_nil_iff_forall_not_mem, ← h.isSome_find?_iff]
    exact forall_congr' fun key => not_congr Directory.isSome_find?_iff.symm
  rw [isEmpty, List.isEmpty_iff, ← List.map_eq_nil_iff, ← List.map_eq_nil_iff (l := entries)]
  exact hkeys

/-- As many tallies as operations that have an entry. -/
theorem operations_eq (h : s.Reflects entries) :
    s.totals.operations = (entries.map Prod.fst).toFinset.card := by
  have hkeys : (entries.map Prod.fst).toFinset = s.tallies.keys.toFinset := by
    ext key
    rw [List.mem_toFinset, List.mem_toFinset, ← h.isSome_find?_iff]
    exact Directory.isSome_find?_iff
  rw [hkeys, List.toFinset_card_of_nodup s.tallies.nodup_keys]
  exact (List.length_map Prod.fst).symm

end Reflects

/-! ### Records -/

/-- An operation is known just if some record is for it. -/
theorem isSome_find?_addAll (records : List Record) (key : Key) :
    ((empty.addAll records).find? key).isSome ↔ key ∈ records.map Record.key := by
  rw [(Reflects.empty.addAll records).isSome_find?_iff]
  simp [Record.entry]

/-- **A tally has as many calls as there are records** for its operation. -/
theorem calls_of_find?_addAll {records : List Record} {key : Key} {tally : Tally}
    (h : (empty.addAll records).find? key = some tally) :
    tally.calls = (records.map Record.key).count key := by
  rw [((Reflects.empty.addAll records).sums key tally h).calls_eq, length_durationsOf,
    List.nil_append, List.map_map]
  rfl

/-- **All rows together have as many calls as there are records.** -/
theorem calls_totals_addAll (records : List Record) :
    (empty.addAll records).totals.calls = records.length := by
  rw [(Reflects.empty.addAll records).calls_eq, List.nil_append, List.length_map]

/-- The rows are the operations that are known, with their tallies. -/
theorem mem_sorted_iff {s : Statistics} {key : Key} {tally : Tally} :
    (key, tally) ∈ s.sorted ↔ s.find? key = some tally := by
  rw [sorted, List.mem_mergeSort, find?, Directory.find?_eq_some_iff]

/-! ### Histories -/

/-- **The tally of an operation** among some entries, where the totals are over all of them. -/
structure IsTally (entries : List (Key × Nat)) (totals : Totals) (key : Key) (tally : Tally) :
    Prop where
  /-- It counts the durations of the operation. -/
  calls_eq : tally.calls = (durationsOf entries key).length
  /-- It sums them up. -/
  total_eq : tally.total = (durationsOf entries key).sum
  isLeast : IsLeast {micros | (key, micros) ∈ entries} tally.least
  isGreatest : IsGreatest {micros | (key, micros) ∈ entries} tally.greatest
  /-- The mean is the quotient, rounded down. -/
  average_mul_le : tally.average * tally.calls ≤ tally.total
  total_lt : tally.total < (tally.average + 1) * tally.calls
  least_le_average : tally.least ≤ tally.average
  average_le_greatest : tally.average ≤ tally.greatest
  /-- It does not exceed the totals, so that nothing leaves a word of 64 bits where they do not. -/
  calls_le : tally.calls ≤ totals.calls
  total_le : tally.total ≤ totals.total

/-- **The totals of some entries**: how many operations they have, how many they are, and what their
durations add up to. -/
structure AreTotals (entries : List (Key × Nat)) (totals : Totals) : Prop where
  operations_eq : totals.operations = (entries.map Prod.fst).toFinset.card
  calls_eq : totals.calls = entries.length
  total_eq : totals.total = (entries.map Prod.snd).sum

/-- The totals reflect what the statistics reflect. -/
theorem Reflects.areTotals {s : Statistics} {entries : List (Key × Nat)} (h : s.Reflects entries) :
    AreTotals entries s.totals :=
  ⟨h.operations_eq, h.calls_eq, h.total_eq⟩

/-- So does the tally of any operation. -/
theorem Reflects.isTally {s : Statistics} {entries : List (Key × Nat)} (h : s.Reflects entries)
    {key : Key} {tally : Tally} (hfind : s.find? key = some tally) :
    IsTally entries s.totals key tally := by
  have hsums := h.sums key tally hfind
  have hne := h.durationsOf_ne_nil hfind
  have hset : {micros | (key, micros) ∈ entries} = {micros | micros ∈ durationsOf entries key} :=
    Set.ext fun _ => mem_durationsOf_iff.symm
  refine ⟨hsums.calls_eq, hsums.total_eq, ?_, ?_, Nat.div_mul_le_self .., ?_,
    hsums.least_le_average hne, hsums.average_le_greatest hne, ?_, ?_⟩
  · rw [hset]
    exact hsums.isLeast hne
  · rw [hset]
    exact hsums.isGreatest hne
  · rw [Nat.mul_comm]
    exact Nat.lt_mul_div_succ tally.total (hsums.calls_pos hne)
  · rw [hsums.calls_eq, h.calls_eq]
    exact (durationsOf_sublist entries key).length_le.trans_eq (List.length_map Prod.snd)
  · rw [hsums.total_eq, h.total_eq]
    exact (durationsOf_sublist entries key).sum_le_sum fun _ _ => Nat.zero_le _

/-- **Tallies are the statistics of what was told.** After any history of records, durations and
batches of records:

* an operation has a tally just if some entry is for it;
* the tally is that of its entries, and the totals are those of all entries;
* a record counts as its operation and its duration, and these are the operation that it was made
  for, which the names and the flag on it spell, and the span that it was made from. -/
theorem tallies_of_history (inputs : List Input) :
    let s := after inputs
    let entries := entriesOf inputs
    (∀ key, s.find? key = none ↔ ∀ micros, (key, micros) ∉ entries) ∧
      (∀ key tally, s.find? key = some tally → IsTally entries s.totals key tally) ∧
      AreTotals entries s.totals ∧
      (∀ record, after (inputs ++ [.recorded record]) =
        after (inputs ++ [.lasted record.key record.micros])) ∧
      ∀ callId key start span record, Record.make? callId key start span = some record →
        ⟨record.key.typeName, record.key.operation,
            .ofIsInstance record.key.level.isInstance⟩ = key ∧
          after (inputs ++ [.recorded record]) = after (inputs ++ [.lasted key span.micros]) := by
  intro s entries
  have h : s.Reflects entries := .after inputs
  have hrecord : ∀ record, after (inputs ++ [.recorded record]) =
      after (inputs ++ [.lasted record.key record.micros]) := by
    intro record
    rw [after_append_singleton, after_append_singleton]
    rfl
  refine ⟨fun key => ?_, fun key tally => h.isTally, h.areTotals, hrecord, ?_⟩
  · rw [h.find?_eq_none_iff, List.eq_nil_iff_forall_not_mem]
    simp only [mem_durationsOf_iff]
  · intro callId key start span record hmake
    obtain rfl := Record.eq_ofSpan_of_make? hmake
    refine ⟨by simp [Record.ofSpan], ?_⟩
    rw [hrecord, Record.micros, Record.elapsed_ofSpan]
    rfl

end Statistics

end Interception
