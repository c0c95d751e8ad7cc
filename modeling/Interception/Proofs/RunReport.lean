import Interception.Proofs.Accounting
import Interception.Proofs.GivingBack
import Mathlib.Data.List.Nodup
import Mathlib.Data.List.Perm.Basic

/-!
# The report of a demonstration run

A run is set up, takes turns in any order, and is concluded. Whatever the order, the report at the
end accounts for every call of a target (`Interception.accounting_of_run`).

* In the beginning, nothing has been handed in, and the threads owe everything
  (`Demonstration.begin?_eq_ok`).
* In the end, no drain is under way, nothing waits and nothing is owed
  (`Demonstration.Accounts.conclude`), so that the records that were handed in are, up to order,
  those of the whole run: as many for each operation that is timed as there are threads and
  iterations (`Demonstration.count_expected`).
* Such an outcome adds up (`RunOutcome.AddsUp`). If interceptors are enabled, its report covers the
  run (`Demonstration.Closed.covers`). If records are kept, it is the report of these records
  (`Demonstration.Closed.isOfRecords`).

What the report says of the records that were drained is said in `Interception.Proofs.Tallies`, and
that drained and dropped records are all there are is balance (`Ledger.Balanced`).
-/

namespace Interception

namespace Demonstration

/-! ### Setting up a run -/

/-- **What is done is a valid configuration**, on one thread at least. -/
theorem validate_of_settle? {options : Options} {file : String → Option ByteArray}
    {settled : Config} (h : settle? options file = .ok settled) :
    0 < options.threads ∧ settled.validate = none := by
  rw [settle?] at h
  split at h
  · cases h
  · next hthreads =>
    refine ⟨Nat.pos_of_ne_zero hthreads, ?_⟩
    split at h
    · obtain rfl := Except.ok.inj h
      exact validate_configured (by decide) options
    · next path _ =>
      split at h
      · next config hload =>
        obtain rfl := Except.ok.inj h
        rw [Config.load] at hload
        split at hload
        · cases hload
        · exact validate_configured (Config.validate_of_readToml hload) options
      · cases h

/-- The operations that a run times: the targets, unless interceptors start out disabled. -/
def timed (config : Config) (key : Key) : Bool :=
  config.enabledByDefault && decide (key ∈ config.targets)

/-- **The operations of the records of a whole run**: a round for each iteration, on each
thread. -/
def expected (options : Options) (config : Config) : List Key :=
  (List.replicate options.threads
    (List.replicate options.iterations (Calculator.round (timed config))).flatten).flatten

/-- Where the targets of the sample type are timed, the system serves the sample type. -/
theorem servedBy_of_timed {config : Config} {s s' : System Unit} {handles : List Handle}
    (htable : s.table = Calculator.table) (hkeys : handles.map Handle.key = config.targets)
    (h : System.Timed config.enabledByDefault 0 s handles s') :
    Calculator.ServedBy s' 0 (timed config) := by
  intro key body hbody
  have hfind : s.table.find? key = some (.free (.plain body)) := by
    rw [htable, Calculator.find?_table]
    simp only [Calculator.bodies, List.mem_cons, Prod.mk.injEq, List.not_mem_nil, or_false] at hbody
    rcases hbody with ⟨rfl, rfl⟩ | ⟨rfl, rfl⟩ | ⟨rfl, rfl⟩
    · rfl
    · rfl
    · rfl
  by_cases hmem : key ∈ config.targets
  -- a target: its interceptor stands around the body
  · rw [← hkeys] at hmem
    obtain ⟨handle, hhandle, rfl⟩ := List.mem_map.mp hmem
    have hown := h.owned handle hhandle
    rw [hfind] at hown
    have hinterceptor := h.timing handle hhandle
    refine .inr ⟨handle, rfl, ?_, ?_, ?_⟩
    · rw [Table.lookup, hown]
      rfl
    · rw [System.enabled, hinterceptor, timed, ← hkeys, decide_eq_true hmem, Bool.and_true]
      rfl
    · rw [System.hooks, hinterceptor]
      rfl
  -- any other operation: the body stands alone
  · have hother : s'.table.find? key = s.table.find? key := by
      refine h.others key fun handle hhandle he => hmem ?_
      rw [← hkeys, ← he]
      exact List.mem_map_of_mem hhandle
    refine .inl ⟨?_, ?_⟩
    · rw [Table.lookup, hother, hfind]
      rfl
    · rw [timed, decide_eq_false hmem, Bool.and_false]

/-- A run in which nobody has taken a turn. -/
def opened (options : Options) (handles : List Handle) (s : System Unit) : Demonstration :=
  { crew :=
      { threads :=
          List.replicate options.threads ((Calculator.workload options.iterations).thread depth)
        system := s }
    collector := 0
    handles
    keepRecords := options.records
    batch := #[]
    statistics := .empty
    records := #[] }

/-- **A run that is set up**: the books are new, and the threads owe all records. -/
theorem begin?_eq_ok {options : Options} {config : Config} (hvalid : config.validate = none)
    (htargets : ∀ target ∈ config.targets, target ∈ Calculator.operations)
    (hsum : IsInt64 (Calculator.sumUpTo options.iterations)) (clock : Clock) :
    ∃ handles s ledger, begin? options config clock = .ok (opened options handles s) ∧
      Accounts s config (expected options config)
        (.ok (.int (Calculator.sumUpTo options.iterations))) ledger (opened options handles s) := by
  obtain ⟨hroom, -, hnodup⟩ := Config.validate_eq_none_iff.mp hvalid
  obtain ⟨c, hc⟩ : ∃ c, Collector.new? config.collectorCapacity config.threshold?
      config.captureArguments = some c := ⟨_, dif_pos hroom⟩
  have htimed := System.timeEach_of_unowned config 0 hnodup []
    { Calculator.defined clock () with collectors := [c] } fun target _ =>
      Calculator.owner?_table target
  have hdefined : config.targets.find? (fun target =>
      ((Calculator.defined clock ()).table.find? target).isNone) = none := by
    rw [List.find?_eq_none]
    intro target htarget
    have hisNone : ((Calculator.defined clock ()).table.find? target).isNone = _ :=
      Calculator.isNone_find?_table target
    rw [hisNone]
    simpa using htargets target htarget
  dsimp only at htimed
  rw [hdefined] at htimed
  obtain ⟨handles, s, hok, hkeys, hs⟩ := htimed
  have hserved : Calculator.ServedBy s 0 (timed config) := servedBy_of_timed rfl hkeys hs
  refine ⟨handles, s, .opened c, ?_, ?_⟩
  · have hcreate : (Calculator.defined clock ()).createCollector config.collectorCapacity
        config.threshold? config.captureArguments =
          (some 0, { Calculator.defined clock () with collectors := [c] }) := by
      rw [System.createCollector, hc]
      rfl
    have htargeted : System.timeTargets { Calculator.defined clock () with collectors := [c] }
        config 0 = (.ok handles, s) := hok
    rw [begin?]
    simp only [Calculator.execute_define, hcreate, htargeted]
    rfl
  · refine ⟨.opened hc, ⟨⟨rfl, rfl⟩, ?_⟩, ⟨expected options config, ?_, .refl _⟩,
      [], ⟨rfl, (ite_self _).symm⟩, rfl⟩
    · rw [show (opened options handles s).crew.system = s from rfl, hs.collectors_eq]
      rfl
    · exact ThreadsOwe.replicate (Calculator.owes_workload hserved 15 hsum) options.threads

/-! ### The records of a whole run -/

theorem mem_round {config : Config} {key : Key} :
    key ∈ Calculator.round (timed config) ↔ key ∈ Calculator.operations ∧ timed config key = true :=
  List.mem_filter

theorem nodup_round (config : Config) : (Calculator.round (timed config)).Nodup :=
  List.Nodup.filter _ (by decide)

/-- **Each operation that is timed** has as many records as there are threads and iterations. -/
theorem count_expected (options : Options) (config : Config) (key : Key) :
    (expected options config).count key =
      if key ∈ Calculator.operations ∧ timed config key = true then
        options.threads * options.iterations
      else 0 := by
  have hround : (Calculator.round (timed config)).count key =
      if key ∈ Calculator.operations ∧ timed config key = true then 1 else 0 := by
    rw [(nodup_round config).count]
    simp only [mem_round]
  rw [expected]
  simp only [List.count_flatten, List.map_replicate, List.sum_replicate_nat, hround]
  split
  · rw [Nat.mul_one]
  · rfl

/-- Where every target is an operation of the sample type, and interceptors start out enabled,
there is a record for each target, thread and iteration. -/
theorem length_expected (options : Options) {config : Config} (hvalid : config.validate = none)
    (htargets : ∀ target ∈ config.targets, target ∈ Calculator.operations)
    (henabled : config.enabledByDefault = true) :
    (expected options config).length =
      config.targets.length * (options.threads * options.iterations) := by
  obtain ⟨-, -, hnodup⟩ := Config.validate_eq_none_iff.mp hvalid
  -- a round visits the targets, in an order of its own
  have hround : (Calculator.round (timed config)).Perm config.targets := by
    refine (List.perm_ext_iff_of_nodup (nodup_round config) hnodup).mpr fun key => ?_
    have htimed : timed config key = true ↔ key ∈ config.targets := by
      simp [timed, henabled]
    rw [mem_round, htimed]
    exact ⟨And.right, fun hmem => ⟨htargets key hmem, hmem⟩⟩
  have hlength := hround.length_eq
  rw [expected]
  simp only [List.length_flatten, List.map_replicate, List.sum_replicate_nat, hlength]
  rw [← Nat.mul_assoc, Nat.mul_comm]

theorem expected_of_disabled {options : Options} {config : Config}
    (hdisabled : config.enabledByDefault = false) : expected options config = [] := by
  have hround : Calculator.round (timed config) = [] := by
    rw [Calculator.round, List.filter_eq_nil_iff]
    intro key _
    simp [timed, hdisabled]
  simp [expected, hround]

/-! ### What turns leave alone -/

theorem length_threads_drainOn (run : Demonstration) :
    run.drainOn.crew.threads.length = run.crew.threads.length ∧
      run.drainOn.keepRecords = run.keepRecords := by
  obtain ⟨-, h⟩ | ⟨-, out, system, -, ⟨-, h⟩ | ⟨-, h⟩⟩ := run.drainOn_cases
  all_goals
    rw [h]
    exact ⟨rfl, rfl⟩

theorem length_threads_takeAll (run : Demonstration) (turns : List Turn) :
    (run.takeAll turns).crew.threads.length = run.crew.threads.length ∧
      (run.takeAll turns).keepRecords = run.keepRecords := by
  induction turns generalizing run with
  | nil => exact ⟨rfl, rfl⟩
  | cons turn turns ih =>
    have hturn : (run.take turn).crew.threads.length = run.crew.threads.length ∧
        (run.take turn).keepRecords = run.keepRecords := by
      cases turn with
      | work member =>
        rw [take, Crew.step]
        split
        · exact ⟨List.length_set, rfl⟩
        · exact ⟨rfl, rfl⟩
      | drain => exact run.length_threads_drainOn
    obtain ⟨hlength, hkeep⟩ := ih (run.take turn)
    exact ⟨hlength.trans hturn.1, hkeep.trans hturn.2⟩

/-! ### Concluding a run -/

/-- The sum of equal results. It stays in range because it never sinks. -/
theorem checksum_replicate {value : Nat} (hvalue : IsInt64 value) (count sum : Nat)
    (hsum : IsInt64 (sum + count * value : Nat)) :
    checksum (List.replicate count (.ok (.ok (.int value)))) sum =
      .ok (sum + count * value : Nat) := by
  induction count generalizing sum with
  | zero => simp [checksum]
  | succ count ih =>
    have htotal : sum + value + count * value = sum + (count + 1) * value := by
      rw [Nat.succ_mul]
      omega
    have hint : (Value.int value).int64? = some (value : Int) := by
      rw [Value.int64?, if_pos hvalue]
    have hnext : IsInt64 ((sum : Int) + value) := by
      rw [← htotal] at hsum
      unfold IsInt64 at hsum ⊢
      omega
    have hrest := ih (sum + value) (htotal ▸ hsum)
    rw [htotal, Int.natCast_add] at hrest
    rw [List.replicate_succ, checksum, hint, Option.getD_some, if_pos hnext]
    exact hrest

/-- **The books of a run that is over**: all records were handed in, none of them waits, and the
outcome is that of those that were drained. -/
structure Closed (config : Config) (expected : List Key) (keepRecords : Bool)
    (outcome : RunOutcome) (ledger : Ledger) : Prop where
  /-- The books are as they should be. -/
  fair : ledger.Fair config
  /-- All records were handed in. -/
  keys_perm : (ledger.handedIn.map Record.key).Perm expected
  /-- Those that were kept were drained. -/
  drained_eq : ledger.drained = ledger.accepted
  /-- Those that were not are counted. -/
  dropped_eq : outcome.dropped = ledger.collector.dropped
  /-- The statistics are those of what was drained. -/
  statistics_eq : outcome.statistics = Statistics.empty.addAll ledger.drained
  /-- So are the records, where they are kept. -/
  records_eq : outcome.records = if keepRecords then ledger.drained.toArray else #[]

/-- Concluding a run whose threads add up to something. Giving up the interceptors and emptying the
table leaves the collector alone. -/
theorem conclude_eq_ok {run : Demonstration} {results : List (Except Fault (Except Failure Value))}
    {s s' s'' : System Unit} {sum : Int} {rest left : List Record}
    (hfinish : run.crew.finish = (results, s)) (hsum : checksum results 0 = .ok sum)
    (hrest : s.drain run.collector (batchSize - run.batch.size) = (rest, s'))
    (hleft : s'.drainAll run.collector = (left, s'')) :
    let closed := (run.absorb (run.batch.toList ++ rest)).absorb left
    run.conclude =
      (.ok
        { checksum := sum
          dropped := (s''.viewCollector run.collector).dropped
          statistics := closed.statistics
          records := closed.records },
        (s''.dropAll run.handles).reset) := by
  have hcollectors : (s''.dropAll run.handles).reset.collectors = s''.collectors :=
    System.collectors_dropAll ..
  have hview : (s''.dropAll run.handles).reset.viewCollector run.collector =
      s''.viewCollector run.collector := by
    rw [System.viewCollector, hcollectors, System.viewCollector]
  rw [conclude, hfinish]
  dsimp only
  rw [hrest]
  dsimp only
  rw [hsum, hleft, ← hview]
  rfl

/-- **Concluding a run** closes its books. The sum is that of all threads, and nothing is left in
the table. -/
theorem Accounts.conclude {setting : System Unit} {config : Config} {expected : List Key}
    {value : Nat} {ledger : Ledger} {run : Demonstration}
    (h : Accounts setting config expected (.ok (.int value)) ledger run) (hvalue : IsInt64 value)
    (hsum : IsInt64 (run.crew.threads.length * value : Nat)) :
    ∃ closed outcome s, run.conclude = (.ok outcome, s) ∧ s.table = .empty ∧
      outcome.checksum = (run.crew.threads.length * value : Nat) ∧
        Closed config expected run.keepRecords outcome closed := by
  obtain ⟨owed, howed, hperm⟩ := h.owed
  obtain ⟨records, htaken, hbatch⟩ := h.drained
  obtain ⟨paid, s, hfinish, hpaid, hkeeps⟩ := howed.finish h.keeps
  -- the drain under way comes to its end, and then everything that waits is drained
  have hfair := (hpaid.fair h.fair).carry (.drain (batchSize - run.batch.size))
  obtain ⟨hended, hrest⟩ := hkeeps.drain (batchSize - run.batch.size)
  have hin : ((paid.carry (.drain (batchSize - run.batch.size))).handedIn.map Record.key).Perm
      expected := (List.Perm.of_eq hpaid.keys_eq).trans hperm
  generalize paid.carry (.drain (batchSize - run.batch.size)) = ended at hfair hended hrest hin
  generalize hs : s.drain run.collector (batchSize - run.batch.size) = out at hended hrest
  obtain ⟨rest, s'⟩ := out
  obtain ⟨hclosed, hleft⟩ := hended.drainAll
  generalize hs' : s'.drainAll run.collector = out at hclosed hleft
  obtain ⟨left, s''⟩ := out
  -- what was drained has all been taken in
  rw [hrest, hpaid.drained_eq, hbatch, List.append_assoc records] at hleft
  obtain ⟨hstatistics, hrecords⟩ := (htaken.absorb (run.batch.toList ++ rest)).absorb left
  rw [← hleft] at hstatistics hrecords
  have hchecksum := checksum_replicate hvalue run.crew.threads.length 0 (by rwa [Nat.zero_add])
  rw [Nat.zero_add, Int.natCast_zero] at hchecksum
  exact ⟨ended.carry .drainAll, _, _, conclude_eq_ok hfinish hchecksum hs hs', rfl, rfl,
    hfair.carry _, hin, hfair.drained_carry_drainAll, hclosed.dropped_viewCollector, hstatistics,
    hrecords⟩

end Demonstration

/-! ### The report -/

/-- The report of an outcome has its statistics, its records, and the number of those that were
dropped. -/
theorem RunOutcome.report_eq (outcome : RunOutcome) :
    outcome.report =
      { records := outcome.records
        rows := outcome.statistics.sorted
        totalCalls := outcome.statistics.totals.calls
        totalTime := outcome.statistics.totals.total
        dropped := outcome.dropped } := by
  have hadd : ∀ (records : List Record) (report : Report), records.foldl Report.addRecord report =
      { report with records := report.records ++ records.toArray } := by
    intro records
    induction records with
    | nil => exact fun report => by simp
    | cons record rest ih =>
      intro report
      rw [List.foldl_cons, ih]
      simp [Report.addRecord]
  rw [report, ← Array.foldl_toList, hadd]
  simp [Report.withDropped, Report.ofStatistics, Report.empty]

namespace Demonstration.Closed

variable {config : Config} {expected : List Key} {keepRecords : Bool} {outcome : RunOutcome}
  {ledger : Ledger}

/-- **Calls that are counted and records that are dropped** come to the records of the whole
run. -/
theorem totalCalls_add_dropped (h : Closed config expected keepRecords outcome ledger) :
    outcome.report.totalCalls + outcome.report.dropped = expected.length := by
  have hlength := h.fair.balanced.length_handedIn
  have hexpected := h.keys_perm.length_eq
  rw [List.length_map] at hexpected
  rw [outcome.report_eq, h.statistics_eq, h.dropped_eq, h.drained_eq,
    Statistics.calls_totals_addAll]
  dsimp only
  omega

/-- A row is for an operation of the records of the run, and has no more calls than there are
such records. -/
theorem calls_le_of_mem_rows (h : Closed config expected keepRecords outcome ledger) {key : Key}
    {tally : Tally} (hrow : (key, tally) ∈ outcome.report.rows) :
    key ∈ expected ∧ tally.calls ≤ expected.count key := by
  rw [outcome.report_eq, h.statistics_eq, Statistics.mem_sorted_iff] at hrow
  have hkeys : (ledger.drained.map Record.key).Sublist (ledger.handedIn.map Record.key) := by
    rw [h.drained_eq]
    exact h.fair.balanced.accepted_sublist.map _
  have hknown := (Statistics.isSome_find?_addAll ledger.drained key).mp (hrow ▸ rfl)
  refine ⟨h.keys_perm.mem_iff.mp (hkeys.subset hknown), ?_⟩
  rw [Statistics.calls_of_find?_addAll hrow, ← h.keys_perm.count_eq]
  exact hkeys.count_le _

/-- **Where there was room for all records**, nothing is dropped, and each operation has a row that
counts all its records. -/
theorem complete_of_le (h : Closed config expected keepRecords outcome ledger)
    (hroom : expected.length ≤ config.collectorCapacity) :
    outcome.report.dropped = 0 ∧ ∀ key ∈ expected, ∃ tally, (key, tally) ∈ outcome.report.rows ∧
      tally.calls = expected.count key := by
  have hlength := h.keys_perm.length_eq
  rw [List.length_map] at hlength
  have hdropped : ledger.collector.dropped = 0 := h.fair.dropped_eq_zero (hlength ▸ hroom)
  -- what was kept is all that was handed in
  have hall : ledger.drained = ledger.handedIn := by
    rw [h.drained_eq]
    refine h.fair.balanced.accepted_sublist.eq_of_length ?_
    have hbalance := h.fair.balanced.length_handedIn
    omega
  rw [outcome.report_eq]
  refine ⟨h.dropped_eq.trans hdropped, fun key hkey => ?_⟩
  have hknown : key ∈ ledger.drained.map Record.key := by
    rw [hall]
    exact h.keys_perm.mem_iff.mpr hkey
  obtain ⟨tally, htally⟩ :=
    Option.isSome_iff_exists.mp ((Statistics.isSome_find?_addAll ledger.drained key).mpr hknown)
  refine ⟨tally, ?_, ?_⟩
  · rw [h.statistics_eq, Statistics.mem_sorted_iff]
    exact htally
  · rw [Statistics.calls_of_find?_addAll htally, hall, h.keys_perm.count_eq]

/-- Where there are no records of the run, the report is that of nothing. -/
theorem report_of_nil (h : Closed config [] keepRecords outcome ledger) :
    outcome.report = .empty := by
  have hin : ledger.handedIn = [] := List.map_eq_nil_iff.mp h.keys_perm.eq_nil
  have hdrained : ledger.drained = [] := by
    rw [h.drained_eq]
    exact List.sublist_nil.mp (hin ▸ h.fair.balanced.accepted_sublist)
  have hbalance := h.fair.balanced.length_handedIn
  rw [hin, List.length_nil] at hbalance
  have hdropped : outcome.dropped = 0 := by
    rw [h.dropped_eq]
    omega
  have hrecords : outcome.records = #[] := by
    rw [h.records_eq, hdrained, ite_self]
  have hstatistics : outcome.statistics = .empty := by
    rw [h.statistics_eq, hdrained]
    rfl
  have hsorted : Statistics.empty.sorted = [] := List.mergeSort_nil
  rw [outcome.report_eq, hdropped, hrecords, hstatistics, hsorted]
  rfl

end Demonstration.Closed

/-! ### Any run -/

/-- **A report covers a run** whose interceptors are enabled: of each call of a target, it has
either the call or the record that was dropped. -/
structure Report.Covers (options : Options) (config : Config) (report : Report) : Prop where
  /-- Calls that were counted and records that were dropped are one for each target, thread and
  iteration. -/
  totalCalls_add_dropped : report.totalCalls + report.dropped =
    config.targets.length * (options.threads * options.iterations)
  /-- Each row is for a target, and has no more calls than one for each thread and iteration. -/
  of_mem_rows : ∀ row ∈ report.rows,
    row.1 ∈ config.targets ∧ row.2.calls ≤ options.threads * options.iterations
  /-- No two rows are for the same operation. -/
  nodup : (report.rows.map Prod.fst).Nodup
  /-- If the collector has room for all records, none is dropped. -/
  dropped_eq_zero :
    config.targets.length * (options.threads * options.iterations) ≤ config.collectorCapacity →
      report.dropped = 0
  /-- Then every target has a row with all its calls. -/
  complete :
    config.targets.length * (options.threads * options.iterations) ≤ config.collectorCapacity →
      0 < options.iterations → ∀ target ∈ config.targets, ∃ tally,
        (target, tally) ∈ report.rows ∧ tally.calls = options.threads * options.iterations

/-- The statistics of the records in a report. -/
def Report.recount (report : Report) : Statistics :=
  Statistics.empty.addAll report.records.toList

/-- **A report is that of its records**: there are as many of them as calls that were counted, and
rows and totals are those of their statistics. -/
structure Report.IsOfRecords (report : Report) : Prop where
  size_eq : report.records.size = report.totalCalls
  rows_eq : report.rows = report.recount.sorted
  totalCalls_eq : report.totalCalls = report.recount.totals.calls
  totalTime_eq : report.totalTime = report.recount.totals.total

/-- **The outcome of a run adds up.** -/
structure RunOutcome.AddsUp (options : Options) (config : Config) (outcome : RunOutcome) :
    Prop where
  /-- The checksum is the sum of all threads. -/
  checksum_eq :
    outcome.checksum = (options.threads * Calculator.sumUpTo options.iterations : Nat)
  /-- If interceptors start out enabled, no call of a target is missing. -/
  enabled : config.enabledByDefault = true → outcome.report.Covers options config
  /-- If they start out disabled, the report is that of nothing. -/
  disabled : config.enabledByDefault = false →
    outcome.report.rows = [] ∧ outcome.report.records = #[] ∧ outcome.report.dropped = 0
  /-- If records are kept, the report is that of these records. -/
  kept : options.records = true → outcome.report.IsOfRecords

namespace Demonstration.Closed

variable {options : Options} {config : Config} {keepRecords : Bool} {outcome : RunOutcome}
  {ledger : Ledger}

/-- **If interceptors start out enabled**, what was handed in is what the targets were called. -/
theorem covers (h : Closed config (expected options config) keepRecords outcome ledger)
    (hthreads : 0 < options.threads) (hvalid : config.validate = none)
    (htargets : ∀ target ∈ config.targets, target ∈ Calculator.operations)
    (henabled : config.enabledByDefault = true) : outcome.report.Covers options config := by
  have hcount : ∀ key ∈ config.targets,
      (expected options config).count key = options.threads * options.iterations := by
    intro key hkey
    have htimed : timed config key = true := by simp [timed, henabled, hkey]
    rw [count_expected, if_pos ⟨htargets key hkey, htimed⟩]
  have hexpected := length_expected options hvalid htargets henabled
  refine ⟨h.totalCalls_add_dropped.trans hexpected, ?_, ?_, fun hroom => ?_, fun hroom => ?_⟩
  · rintro ⟨key, tally⟩ hrow
    obtain ⟨hmem, hle⟩ := h.calls_le_of_mem_rows hrow
    -- an operation that is not a target has no record
    have htarget : key ∈ config.targets := by
      by_contra hnot
      have hpos := List.count_pos_iff.mpr hmem
      have htimed : ¬(key ∈ Calculator.operations ∧ timed config key = true) := by
        rintro ⟨-, htimed⟩
        simp [timed, hnot] at htimed
      rw [count_expected, if_neg htimed] at hpos
      exact Nat.lt_irrefl 0 hpos
    exact ⟨htarget, (hcount key htarget) ▸ hle⟩
  · rw [outcome.report_eq]
    exact ((List.mergeSort_perm _ _).map _).nodup_iff.mpr outcome.statistics.tallies.nodup
  · exact (h.complete_of_le (hexpected ▸ hroom)).1
  -- there was room, and so all records of a target were kept
  · intro hiterations target htarget
    have hmem : target ∈ expected options config := by
      rw [← List.count_pos_iff, hcount target htarget]
      exact Nat.mul_pos hthreads hiterations
    obtain ⟨tally, hrow, hcalls⟩ := (h.complete_of_le (hexpected ▸ hroom)).2 target hmem
    exact ⟨tally, hrow, hcalls.trans (hcount target htarget)⟩

/-- **Where records are kept**, the report is that of the records in it. -/
theorem isOfRecords {expected : List Key} (h : Closed config expected true outcome ledger) :
    outcome.report.IsOfRecords := by
  have hrecords : outcome.records = ledger.drained.toArray := h.records_eq
  have hrecount : outcome.report.recount = outcome.statistics := by
    rw [Report.recount, outcome.report_eq, h.statistics_eq, hrecords]
  refine ⟨?_, ?_, ?_, ?_⟩
  · rw [outcome.report_eq]
    dsimp only
    rw [h.statistics_eq, Statistics.calls_totals_addAll, hrecords]
    rfl
  · rw [hrecount, outcome.report_eq]
  · rw [hrecount, outcome.report_eq]
  · rw [hrecount, outcome.report_eq]

end Demonstration.Closed

/-- **A demonstration run adds up, in whatever order turns are taken.** Take any options and files
that settle what is done, with targets among the operations of the sample type, and so many
iterations that the sum of all threads is in range. The run can be set up. After any turns, in
which threads carry out one action each and the drain takes out one record each, it is concluded
with an empty table and an outcome that adds up (`RunOutcome.AddsUp`). -/
theorem accounting_of_run {options : Options} {file : String → Option ByteArray} {settled : Config}
    (hsettle : Demonstration.settle? options file = .ok settled)
    (htargets : ∀ target ∈ settled.targets, target ∈ Calculator.operations)
    (hsum : IsInt64 (options.threads * Calculator.sumUpTo options.iterations : Nat))
    (clock : Clock) :
    ∃ run, Demonstration.begin? options settled clock = .ok run ∧
      ∀ turns, ∃ outcome s, (run.takeAll turns).conclude = (.ok outcome, s) ∧
        s.table = .empty ∧ outcome.AddsUp options settled := by
  obtain ⟨hthreads, hvalid⟩ := Demonstration.validate_of_settle? hsettle
  -- one thread's sum is in range because that of all threads is
  have hone : Calculator.sumUpTo options.iterations ≤
      options.threads * Calculator.sumUpTo options.iterations :=
    Nat.le_mul_of_pos_left _ hthreads
  have hvalue : IsInt64 (Calculator.sumUpTo options.iterations) := by
    unfold IsInt64 at hsum ⊢
    omega
  obtain ⟨handles, start, ledger, hbegin, haccounts⟩ :=
    Demonstration.begin?_eq_ok hvalid htargets hvalue clock
  refine ⟨_, hbegin, fun turns => ?_⟩
  obtain ⟨ledger', haccounts'⟩ := haccounts.takeAll turns
  obtain ⟨hlength, hkeep⟩ :=
    Demonstration.length_threads_takeAll (Demonstration.opened options handles start) turns
  have hlength' : (Demonstration.opened options handles start).crew.threads.length =
      options.threads := List.length_replicate
  rw [hlength'] at hlength
  obtain ⟨closed, outcome, s, hconclude, htable, hchecksum, hclosed⟩ :=
    haccounts'.conclude hvalue (hlength ▸ hsum)
  rw [hlength] at hchecksum
  refine ⟨outcome, s, hconclude, htable, hchecksum, hclosed.covers hthreads hvalid htargets,
    fun hdisabled => ?_, fun hrecords => ?_⟩
  · rw [Demonstration.expected_of_disabled hdisabled] at hclosed
    rw [hclosed.report_of_nil]
    exact ⟨rfl, rfl, rfl⟩
  · rw [hkeep, show (Demonstration.opened options handles start).keepRecords = true from hrecords]
      at hclosed
    exact hclosed.isOfRecords

namespace Trial

/-- Options for a run on two threads that keeps its records. -/
def options : Options :=
  { iterations := 3, threads := 2, config := none, format := .json, records := true
    captureArguments := false, disable := false, debug := false }

/-- Some turns: one thread gets going, a record of it is drained, the other thread gets going, and
two records more are drained. The drain is under way in the end. -/
def turns : List Demonstration.Turn :=
  List.replicate 20 (.work 0) ++ [.drain] ++ List.replicate 30 (.work 1) ++ [.drain, .drain]

/-- Without a configuration file, every operation is a target, and there is room for all
records. -/
theorem accounting_of_trial :
    ∃ settled, Demonstration.settle? options (fun _ => none) = .ok settled ∧
      (∀ target ∈ settled.targets, target ∈ Calculator.operations) ∧
        IsInt64 (options.threads * Calculator.sumUpTo options.iterations : Nat) ∧
          ∃ run, Demonstration.begin? options settled (fun _ => .atEpoch) = .ok run ∧
            ∃ outcome, (run.takeAll turns).conclude.1 = .ok outcome ∧ outcome.checksum = 12 ∧
              outcome.report.totalCalls = 18 ∧ outcome.report.records.size = 18 := by
  have hsettle : Demonstration.settle? options (fun _ => none) =
      .ok (Demonstration.configured options .standard) := rfl
  have htargets : ∀ target ∈ (Demonstration.configured options .standard).targets,
      target ∈ Calculator.operations := fun target htarget => htarget
  obtain ⟨run, hbegin, hrun⟩ :=
    accounting_of_run hsettle htargets (by decide) fun _ => .atEpoch
  obtain ⟨outcome, s, hconclude, -, haddsUp⟩ := hrun turns
  have hcovers := haddsUp.enabled rfl
  have hcalls : outcome.report.totalCalls = 18 := by
    have htotal := hcovers.totalCalls_add_dropped
    rw [hcovers.dropped_eq_zero (by decide)] at htotal
    exact htotal
  exact ⟨_, hsettle, htargets, by decide, run, hbegin, outcome, congrArg Prod.fst hconclude,
    haddsUp.checksum_eq, hcalls, (haddsUp.kept rfl).size_eq.trans hcalls⟩

/-- A thread that hands in records of two operations in turn, three of each. -/
def alternating : Thread Unit (Except Failure Value) :=
  ["ebb", "flow", "ebb", "flow", "ebb", "flow"].foldr
    (fun name rest =>
      .act (.deliver 0 (.ofSpan 0 (.ofType "Tide" name) .epoch ⟨1000⟩) []) fun _ => rest)
    (.done (.ok (.int 0)))

/-- It runs by itself, with a collector that has room for two. -/
def narrow : Demonstration :=
  { crew := ⟨[alternating], ((System.start (fun _ => .atEpoch) ()).createCollector 2 none false).2⟩
    collector := 0
    handles := []
    keepRecords := false
    batch := #[]
    statistics := .empty
    records := #[] }

/-- A drain makes room for one record at a time. If it takes one out after the third record and one
after the fifth, these two are dropped, and one of the first kind is left with three of the
second. -/
example :
    let turns := [.work 0, .work 0, .work 0, .drain, .work 0, .work 0, .drain]
    ((narrow.takeAll turns).conclude.1.toOption.map fun outcome =>
      (outcome.dropped, ["ebb", "flow"].map fun name =>
        (outcome.statistics.find? (.ofType "Tide" name)).map Tally.calls)) =
      some (2, [some 1, some 3]) := by
  decide +kernel

end Trial

end Interception
