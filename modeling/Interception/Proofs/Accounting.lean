import Interception.Demonstration
import Interception.Proofs.SettingUp
import Interception.Proofs.Tallies
import Interception.Proofs.Workload
import Mathlib.Data.List.Perm.Basic

/-!
# The demonstration run adds up

While the threads of a run work, records are drained, one by one and at times that nobody plans;
what does not fit the collector meanwhile is dropped. The report is right all the same
(`Interception.accounting_of_run`): every call of a target is in it, either as a call that was
counted or as a record that was dropped.

The books of the collector (`Ledger`) run along with a run. At every moment, the records that were
handed in so far and those that the threads still owe are, together and up to order, one record for
each call of a target in the whole run (`Demonstration.Accounts.owed`). What was drained so far is
in the batch of the drain under way, or else in the statistics, and in the records where these are
kept (`Demonstration.Accounts.drained`). A turn changes none of this
(`Demonstration.Accounts.take`), so any number of turns in any order do not. In the end the threads
owe nothing, the batch is taken in and the collector is empty, so that what was handed in is what
was drained and what was dropped.
-/

namespace Interception

variable {σ α : Type}

/-! ### Books of a collector in a system -/

/-- **Books of a collector made for a configuration**: they are balanced, and a collector with
room for all that was handed in has dropped nothing. -/
structure Ledger.Fair (config : Config) (ledger : Ledger) : Prop where
  /-- The books are balanced. -/
  balanced : ledger.Balanced config.collectorCapacity config.threshold? config.captureArguments
  /-- Nothing is dropped while there is room. -/
  dropped_eq_zero : ledger.handedIn.length ≤ config.collectorCapacity →
    ledger.collector.dropped = 0

namespace Ledger.Fair

variable {config : Config} {ledger : Ledger}

theorem opened {c : Collector}
    (h : Collector.new? config.collectorCapacity config.threshold? config.captureArguments =
      some c) : (Ledger.opened c).Fair config where
  balanced := .opened h
  dropped_eq_zero _ := by
    have hbalanced := Ledger.Balanced.opened h
    have hlength := hbalanced.length_handedIn
    simp only [Ledger.opened, List.length_nil] at hlength ⊢
    omega

/-- A record may be handed in: it is dropped only if the buffer is full, and the buffer holds
nothing that was not handed in. -/
theorem handIn (h : ledger.Fair config) (record : Record) : (ledger.handIn record).Fair config where
  balanced := h.balanced.handIn record
  dropped_eq_zero hroom := by
    simp only [Ledger.handIn, List.length_append, List.length_singleton] at hroom ⊢
    have hdropped : ledger.collector.dropped = 0 := h.dropped_eq_zero (by omega)
    have hwaiting : ledger.collector.size ≤ ledger.accepted.length := by
      rw [← h.balanced.drained_append, List.length_append, Array.length_toList]
      exact Nat.le_add_left _ _
    have haccepted := h.balanced.accepted_sublist.length_le
    have hlt : ledger.collector.size < ledger.collector.capacity := by
      rw [h.balanced.capacity_eq]
      omega
    obtain ⟨-, hkept, -⟩ := Collector.push_of_lt hlt record
    rw [hkept, hdropped]

theorem carry (h : ledger.Fair config) (errand : Collector.Errand) :
    (ledger.carry errand).Fair config := by
  cases errand with
  | push record => exact h.handIn record
  | deliver record arguments => exact h.handIn _
  | drain max => exact ⟨h.balanced.giveOut max, h.dropped_eq_zero⟩
  | drainAll => exact ⟨h.balanced.giveOut _, h.dropped_eq_zero⟩

/-- Once all records are given out, these are the ones that were kept. -/
theorem drained_carry_drainAll (h : ledger.Fair config) :
    (ledger.carry .drainAll).drained = (ledger.carry .drainAll).accepted := by
  have hempty : (ledger.carry .drainAll).collector.buffer.toList = [] := by
    refine (ledger.collector.toList_drain _).2.trans (List.drop_eq_nil_of_le ?_)
    exact Nat.le_of_eq Array.length_toList
  rw [← (h.carry .drainAll).balanced.drained_append, hempty, List.append_nil]

end Ledger.Fair

/-- **The books of a collector after more records came in**: those for some operations, in order.
Nothing was given out meanwhile. -/
structure Ledger.TakesIn (ledger : Ledger) (keys : List Key) (ledger' : Ledger) : Prop where
  /-- The books stay as they should be. -/
  fair : ∀ {config : Config}, ledger.Fair config → ledger'.Fair config
  /-- Records for these operations came in. -/
  keys_eq : ledger'.handedIn.map Record.key = ledger.handedIn.map Record.key ++ keys
  /-- Nothing went out. -/
  drained_eq : ledger'.drained = ledger.drained

namespace Ledger.TakesIn

theorem nil (ledger : Ledger) : ledger.TakesIn [] ledger :=
  ⟨id, (List.append_nil _).symm, rfl⟩

/-- One record comes in. Whether its call's arguments are attached does not matter here. -/
theorem deliver (ledger : Ledger) (record : Record) (arguments : List Value) :
    ledger.TakesIn [record.key] (ledger.carry (.deliver record arguments)) where
  fair h := h.carry _
  keys_eq := by
    have hkey : (ledger.collector.prepare arguments record).key = record.key := by
      rw [Collector.prepare]
      split
      · rfl
      · rfl
    simp [Ledger.carry, Ledger.handIn, hkey]
  drained_eq := rfl

theorem trans {ledger ledger' ledger'' : Ledger} {keys keys' : List Key}
    (h : ledger.TakesIn keys ledger') (h' : ledger'.TakesIn keys' ledger'') :
    ledger.TakesIn (keys ++ keys') ledger'' where
  fair hf := h'.fair (h.fair hf)
  keys_eq := by rw [h'.keys_eq, h.keys_eq, List.append_assoc]
  drained_eq := h'.drained_eq.trans h.drained_eq

end Ledger.TakesIn

/-- **A system in a setting, with a collector and its books.** -/
structure System.Keeps (setting : System σ) (collector : CollectorId) (ledger : Ledger)
    (s : System σ) : Prop where
  /-- Table and interceptors are those of the setting. -/
  same : setting.SameSetting s
  /-- The books are those of the collector. -/
  collector_eq : s.collectors[collector]? = some ledger.collector

namespace System.Keeps

variable {setting s : System σ} {collector : CollectorId} {ledger : Ledger}

/-- Things may happen that hand nothing in. -/
theorem pass (h : setting.Keeps collector ledger s) {action : Action σ}
    (hpassing : action.isPassing = true) :
    setting.Keeps collector ledger (action.perform s).2 := by
  obtain ⟨hsame, hcollectors⟩ := action.perform_of_isPassing hpassing s
  refine ⟨⟨hsame.table_eq.trans h.same.table_eq, ?_⟩, ?_⟩
  · exact hsame.interceptors_eq.trans h.same.interceptors_eq
  · rw [hcollectors, h.collector_eq]

/-- A record may be handed in. -/
theorem deliver (h : setting.Keeps collector ledger s) (record : Record) (arguments : List Value) :
    setting.Keeps collector (ledger.carry (.deliver record arguments))
      (s.deliver collector record arguments) := by
  obtain ⟨hlt, -⟩ := List.getElem?_eq_some_iff.mp h.collector_eq
  rw [System.deliver, h.collector_eq]
  refine ⟨⟨h.same.table_eq, h.same.interceptors_eq⟩, ?_⟩
  simp only [noteAll]
  rw [List.getElem?_set_self hlt]
  rfl

/-- Records may be drained: they are those that the books say went out. -/
theorem drain (h : setting.Keeps collector ledger s) (max : Nat) :
    setting.Keeps collector (ledger.carry (.drain max)) (s.drain collector max).2 ∧
      (ledger.carry (.drain max)).drained = ledger.drained ++ (s.drain collector max).1 := by
  obtain ⟨hlt, -⟩ := List.getElem?_eq_some_iff.mp h.collector_eq
  rw [System.drain, h.collector_eq]
  refine ⟨⟨⟨h.same.table_eq, h.same.interceptors_eq⟩, ?_⟩, rfl⟩
  dsimp only
  rw [List.getElem?_set_self hlt]
  rfl

/-- All records may be drained. -/
theorem drainAll (h : setting.Keeps collector ledger s) :
    setting.Keeps collector (ledger.carry .drainAll) (s.drainAll collector).2 ∧
      (ledger.carry .drainAll).drained = ledger.drained ++ (s.drainAll collector).1 := by
  have hall : s.drainAll collector = s.drain collector ledger.collector.size := by
    rw [System.drainAll, h.collector_eq]
    rfl
  rw [hall]
  exact h.drain _

theorem dropped_viewCollector (h : setting.Keeps collector ledger s) :
    (s.viewCollector collector).dropped = ledger.collector.dropped := by
  rw [System.viewCollector, h.collector_eq]

end System.Keeps

/-! ### Threads that pay what they owe -/

namespace Thread.Owes

variable {setting : System σ} {collector : CollectorId}

/-- **One action of a thread** moves some records from what is owed to what has been handed in:
one record, or none. -/
theorem step {t : Thread σ α} {owed : List Key} {result : α}
    (h : t.Owes setting collector owed result) {s : System σ} {ledger : Ledger}
    (hs : setting.Keeps collector ledger s) :
    ∃ ledger' paid rest, owed = paid ++ rest ∧ ledger.TakesIn paid ledger' ∧
      (t.step s).1.Owes setting collector rest result ∧
        setting.Keeps collector ledger' (t.step s).2 := by
  cases h with
  | done result => exact ⟨ledger, [], [], rfl, .nil ledger, .done result, hs⟩
  | pass hpassing hnext =>
    exact ⟨ledger, [], owed, rfl, .nil ledger, hnext s hs.same, hs.pass hpassing⟩
  | deliver record arguments hnext =>
    exact ⟨_, [record.key], _, rfl, .deliver ledger record arguments, hnext,
      hs.deliver record arguments⟩

/-- **A thread that runs to its end** hands in all that it owes, and has its result. -/
theorem run {t : Thread σ α} {owed : List Key} {result : α}
    (h : t.Owes setting collector owed result) {s : System σ} {ledger : Ledger}
    (hs : setting.Keeps collector ledger s) :
    ∃ ledger' s', t.run s = (.ok result, s') ∧ ledger.TakesIn owed ledger' ∧
      setting.Keeps collector ledger' s' := by
  induction h generalizing s ledger with
  | done result => exact ⟨ledger, s, rfl, .nil ledger, hs⟩
  | pass hpassing _ ih => exact ih s hs.same (hs.pass hpassing)
  | deliver record arguments _ ih =>
    obtain ⟨ledger', s', hrun, hpaid, hkeeps⟩ := ih (hs.deliver record arguments)
    exact ⟨ledger', s', hrun, (Ledger.TakesIn.deliver ledger record arguments).trans hpaid, hkeeps⟩

end Thread.Owes

/-! ### Several threads -/

/-- **What several threads owe together**, one after the other; all of them end with the same
result. -/
inductive ThreadsOwe (setting : System σ) (collector : CollectorId) (result : α) :
    List (Thread σ α) → List Key → Prop
  | nil : ThreadsOwe setting collector result [] []
  | cons {t : Thread σ α} {threads : List (Thread σ α)} {owed rest : List Key}
      (h : t.Owes setting collector owed result)
      (hrest : ThreadsOwe setting collector result threads rest) :
      ThreadsOwe setting collector result (t :: threads) (owed ++ rest)

namespace ThreadsOwe

variable {setting : System σ} {collector : CollectorId} {result : α}

theorem replicate {t : Thread σ α} {owed : List Key} (h : t.Owes setting collector owed result)
    (count : Nat) :
    ThreadsOwe setting collector result (List.replicate count t)
      (List.replicate count owed).flatten := by
  induction count with
  | zero => exact .nil
  | succ count ih => exact .cons h ih

/-- **What is owed is what one of the threads owes and what the others do**, and that thread may
be replaced. -/
theorem exists_of_getElem? {threads : List (Thread σ α)} {owed : List Key}
    (h : ThreadsOwe setting collector result threads owed) {member : Nat} {t : Thread σ α}
    (ht : threads[member]? = some t) :
    ∃ own others, t.Owes setting collector own result ∧ owed.Perm (own ++ others) ∧
      ∀ t' own', t'.Owes setting collector own' result →
        ∃ owed', ThreadsOwe setting collector result (threads.set member t') owed' ∧
          owed'.Perm (own' ++ others) := by
  induction h generalizing member with
  | nil => cases ht
  | @cons first threads own rest hfirst hrest ih =>
    cases member with
    | zero =>
      obtain rfl := Option.some.inj ht
      refine ⟨own, rest, hfirst, .refl _, fun t' own' ht' => ?_⟩
      exact ⟨own' ++ rest, .cons ht' hrest, .refl _⟩
    | succ member =>
      obtain ⟨mine, others, hmine, hperm, hreplace⟩ := ih ht
      -- the first thread is one of the others
      have hswap : ∀ keys : List Key, (own ++ (keys ++ others)).Perm (keys ++ (own ++ others)) := by
        intro keys
        rw [← List.append_assoc, ← List.append_assoc]
        exact List.perm_append_comm.append_right others
      refine ⟨mine, own ++ others, hmine, (hperm.append_left own).trans (hswap mine), ?_⟩
      intro t' own' ht'
      obtain ⟨owed', howed', hperm'⟩ := hreplace t' own' ht'
      exact ⟨own ++ owed', .cons hfirst howed', (hperm'.append_left own).trans (hswap own')⟩

/-- **Threads that run to their ends**, one after the other, hand in all that they owe. -/
theorem finish {threads : List (Thread σ α)} {owed : List Key}
    (h : ThreadsOwe setting collector result threads owed) {s : System σ} {ledger : Ledger}
    (hs : setting.Keeps collector ledger s) :
    ∃ ledger' s',
      Crew.finishFrom threads s = (List.replicate threads.length (.ok result), s') ∧
        ledger.TakesIn owed ledger' ∧ setting.Keeps collector ledger' s' := by
  induction h generalizing s ledger with
  | nil => exact ⟨ledger, s, rfl, .nil ledger, hs⟩
  | cons hfirst _ ih =>
    obtain ⟨ledger', s', hrun, hpaid, hkeeps⟩ := hfirst.run hs
    obtain ⟨ledger'', s'', hfinish, hpaid', hkeeps'⟩ := ih hkeeps
    refine ⟨ledger'', s'', ?_, hpaid.trans hpaid', hkeeps'⟩
    rw [Crew.finishFrom, hrun]
    dsimp only
    rw [hfinish]
    rfl

end ThreadsOwe

/-! ### A run under way -/

namespace Demonstration

/-- **What the drain does when it goes on**: it ends where the batch is full, or else it drains one
record, and ends if there was none. -/
theorem drainOn_cases (run : Demonstration) :
    batchSize ≤ run.batch.size ∧ run.drainOn = run.endDrain ∨
      run.batch.size < batchSize ∧
        ∃ out system, run.crew.system.drain run.collector 1 = (out, system) ∧
          let next : Demonstration :=
            { run with crew := { run.crew with system }, batch := run.batch ++ out }
          (out ≠ [] ∧ run.drainOn = next ∨ out = [] ∧ run.drainOn = next.endDrain) := by
  by_cases hroom : run.batch.size < batchSize
  · refine .inr ⟨hroom, _, _, System.drain_one .., ?_⟩
    rw [drainOn, if_pos hroom]
    rcases run.crew.system.pop run.collector with ⟨_ | record, system⟩
    · exact .inr ⟨rfl, by simp⟩
    · exact .inl ⟨by simp, by simp⟩
  · exact .inl ⟨Nat.le_of_not_lt hroom, by rw [drainOn, if_neg hroom]⟩

/-- **What a run has taken in** shows in its statistics, and in its records where these are
kept. -/
structure HasTaken (run : Demonstration) (records : List Record) : Prop where
  statistics_eq : run.statistics = Statistics.empty.addAll records
  records_eq : run.records = if run.keepRecords then records.toArray else #[]

/-- Records that are taken in go behind those that were. -/
theorem HasTaken.absorb {run : Demonstration} {records : List Record} (h : run.HasTaken records)
    (batch : List Record) : (run.absorb batch).HasTaken (records ++ batch) where
  statistics_eq := by
    show run.statistics.addAll batch = _
    rw [h.statistics_eq]
    exact List.foldl_append.symm
  records_eq := by
    show (if run.keepRecords then run.records ++ batch else run.records) =
      if run.keepRecords then (records ++ batch).toArray else #[]
    rw [h.records_eq]
    cases run.keepRecords with
    | false => rfl
    | true => simp

/-- **A run and its books.** What was handed in, and what the threads still owe, comes to
`expected`, up to order. -/
structure Accounts (setting : System Unit) (config : Config) (expected : List Key)
    (result : Except Failure Value) (ledger : Ledger) (run : Demonstration) : Prop where
  /-- The books are as they should be. -/
  fair : ledger.Fair config
  /-- The books are those of the collector, and nobody has touched the setting. -/
  keeps : setting.Keeps run.collector ledger run.crew.system
  /-- Nothing is lost between what is owed and what was handed in. -/
  owed : ∃ owed, ThreadsOwe setting run.collector result run.crew.threads owed ∧
    (ledger.handedIn.map Record.key ++ owed).Perm expected
  /-- Nothing is lost between what was drained and what was taken in, but for the batch of the drain
  under way. -/
  drained : ∃ records, run.HasTaken records ∧ ledger.drained = records ++ run.batch.toList

namespace Accounts

variable {setting : System Unit} {config : Config} {expected : List Key}
  {result : Except Failure Value} {ledger : Ledger} {run : Demonstration}

/-- A drain may end. -/
theorem endDrain (h : Accounts setting config expected result ledger run) :
    Accounts setting config expected result ledger run.endDrain := by
  obtain ⟨records, htaken, hdrained⟩ := h.drained
  obtain ⟨hstatistics, hrecords⟩ := htaken.absorb run.batch.toList
  refine ⟨h.fair, h.keeps, h.owed, _, ⟨hstatistics, hrecords⟩, ?_⟩
  exact hdrained.trans (List.append_nil _).symm

/-- **A drain may go on.** What it takes out is in the batch now. -/
theorem drainOn (h : Accounts setting config expected result ledger run) :
    ∃ ledger', Accounts setting config expected result ledger' run.drainOn := by
  obtain ⟨-, hend⟩ | ⟨-, out, system, hout, hnext⟩ := run.drainOn_cases
  · rw [hend]
    exact ⟨ledger, h.endDrain⟩
  -- what comes out leaves the collector for the batch, also if the drain ends upon that
  · obtain ⟨hkeeps, hdrained⟩ := h.keeps.drain 1
    obtain ⟨records, ⟨hstatistics, hrecords⟩, hbatch⟩ := h.drained
    rw [hout] at hkeeps hdrained
    rw [hbatch, List.append_assoc] at hdrained
    have hdone : Accounts setting config expected result (ledger.carry (.drain 1))
        { run with crew := { run.crew with system }, batch := run.batch ++ out } :=
      ⟨h.fair.carry _, hkeeps, h.owed, records, ⟨hstatistics, hrecords⟩, by simp [hdrained]⟩
    obtain ⟨-, hnext⟩ | ⟨-, hend⟩ := hnext
    · rw [hnext]
      exact ⟨_, hdone⟩
    · rw [hend]
      exact ⟨_, hdone.endDrain⟩

/-- **A turn keeps the accounts.** -/
theorem take (h : Accounts setting config expected result ledger run) (turn : Turn) :
    ∃ ledger', Accounts setting config expected result ledger' (run.take turn) := by
  cases turn with
  | work member =>
    obtain ⟨owed, howed, hperm⟩ := h.owed
    rw [Demonstration.take, Crew.step]
    cases ht : run.crew.threads[member]? with
    | none => exact ⟨ledger, ⟨h.fair, h.keeps, h.owed, h.drained⟩⟩
    | some t =>
      obtain ⟨own, others, hown, hsplit, hreplace⟩ := howed.exists_of_getElem? ht
      obtain ⟨ledger', paid, rest, rfl, hpaid, hrest, hkeeps⟩ := hown.step h.keeps
      obtain ⟨owed', howed', hsplit'⟩ := hreplace _ rest hrest
      obtain ⟨records, htaken, hdrained⟩ := h.drained
      refine ⟨ledger', hpaid.fair h.fair, hkeeps, ⟨owed', howed', ?_⟩, records,
        ⟨htaken.statistics_eq, htaken.records_eq⟩, hpaid.drained_eq.trans hdrained⟩
      -- what the thread has paid is in the books now, and what it still owes is the rest
      have hmoved : (ledger'.handedIn.map Record.key ++ owed').Perm
          (ledger.handedIn.map Record.key ++ ((paid ++ rest) ++ others)) := by
        rw [hpaid.keys_eq, List.append_assoc, List.append_assoc]
        exact (hsplit'.append_left paid).append_left _
      exact hmoved.trans ((hsplit.symm.append_left _).trans hperm)
  | drain => exact h.drainOn

/-- **So do any number of turns**, in any order. -/
theorem takeAll (h : Accounts setting config expected result ledger run) (turns : List Turn) :
    ∃ ledger', Accounts setting config expected result ledger' (run.takeAll turns) := by
  induction turns generalizing run ledger with
  | nil => exact ⟨ledger, h⟩
  | cons turn turns ih =>
    obtain ⟨ledger', h'⟩ := h.take turn
    exact ih h'

end Accounts

end Demonstration

end Interception
