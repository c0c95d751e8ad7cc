import Interception.Routing

/-!
# Nothing gets lost in a collector

A collector is asked for four things (`Collector.Errand`): to take a record, to take the
record of a call with the arguments of that call, to give out some records, and to give out
all of them. A `Ledger` is a collector together with what has gone in and out of it since it
was new. It is kept by what the collector answers and reports, never by a look at the buffer.

| account | grows when |
|---|---|
| `Ledger.handedIn` | a record is handed in, whether there is room or not |
| `Ledger.accepted` | the collector answers that it kept the record |
| `Ledger.drained` | records are given out |
| `Ledger.warnings` | the collector reports something |

`Ledger.Balanced` says how the accounts and the collector fit together. One errand keeps the
ledger balanced (`Ledger.Balanced.carry`), so any number of them do
(`Ledger.Balanced.carryAll`), and `Interception.conservation_of_errands` reads the laws of the
collector off that.
-/

namespace Interception

variable {σ : Type}

/-! ### Errands -/

/-- **What a collector is asked for.** -/
inductive Collector.Errand where
  /-- To take a record. -/
  | push (record : Record)
  /-- To take the record of a call that had these arguments. -/
  | deliver (record : Record) (arguments : List Value)
  /-- To give out up to so many records. -/
  | drain (max : Nat)
  /-- To give out all records. -/
  | drainAll

/-- The record that an errand hands in, if it does: that of a call has the arguments attached
where the collector captures them. -/
def Collector.Errand.record? (captures : Bool) : Collector.Errand → Option Record
  | .push record => some record
  | .deliver record arguments =>
    some (if captures then record.withArguments arguments else record)
  | .drain _ | .drainAll => none

/-- **A collector and its accounts.** -/
structure Ledger where
  /-- The collector as it is now. -/
  collector : Collector
  /-- The records that were handed in, in order. -/
  handedIn : List Record
  /-- Those of them that the collector said it kept. -/
  accepted : List Record
  /-- The records that were given out, in order. -/
  drained : List Record
  /-- What the collector reported. -/
  warnings : List Event

namespace Ledger

/-- The ledger of a collector when it is new. -/
def opened (c : Collector) : Ledger :=
  { collector := c, handedIn := [], accepted := [], drained := [], warnings := [] }

/-- A record is handed in. -/
def handIn (ledger : Ledger) (record : Record) : Ledger :=
  let answer := ledger.collector.push record
  { collector := answer.2
    handedIn := ledger.handedIn ++ [record]
    accepted := if answer.1 then ledger.accepted ++ [record] else ledger.accepted
    drained := ledger.drained
    warnings := ledger.warnings ++ ledger.collector.warnings record }

/-- Records are given out. -/
def giveOut (ledger : Ledger) (batch : Array Record × Collector) : Ledger :=
  { ledger with collector := batch.2, drained := ledger.drained ++ batch.1.toList }

/-- **An errand is carried out.** -/
def carry (ledger : Ledger) : Collector.Errand → Ledger
  | .push record => ledger.handIn record
  | .deliver record arguments => ledger.handIn (ledger.collector.prepare arguments record)
  | .drain max => ledger.giveOut (ledger.collector.drain max)
  | .drainAll => ledger.giveOut ledger.collector.drainAll

/-- Errands are carried out one after the other. -/
def carryAll (ledger : Ledger) (errands : List Collector.Errand) : Ledger :=
  errands.foldl carry ledger

end Ledger

/-- Whether the call of a record took as long as a threshold says, if there is one. -/
def Record.isSlow (threshold : Option Nat) (record : Record) : Bool :=
  threshold.any fun least => decide (least ≤ record.micros)

/-- The report of a slow call. -/
def Record.slowCall (record : Record) : Event :=
  .slowCall record.key record.micros

/-- Whether an event reports a slow call. -/
def Event.isSlowCall : Event → Bool
  | .slowCall .. => true
  | _ => false

/-! ### What each part of a collector does -/

namespace Collector

theorem push_of_lt {c : Collector} (h : c.size < c.capacity) (record : Record) :
    (c.push record).1 = true ∧ (c.push record).2.dropped = c.dropped ∧
      (c.push record).2.size = c.size + 1 := by
  unfold size at h ⊢
  simp [push, h]

theorem push_of_not_lt {c : Collector} (h : ¬c.size < c.capacity) (record : Record) :
    (c.push record).1 = false ∧ (c.push record).2.dropped = c.dropped + 1 ∧
      (c.push record).2.buffer = c.buffer := by
  unfold size at h
  simp [push, h]

theorem settings_push (c : Collector) (record : Record) :
    (c.push record).2.capacity = c.capacity ∧ (c.push record).2.threshold = c.threshold ∧
      (c.push record).2.captures = c.captures ∧ (c.push record).2.pushed = c.pushed + 1 := by
  rw [push]
  split
  · exact ⟨rfl, rfl, rfl, rfl⟩
  · exact ⟨rfl, rfl, rfl, rfl⟩

/-- Draining takes out as many records as there are, up to the number asked for. -/
theorem size_drain (c : Collector) (max : Nat) :
    (c.drain max).1.size = min max c.size ∧ (c.drain max).2.size = c.size - max := by
  simp [drain, size]

/-- A collector reports each slow call, and each record for which it has no room. -/
theorem filter_warnings (c : Collector) (record : Record) :
    (c.warnings record).filter Event.isSlowCall =
        ([record].filter (Record.isSlow c.threshold)).map Record.slowCall ∧
      (c.warnings record).filter (fun event => !event.isSlowCall) =
        if c.size < c.capacity then [] else [.collectorFull c.capacity] := by
  have hslow : (c.threshold.any fun threshold => decide (threshold ≤ record.micros)) =
      record.isSlow c.threshold := rfl
  unfold warnings size
  rw [hslow, List.filter_append, List.filter_append]
  by_cases hroom : c.buffer.size < c.capacity
  · cases hs : record.isSlow c.threshold with
    | false => simp [hroom, hs]
    | true => simp [hroom, hs, Event.isSlowCall, Record.slowCall]
  · cases hs : record.isSlow c.threshold with
    | false => simp [hroom, hs, Event.isSlowCall]
    | true => simp [hroom, hs, Event.isSlowCall, Record.slowCall]

end Collector

/-! ### Balance -/

/-- **A ledger that is balanced**, of a collector that was made with given settings. -/
structure Ledger.Balanced (capacity : Nat) (threshold : Option Nat) (captures : Bool)
    (ledger : Ledger) : Prop where
  /-- The collector has room for so many records. -/
  capacity_eq : ledger.collector.capacity = capacity
  /-- It reports calls as slow from there on. -/
  threshold_eq : ledger.collector.threshold = threshold
  /-- It captures arguments, or does not. -/
  captures_eq : ledger.collector.captures = captures
  /-- Every record that was handed in is counted. -/
  pushed_eq : ledger.collector.pushed = ledger.handedIn.length
  /-- A record that was handed in was kept or dropped. -/
  length_handedIn : ledger.handedIn.length = ledger.collector.dropped + ledger.accepted.length
  /-- What was kept is a part of what was handed in, in the same order. -/
  accepted_sublist : ledger.accepted.Sublist ledger.handedIn
  /-- A record that was kept was given out or waits, and the order is that of going in. -/
  drained_append : ledger.drained ++ ledger.collector.buffer.toList = ledger.accepted
  /-- Each slow call was reported, and no other. -/
  slow_eq : ledger.warnings.filter Event.isSlowCall =
    (ledger.handedIn.filter (Record.isSlow threshold)).map Record.slowCall
  /-- Each record that was dropped was reported, and nothing else was. -/
  full_eq : ledger.warnings.filter (fun event => !event.isSlowCall) =
    List.replicate ledger.collector.dropped (.collectorFull capacity)

namespace Ledger.Balanced

variable {capacity : Nat} {threshold : Option Nat} {captures : Bool} {ledger : Ledger}

/-- A new collector has a balanced ledger. -/
theorem opened {c : Collector} (h : Collector.new? capacity threshold captures = some c) :
    (Ledger.opened c).Balanced capacity threshold captures := by
  rw [Collector.new?] at h
  split at h
  · obtain rfl := Option.some.inj h
    exact ⟨rfl, rfl, rfl, rfl, rfl, .slnil, rfl, rfl, rfl⟩
  · cases h

/-- A record may be handed in. -/
theorem handIn (h : ledger.Balanced capacity threshold captures) (record : Record) :
    (ledger.handIn record).Balanced capacity threshold captures := by
  obtain ⟨hcapacity, hthreshold, hcaptures, hpushed⟩ := ledger.collector.settings_push record
  obtain ⟨hslow, hfull⟩ := ledger.collector.filter_warnings record
  have hlength := h.length_handedIn
  have hslow' : (ledger.handIn record).warnings.filter Event.isSlowCall =
      ((ledger.handIn record).handedIn.filter (Record.isSlow threshold)).map Record.slowCall := by
    simp only [Ledger.handIn]
    rw [List.filter_append, List.filter_append, List.map_append, h.slow_eq, hslow, h.threshold_eq]
  have hpushed' : (ledger.handIn record).collector.pushed =
      (ledger.handIn record).handedIn.length := by
    simp [Ledger.handIn, hpushed, h.pushed_eq]
  by_cases hroom : ledger.collector.size < ledger.collector.capacity
  -- there is room: the record is kept, at the end of the queue
  · obtain ⟨hkept, hdropped, -⟩ := Collector.push_of_lt hroom record
    have hbuffer := ledger.collector.toList_buffer_push_of_lt record hroom
    refine ⟨hcapacity.trans h.capacity_eq, hthreshold.trans h.threshold_eq,
      hcaptures.trans h.captures_eq, hpushed', ?_, ?_, ?_, hslow', ?_⟩
    · simp only [Ledger.handIn, hkept, hdropped, if_true, List.length_append, List.length_singleton]
      omega
    · simpa [Ledger.handIn, hkept] using h.accepted_sublist
    · simp only [Ledger.handIn, hkept, hbuffer, if_true]
      rw [← List.append_assoc, h.drained_append]
    · simp only [Ledger.handIn, hdropped]
      rw [List.filter_append, hfull, if_pos hroom, List.append_nil, h.full_eq]
  -- there is none: the record is dropped and counted
  · obtain ⟨hkept, hdropped, hbuffer⟩ := Collector.push_of_not_lt hroom record
    refine ⟨hcapacity.trans h.capacity_eq, hthreshold.trans h.threshold_eq,
      hcaptures.trans h.captures_eq, hpushed', ?_, ?_, ?_, hslow', ?_⟩
    · simp only [Ledger.handIn, hkept, hdropped, List.length_append, List.length_singleton,
        Bool.false_eq_true, if_false]
      omega
    · simp only [Ledger.handIn, hkept, Bool.false_eq_true, if_false]
      exact h.accepted_sublist.trans (List.sublist_append_left _ _)
    · simp only [Ledger.handIn, hkept, hbuffer, Bool.false_eq_true, if_false]
      exact h.drained_append
    · simp only [Ledger.handIn, hdropped]
      rw [List.filter_append, hfull, if_neg hroom, h.full_eq, h.capacity_eq, List.replicate_succ']

/-- Records may be given out. -/
theorem giveOut (h : ledger.Balanced capacity threshold captures) (max : Nat) :
    (ledger.giveOut (ledger.collector.drain max)).Balanced capacity threshold captures where
  capacity_eq := h.capacity_eq
  threshold_eq := h.threshold_eq
  captures_eq := h.captures_eq
  pushed_eq := h.pushed_eq
  length_handedIn := h.length_handedIn
  accepted_sublist := h.accepted_sublist
  drained_append := by
    obtain ⟨hbatch, hrest⟩ := ledger.collector.toList_drain max
    simp only [Ledger.giveOut]
    rw [hbatch, hrest, List.append_assoc, List.take_append_drop, h.drained_append]
  slow_eq := h.slow_eq
  full_eq := h.full_eq

/-- **One errand keeps a ledger balanced.** -/
theorem carry (h : ledger.Balanced capacity threshold captures) (errand : Collector.Errand) :
    (ledger.carry errand).Balanced capacity threshold captures := by
  cases errand with
  | push record => exact h.handIn record
  | deliver record arguments => exact h.handIn _
  | drain max => exact h.giveOut max
  | drainAll => exact h.giveOut _

/-- **So do any number of them.** -/
theorem carryAll (h : ledger.Balanced capacity threshold captures)
    (errands : List Collector.Errand) :
    (ledger.carryAll errands).Balanced capacity threshold captures := by
  rw [Ledger.carryAll]
  induction errands generalizing ledger with
  | nil => exact h
  | cons errand rest ih => exact ih (h.carry errand)

end Ledger.Balanced

/-! ### What is handed in -/

namespace Ledger

theorem handedIn_carry (ledger : Ledger) (errand : Collector.Errand) :
    (ledger.carry errand).handedIn =
      ledger.handedIn ++ (errand.record? ledger.collector.captures).toList := by
  cases errand with
  | push record => rfl
  | deliver record arguments => rfl
  | drain max => exact (List.append_nil _).symm
  | drainAll => exact (List.append_nil _).symm

/-- **What was handed in is what the errands say.** -/
theorem handedIn_carryAll {capacity : Nat} {threshold : Option Nat} {captures : Bool}
    {ledger : Ledger} (h : ledger.Balanced capacity threshold captures)
    (errands : List Collector.Errand) :
    (ledger.carryAll errands).handedIn =
      ledger.handedIn ++ errands.filterMap (Collector.Errand.record? captures) := by
  induction errands generalizing ledger with
  | nil => exact (List.append_nil _).symm
  | cons errand rest ih =>
    have hrest := ih (h.carry errand)
    rw [handedIn_carry, h.captures_eq, List.append_assoc] at hrest
    refine hrest.trans ?_
    cases hrecord : errand.record? captures with
    | none => simp [hrecord]
    | some record => simp [hrecord]

end Ledger

/-! ### The threshold -/

/-- The same collector with another threshold. -/
def Collector.withThreshold (c : Collector) (threshold : Option Nat) : Collector :=
  { c with threshold }

/-- The threshold has no influence on what becomes of a record. -/
theorem Collector.push_withThreshold (c : Collector) (threshold : Option Nat) (record : Record) :
    (c.withThreshold threshold).push record =
      ((c.push record).1, (c.push record).2.withThreshold threshold) := by
  rw [push, push]
  by_cases h : c.buffer.size < c.capacity
  · have h' : (c.withThreshold threshold).buffer.size < (c.withThreshold threshold).capacity := h
    rw [dif_pos h, dif_pos h']
    rfl
  · have h' : ¬(c.withThreshold threshold).buffer.size < (c.withThreshold threshold).capacity := h
    rw [dif_neg h, dif_neg h']
    rfl

/-- **Two ledgers with the same in all accounts** but that of the reports, and with
collectors that differ in their thresholds at most. -/
structure Ledger.SameBooks (ledger other : Ledger) : Prop where
  /-- Only the thresholds may differ. -/
  collector_eq : other.collector = ledger.collector.withThreshold other.collector.threshold
  /-- The same went in. -/
  handedIn_eq : other.handedIn = ledger.handedIn
  /-- The same was kept. -/
  accepted_eq : other.accepted = ledger.accepted
  /-- The same came out. -/
  drained_eq : other.drained = ledger.drained

namespace Ledger.SameBooks

variable {ledger other : Ledger}

theorem handIn (h : ledger.SameBooks other) (record : Record) :
    (ledger.handIn record).SameBooks (other.handIn record) := by
  have hpush : other.collector.push record =
      ((ledger.collector.push record).1,
        (ledger.collector.push record).2.withThreshold other.collector.threshold) := by
    rw [← Collector.push_withThreshold, ← h.collector_eq]
  refine ⟨?_, ?_, ?_, h.drained_eq⟩
  · simp only [Ledger.handIn, hpush]
    rfl
  · simp only [Ledger.handIn, h.handedIn_eq]
  · simp only [Ledger.handIn, hpush, h.accepted_eq]

theorem giveOut (h : ledger.SameBooks other) (max : Nat) :
    (ledger.giveOut (ledger.collector.drain max)).SameBooks
      (other.giveOut (other.collector.drain max)) := by
  rw [h.collector_eq]
  refine ⟨rfl, h.handedIn_eq, h.accepted_eq, ?_⟩
  exact congrArg (· ++ _) h.drained_eq

theorem carry (h : ledger.SameBooks other) (errand : Collector.Errand) :
    (ledger.carry errand).SameBooks (other.carry errand) := by
  cases errand with
  | push record => exact h.handIn record
  | deliver record arguments =>
    have hprepare : other.collector.prepare arguments record =
        ledger.collector.prepare arguments record := by
      rw [h.collector_eq]
      rfl
    rw [Ledger.carry, Ledger.carry, hprepare]
    exact h.handIn _
  | drain max => exact h.giveOut max
  | drainAll =>
    have hsize : other.collector.buffer.size = ledger.collector.buffer.size := by
      rw [h.collector_eq]
      rfl
    rw [Ledger.carry, Ledger.carry, Collector.drainAll, Collector.drainAll, hsize]
    exact h.giveOut _

/-- **The threshold has no influence on any account** but that of the reports. -/
theorem carryAll (h : ledger.SameBooks other) (errands : List Collector.Errand) :
    (ledger.carryAll errands).SameBooks (other.carryAll errands) := by
  rw [Ledger.carryAll, Ledger.carryAll]
  induction errands generalizing ledger other with
  | nil => exact h
  | cons errand rest ih => exact ih (h.carry errand)

end Ledger.SameBooks

/-! ### Records of calls -/

/-- **The hook of a collector hands the record of a call in once**, with the arguments of the
call if the collector captures them, and never fails the call. -/
theorem run_runAfter_collect (nested : Runner σ) (owner : Handle) {hooks : Hooks σ}
    (record : Record) (call : Invocation) {s : System σ} {collector : CollectorId}
    {ledger : Ledger} (hafter : hooks.after = some (.collect collector))
    (hc : s.collectors[collector]? = some ledger.collector) :
    let carried := ledger.carry (.deliver record call.arguments)
    ∃ reported, carried.warnings = ledger.warnings ++ reported ∧
      (runAfter nested owner hooks record call).run s =
        (.ok ⟨.ok .null, call⟩,
          { s with collectors := s.collectors.set collector carried.collector }.noteAll
            reported) := by
  refine ⟨_, rfl, ?_⟩
  rw [runAfter, hafter]
  simp only [Thread.run, Action.perform, System.deliver, hc]
  rfl

/-! ### The laws of a collector -/

/-- A record is refused just when the collector is full. -/
theorem Collector.push_eq_false_iff (c : Collector) (record : Record) :
    (c.push record).1 = false ↔ c.size = c.capacity := by
  have hle : c.size ≤ c.capacity := c.size_le
  by_cases hroom : c.size < c.capacity
  · rw [(push_of_lt hroom record).1]
    exact iff_of_false Bool.noConfusion (by omega)
  · rw [(push_of_not_lt hroom record).1]
    exact iff_of_true rfl (by omega)

/-- **The laws of a collector** with a capacity, a threshold and a ledger, which was asked to take
certain records, in order. -/
structure Ledger.Lawful (capacity : Nat) (threshold : Option Nat) (records : List Record)
    (ledger : Ledger) : Prop where
  /-- It never holds more than its capacity. -/
  size_le : ledger.collector.size ≤ capacity
  /-- It counts every record that was handed in. -/
  pushed_eq : ledger.collector.pushed = records.length
  /-- Each of them was dropped, or given out, or still waits. -/
  pushed_eq_add : ledger.collector.pushed =
    ledger.collector.dropped + ledger.drained.length + ledger.collector.size
  /-- What was given out and then what waits is just what it said it kept, in this order. -/
  drained_append : ledger.drained ++ ledger.collector.buffer.toList = ledger.accepted
  /-- What it said it kept was handed in, in this order and as it is. -/
  accepted_sublist : ledger.accepted.Sublist records
  /-- A further record is refused just when the collector is full. -/
  refused_iff : ∀ record, (ledger.collector.push record).1 = false ↔
    ledger.collector.size = capacity
  /-- Then the buffer stays as it is, and one more record counts as dropped. -/
  refused : ∀ record, (ledger.collector.push record).1 = false →
    (ledger.collector.push record).2.buffer = ledger.collector.buffer ∧
      (ledger.collector.push record).2.dropped = ledger.collector.dropped + 1
  /-- It gives out as many records as are asked for, or all that there are. -/
  size_drain : ∀ max, (ledger.collector.drain max).1.size = min max ledger.collector.size
  /-- Asked for all, it gives out all that there are. -/
  size_drainAll : ledger.collector.drainAll.1.size = ledger.collector.size
  /-- Its hook hands the record of a call in once and then succeeds, whether the record is kept or
  not. -/
  hook : ∀ {σ : Type} (nested : Runner σ) (owner : Handle) (hooks : Hooks σ)
    (collector : CollectorId) (record : Record) (call : Invocation) (s : System σ),
    hooks.after = some (.collect collector) →
      s.collectors[collector]? = some ledger.collector →
        let carried := ledger.carry (.deliver record call.arguments)
        ∃ reported, carried.warnings = ledger.warnings ++ reported ∧
          (runAfter nested owner hooks record call).run s =
            (.ok ⟨.ok .null, call⟩,
              { s with collectors := s.collectors.set collector carried.collector }.noteAll
                reported)
  /-- It reports those calls as slow that took as long as the threshold says, once each and whether
  the record is kept or not. -/
  slow_eq : ledger.warnings.filter Event.isSlowCall =
    (records.filter (Record.isSlow threshold)).map Record.slowCall
  /-- Apart from that it reports the records that it drops. -/
  full_eq : ledger.warnings.filter (fun event => !event.isSlowCall) =
    List.replicate ledger.collector.dropped (.collectorFull capacity)

/-- **A balanced ledger is lawful** for the records that were handed in. -/
theorem Ledger.Balanced.lawful {capacity : Nat} {threshold : Option Nat} {captures : Bool}
    {ledger : Ledger} (h : ledger.Balanced capacity threshold captures) :
    ledger.Lawful capacity threshold ledger.handedIn where
  size_le := by
    rw [← h.capacity_eq]
    exact ledger.collector.size_le
  pushed_eq := h.pushed_eq
  pushed_eq_add := by
    have hlength : ledger.accepted.length = ledger.drained.length + ledger.collector.size := by
      rw [← h.drained_append, List.length_append, Array.length_toList]
      rfl
    rw [h.pushed_eq, h.length_handedIn, hlength, Nat.add_assoc]
  drained_append := h.drained_append
  accepted_sublist := h.accepted_sublist
  refused_iff record := by
    rw [Collector.push_eq_false_iff, h.capacity_eq]
  refused record hrefused := by
    rw [Collector.push_eq_false_iff] at hrefused
    have hroom : ¬ledger.collector.size < ledger.collector.capacity := by omega
    obtain ⟨-, hdropped, hbuffer⟩ := Collector.push_of_not_lt hroom record
    exact ⟨hbuffer, hdropped⟩
  size_drain max := (ledger.collector.size_drain max).1
  size_drainAll := by
    rw [Collector.drainAll, (ledger.collector.size_drain _).1]
    exact Nat.min_self _
  hook nested owner _ _ record call _ hafter hc :=
    run_runAfter_collect nested owner record call hafter hc
  slow_eq := h.slow_eq
  full_eq := h.full_eq

/-- **Nothing gets lost in a collector, and what comes out comes out in order.** There is a
collector with any capacity but zero, and whatever is asked of it, one errand after the
other, its laws hold for the records that the errands hand in (`Ledger.Lawful`): nothing is changed
but the arguments of calls, which are attached if it captures them. Its threshold has no influence
on any account but that of the reports. -/
theorem conservation_of_errands (capacity : Nat) (threshold : Option Nat) (captures : Bool)
    (hpos : 0 < capacity) :
    ∃ c, Collector.new? capacity threshold captures = some c ∧
      ∀ errands : List Collector.Errand,
        let ledger := (Ledger.opened c).carryAll errands
        ledger.Lawful capacity threshold
            (errands.filterMap (Collector.Errand.record? captures)) ∧
          ∀ other, ledger.SameBooks
            ((Ledger.opened (c.withThreshold other)).carryAll errands) := by
  obtain ⟨c, hnew⟩ : ∃ c, Collector.new? capacity threshold captures = some c :=
    ⟨_, dif_pos hpos⟩
  refine ⟨c, hnew, fun errands => ⟨?_, fun other => ?_⟩⟩
  · have hlawful := ((Ledger.Balanced.opened hnew).carryAll errands).lawful
    rw [Ledger.handedIn_carryAll (Ledger.Balanced.opened hnew) errands] at hlawful
    exact hlawful
  · have hopened : (Ledger.opened c).SameBooks (Ledger.opened (c.withThreshold other)) :=
      ⟨rfl, rfl, rfl, rfl⟩
    exact hopened.carryAll errands

namespace Tray

/-- A record without arguments. -/
def record (number : Nat) : Record :=
  .ofSpan number (.ofType "Tray" "put") .epoch ⟨1000⟩

/-- Two records more than fit, a batch larger than what there is, and one more record. -/
def errands : List Collector.Errand :=
  [.deliver (record 1) [.null], .push (record 2), .deliver (record 3) [], .drain 5,
    .push (record 4)]

/-- A tray for one record passes on the first of three, and then the one after them. -/
theorem conservation_of_tray :
    0 < 1 ∧ ∃ c, Collector.new? 1 (some 1) true = some c ∧
      let ledger := (Ledger.opened c).carryAll errands
      ledger.drained = [(record 1).withArguments [.null]] ∧
        ledger.drained ++ ledger.collector.buffer.toList =
          [(record 1).withArguments [.null], record 4] ∧
        ledger.collector.pushed = ledger.collector.dropped + 1 + 1 := by
  obtain ⟨c, hnew, hlaws⟩ := conservation_of_errands 1 (some 1) true (by decide)
  obtain ⟨hlawful, -⟩ := hlaws errands
  obtain rfl := Option.some.inj hnew
  exact ⟨by decide, _, rfl, rfl, hlawful.drained_append.trans rfl, hlawful.pushed_eq_add.trans rfl⟩

end Tray

end Interception
