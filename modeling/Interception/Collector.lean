import Interception.Event
import Interception.Record

/-!
# Collectors

A `Collector` buffers the records of intercepted calls until someone drains it.
It never blocks a call: when the buffer is full, the new record is dropped and
counted. The buffer is a queue, so records come out in the order in which they
went in (`Collector.toList_buffer_push_of_lt`, `Collector.toList_drain`).

Records come out one by one (`Collector.pop`). To drain is to do so until there are
enough of them or none is left (`Collector.drain_succ`), all at once if nobody hands
anything in meanwhile.

A threshold only adds a warning for each slow call; it has no influence on what
is kept.
-/

namespace Interception

/-- **A bounded buffer of records.** -/
structure Collector where
  /-- How many records fit. -/
  capacity : Nat
  /-- From how many microseconds on a call is reported as slow. -/
  threshold : Option Nat
  /-- Whether the arguments of calls are kept on their records. -/
  captures : Bool
  /-- The records waiting, oldest first. -/
  buffer : Array Record
  /-- How many records were handed in. -/
  pushed : Nat
  /-- How many of them were dropped. -/
  dropped : Nat
  capacity_pos : 0 < capacity
  size_le : buffer.size ≤ capacity

namespace Collector

/-- An empty collector; there is none without room. -/
def new? (capacity : Nat) (threshold : Option Nat) (captures : Bool) : Option Collector :=
  if h : 0 < capacity then
    some
      { capacity, threshold, captures, buffer := #[], pushed := 0, dropped := 0
        capacity_pos := h, size_le := Nat.zero_le _ }
  else none

/-- How many records are waiting. -/
def size (c : Collector) : Nat :=
  c.buffer.size

/-- **Hands in a record**, and says whether it was kept. -/
def push (c : Collector) (record : Record) : Bool × Collector :=
  if h : c.buffer.size < c.capacity then
    (true,
      { c with
        buffer := c.buffer.push record
        pushed := c.pushed + 1
        size_le := by rw [Array.size_push]; exact h })
  else (false, { c with pushed := c.pushed + 1, dropped := c.dropped + 1 })

/-- What a collector reports about a record handed in. -/
def warnings (c : Collector) (record : Record) : List Event :=
  (if c.threshold.any fun threshold => decide (threshold ≤ record.micros) then
    [.slowCall record.key record.micros]
  else []) ++
  (if c.buffer.size < c.capacity then [] else [.collectorFull c.capacity])

/-- The record as the collector wants it: with the arguments of the call if it
captures them. -/
def prepare (c : Collector) (arguments : List Value) (record : Record) : Record :=
  if c.captures then record.withArguments arguments else record

/-- **Takes out the oldest record**, if there is any. -/
def pop (c : Collector) : Option Record × Collector :=
  (c.buffer[0]?,
    { c with
      buffer := c.buffer.extract 1
      size_le := by
        have := c.size_le
        simp only [Array.size_extract]
        omega })

/-- **Takes out up to `max` records**, oldest first. -/
def drain (c : Collector) (max : Nat) : Array Record × Collector :=
  (c.buffer.extract 0 max,
    { c with
      buffer := c.buffer.extract max
      size_le := by
        have := c.size_le
        simp only [Array.size_extract]
        omega })

/-- Takes out every record. -/
def drainAll (c : Collector) : Array Record × Collector :=
  c.drain c.buffer.size

/-! ### The buffer as a queue -/

theorem toList_buffer_push_of_lt (c : Collector) (record : Record) (h : c.size < c.capacity) :
    (c.push record).2.buffer.toList = c.buffer.toList ++ [record] := by
  unfold size at h
  simp [push, h]

/-- Draining cuts the queue in two. -/
theorem toList_drain (c : Collector) (max : Nat) :
    (c.drain max).1.toList = c.buffer.toList.take max ∧
      (c.drain max).2.buffer.toList = c.buffer.toList.drop max := by
  constructor
  · simp [drain]
  · simp [drain, List.take_of_length_le]

/-- **Draining takes out one record after the other**, until there are enough or none is left. -/
theorem drain_succ (c : Collector) (max : Nat) :
    c.drain (max + 1) =
      match c.pop with
      | (some record, rest) => (#[record] ++ (rest.drain max).1, (rest.drain max).2)
      | (none, rest) => (#[], rest) := by
  obtain ⟨capacity, threshold, captures, ⟨records⟩, pushed, dropped, hpos, hle⟩ := c
  cases records with
  | nil => simp [drain, pop]
  | cons record rest => simp [drain, pop]

/-- To take out one record is to drain one. -/
theorem drain_one (c : Collector) : c.drain 1 = (c.pop.1.toArray, c.pop.2) := by
  have hzero : ∀ c : Collector, c.drain 0 = (#[], c) := fun c => by simp [drain]
  rw [drain_succ]
  rcases c.pop with ⟨_ | record, rest⟩
  · rfl
  · simp [hzero]

end Collector

end Interception
