import Interception.Directory
import Interception.Record

/-!
# Statistics per operation

`Statistics` fold durations into one `Tally` per operation: how many calls, how
long in total, the shortest and the longest. A record counts as its key and its
whole microseconds (`Statistics.add`).

* `Statistics.sorted` – the tallies with the longest total first, equal totals in
  the order of keys.
* `Statistics.totals` – the sums over all operations.
-/

namespace Interception

/-- **What is known of the calls of one operation**, in microseconds. Counters of 64
bits hold the same numbers as long as each is below `wordSize`; those here go on. -/
structure Tally where
  /-- How many calls. -/
  calls : Nat
  /-- Their durations together. -/
  total : Nat
  /-- The shortest. -/
  least : Nat
  /-- The longest. -/
  greatest : Nat
deriving DecidableEq, Repr

namespace Tally

/-- Nothing known yet. -/
def empty : Tally :=
  ⟨0, 0, 0, 0⟩

instance : Inhabited Tally := ⟨empty⟩

/-- Counts one more call. -/
def add (tally : Tally) (micros : Nat) : Tally :=
  { calls := tally.calls + 1
    total := tally.total + micros
    least := if tally.calls = 0 then micros else min tally.least micros
    greatest := if tally.calls = 0 then micros else max tally.greatest micros }

/-- The mean duration, rounded down; zero without calls. -/
def average (tally : Tally) : Nat :=
  tally.total / tally.calls

/-- The tally as a document. -/
def toValue (tally : Tally) : Value :=
  .object
    [("calls", .int tally.calls), ("total_time_us", .int tally.total),
      ("min_time_us", .int tally.least), ("max_time_us", .int tally.greatest)]

end Tally

/-- **Tallies per operation.** -/
structure Statistics where
  /-- One tally for every operation that was recorded. -/
  tallies : Directory Key Tally
deriving Inhabited

/-- The sums over all operations. Like those of a tally, they are the sums in words of
64 bits as long as each is below `wordSize`. -/
structure Totals where
  /-- How many operations. -/
  operations : Nat
  /-- How many calls. -/
  calls : Nat
  /-- Their durations together, in microseconds. -/
  total : Nat
deriving DecidableEq, Repr

namespace Statistics

/-- No call recorded. -/
def empty : Statistics :=
  ⟨.empty⟩

/-- The tally of an operation. -/
def find? (s : Statistics) (key : Key) : Option Tally :=
  s.tallies.find? key

/-- **Counts a call** of an operation that took some microseconds. -/
def addDuration (s : Statistics) (key : Key) (micros : Nat) : Statistics :=
  ⟨s.tallies.put key (((s.find? key).getD .empty).add micros)⟩

/-- Counts the call of a record. -/
def add (s : Statistics) (record : Record) : Statistics :=
  s.addDuration record.key record.micros

/-- Counts the calls of several records. -/
def addAll (s : Statistics) (records : List Record) : Statistics :=
  records.foldl add s

/-- Whether no call was recorded. -/
def isEmpty (s : Statistics) : Bool :=
  s.tallies.entries.isEmpty

/-- The order of rows: longest total first, equal totals by key. -/
def rowLe (a b : Key × Tally) : Bool :=
  decide (b.2.total < a.2.total) || (decide (a.2.total = b.2.total) && a.1.le b.1)

/-- **The tallies in the order of rows.** -/
def sorted (s : Statistics) : List (Key × Tally) :=
  s.tallies.entries.mergeSort rowLe

/-- The sums over all operations, without a bound on them. -/
def totals (s : Statistics) : Totals :=
  { operations := s.tallies.size
    calls := s.tallies.entries.foldl (fun sum row => sum + row.2.calls) 0
    total := s.tallies.entries.foldl (fun sum row => sum + row.2.total) 0 }

/-- One more call of `key` changes the tally of `key` and no other. -/
theorem find?_addDuration (s : Statistics) (key other : Key) (micros : Nat) :
    (s.addDuration key micros).find? other =
      if other = key then some (((s.find? key).getD .empty).add micros) else s.find? other :=
  Directory.find?_put ..

end Statistics

end Interception
