import Interception.Calculator
import Interception.CommandLine
import Interception.Config.Toml
import Interception.Crew
import Interception.Report
import Interception.Statistics.Summary

/-!
# The demonstration run

The program times the sample type: it defines the operations, installs an
interceptor on each target of its configuration, and lets some threads run the
workload while it drains the collector every now and then. What it drained becomes
statistics and, where asked for, a list of records.

* `Demonstration.settle?` – what is done, from the options and the configuration
  file.
* `Demonstration.begin?` – everything set up, the threads not yet running.
* `Demonstration.take` – one turn: a thread carries out an action, or the drain goes
  on by one record. Who takes a turn when is not for the program to say, so every list
  of turns is a possible run (`Demonstration.takeAll`).
* `Demonstration.conclude` – the remaining turns, and the outcome.

A drain is not done in one piece. It takes out one record at a time, and threads may
hand in others before it takes out the next. What it has taken out so far is its
*batch*, and counts for nothing until the batch is full or the collector empty.
-/

namespace Interception

/-- **Why a run has no outcome.** -/
inductive RunError where
  /-- There is no thread to run the workload. -/
  | noThreads
  /-- There is no configuration to use. -/
  | config (error : Config.LoadError)
  /-- The operations cannot be set up, or a target cannot be timed. -/
  | call (error : CallError)
  /-- A thread ended in the middle of what it did. -/
  | threadLost
  /-- The workload of a thread failed. -/
  | workload (failure : Failure)
  /-- The results of the threads add up to more than a signed 64-bit integer. -/
  | checksumOverflow

/-- The text of a run error. -/
def RunError.text : RunError → String
  | .noThreads => "Invalid value for --threads: 0 (must be >= 1)"
  | .config error => error.text
  | .call error => error.text
  | .threadLost => "workload thread panicked"
  | .workload _ => "workload failed"
  | .checksumOverflow => "checksum overflows i64"

/-- **The outcome of a run.** -/
structure RunOutcome where
  /-- What the workloads of all threads add up to. -/
  checksum : Int
  /-- How many records were dropped. -/
  dropped : Nat
  /-- The statistics of the records that were not. -/
  statistics : Statistics
  /-- These records, where they were asked for. -/
  records : Array Record

/-- The report of an outcome. -/
def RunOutcome.report (outcome : RunOutcome) : Report :=
  outcome.records.foldl Report.addRecord
    ((Report.ofStatistics outcome.statistics).withDropped outcome.dropped)

/-- What is written to standard output. -/
def RunOutcome.output (outcome : RunOutcome) : Format → String
  | .text =>
    "Checksum: " ++ toString outcome.checksum ++ "\n" ++
      "Dropped records: " ++ toString outcome.dropped ++ "\n"
  | .json => outcome.report.text ++ "\n"

/-- What is written to standard error. -/
def RunOutcome.summary (outcome : RunOutcome) : Format → String
  | .text => Statistics.banner ++ outcome.statistics.summary
  | .json => ""

/-- **A run under way.** -/
structure Demonstration where
  /-- The threads, and the system they work on. -/
  crew : Crew Unit (Except Failure Value)
  /-- The collector that gets the records. -/
  collector : CollectorId
  /-- The interceptors on the targets. -/
  handles : List Handle
  /-- Whether records are kept. -/
  keepRecords : Bool
  /-- The records that the drain under way has taken out so far. -/
  batch : Array Record
  /-- The statistics of the batches before it. -/
  statistics : Statistics
  /-- The records in these batches, where they are kept. -/
  records : Array Record

namespace Demonstration

/-! ### Setting up -/

/-- The configuration with everything that the options add to it: the operations of
the sample type if it has no targets, and the flags. -/
def configured (options : Options) (config : Config) : Config :=
  { config with
    targets := if config.targets.isEmpty then Calculator.operations else config.targets
    enabledByDefault := config.enabledByDefault && !options.disable
    captureArguments := config.captureArguments || options.captureArguments }

/-- **What is done**, from the options and the files there are. -/
def settle? (options : Options) (file : String → Option ByteArray) : Except RunError Config :=
  if options.threads = 0 then .error .noThreads
  else
    match options.config with
    | none => .ok (configured options .standard)
    | some path =>
      match Config.load path (file path) with
      | .ok config => .ok (configured options config)
      | .error error => .error (.config error)

/-- How deep calls may nest. The workload calls operations that call nothing. -/
def depth : Nat :=
  16

/-- **Everything set up**, on a system with nothing in it. -/
def begin? (options : Options) (config : Config) (clock : Clock) : Except RunError Demonstration :=
  let s : System Unit := .start clock ()
  match s.execute depth Calculator.define with
  | (.error _, _) => .error .threadLost
  | (.ok (.error failure), _) => .error (.call failure.recover)
  | (.ok (.ok _), s) =>
    match s.createCollector config.collectorCapacity config.threshold? config.captureArguments with
    | (none, _) => .error (.config (.invalid .noCapacity))
    | (some collector, s) =>
      match s.timeTargets config collector with
      | (.error error, _) => .error (.call error)
      | (.ok handles, s) =>
        .ok
          { crew :=
              { threads :=
                  List.replicate options.threads
                    ((Calculator.workload options.iterations).thread depth)
                system := s }
            collector
            handles
            keepRecords := options.records
            batch := #[]
            statistics := .empty
            records := #[] }

/-! ### Running -/

/-- How many records a batch has at most. -/
def batchSize : Nat :=
  1024

/-- Takes in records that were drained. -/
def absorb (run : Demonstration) (batch : List Record) : Demonstration :=
  { run with
    statistics := run.statistics.addAll batch
    records := if run.keepRecords then run.records ++ batch else run.records }

/-- Ends the drain under way: its batch is taken in, and the next one is empty. -/
def endDrain (run : Demonstration) : Demonstration :=
  { run.absorb run.batch.toList with batch := #[] }

/-- **The drain goes on**: it takes out one record more. It ends where the batch is full, or
where there is no record to take out. -/
def drainOn (run : Demonstration) : Demonstration :=
  if run.batch.size < batchSize then
    let (record, system) := run.crew.system.pop run.collector
    let run := { run with crew := { run.crew with system } }
    match record with
    | some record => { run with batch := run.batch.push record }
    | none => run.endDrain
  else run.endDrain

/-- What happens next. -/
inductive Turn where
  /-- A thread carries out an action. -/
  | work (member : Nat)
  /-- The drain goes on. -/
  | drain
deriving DecidableEq, Repr

/-- **Takes a turn.** -/
def take (run : Demonstration) : Turn → Demonstration
  | .work member => { run with crew := run.crew.step member }
  | .drain => run.drainOn

/-- The same run, with a clock that shows one moment from now on. -/
def setClock (run : Demonstration) (reading : Reading) : Demonstration :=
  let system := { run.crew.system with clock := fun _ => reading }
  { run with crew := { run.crew with system } }

/-- **Takes turns** as a list says. -/
def takeAll (run : Demonstration) (turns : List Turn) : Demonstration :=
  turns.foldl take run

/-- The sum of the results of the threads. -/
def checksum : List (Except Fault (Except Failure Value)) → Int → Except RunError Int
  | [], sum => .ok sum
  | result :: rest, sum =>
    match result with
    | .error _ => .error .threadLost
    | .ok (.error failure) => .error (.workload failure)
    | .ok (.ok value) =>
      let sum := sum + value.int64?.getD 0
      if IsInt64 sum then checksum rest sum else .error .checksumOverflow

/-- **The outcome**, after the threads have come to their ends: the drain under way comes
to its own, what is left in the collector is drained, the interceptors are given up, and
the table is emptied. The system that remains is yielded too.

No thread is left that could hand anything in, so both drains are done in one piece. -/
def conclude (run : Demonstration) : Except RunError RunOutcome × System Unit :=
  let (results, s) := run.crew.finish
  let (rest, s) := s.drain run.collector (batchSize - run.batch.size)
  match checksum results 0 with
  | .error error => (.error error, s)
  | .ok checksum =>
    let (left, s) := s.drainAll run.collector
    let run := (run.absorb (run.batch.toList ++ rest)).absorb left
    let s := (s.dropAll run.handles).reset
    (.ok
      { checksum
        dropped := (s.viewCollector run.collector).dropped
        statistics := run.statistics
        records := run.records }, s)

/-- Turns enough for a drain from its beginning to its end. -/
def wholeDrain : List Turn :=
  List.replicate (batchSize + 1) .drain

/-- A fair order of turns: the threads work in turn, some actions at a time, and
then a batch is drained. -/
def fairTurns (threads rounds : Nat) : List Turn :=
  let work := (List.range threads).flatMap fun member => List.replicate 256 (.work member)
  (List.replicate rounds (work ++ wholeDrain)).flatten

/-- **A whole run**, with turns taken in a fair order. The clock shows one moment
throughout. -/
def perform (options : Options) (file : String → Option ByteArray) :
    Except RunError RunOutcome := do
  let config ← settle? options file
  let run ← begin? options config fun _ => .atEpoch
  (run.takeAll (fairTurns options.threads (options.iterations / 8))).conclude.1

end Demonstration

end Interception
