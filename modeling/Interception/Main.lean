import Interception.CommandLine.Help
import Interception.Demonstration
import Std.Time.DateTime.Timestamp

/-!
# The program

The outermost layer of the demonstration: it reads the arguments, the configuration
file and the clock, lets the threads take turns until all have ended, and prints the
outcome.

| what happens | standard output | standard error | exit code |
|---|---|---|---|
| help or version | the text | | 0 |
| a run | checksum or report | summary, and events where asked for | 0 |
| a run without an outcome | | the reason | 1 |
| arguments that are not right | | the complaint | 2 |
-/

namespace Interception

namespace Demonstration

/-- What the clock shows now. -/
def lookAtClock : IO Reading := do
  let wall ← Std.Time.Timestamp.now
  let steady ← IO.monoNanosNow
  return (Reading.of? ⟨wall.toNanosecondsSinceUnixEpoch.val⟩ steady).getD .atEpoch

/-- The content of the configuration file, if one is named and can be read. -/
def readConfig (options : Options) : IO (Option ByteArray) := do
  match options.config with
  | none => return none
  | some path =>
    try
      return some (← IO.FS.readBinFile path)
    catch _ =>
      return none

/-- Lets a thread carry out some actions, each at its own moment. -/
def advance (member : Nat) : Nat → Demonstration → IO Demonstration
  | 0, run => return run
  | actions + 1, run => do
    let reading ← lookAtClock
    advance member actions ((run.setClock reading).take (.work member))

/-- Lets every thread advance, one after the other. -/
def advanceAll : List Nat → Demonstration → IO Demonstration
  | [], run => return run
  | member :: rest, run => do advanceAll rest (← advance member 64 run)

/-- Lets the threads advance until all have ended, and drains in between. -/
partial def follow (run : Demonstration) : IO Demonstration := do
  if run.crew.isIdle then return run
  else
    let run ← advanceAll (List.range run.crew.threads.length) run
    follow (run.takeAll wholeDrain)

/-- Prints what happened, apart from the calls. -/
def printEvents (events : Array Event) : IO Unit :=
  for event in events do
    if event.severity ≠ .trace then IO.eprintln event.line

/-- Prints why there is no outcome. -/
def fail (error : RunError) : IO UInt32 := do
  IO.eprintln ("Error: " ++ error.text)
  return 1

/-- **Runs the demonstration.** -/
def main (options : Options) : IO UInt32 := do
  let content ← readConfig options
  match settle? options fun _ => content with
  | .error error => fail error
  | .ok config =>
    let reading ← lookAtClock
    match begin? options config fun _ => reading with
    | .error error => fail error
    | .ok run =>
      let (outcome, system) := (← follow run).conclude
      if options.debug then printEvents system.journal
      match outcome with
      | .error error => fail error
      | .ok outcome =>
        IO.print (outcome.output options.format)
        IO.eprint (outcome.summary options.format)
        return 0

end Demonstration

end Interception

/-- The program. -/
def main (args : List String) : IO UInt32 := do
  match Interception.Options.parse args with
  | .ok options => Interception.Demonstration.main options
  | .error stop =>
    match stop.requestedText? with
    | some text => IO.print text
    | none => IO.eprintln stop.complaint
    return UInt32.ofNat stop.exitCode
