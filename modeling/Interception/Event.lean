import Interception.Json.Quoted
import Interception.Key

/-!
# What happens on the side

The table, the interceptors and the collectors report what they do as events.
Events are an account of a run: nothing in the run depends on them.

Operations that are given back together have no order of their own, so the account
gives them one (`Event.removedTogether`): that of their names as they stand between
quotation marks. An account written one quoted name to a line is then sorted as
text, which the plain names would not give: an escape starts with a backslash,
whatever character it stands for.
-/

namespace Interception

/-- How much an event matters. -/
inductive Severity where
  | trace
  | debug
  | warn
deriving DecidableEq, Repr, Inhabited

/-- The word for a severity. -/
def Severity.word : Severity → String
  | .trace => "TRACE"
  | .debug => "DEBUG"
  | .warn => "WARN"

/-- **Something that happened.** -/
inductive Event where
  /-- An operation was defined. -/
  | defined (key : Key)
  /-- The implementation of an operation was exchanged. -/
  | exchanged (key : Key)
  /-- An interceptor took over an operation. -/
  | installed (key : Key)
  /-- An interceptor gave an operation back. -/
  | removed (key : Key)
  /-- The table was emptied: how many operations it had, and how many of them
  were given back first. -/
  | reset (operations restored : Nat)
  /-- All configured targets are being timed. -/
  | timingInstalled (targets : Nat)
  /-- The interceptors of one type were removed: how many of them were installed. -/
  | instrumentationRemoved (typeName : String) (removed : Nat)
  /-- A record was built for a call: how long it took, in microseconds, and
  whether a replacement ran. -/
  | intercepted (key : Key) (micros : Nat) (replaced : Bool)
  /-- A call was slow. -/
  | slowCall (key : Key) (micros : Nat)
  /-- A collector was full and dropped a record. -/
  | collectorFull (capacity : Nat)
deriving DecidableEq, Repr, Inhabited

namespace Event

/-- How much the event matters. -/
def severity : Event → Severity
  | .intercepted .. => .trace
  | .slowCall .. | .collectorFull .. => .warn
  | _ => .debug

/-- What the event says. -/
def message : Event → String
  | .defined .. => "defined operation"
  | .exchanged .. => "exchanged implementation"
  | .installed .. => "installed interceptor"
  | .removed .. => "removed interceptor"
  | .reset .. => "reset dispatch table"
  | .timingInstalled .. => "timing instrumentation installed"
  | .instrumentationRemoved .. => "removed instrumentation"
  | .intercepted .. => "intercepted call"
  | .slowCall .. => "slow intercepted call"
  | .collectorFull .. => "record collector full, record dropped"

/-- What the event is about. -/
def subject : Event → String
  | .defined key | .exchanged key | .installed key | .removed key => key.display
  | .reset operations restored =>
    toString operations ++ " operations, " ++ toString restored ++ " restored"
  | .timingInstalled targets => toString targets ++ " targets"
  | .instrumentationRemoved typeName count => typeName ++ ", " ++ toString count ++ " removed"
  | .intercepted key micros _ | .slowCall key micros =>
    key.display ++ ", " ++ toString micros ++ " us"
  | .collectorFull capacity => "capacity " ++ toString capacity

/-- Whether one name comes before another, or is the same, when both stand between
quotation marks. -/
def quotedLe (a b : Key) : Bool :=
  decide (Quoted.write a.display ≤ Quoted.write b.display)

/-- **The events of operations that are given back together**, one for each, in the
order of their quoted names. -/
def removedTogether (keys : List Key) : List Event :=
  (keys.mergeSort quotedLe).map .removed

/-- There is one event for each operation. -/
theorem length_removedTogether (keys : List Key) :
    (removedTogether keys).length = keys.length := by
  simp [removedTogether]

/-- Exactly the operations that are given back are reported. -/
theorem removed_mem_removedTogether {keys : List Key} {key : Key} :
    .removed key ∈ removedTogether keys ↔ key ∈ keys := by
  simp [removedTogether]

/-- The event on one line. -/
def line (event : Event) : String :=
  event.severity.word ++ " " ++ event.message ++ ": " ++ event.subject

end Event

end Interception
