/-!
# What ends a thread at once

Whoever asks for some things has to see to it that they can be had. A `Fault` says
what was not seen to. It is no failure: it passes through every call that is under
way, no hook and no caller gets to know of it, and what has been done so far stays.
-/

namespace Interception

/-- **Why a thread ends at once.** -/
inductive Fault where
  /-- Its calls nest too deep. -/
  | tooDeep
  /-- It asked for a collector without room. -/
  | noCapacity
  /-- It asked for a time that no clock can hold. -/
  | timeOverflow
deriving DecidableEq, Repr, Inhabited

/-- The text of a fault. -/
def Fault.text : Fault → String
  | .tooDeep => "calls nest too deep"
  | .noCapacity => "Collector capacity must be > 0"
  | .timeOverflow => "overflow when adding duration to `SystemTime`"

end Interception
