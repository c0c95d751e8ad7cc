import Interception.Binary64

/-!
# Instants and spans of time

Time is counted in whole nanoseconds: an `Instant` from the Unix epoch, in both
directions, and a `Span` from zero. A system clock holds the seconds of an
instant in a signed 64-bit word, and `Instant.IsRepresentable` says which
instants it can hold.

A `Reading` is what a clock shows at one moment: the time of day, and a steady
count that never runs backwards. Its bounds are what makes the sum of a wall time
and a measured span representable (`Reading.isRepresentable_add`).
-/

namespace Interception

/-- The nanoseconds of a second. -/
def nanosPerSecond : Nat :=
  1000000000

/-- **A span of time.** -/
structure Span where
  /-- Its length in nanoseconds. -/
  nanos : Nat
deriving DecidableEq, Repr, Inhabited

namespace Span

/-- The span of whole seconds and nanoseconds. -/
def of (seconds nanos : Nat) : Span :=
  ⟨seconds * nanosPerSecond + nanos⟩

/-- The whole seconds of a span. -/
def wholeSeconds (s : Span) : Nat :=
  s.nanos / nanosPerSecond

/-- The nanoseconds beyond the whole seconds. -/
def subsecond (s : Span) : Nat :=
  s.nanos % nanosPerSecond

/-- The whole microseconds of a span, as a 64-bit word. -/
def micros (s : Span) : Nat :=
  s.nanos / 1000 % wordSize

/-- The span in seconds, as a floating-point number: the whole seconds and the
rest are rounded each for themselves, and then their sum is. -/
def seconds (s : Span) : Binary64 :=
  (Binary64.ofNat s.wholeSeconds).add ((Binary64.ofNat s.subsecond).divNat nanosPerSecond)

end Span

/-- **A moment in time.** -/
structure Instant where
  /-- Nanoseconds since the Unix epoch. -/
  nanos : Int
deriving DecidableEq, Repr, Inhabited

namespace Instant

/-- The Unix epoch. -/
def epoch : Instant :=
  ⟨0⟩

/-- The instant of whole seconds and nanoseconds after the epoch. -/
def of (seconds : Int) (nanos : Nat) : Instant :=
  ⟨seconds * nanosPerSecond + nanos⟩

/-- The instant a span later. -/
def add (t : Instant) (s : Span) : Instant :=
  ⟨t.nanos + s.nanos⟩

/-- The span from one instant to another; zero if the other is not later. -/
def spanTo (t later : Instant) : Span :=
  ⟨(later.nanos - t.nanos).toNat⟩

/-- Whether a clock with 64-bit seconds can hold the instant. -/
def IsRepresentable (t : Instant) : Prop :=
  IsInt64 (t.nanos / nanosPerSecond)

instance (t : Instant) : Decidable t.IsRepresentable :=
  inferInstanceAs (Decidable (IsInt64 _))

/-- Nanoseconds since the epoch as a 64-bit word; zero before the epoch. -/
def unixNanos (t : Instant) : Nat :=
  if 0 ≤ t.nanos then t.nanos.toNat % wordSize else 0

theorem spanTo_add (t : Instant) (s : Span) : t.spanTo (t.add s) = s := by
  cases s
  simp only [Instant.spanTo, add, Span.mk.injEq]
  omega

end Instant

/-! ### Clocks -/

/-- **What a clock shows**: the time of day, and a count that only moves forward. Both
stay below what 62 bits of seconds can hold. -/
structure Reading where
  /-- The time of day. -/
  wall : Instant
  /-- The steady count, in nanoseconds from some fixed moment. -/
  steady : Nat
  wall_ge : -4611686018427387904000000000 ≤ wall.nanos := by decide
  wall_lt : wall.nanos < 4611686018427387904000000000 := by decide
  steady_lt : steady < 4611686018427387904000000000 := by decide

namespace Reading

/-- The clock at the epoch. -/
def atEpoch : Reading :=
  { wall := .epoch, steady := 0 }

instance : Inhabited Reading := ⟨atEpoch⟩

/-- The reading of a time of day and a steady count, unless they are out of all
bounds. -/
def of? (wall : Instant) (steady : Nat) : Option Reading :=
  if h : (-4611686018427387904000000000 ≤ wall.nanos ∧
      wall.nanos < 4611686018427387904000000000) ∧ steady < 4611686018427387904000000000 then
    some { wall, steady, wall_ge := h.1.1, wall_lt := h.1.2, steady_lt := h.2 }
  else none

/-- The span measured between two readings. -/
def spanTo (start stop : Reading) : Span :=
  ⟨stop.steady - start.steady⟩

/-- The end of a measured span can be held by a clock. -/
theorem isRepresentable_add (start stop : Reading) :
    (start.wall.add (start.spanTo stop)).IsRepresentable := by
  have h1 := start.wall_ge
  have h2 := start.wall_lt
  have h3 := stop.steady_lt
  simp only [Instant.IsRepresentable, IsInt64, Instant.add, spanTo, nanosPerSecond]
  omega

end Reading

/-- A clock: what it shows at each look. -/
abbrev Clock := Nat → Reading

end Interception
