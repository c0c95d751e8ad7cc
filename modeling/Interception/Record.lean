import Interception.Key
import Interception.Time
import Interception.Value

/-!
# Timing records

A `Record` says of one call that went through an interceptor which operation it
was for, when the forwarded part of it started and ended, and how long that took.
The end is the start plus the measured span, so it never lies before the start,
whatever the time of day did in between.

* `Record.make?` – the record of a given start and span, unless the end lies
  beyond what a clock can hold.
* `Record.measured` – the record between two readings of a clock, which always
  exists.
* `Record.elapsed` – the span between start and end; `Record.elapsed_of_make?`
  says that it is the span the record was made from.
-/

namespace Interception

/-- **The timing record of one call.** No two records of a run have the same call
id, so a record equals only itself. -/
structure Record where
  /-- The number of the record. -/
  callId : Nat
  /-- The operation that was called. -/
  key : Key
  /-- When the forwarded part of the call started. -/
  start : Instant
  /-- When it ended. -/
  finish : Instant
  /-- How long it took, in seconds. -/
  duration : Binary64
  /-- The arguments of the call, where someone asked to keep them. -/
  arguments : Option (List Value)
deriving DecidableEq, Repr, Inhabited

namespace Record

/-- The record of a call that started at an instant and took a span of time. -/
def ofSpan (callId : Nat) (key : Key) (start : Instant) (span : Span) : Record :=
  { callId, key, start, finish := start.add span, duration := span.seconds, arguments := none }

/-- **The record of a start and a span**, unless the end cannot be represented. -/
def make? (callId : Nat) (key : Key) (start : Instant) (span : Span) : Option Record :=
  if (start.add span).IsRepresentable then some (ofSpan callId key start span) else none

/-- **The record between two readings of a clock.** Its end can always be
represented (`Reading.isRepresentable_add`). -/
def measured (callId : Nat) (key : Key) (start stop : Reading) : Record :=
  ofSpan callId key start.wall (start.spanTo stop)

/-- The record with arguments attached. -/
def withArguments (record : Record) (arguments : List Value) : Record :=
  { record with arguments := some arguments }

/-- The time the call took. -/
def elapsed (record : Record) : Span :=
  record.start.spanTo record.finish

/-- The time the call took, in whole microseconds. -/
def micros (record : Record) : Nat :=
  record.elapsed.micros

@[simp] theorem elapsed_ofSpan (callId : Nat) (key : Key) (start : Instant) (span : Span) :
    (ofSpan callId key start span).elapsed = span :=
  start.spanTo_add span

/-- A record keeps the span it was made from. -/
theorem elapsed_of_make? {callId : Nat} {key : Key} {start : Instant} {span : Span}
    {record : Record} (h : make? callId key start span = some record) :
    record.elapsed = span := by
  unfold make? at h
  split at h
  · obtain rfl := Option.some.inj h
    exact elapsed_ofSpan ..
  · cases h

/-- The record as a document. Arguments are a member only where they were kept. -/
def toValue (record : Record) : Value :=
  .object <|
    [("call_id", .int record.callId),
      ("type_name", .string record.key.typeName),
      ("operation_name", .string record.key.operation),
      ("is_instance_level", .bool record.key.level.isInstance),
      ("start_time_nanos", .int record.start.unixNanos),
      ("end_time_nanos", .int record.finish.unixNanos),
      ("duration", .float record.duration)] ++
    match record.arguments with
    | some arguments => [("arguments", .array arguments)]
    | none => []

end Record

end Interception
