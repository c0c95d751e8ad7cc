import Interception.Proofs.Tallies

/-!
# The times of a record, as a clock holds them

In `Instant` and `Span` a time is one number of nanoseconds. A system clock holds it in two: whole
seconds, signed for an instant and unsigned for a span, each in 64 bits, and the nanoseconds beyond
them, which are never a whole second. Before the epoch the two have different signs.

This file adds and subtracts on what a clock holds, and shows that nothing is lost by it:

* `Stamp.add?` – addition, with a **carry** into the seconds. It has a sum just when the exact one
  can be represented, and the sum is then exact (`Stamp.add?_eq_some_iff`,
  `Stamp.add?_isSome_iff`);
* `Stamp.since?` – subtraction, with a **borrow** from the seconds. It is the inverse of addition
  (`Stamp.since?_eq_some_iff`);
* `Instant.unixNanos` – the one word that a written record has for an instant. As long as that is
  less than a word after the epoch, only what lies before the epoch is cut off
  (`Instant.unixNanos_eq_max`).

The times of a record follow from these (`Record.tells_of_make?`).
-/

namespace Interception

/-! ### What a clock holds -/

/-- **An instant as a clock holds it.** Seconds are rounded down, so the nanoseconds count forward
on both sides of the epoch. -/
structure Stamp where
  /-- Whole seconds since the epoch. -/
  seconds : Int
  /-- Nanoseconds since that second began. -/
  nanos : Nat
  isInt64_seconds : IsInt64 seconds
  nanos_lt : nanos < nanosPerSecond
deriving DecidableEq

/-- **A span as a clock measures it.** -/
structure Lapse where
  /-- Whole seconds. -/
  seconds : Nat
  /-- The nanoseconds beyond them. -/
  nanos : Nat
  isNat64_seconds : IsNat64 seconds
  nanos_lt : nanos < nanosPerSecond
deriving DecidableEq

namespace Lapse

/-- The span that is held. -/
def span (d : Lapse) : Span :=
  .of d.seconds d.nanos

/-- A span of these seconds and nanoseconds, if it can be held like that. -/
def hold? (seconds : Int) (nanos : Nat) : Option Lapse :=
  if h : IsNat64 seconds ∧ nanos < nanosPerSecond then
    some ⟨seconds.toNat, nanos, by rw [Int.toNat_of_nonneg h.1.1]; exact h.1, h.2⟩
  else none

theorem hold?_eq_some_iff {seconds : Int} {nanos : Nat} {d : Lapse} :
    hold? seconds nanos = some d ↔ (d.seconds : Int) = seconds ∧ d.nanos = nanos := by
  have hseconds := d.isNat64_seconds
  have hnanos := d.nanos_lt
  unfold hold?
  constructor
  · intro h
    split at h
    · next hfits =>
      obtain rfl := Option.some.inj h
      exact ⟨Int.toNat_of_nonneg hfits.1.1, rfl⟩
    · cases h
  · rintro ⟨rfl, rfl⟩
    rw [dif_pos ⟨hseconds, hnanos⟩]
    rfl

end Lapse

namespace Stamp

/-- The instant that is held. -/
def instant (t : Stamp) : Instant :=
  .of t.seconds t.nanos

/-- An instant of these seconds and nanoseconds, if it can be held like that. -/
def hold? (seconds : Int) (nanos : Nat) : Option Stamp :=
  if h : IsInt64 seconds ∧ nanos < nanosPerSecond then some ⟨seconds, nanos, h.1, h.2⟩ else none

theorem hold?_eq_some_iff {seconds : Int} {nanos : Nat} {t : Stamp} :
    hold? seconds nanos = some t ↔ t.seconds = seconds ∧ t.nanos = nanos := by
  have hseconds := t.isInt64_seconds
  have hnanos := t.nanos_lt
  unfold hold?
  constructor
  · intro h
    split at h
    · obtain rfl := Option.some.inj h
      exact ⟨rfl, rfl⟩
    · cases h
  · rintro ⟨rfl, rfl⟩
    exact dif_pos ⟨hseconds, hnanos⟩

/-- The seconds that are held are those of the instant, rounded down. -/
theorem instant_div (t : Stamp) : t.instant.nanos / nanosPerSecond = t.seconds := by
  have hnanos := t.nanos_lt
  simp only [instant, Instant.of, nanosPerSecond] at *
  omega

/-- **What can be represented** is what a clock can hold. -/
theorem isRepresentable_iff {t : Instant} : t.IsRepresentable ↔ ∃ u : Stamp, u.instant = t := by
  constructor
  · intro h
    -- seconds are rounded down, so what is left over is not negative even before the epoch
    have hnanos : (t.nanos % nanosPerSecond).toNat < nanosPerSecond := by
      simp only [nanosPerSecond]
      omega
    refine ⟨⟨t.nanos / nanosPerSecond, (t.nanos % nanosPerSecond).toNat, h, hnanos⟩, ?_⟩
    cases t
    simp only [instant, Instant.of, nanosPerSecond, Instant.mk.injEq]
    omega
  · rintro ⟨u, rfl⟩
    rw [Instant.IsRepresentable, instant_div]
    exact u.isInt64_seconds

/-! ### Addition and subtraction -/

/-- **The instant a span later**: where the nanoseconds make a whole second, it is carried. -/
def add? (t : Stamp) (d : Lapse) : Option Stamp :=
  if t.nanos + d.nanos < nanosPerSecond then
    hold? (t.seconds + d.seconds) (t.nanos + d.nanos)
  else
    hold? (t.seconds + d.seconds + 1) (t.nanos + d.nanos - nanosPerSecond)

/-- **The span since an earlier instant**: where the nanoseconds do not suffice, a second is
borrowed. There is none if the other instant is not earlier. -/
def since? (u t : Stamp) : Option Lapse :=
  if t.nanos ≤ u.nanos then
    Lapse.hold? (u.seconds - t.seconds) (u.nanos - t.nanos)
  else
    Lapse.hold? (u.seconds - t.seconds - 1) (u.nanos + nanosPerSecond - t.nanos)

/-- What an exact sum says of the seconds and the nanoseconds. -/
theorem instant_eq_add_iff {t u : Stamp} {d : Lapse} :
    u.instant = t.instant.add d.span ↔
      (u.seconds - t.seconds - d.seconds) * nanosPerSecond =
        (t.nanos + d.nanos : Int) - u.nanos := by
  simp only [instant, Lapse.span, Instant.of, Span.of, Instant.add, Instant.mk.injEq,
    nanosPerSecond]
  omega

/-- **Addition is exact**, on both sides of the epoch and across it. -/
theorem add?_eq_some_iff {t u : Stamp} {d : Lapse} :
    t.add? d = some u ↔ u.instant = t.instant.add d.span := by
  have ht := t.nanos_lt
  have hd := d.nanos_lt
  have hu := u.nanos_lt
  rw [instant_eq_add_iff]
  unfold add?
  split <;> rw [hold?_eq_some_iff] <;> simp only [nanosPerSecond] at * <;> omega

/-- **Subtraction is exact**: it finds what would have to be added. -/
theorem since?_eq_some_iff {t u : Stamp} {d : Lapse} :
    u.since? t = some d ↔ u.instant = t.instant.add d.span := by
  have ht := t.nanos_lt
  have hd := d.nanos_lt
  have hu := u.nanos_lt
  rw [instant_eq_add_iff]
  unfold since?
  split <;> rw [Lapse.hold?_eq_some_iff] <;> simp only [nanosPerSecond] at * <;> omega

/-- There is a sum just when the exact one can be represented. -/
theorem add?_isSome_iff {t : Stamp} {d : Lapse} :
    (t.add? d).isSome ↔ (t.instant.add d.span).IsRepresentable := by
  rw [isRepresentable_iff, Option.isSome_iff_exists]
  exact exists_congr fun _ => add?_eq_some_iff

end Stamp

/-! ### Instants as single words -/

namespace Instant

/-- What lies less than a word after the epoch is written exactly, and what lies before the epoch is
written as zero. -/
theorem unixNanos_eq_max {t : Instant} (h : t.nanos < wordSize) :
    (t.unixNanos : Int) = max 0 t.nanos := by
  rw [unixNanos]
  split
  · rw [Nat.mod_eq_of_lt (by omega)]
    omega
  · omega

/-- What is written never decreases with time. -/
theorem unixNanos_le_of_le {t u : Instant} (h : t.nanos ≤ u.nanos) (hu : u.nanos < wordSize) :
    t.unixNanos ≤ u.unixNanos := by
  have h1 := unixNanos_eq_max hu
  have h2 := unixNanos_eq_max (h.trans_lt hu)
  omega

/-- The difference of what is written is the time in between, as far as it lies after the epoch. -/
theorem unixNanos_sub {t u : Instant} (h : t.nanos ≤ u.nanos) (hu : u.nanos < wordSize) :
    u.unixNanos - t.unixNanos =
      if 0 ≤ t.nanos then (t.spanTo u).nanos else (epoch.spanTo u).nanos := by
  have h1 := unixNanos_eq_max hu
  have h2 := unixNanos_eq_max (h.trans_lt hu)
  simp only [spanTo, epoch]
  split <;> omega

end Instant

/-! ### Records -/

namespace Record

/-- A written record has the two times as its members. -/
theorem member?_times (record : Record) :
    record.toValue.member? "start_time_nanos" = some (.int record.start.unixNanos) ∧
      record.toValue.member? "end_time_nanos" = some (.int record.finish.unixNanos) :=
  ⟨rfl, rfl⟩

/-- There is no record just when the end cannot be represented. -/
theorem make?_eq_none_iff {callId : Nat} {key : Key} {start : Instant} {span : Span} :
    make? callId key start span = none ↔ ¬(start.add span).IsRepresentable := by
  rw [make?, ite_eq_right_iff]
  simp only [reduceCtorEq, imp_false]

/-- **A record that tells the times of a call exactly**, for the number, the operation, the start
and the span that it was made for, and the end that comes of them. -/
structure Tells (record : Record) (callId : Nat) (key : Key) (start : Stamp) (elapsed : Lapse)
    (finish : Stamp) : Prop where
  callId_eq : record.callId = callId
  key_eq : record.key = key
  start_eq : record.start = start.instant
  finish_eq : record.finish = finish.instant
  /-- Adding the span to the start, with a carry, gives the end. -/
  sum_eq : start.add? elapsed = some finish
  /-- Subtracting the start from the end, with a borrow, gives the span. -/
  difference_eq : finish.since? start = some elapsed
  start_le_finish : record.start.nanos ≤ record.finish.nanos
  elapsed_eq : record.elapsed = elapsed.span
  /-- Microseconds are rounded down, as far as they fit a word. -/
  micros_eq : elapsed.span.nanos / 1000 < wordSize → record.micros = elapsed.span.nanos / 1000
  /-- As long as the end is less than a word of nanoseconds after the epoch, the written times are
  exact, with zero for what lies before the epoch. They are in order, and their difference is the
  span, if the start is not before the epoch, and else the part of the span after the epoch. -/
  written : finish.instant.nanos < wordSize →
    ∃ first last : Nat,
      record.toValue.member? "start_time_nanos" = some (.int first) ∧
        record.toValue.member? "end_time_nanos" = some (.int last) ∧
          (first : Int) = max 0 start.instant.nanos ∧
            (last : Int) = max 0 finish.instant.nanos ∧
              first ≤ last ∧
                (0 ≤ start.instant.nanos → last - first = elapsed.span.nanos) ∧
                  (start.instant.nanos < 0 →
                    last - first = (Instant.epoch.spanTo finish.instant).nanos)

/-- A record whose end is the sum of its start and a span tells the times of it. -/
theorem Tells.of_eq {record : Record} {start finish : Stamp} {elapsed : Lapse}
    (hstart : record.start = start.instant) (hfinish : record.finish = finish.instant)
    (hsum : finish.instant = start.instant.add elapsed.span) :
    record.Tells record.callId record.key start elapsed finish := by
  have hle : start.instant.nanos ≤ finish.instant.nanos := by
    simp only [hsum, Instant.add]
    omega
  have hspan : start.instant.spanTo finish.instant = elapsed.span := by
    rw [hsum, Instant.spanTo_add]
  have helapsed : record.elapsed = elapsed.span := by
    rw [Record.elapsed, hstart, hfinish, hspan]
  refine ⟨rfl, rfl, hstart, hfinish, Stamp.add?_eq_some_iff.mpr hsum,
    Stamp.since?_eq_some_iff.mpr hsum, by rwa [hstart, hfinish], helapsed, fun hmicros => ?_,
    fun hword => ?_⟩
  · rw [micros, helapsed, Span.micros, Nat.mod_eq_of_lt hmicros]
  · obtain ⟨hfirst, hlast⟩ := record.member?_times
    rw [hstart] at hfirst
    rw [hfinish] at hlast
    have hdifference := Instant.unixNanos_sub hle hword
    refine ⟨_, _, hfirst, hlast, Instant.unixNanos_eq_max (hle.trans_lt hword),
      Instant.unixNanos_eq_max hword, Instant.unixNanos_le_of_le hle hword, fun h => ?_,
      fun h => ?_⟩
    · rw [hdifference, if_pos h, hspan]
    · rw [hdifference, if_neg (Int.not_le.mpr h)]

/-- **The times of a record are exact.** Let an instant and a span be as a clock holds them. There
is no record from the one over the other just when the seconds of the end leave the signed 64-bit
range. Any record that there is tells the times exactly, and so it does after arguments have been
attached to it, by which nothing else is changed. -/
theorem tells_of_make? (callId : Nat) (key : Key) (start : Stamp) (elapsed : Lapse) :
    (make? callId key start.instant elapsed.span = none ↔
        ¬IsInt64 ((start.instant.nanos + elapsed.span.nanos) / nanosPerSecond)) ∧
      (make? callId key start.instant elapsed.span = none ↔ start.add? elapsed = none) ∧
        ∀ record, make? callId key start.instant elapsed.span = some record →
          ∃ finish : Stamp,
            record.Tells callId key start elapsed finish ∧
              ∀ arguments,
                (record.withArguments arguments).Tells callId key start elapsed finish ∧
                  { record.withArguments arguments with arguments := record.arguments } =
                    record := by
  refine ⟨make?_eq_none_iff, ?_, fun record hmake => ?_⟩
  · rw [make?_eq_none_iff, ← Stamp.add?_isSome_iff, Bool.not_eq_true, Option.isSome_eq_false_iff,
      Option.isNone_iff_eq_none]
  -- there is a record, so the end can be represented, which is to say that a clock can hold it
  · obtain rfl := eq_ofSpan_of_make? hmake
    have hfits : (start.instant.add elapsed.span).IsRepresentable := by
      by_contra hfits
      rw [make?_eq_none_iff.mpr hfits] at hmake
      cases hmake
    obtain ⟨finish, hfinish⟩ := Stamp.isRepresentable_iff.mp hfits
    exact ⟨finish, .of_eq rfl hfinish.symm hfinish,
      fun arguments => ⟨.of_eq rfl hfinish.symm hfinish, rfl⟩⟩

end Record

namespace Midnight

/-- A second and a half before the epoch. -/
def start : Stamp :=
  ⟨-2, 500000000, by decide, by decide⟩

/-- A span that is not over before it. -/
def elapsed : Lapse :=
  ⟨3, 750000000, by decide, by decide⟩

/-- The last nanosecond that a clock can hold. -/
def last : Stamp :=
  ⟨9223372036854775807, 999999999, by decide, by decide⟩

/-- One nanosecond. -/
def tick : Lapse :=
  ⟨0, 1, by decide, by decide⟩

/-- A call across the epoch: the nanoseconds make a whole second, and what is written is the part
after the epoch. After the last nanosecond, there is no record. -/
theorem tells_of_midnight :
    (∃ record finish, Record.make? 7 (.ofType "Clock" "strike") start.instant elapsed.span =
        some record ∧
      record.Tells 7 (.ofType "Clock" "strike") start elapsed finish ∧
        finish.seconds = 2 ∧ finish.nanos = 250000000 ∧
          record.toValue.member? "start_time_nanos" = some (.int 0) ∧
            record.toValue.member? "end_time_nanos" = some (.int 2250000000)) ∧
      Record.make? 7 (.ofType "Clock" "strike") last.instant tick.span = none := by
  have hmake : Record.make? 7 (.ofType "Clock" "strike") start.instant elapsed.span =
      some (.ofSpan 7 (.ofType "Clock" "strike") start.instant elapsed.span) :=
    if_pos (by decide)
  obtain ⟨finish, htells, -⟩ :=
    (Record.tells_of_make? 7 (.ofType "Clock" "strike") start elapsed).2.2 _ hmake
  have hfinish : some ⟨2, 250000000, by decide, by decide⟩ = some finish := htells.sum_eq
  obtain rfl := Option.some.inj hfinish
  refine ⟨⟨_, _, hmake, htells, rfl, rfl, rfl, rfl⟩, ?_⟩
  exact (Record.tells_of_make? 7 (.ofType "Clock" "strike") last tick).1.mpr (by decide)

end Midnight

end Interception
