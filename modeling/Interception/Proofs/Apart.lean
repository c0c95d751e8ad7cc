import Interception.Proofs.Steps

/-!
# Sides that have nothing in common

Two sequences of steps concern two sides of a system that have no operation in common. They may be
interleaved in any way: each step gets the answer that it gets where one sequence runs completely
before the other, and table and interceptors are the same in the end
(`Interception.answers_eq_of_apart`).

The argument looks at one side at a time. A step of the side does the same in every system that is
the same on that side, and a step of the other side leaves this one as it is
(`System.ReadyFor.step`). So what a sequence is answered, and what it leaves on its side, is what it
would be if there were no other sequence at all (`System.ReadyFor.interleave`), in whatever way the
two are interleaved.
-/

namespace Interception

variable {σ : Type} {own other : Side σ} {roster : List Key} {s s' : System σ}

/-! ### Interleavings -/

/-- The part of one of two sequences in an interleaving of them. -/
def part {τ : Type} (which : Bool) (mixed : List (Bool × τ)) : List τ :=
  mixed.filterMap fun entry => if entry.1 = which then some entry.2 else none

namespace System

/-- Takes steps, one after the other. -/
def performAll : List (Step σ) → System σ → List (Reply σ) × System σ
  | [], s => ([], s)
  | step :: rest, s =>
    let (reply, s) := step.perform s
    let (replies, s) := s.performAll rest
    (reply :: replies, s)

/-- **Takes the steps of two sequences**, in the order of an interleaving. -/
def interleave : List (Bool × Step σ) → System σ → List (Bool × Reply σ) × System σ
  | [], s => ([], s)
  | (which, step) :: rest, s =>
    let (reply, s) := step.perform s
    let (replies, s) := s.interleave rest
    ((which, reply) :: replies, s)

end System

/-- What is on neither of two sides. -/
def Side.elsewhere (side : Bool → Side σ) : Side σ where
  keys key := ∀ which, ¬(side which).keys key
  kept _ := False
  View := Unit
  view _ := ()

/-- **Systems that are the same on two sides and elsewhere** have the same table and the same
interceptors. -/
theorem System.eq_of_same {side : Bool → Side σ} (h : ∀ which, (side which).Same s s')
    (helsewhere : (Side.elsewhere side).Same s s') :
    (∀ key, s'.table.find? key = s.table.find? key) ∧ s'.interceptors = s.interceptors := by
  constructor
  · intro key
    by_cases hkey : ∃ which, (side which).keys key
    · obtain ⟨which, hkey⟩ := hkey
      exact (h which).slots key hkey
    · exact helsewhere.slots key (not_exists.mp hkey)
  · refine List.ext_getElem? fun number => ?_
    cases hi : s.interceptors[number]? with
    | none =>
      have hroster := congrArg (fun roster : List Key => roster[number]?) helsewhere.roster_eq
      simpa [System.getElem?_roster, hi] using hroster
    | some i =>
      by_cases hkey : ∃ which, (side which).keys i.key
      · obtain ⟨which, hkey⟩ := hkey
        exact (h which).interceptors number i hi hkey
      · exact helsewhere.interceptors number i hi (not_exists.mp hkey)

section Sides

variable (side : Bool → Side σ) (roster : List Key)

/-- **Two sides that have nothing in common**, and a system that is ready for calls on either. -/
structure System.ReadyFor (s : System σ) : Prop where
  /-- No operation is on both sides. -/
  disjoint : ∀ which key, (side which).keys key → ¬(side !which).keys key
  /-- Whatever runs for one of them keeps to it. -/
  ready : ∀ which, s.Ready (side which) (side !which) roster

variable {side roster}

namespace System.ReadyFor

/-- **A step of one side** leaves the other side, and what is elsewhere, as it is. -/
theorem step (h : s.ReadyFor side roster) {which : Bool} {step : Step σ}
    (hstep : step.KeepsTo (side which) (side !which) roster) :
    (step.perform s).2.ReadyFor side roster ∧ (side !which).Same s (step.perform s).2 ∧
      (Side.elsewhere side).Same s (step.perform s).2 := by
  have htogether := step.together (h.ready which) (.refl _ s) hstep
  have hspares := htogether.spares
  have hdisjoint : ∀ key, (side !which).keys key → ¬(side which).keys key := by
    intro key hkey
    have hnot := h.disjoint (!which) key hkey
    rwa [Bool.not_not] at hnot
  have hkept : ∀ number, (side !which).kept number → number < s.kept.length := by
    intro number hnumber
    obtain ⟨implementation, hget, -⟩ := (h.ready !which).keepsTo.kept number hnumber
    exact (List.getElem?_eq_some_iff.mp hget).1
  have hother := hspares.same hdisjoint hkept
  have helsewhere : (side which).Spares (Side.elsewhere side) s (step.perform s).2 :=
    ⟨hspares.slots, hspares.roster_eq, hspares.interceptors, hspares.kept_prefix, rfl⟩
  refine ⟨⟨h.disjoint, fun other => ?_⟩, hother,
    helsewhere.same (fun key hkey => hkey which) fun number hnumber => hnumber.elim⟩
  by_cases he : other = which
  · rw [he]
    exact htogether.ready
  · rw [Bool.eq_not_of_ne he, Bool.not_not]
    have hkeeps := hother.keepsTo (h.ready !which).keepsTo
    rw [Bool.not_not] at hkeeps
    exact ⟨htogether.ready.inOrder, hkeeps, htogether.ready.roster_eq⟩

/-- **The steps of one sequence** leave the other side, and what is elsewhere, as it is. -/
theorem performAll (h : s.ReadyFor side roster) {which : Bool} {steps : List (Step σ)}
    (hsteps : ∀ step ∈ steps, step.KeepsTo (side which) (side !which) roster) :
    (s.performAll steps).2.ReadyFor side roster ∧ (side !which).Same s (s.performAll steps).2 ∧
      (Side.elsewhere side).Same s (s.performAll steps).2 := by
  induction steps generalizing s with
  | nil => exact ⟨h, .refl _ s, .refl _ s⟩
  | cons step rest ih =>
    obtain ⟨hstep, hrest⟩ := List.forall_mem_cons.mp hsteps
    obtain ⟨hready, hother, helsewhere⟩ := h.step hstep
    obtain ⟨hready', hother', helsewhere'⟩ := ih hready hrest
    exact ⟨hready', hother.trans hother', helsewhere.trans helsewhere'⟩

/-- **Each of two sequences goes as if there were no other.** Its steps are answered, and its side
is left, as if they were taken alone; and nothing changes elsewhere. -/
theorem interleave (h : s.ReadyFor side roster) {mixed : List (Bool × Step σ)}
    (hmixed : ∀ which, ∀ step ∈ part which mixed,
      step.KeepsTo (side which) (side !which) roster)
    (which : Bool) (hsame : (side which).Same s s') :
    part which (s.interleave mixed).1 = (s'.performAll (part which mixed)).1 ∧
      (side which).Same (s.interleave mixed).2 (s'.performAll (part which mixed)).2 ∧
        (Side.elsewhere side).Same s (s.interleave mixed).2 := by
  induction mixed generalizing s s' with
  | nil => exact ⟨rfl, hsame, .refl _ s⟩
  | cons entry rest ih =>
    obtain ⟨of, step⟩ := entry
    have hstep : step.KeepsTo (side of) (side !of) roster :=
      hmixed of step (by simp [part])
    have hrest : ∀ which, ∀ step ∈ part which rest,
        step.KeepsTo (side which) (side !which) roster := by
      intro which step hmem
      refine hmixed which step ?_
      rw [part, List.filterMap_cons]
      split
      · exact hmem
      · exact List.mem_cons_of_mem _ hmem
    obtain ⟨hready, hother, helsewhere⟩ := h.step hstep
    by_cases he : of = which
    -- a step of this sequence is taken in both systems
    · subst he
      have htogether := step.together (h.ready of) hsame hstep
      obtain ⟨hreplies, hlast, helsewhere'⟩ := ih hready hrest htogether.same
      have hpart : ∀ {τ : Type} (entry : τ) rest, part of ((of, entry) :: rest) =
          entry :: part of rest := fun entry rest => by simp [part]
      rw [System.interleave, hpart, hpart, System.performAll]
      exact ⟨congrArg₂ List.cons htogether.reply_eq.symm hreplies, hlast,
        helsewhere.trans helsewhere'⟩
    -- a step of the other one leaves this side as it is
    · have hpart : ∀ {τ : Type} (entry : τ) rest, part which ((of, entry) :: rest) =
          part which rest := fun entry rest => by simp [part, he]
      have hthis : (side which).Same s (step.perform s).2 := by
        rw [Bool.eq_not_of_ne (Ne.symm he)]
        exact hother
      obtain ⟨hreplies, hlast, helsewhere'⟩ := ih hready hrest (hthis.symm.trans hsame)
      rw [System.interleave, hpart, hpart]
      exact ⟨hreplies, hlast, helsewhere.trans helsewhere'⟩

end System.ReadyFor

end Sides

/-! ### Any two sequences -/

/-- **Operations on disjoint keys do not interfere.** Take any moment of any course of events that
starts with nothing, and two sides that have no operation in common – a key has a level, so one name
may be on either side. Whatever runs for the operations and the interceptors of a side calls
operations of that side only; and so do the bodies that come with the steps of two sequences, one
for each side. Then in every interleaving of the two sequences each step gets the answer that it
gets where either of them runs completely before the other, and in the end every operation has the
same slot, every interceptor is the same, and each side sees the same of the memory. -/
theorem answers_eq_of_apart {α : Type} (clock : Clock) (memory : σ)
    (threads : List (Thread σ α)) (turns : List Nat) {s : System σ}
    (hreached : ((⟨threads, .start clock memory⟩ : Crew σ α).follow turns).system = s)
    {side : Bool → Side σ} (hdisjoint : ∀ key, (side false).keys key → ¬(side true).keys key)
    (hsides : ∀ which, s.KeepsTo (side which) (side !which))
    {steps : Bool → List (Step σ)}
    (hsteps : ∀ which, ∀ step ∈ steps which, step.KeepsTo (side which) (side !which) s.roster)
    {mixed : List (Bool × Step σ)} (hmixed : ∀ which, part which mixed = steps which)
    (first : Bool) :
    let run := s.interleave mixed
    let before := s.performAll (steps first)
    let after := before.2.performAll (steps !first)
    part first run.1 = before.1 ∧ part (!first) run.1 = after.1 ∧
      (∀ key, run.2.table.find? key = after.2.table.find? key) ∧
        run.2.interceptors = after.2.interceptors ∧
          ∀ which, (side which).view run.2.memory = (side which).view after.2.memory := by
  intro run before after
  have hinOrder : s.InOrder := hreached ▸ .follow clock memory threads turns
  have hready : s.ReadyFor side s.roster := by
    refine ⟨fun which key hkey hother => ?_, fun which => ⟨hinOrder, hsides which, rfl⟩⟩
    cases which with
    | false => exact hdisjoint key hkey hother
    | true => exact hdisjoint key hother hkey
  have hmixed' : ∀ which, ∀ step ∈ part which mixed,
      step.KeepsTo (side which) (side !which) s.roster := by
    intro which
    rw [hmixed which]
    exact hsteps which
  -- the first sequence spares the other side, and the second one that of the first
  obtain ⟨hbefore, hspared, helsewhere⟩ := hready.performAll (hsteps first)
  obtain ⟨-, hspared', helsewhere'⟩ := hbefore.performAll (hsteps !first)
  rw [Bool.not_not] at hspared'
  obtain ⟨hanswers, hfirst, hrun⟩ := hready.interleave hmixed' first (.refl _ s)
  obtain ⟨hanswers', hsecond, -⟩ := hready.interleave hmixed' (!first) hspared
  rw [hmixed] at hanswers hfirst hanswers' hsecond
  have hsame : ∀ which, (side which).Same after.2 run.2 := by
    intro which
    by_cases he : which = first
    · rw [he]
      exact (hfirst.trans hspared').symm
    · rw [Bool.eq_not_of_ne he]
      exact hsecond.symm
  obtain ⟨htable, hinterceptors⟩ := System.eq_of_same hsame
    ((helsewhere.trans helsewhere').symm.trans hrun)
  exact ⟨hanswers, hanswers', htable, hinterceptors, fun which => (hsame which).view_eq⟩

namespace Doors

/-- The key of an operation that doors have on both levels. -/
def key (level : Level) : Key :=
  { typeName := "Door", operation := "open", level }

/-- One side for each level. -/
def side (which : Bool) : Side Unit where
  keys key := key.level = if which then .onType else .onInstance
  kept _ := False
  View := Unit
  view _ := ()

/-- Creates an interceptor for the operation on each level. -/
def prepare : Program Unit :=
  .request (.create (key .onInstance)) Empty.elim fun _ =>
    .request (.create (key .onType)) Empty.elim fun _ => .done .null

/-- The system in which the interceptors have been created. -/
def prepared : System Unit :=
  ((⟨[prepare.thread 1], .start (fun _ => .atEpoch) ()⟩ : Crew Unit _).follow [0, 0]).system

/-- Calls the operation on the same level once more, if there is an argument. -/
def further (level : Level) : Program Unit :=
  .inspect fun call =>
    match call.argument? 0 with
    | some _ => .call ⟨.ofType, key level, []⟩ fun
      | .ok value => .done value
      | .error error => .fail (.raised error)
    | none => .done (.string "open")

/-- On instances, a hook stops whoever comes; on the type, calls come through. -/
def steps : Bool → List (Step Unit)
  | false =>
    [.define (key .onInstance) (.plain (.done .null)), .install ⟨0, key .onInstance⟩,
      .setHook ⟨0, key .onInstance⟩ .before fun _ => .fail (.message "closed"),
      .call 2 ⟨.ofType, key .onInstance, []⟩]
  | true =>
    [.call 2 ⟨.ofType, key .onType, []⟩, .define (key .onType) (.plain (further .onType)),
      .install ⟨1, key .onType⟩, .drop ⟨1, key .onType⟩, .call 2 ⟨.ofType, key .onType, [.null]⟩]

/-- The steps of both levels in turn. -/
def mixed : List (Bool × Step Unit) :=
  ((steps false).zip (steps true)).flatMap (fun both => [(false, both.1), (true, both.2)]) ++
    [(true, .call 2 ⟨.ofType, key .onType, [.null]⟩)]

theorem keepsTo_further (level : Level) {own other : Side Unit} (h : own.keys (key level)) :
    (further level).KeepsTo own other := by
  refine .inspect fun call => ?_
  split
  · refine .call h fun answer => ?_
    split
    · exact .done _
    · exact .fail _
  · exact .done _

theorem keepsTo_prepared (which : Bool) : prepared.KeepsTo (side which) (side !which) where
  bases key base _ hbase := by cases hbase
  hooks number i hi _ := by
    have hmem : i ∈ [.fresh (key .onInstance), .fresh (key .onType)] := List.mem_of_getElem? hi
    simp only [List.mem_cons, List.not_mem_nil, or_false] at hmem
    rcases hmem with rfl | rfl
    · exact .none
    · exact .none
  kept number hnumber := hnumber.elim

theorem keepsTo_steps (which : Bool) : ∀ step ∈ steps which,
    step.KeepsTo (side which) (side !which) prepared.roster := by
  cases which with
  | false =>
    have hdone : Program.KeepsTo (side false) (side true) (.done .null) := .done _
    have hfail : Program.KeepsTo (side false) (side true) (.fail (.message "closed")) := .fail _
    simpa [steps, Step.KeepsTo, Implementation.KeepsTo, HookSlot.KeepsTo, side, key]
      using ⟨hdone, hfail⟩
  | true =>
    have hfurther : (further .onType).KeepsTo (side true) (side false) := keepsTo_further _ rfl
    simpa [steps, Step.KeepsTo, Implementation.KeepsTo, side, key] using hfurther

/-- One name on two levels: nobody opens a door, whatever happens to the type meanwhile. -/
theorem answers_eq_of_doors :
    part false (prepared.interleave mixed).1 =
        [.settled (.ok ()), .settled (.ok ()), .done,
          .answered (.ok (.error (.hookFailed (key .onInstance) .before (.message "closed"))))] ∧
      part true (prepared.interleave mixed).1 =
        [.answered (.ok (.error (.targetNotFound (key .onType)))), .settled (.ok ()),
          .settled (.ok ()), .done, .answered (.ok (.ok (.string "open")))] := by
  have hdisjoint : ∀ key, (side false).keys key → ¬(side true).keys key := by
    intro key hkey hother
    cases hkey.symm.trans hother
  have hmixed : ∀ which, part which mixed = steps which := by
    intro which
    cases which with
    | false => rfl
    | true => rfl
  have hreached : ((⟨[prepare.thread 1], .start (fun _ => .atEpoch) ()⟩ :
      Crew Unit _).follow [0, 0]).system = prepared := rfl
  obtain ⟨htype, hinstance, -⟩ :=
    answers_eq_of_apart (fun _ => .atEpoch) () [prepare.thread 1] [0, 0] hreached hdisjoint
      keepsTo_prepared keepsTo_steps hmixed true
  exact ⟨hinstance.trans rfl, htype.trans rfl⟩

end Doors

end Interception
