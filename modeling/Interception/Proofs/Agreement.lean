import Interception.Proofs.Evaluation
import Interception.Proofs.History

/-!
# The two accounts of a call agree

A call is a thread that looks things up, goes through trampolines and can be interrupted
after every action (`Interception.Routing`); and it is a run in direct style that knows of
no trampolines (`Interception.Proofs.Evaluation`). By itself, and where slots are sound,
the thread comes to what the run comes to: the same result, and the same system in every
part – memory, clock, record numbers, collectors, journal and table.

`Agrees` is what is proved of a thread and a run. It is compositional, so the proof goes
through bodies and stages constructor by constructor; the one place where the two look at
different things, and where soundness is used, is the look-up of an operation
(`agrees_call`). Calls may nest to any depth, which is an induction on the depth
(`agrees_nested`).
-/

namespace Interception

variable {σ α β : Type}

/-- A thread that goes on after another one runs after it, unless a fault ended that. -/
theorem Thread.run_bind (t : Thread σ α) (f : α → Thread σ β) (s : System σ) :
    (t.bind f).run s =
      match t.run s with
      | (.ok result, s) => (f result).run s
      | (.error fault, s) => (.error fault, s) := by
  induction t generalizing s with
  | done result => rfl
  | aborted fault => rfl
  | act action next ih => exact ih _ _

/-- Going on after a changed result is going on after the result. -/
theorem Thread.bind_map (t : Thread σ α) {γ : Type} (f : α → β) (g : β → Thread σ γ) :
    (t.map f).bind g = t.bind fun result => g (f result) := by
  induction t with
  | done result => rfl
  | aborted fault => rfl
  | act action next ih =>
    have hnext : (fun answer => ((next answer).map f).bind g) =
        fun answer => (next answer).bind fun result => g (f result) := funext ih
    exact congrArg (Thread.act action) hnext

theorem Thread.map_map (t : Thread σ α) {γ : Type} (f : α → β) (g : β → γ) :
    (t.map f).map g = t.map fun result => g (f result) :=
  t.bind_map f fun result => .done (g result)

/-- **The same in both styles**: run by itself on sound slots, the thread comes to what the
run comes to, and slots stay sound. -/
def Agrees (t : Thread σ α) (run : Run σ α) : Prop :=
  ∀ s : System σ, s.table.Sound →
    t.run s = ((run s).result, (run s).system) ∧ (run s).system.table.Sound

namespace Agrees

theorem done (result : α) : Agrees (.done result : Thread σ α) (pure result) := fun _ hs =>
  ⟨rfl, hs⟩

theorem fault (fault : Fault) : Agrees (.aborted fault : Thread σ α) (Run.fault fault) :=
  fun _ hs => ⟨rfl, hs⟩

theorem bind {t : Thread σ α} {run : Run σ α} {f : α → Thread σ β} {g : α → Run σ β}
    (h : Agrees t run) (hnext : ∀ result, Agrees (f result) (g result)) :
    Agrees (t.bind f) (run >>= g) := by
  intro s hs
  obtain ⟨hrun, hsound⟩ := h s hs
  show (t.bind f).run s = ((Run.bind run g s).result, (Run.bind run g s).system) ∧
    (Run.bind run g s).system.table.Sound
  rw [Thread.run_bind, hrun, Run.bind]
  generalize run s = ran at hsound ⊢
  obtain ⟨fault | result, trees, s'⟩ := ran
  · exact ⟨rfl, hsound⟩
  · exact hnext result s' hsound

/-- An action is a change of the system, which keeps slots sound. -/
theorem act {action : Action σ} {next : action.Answer → Thread σ α}
    {g : action.Answer → Run σ α} (hnext : ∀ answer, Agrees (next answer) (g answer)) :
    Agrees (.act action next) (Run.act action.perform >>= g) := by
  intro s hs
  have hsound : (action.perform s).2.table.Sound := (Deed.mk s action).change.sound hs
  exact hnext _ _ hsound

/-- Call trees are for the reader of a run only. -/
theorem under {t : Thread σ α} {run : Run σ α} (h : Agrees t run)
    (label : Except Fault α → Label) : Agrees t (run.under label) :=
  h

theorem map {t : Thread σ α} {run : Run σ α} (h : Agrees t run) (f : α → β) :
    Agrees (t.map f) (run >>= fun result => pure (f result)) :=
  h.bind fun result => .done (f result)

end Agrees

/-! ### Stages -/

/-- A runner and a way to run bodies that come to the same on every body. -/
def BodiesAgree (nested : Runner σ) (run : BodyRun σ) : Prop :=
  ∀ (body : Program σ) (call : Invocation), Agrees (body.run nested call) (run body call)

section Stages

variable {nested : Runner σ} {run : BodyRun σ} (h : BodiesAgree nested run)

include h

theorem agrees_hook (owner : Handle) (slot : HookSlot) (body : Program σ) (call : Invocation) :
    Agrees ((body.run nested call).map (Outcome.ofHook owner slot))
      (evaluateHook run owner.key slot body call) :=
  ((h body call).under _).map _

theorem agrees_before (owner : Handle) (hooks : Hooks σ) (call : Invocation) :
    Agrees (runBefore nested owner hooks call) (evaluateBefore run owner.key hooks call) := by
  rw [runBefore, evaluateBefore]
  rcases hooks.before with _ | body
  · exact .done _
  · exact agrees_hook h owner .before body call

theorem agrees_segment (owner : Handle) (hooks : Hooks σ)
    {covered : Invocation → Thread σ Outcome} {base : Invocation → Run σ Outcome}
    (hbase : ∀ call, Agrees (covered call) (base call)) (call : Invocation) :
    Agrees (runSegment nested owner hooks covered call)
      (evaluateSegment run owner.key hooks base call) := by
  rw [runSegment, evaluateSegment]
  rcases hooks.replace with _ | body
  · exact hbase call
  · exact agrees_hook h owner .replace body call

theorem agrees_after (owner : Handle) (hooks : Hooks σ) (record : Record) (call : Invocation) :
    Agrees ((runAfter nested owner hooks record call).map Outcome.result)
      (evaluateAfter run owner.key hooks record call) := by
  rw [runAfter, evaluateAfter]
  rcases hooks.after with _ | (body | collector)
  · exact .done _
  · have hhook := (agrees_hook h owner .after (body record) call).map Outcome.result
    rw [Thread.map_map] at hhook ⊢
    exact hhook
  · exact .act fun _ => .done _

omit h in
/-- The after stage ends with the call as it was given. -/
theorem runAfter_eq_map (owner : Handle) (hooks : Hooks σ) (record : Record)
    (call : Invocation) :
    runAfter nested owner hooks record call =
      ((runAfter nested owner hooks record call).map Outcome.result).map fun result =>
        ⟨result, call⟩ := by
  rw [runAfter]
  rcases hooks.after with _ | (body | collector)
  · rfl
  · rw [Thread.map_map, Thread.map_map]
  · rfl

/-- **The stages of a call** come to the same. -/
theorem agrees_hooked (owner : Handle) (hooks : Hooks σ)
    {covered : Invocation → Thread σ Outcome} {base : Invocation → Run σ Outcome}
    (hbase : ∀ call, Agrees (covered call) (base call)) (call : Invocation) :
    Agrees (stages nested owner hooks covered call)
      (hooked run owner.key hooks base call) := by
  rw [stages, hooked]
  refine (agrees_before h owner hooks call).bind fun before => ?_
  rcases before with ⟨failure | value, call⟩
  · exact .done _
  refine .act fun start => (agrees_segment h owner hooks hbase call).bind fun segment => ?_
  rcases segment with ⟨failure | value, call⟩
  · exact .done _
  refine .act fun stop => .act fun record => ?_
  rw [runAfter_eq_map, Thread.bind_map]
  refine (agrees_after h owner hooks record call).bind fun result => ?_
  rcases result with failure | _
  · exact .done _
  · exact .done _

end Stages

/-! ### Implementations, calls and bodies -/

/-- **Running an implementation** comes to the same. -/
theorem agrees_implementation {nested : Runner σ} {run : BodyRun σ} (h : BodiesAgree nested run)
    (implementation : Implementation σ) (call : Invocation) :
    Agrees (implementation.run nested call) (implementation.evaluate run call) := by
  induction implementation generalizing call with
  | plain body => exact (h body call).under _
  | trampoline owner covered ih =>
    refine .act fun enabled => ?_
    rcases enabled with _ | _
    · exact ih call
    · exact .act fun hooks => agrees_hooked h owner hooks ih call

/-- A runner and a way to run bodies, if they may run, that come to the same. -/
structure NestedAgree (nested : Runner σ) (run? : Option (BodyRun σ)) : Prop where
  /-- An implementation comes to the same. -/
  kept : ∀ implementation call,
    Agrees (nested implementation call) (evaluateKept run? implementation call)
  /-- So does a call through the table. -/
  call : ∀ callee, Agrees (nested.call callee) (evaluateCall run? callee)

/-- **Bodies come to the same**, if what they call does. -/
theorem agrees_body {nested : Runner σ} {run? : Option (BodyRun σ)}
    (h : NestedAgree nested run?) : BodiesAgree nested (Program.evaluate run?) := by
  intro body
  induction body with
  | done value => exact fun call => .done _
  | fail failure => exact fun call => .done _
  | abort fault => exact fun call => .fault fault
  | inspect next ih => exact fun call => ih call call
  | set index value next ih => exact fun call => ih _ _
  | memory change next ih => exact fun call => .act fun old => ih old call
  | request r bodies next _ ih => exact fun call => .act fun answer => ih answer call
  | call callee next ih => exact fun call => (h.call callee).bind fun answer => ih answer call
  | callKept number callee next ih =>
    exact fun call => .act fun implementation =>
      (h.kept implementation callee).bind fun outcome => ih _ _ call

/-- Looking at the system changes nothing. -/
theorem Run.look_bind (read : System σ → α) (next : α → Run σ β) (s : System σ) :
    (Run.look read >>= next) s = next (read s) s := rfl

/-- **Where slots are sound, a call runs what stands in the slot.** Its base and its owner,
which is all that `evaluateCall` asks for, say the same. -/
theorem evaluateCall_eq_of_sound (run? : Option (BodyRun σ)) (callee : Invocation)
    {s : System σ} {slot : Slot σ} (hs : slot.Sound callee.key)
    (hf : s.table.find? callee.key = some slot) :
    evaluateCall run? callee s =
      (evaluateKept run? slot.implementation callee >>= fun outcome =>
        pure outcome.answer).under (.call callee) s := by
  have hbase : s.table.base? callee.key = some slot.base := by rw [Table.base?, hf]; rfl
  have howner : s.table.owner? callee.key = slot.owner? := by rw [Table.owner?, hf]; rfl
  rw [evaluateCall, Run.under, Run.look_bind, hbase]
  rcases run? with _ | run
  · rfl
  · dsimp only
    rw [Run.look_bind, howner]
    -- what stands in a sound slot is the base itself, or the trampoline of the owner around it
    cases hs with
    | free given => rfl
    | intercepted given owner forKey =>
      rw [← forKey]
      rfl

/-- **A call through the table** comes to the same, if every implementation does. -/
theorem agrees_call {nested : Runner σ} {run? : Option (BodyRun σ)}
    (hkept : ∀ implementation call,
      Agrees (nested implementation call) (evaluateKept run? implementation call))
    (callee : Invocation) : Agrees (nested.call callee) (evaluateCall run? callee) := by
  intro s hs
  rcases hf : s.table.find? callee.key with _ | slot
  -- nothing is defined, and nothing runs
  · have hlookup : s.table.lookup callee.key = .error (.targetNotFound callee.key) := by
      rw [Table.lookup, hf]
    have hbase : s.table.base? callee.key = none := by rw [Table.base?, hf]; rfl
    rw [Runner.call, evaluateCall, Run.under]
    rw [Run.look_bind, hbase, Thread.run, Action.perform, hlookup]
    exact ⟨rfl, hs⟩
  · have hlookup : s.table.lookup callee.key = .ok slot.implementation := by
      rw [Table.lookup, hf]
    have hrun := ((hkept slot.implementation callee).map Outcome.answer).under (.call callee) s hs
    rw [Runner.call]
    rw [evaluateCall_eq_of_sound run? callee (hs _ _ hf) hf, Thread.run, Action.perform, hlookup]
    exact hrun

/-- **Calls that nest to any depth** come to the same. -/
theorem agrees_nested (depth : Nat) :
    NestedAgree (runNested depth : Runner σ) (bodyRun? depth) := by
  induction depth with
  | zero =>
    have hkept : ∀ (implementation : Implementation σ) call,
        Agrees (runNested 0 implementation call) (evaluateKept none implementation call) :=
      fun _ _ => .fault _
    exact ⟨hkept, agrees_call hkept⟩
  | succ depth ih =>
    have hkept : ∀ (implementation : Implementation σ) call,
        Agrees (runNested (depth + 1) implementation call)
          (evaluateKept (bodyRun? (depth + 1)) implementation call) :=
      agrees_implementation (agrees_body ih)
    exact ⟨hkept, agrees_call hkept⟩

/-- **A call from outside comes to the same in both styles** on sound slots. -/
theorem System.invoke_eq_of_sound (depth : Nat) (callee : Invocation) {s : System σ}
    (hs : s.table.Sound) :
    s.invoke depth callee = ((s.evaluate depth callee).result, (s.evaluate depth callee).system) :=
  ((agrees_nested depth).call callee s hs).1

/-- **Routing does what calls are meant to do.** At every moment of every course of events
that starts with nothing, a call from outside – of any operation, on any receiver, with
any arguments, nesting to any depth, and with bodies that may ask for anything – comes to
what it comes to without trampolines: the same answer, or the same fault, and the same
system after. And the base that the call without trampolines runs is the one that the
history says. -/
theorem invoke_eq_evaluate (clock : Clock) (memory : σ) (threads : List (Thread σ α))
    (turns : List Nat) (depth : Nat) (callee : Invocation) :
    let crew : Crew σ α := ⟨threads, .start clock memory⟩
    let s := (crew.follow turns).system
    s.invoke depth callee = ((s.evaluate depth callee).result, (s.evaluate depth callee).system) ∧
      ∀ key, s.table.base? key = History.base? (crew.history turns) key := by
  intro crew s
  have h : History.Accounts (crew.history turns) s := .follow clock memory threads turns
  exact ⟨s.invoke_eq_of_sound depth callee h.sound, h.base?_eq⟩

end Interception
