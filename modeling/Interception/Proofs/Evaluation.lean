import Interception.Proofs.Base
import Interception.Routing

/-!
# Calls without trampolines

What a call through the table comes to, said a second time and in direct style: a
function from the system before to the answer and the system after (`Run`). It is the
one to read for what calls are meant to do.

* It asks the table for the base and the owner of an operation, and never for what
  stands in the slot (`evaluateCall`).
* Whatever it needs of an interceptor it reads once, when the call arrives (`routed`).
* The stages of a call follow each other in the open (`hooked`); there are no threads and
  no actions that others could come between.

An implementation that somebody looked up while an interceptor owned the operation, and
kept, is a trampoline in its own right; wherever it is run, or given to an operation as
its base, it goes through its interceptor (`Implementation.evaluate`).

A run also yields *call trees*: what was called and which bodies ran, inside of each
other and in order, what they were given and how they ended. Nothing in a run depends on
them.
-/

namespace Interception

variable {σ α β : Type}

/-! ### Call trees -/

/-- **What a node of a call tree stands for**, with how it ended. -/
inductive Label where
  /-- A call through the table. -/
  | call (callee : Invocation) (answer : Except Fault (Except CallError Value))
  /-- The body of an implementation, entered with a call. -/
  | implementation (entered : Invocation) (result : Except Fault (Except Failure Value))
  /-- A hook on the calls of an operation, entered with a call. -/
  | hook (key : Key) (slot : HookSlot) (entered : Invocation)
      (result : Except Fault (Except Failure Value))

/-- **What ran**, and what ran inside of it, in order. -/
inductive CallTree where
  | node (label : Label) (within : List CallTree)

/-! ### Runs -/

/-- **What a run comes to.** -/
structure Ran (σ α : Type) where
  /-- Its result, or the fault that ended it. -/
  result : Except Fault α
  /-- What ran. -/
  trees : List CallTree
  /-- The system after. -/
  system : System σ

/-- **A run**, from the system before. -/
def Run (σ α : Type) : Type :=
  System σ → Ran σ α

namespace Run

/-- Nothing runs. -/
def pure (result : α) : Run σ α := fun s =>
  ⟨.ok result, [], s⟩

/-- Goes on with the result of a run, unless a fault ended it. -/
def bind (run : Run σ α) (next : α → Run σ β) : Run σ β := fun s =>
  match run s with
  | ⟨.ok result, trees, s⟩ =>
    let ran := next result s
    { ran with trees := trees ++ ran.trees }
  | ⟨.error fault, trees, s⟩ => ⟨.error fault, trees, s⟩

instance : Monad (Run σ) where
  pure := Run.pure
  bind := Run.bind

/-- Ends at once. -/
def fault (fault : Fault) : Run σ α := fun s =>
  ⟨.error fault, [], s⟩

/-- Changes the system. -/
def act (change : System σ → α × System σ) : Run σ α := fun s =>
  ⟨.ok (change s).1, [], (change s).2⟩

/-- Looks at the system. -/
def look (read : System σ → α) : Run σ α :=
  act fun s => (read s, s)

/-- Puts everything that runs under a node of its own. -/
def under (label : Except Fault α → Label) (run : Run σ α) : Run σ α := fun s =>
  let ran := run s
  { ran with trees := [.node (label ran.result) ran.trees] }

end Run

/-- How to run a body on a call. -/
abbrev BodyRun (σ : Type) :=
  Program σ → Invocation → Run σ Outcome

/-! ### Hooks and stages -/

/-- Runs a hook. Its failure names the operation and the slot. -/
def evaluateHook (run : BodyRun σ) (key : Key) (slot : HookSlot) (body : Program σ)
    (call : Invocation) : Run σ Outcome := do
  let outcome ←
    (run body call).under fun ended => .hook key slot call (ended.map Outcome.result)
  return { outcome with
    result := outcome.result.mapError fun cause => .raised (.hookFailed key slot cause) }

/-- The before-hook, if there is one. -/
def evaluateBefore (run : BodyRun σ) (key : Key) (hooks : Hooks σ) (call : Invocation) :
    Run σ Outcome :=
  match hooks.before with
  | some body => evaluateHook run key .before body call
  | none => return ⟨.ok .null, call⟩

/-- The replace-hook, if there is one, and otherwise the base. -/
def evaluateSegment (run : BodyRun σ) (key : Key) (hooks : Hooks σ)
    (base : Invocation → Run σ Outcome) (call : Invocation) : Run σ Outcome :=
  match hooks.replace with
  | some body => evaluateHook run key .replace body call
  | none => base call

/-- The after-hook, if there is one, with the record. It looks at the call as the segment
left it, and whatever it does to the call is lost. -/
def evaluateAfter (run : BodyRun σ) (key : Key) (hooks : Hooks σ) (record : Record)
    (call : Invocation) : Run σ (Except Failure Value) :=
  match hooks.after with
  | some (.run body) => return (← evaluateHook run key .after (body record) call).result
  | some (.collect collector) => do
    Run.act fun s => ((), s.deliver collector record call.arguments)
    return .ok .null
  | none => return .ok .null

/-- **A call through the hooks of an interceptor**, around the base. The first stage that
fails ends it. -/
def hooked (run : BodyRun σ) (key : Key) (hooks : Hooks σ)
    (base : Invocation → Run σ Outcome) (call : Invocation) : Run σ Outcome := do
  let before ← evaluateBefore run key hooks call
  match before.result with
  | .error _ => return before
  | .ok _ =>
    let start ← Run.act System.readClock
    let segment ← evaluateSegment run key hooks base before.call
    match segment.result with
    | .error _ => return segment
    | .ok _ =>
      let stop ← Run.act System.readClock
      let record ← Run.act fun s => s.record key start stop hooks.replace.isSome
      match ← evaluateAfter run key hooks record segment.call with
      | .error failure => return { segment with result := .error failure }
      | .ok _ => return segment

/-- **A call of an operation that an interceptor owns**: through its hooks as they are now
if it is enabled now, and otherwise straight to the base. -/
def routed (run : BodyRun σ) (owner : Handle) (key : Key) (base : Invocation → Run σ Outcome)
    (call : Invocation) : Run σ Outcome := do
  match ← Run.look fun s => s.enabled owner with
  | false => base call
  | true => hooked run key (← Run.look fun s => s.hooks owner) base call

/-! ### Implementations, bodies and calls -/

/-- **Runs an implementation on a call.** -/
def Implementation.evaluate (run : BodyRun σ) : Implementation σ → Invocation → Run σ Outcome
  | .plain body, call =>
    (run body call).under fun ended => .implementation call (ended.map Outcome.result)
  | .trampoline owner covered, call => routed run owner owner.key (covered.evaluate run) call

/-- Runs an implementation that is called by itself, where `nested` runs bodies, or says
that calls may not nest any deeper. -/
def evaluateKept (nested : Option (BodyRun σ)) (implementation : Implementation σ)
    (call : Invocation) : Run σ Outcome :=
  match nested with
  | none => Run.fault .tooDeep
  | some run => implementation.evaluate run call

/-- **Runs a call through the table**, where `nested` is as before. -/
def evaluateCall (nested : Option (BodyRun σ)) (callee : Invocation) :
    Run σ (Except CallError Value) :=
  Run.under (.call callee) do
    match ← Run.look fun s => s.table.base? callee.key with
    | none => return .error (.targetNotFound callee.key)
    | some base =>
      match nested with
      | none => Run.fault .tooDeep
      | some run =>
        match ← Run.look fun s => s.table.owner? callee.key with
        | none => return (← base.evaluate run callee).answer
        | some owner =>
          return (← routed run owner callee.key (base.evaluate run) callee).answer

/-- **Runs a body on a call.** -/
def Program.evaluate (nested : Option (BodyRun σ)) : Program σ → Invocation → Run σ Outcome
  | .done value, current => return ⟨.ok value, current⟩
  | .fail failure, current => return ⟨.error failure, current⟩
  | .abort fault, _ => Run.fault fault
  | .inspect next, current => (next current).evaluate nested current
  | .set index value next, current =>
    (next (current.argument? index)).evaluate nested (current.set index value)
  | .memory change next, current => do
    let old ← Run.act fun s => (s.memory, { s with memory := change s.memory })
    (next old).evaluate nested current
  | .request r bodies next, current => do
    let answer ← Run.act (r.perform bodies)
    (next answer).evaluate nested current
  | .call callee next, current => do
    let answer ← evaluateCall nested callee
    (next answer).evaluate nested current
  | .callKept number callee next, current => do
    let implementation ← Run.look fun s => s.keptImplementation number
    let outcome ← evaluateKept nested implementation callee
    (next outcome.result outcome.call).evaluate nested current

/-- How to run bodies whose calls nest at most a given number deep, if they may run. -/
def bodyRun? : (depth : Nat) → Option (BodyRun σ)
  | 0 => none
  | depth + 1 => some (Program.evaluate (bodyRun? depth))

/-- **What holds of bodies if it holds of the bodies they call** holds however deep their
calls nest. -/
theorem bodyRun?_induction {P : BodyRun σ → Prop}
    (step : ∀ nested : Option (BodyRun σ), (∀ run ∈ nested, P run) → P (Program.evaluate nested))
    (depth : Nat) : ∀ run ∈ (bodyRun? depth : Option (BodyRun σ)), P run := by
  induction depth with
  | zero =>
    intro run hrun
    cases hrun
  | succ depth ih =>
    intro run hrun
    obtain rfl := Option.some.inj hrun
    exact step _ ih

/-- **Calls an operation from outside**, in direct style. -/
def System.evaluate (depth : Nat) (callee : Invocation) (s : System σ) :
    Ran σ (Except CallError Value) :=
  evaluateCall (bodyRun? depth) callee s

end Interception
