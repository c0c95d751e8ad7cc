import Interception.System

/-!
# How calls run

A running program is a `Thread`: a tree of *actions*, each of which happens in one
piece, with what happens next as a function of what the action answered. Between
two actions of a thread anything else may happen – to run several threads side by
side is to interleave their actions (`Interception.Crew`), and to run one by
itself is `Thread.run`.

## What a call does

A call looks its implementation up and runs it on the arguments it was given
(`Program.run`). A body runs as it is. A trampoline (`Implementation.run`) looks
whether its interceptor is enabled. If not, the implementation it covers runs and
that is all. If so, it takes the hooks as they are at that moment, and from there on
the call is a function of these hooks and of what is covered (`stages`): whatever
happens to the interceptor or to the table while the call runs, it goes through the
stages it set out on.

| stage | what runs | when it fails |
|---|---|---|
| before | the before-hook, if there is one | hook failure, nothing else runs |
| segment | the replace-hook | hook failure, no record |
| | or else what is covered | its failure as it is, no record |
| record | one record from the two readings around the segment | |
| after | the after-hook, if there is one, with the record | hook failure |

The result is that of the segment. An after-hook sees the call but cannot change
it.

A thread that cannot go on is `Thread.aborted`, and so is every call it is in. Calls
may nest without bound, so how deep they may nest is a parameter (`runNested`); a
thread that needs more aborts.
-/

namespace Interception

variable {σ α β : Type}

/-! ### Actions -/

/-- **What happens in one piece.** -/
inductive Action (σ : Type) where
  /-- Looks up the implementation of an operation. -/
  | lookup (key : Key)
  /-- Looks up an implementation that somebody kept. -/
  | kept (number : KeptId)
  /-- Looks whether an interceptor is enabled. -/
  | enabled (handle : Handle)
  /-- Takes the hooks of an interceptor as they are. -/
  | hooks (handle : Handle)
  /-- Looks at the clock. -/
  | readClock
  /-- Makes the record of a segment between two readings. -/
  | record (key : Key) (start stop : Reading) (replaced : Bool)
  /-- Hands the record of a call to a collector. -/
  | deliver (collector : CollectorId) (record : Record) (arguments : List Value)
  /-- Changes the shared memory. -/
  | memory (change : σ → σ)
  /-- Carries out a request. -/
  | request (r : Request) (bodies : r.Body → Program σ)

/-- What an action answers with. -/
abbrev Action.Answer : Action σ → Type
  | .lookup _ => Except CallError (Implementation σ)
  | .kept _ => Implementation σ
  | .enabled _ => Bool
  | .hooks _ => Hooks σ
  | .readClock => Reading
  | .record .. => Record
  | .deliver .. => Unit
  | .memory _ => σ
  | .request r _ => r.Answer

namespace System

/-- Looks at the clock. -/
def readClock (s : System σ) : Reading × System σ :=
  (s.clock s.looks, { s with looks := s.looks + 1 })

/-- Makes a record, with the next number. -/
def record (s : System σ) (key : Key) (start stop : Reading) (replaced : Bool) :
    Record × System σ :=
  let record := Record.measured s.nextCallId key start stop
  (record,
    { s with nextCallId := s.nextCallId + 1 }.note (.intercepted key record.micros replaced))

/-- Whether an interceptor is enabled, given up or not. -/
def enabled (s : System σ) (handle : Handle) : Bool :=
  (s.interceptors[handle.number]?).any Interceptor.enabled

/-- The hooks of an interceptor, given up or not. -/
def hooks (s : System σ) (handle : Handle) : Hooks σ :=
  (s.interceptors[handle.number]?).elim .none Interceptor.hooks

end System

/-- **Carries out an action.** -/
def Action.perform : (a : Action σ) → System σ → a.Answer × System σ
  | .lookup key, s => (s.table.lookup key, s)
  | .kept number, s => (s.keptImplementation number, s)
  | .enabled handle, s => (s.enabled handle, s)
  | .hooks handle, s => (s.hooks handle, s)
  | .readClock, s => s.readClock
  | .record key start stop replaced, s => s.record key start stop replaced
  | .deliver collector r arguments, s => ((), s.deliver collector r arguments)
  | .memory change, s => (s.memory, { s with memory := change s.memory })
  | .request r bodies, s => r.perform bodies s

/-! ### Threads -/

/-- **A running program.** -/
inductive Thread (σ α : Type) where
  /-- It has ended. -/
  | done (result : α)
  /-- It has ended in the middle of whatever it did. -/
  | aborted (fault : Fault)
  /-- It carries out an action next. -/
  | act (action : Action σ) (next : action.Answer → Thread σ α)

namespace Thread

instance [Inhabited α] : Inhabited (Thread σ α) := ⟨.done default⟩

/-- Goes on after a thread has ended. -/
def bind : Thread σ α → (α → Thread σ β) → Thread σ β
  | .done result, f => f result
  | .aborted fault, _ => .aborted fault
  | .act action next, f => .act action fun answer => (next answer).bind f

/-- Changes the result of a thread. -/
def map (f : α → β) (t : Thread σ α) : Thread σ β :=
  t.bind fun result => .done (f result)

/-- Carries out the next action of a thread. -/
def step : Thread σ α → System σ → Thread σ α × System σ
  | .act action next, s =>
    let (answer, s) := action.perform s
    (next answer, s)
  | t, s => (t, s)

/-- **Runs a thread by itself**, to its result or to the fault that ends it. -/
def run : Thread σ α → System σ → Except Fault α × System σ
  | .done result, s => (.ok result, s)
  | .aborted fault, s => (.error fault, s)
  | .act action next, s =>
    let (answer, s) := action.perform s
    (next answer).run s

end Thread

/-! ### Bodies -/

/-- **How a body or an implementation ends**: with a value or a failure, and with
the call as it has become. -/
structure Outcome where
  /-- The value or the failure. -/
  result : Except Failure Value
  /-- The call with its arguments as they then stand. -/
  call : Invocation

instance : Inhabited Outcome := ⟨⟨.ok .null, default⟩⟩

/-- How to run an implementation on a call. -/
abbrev Runner (σ : Type) :=
  Implementation σ → Invocation → Thread σ Outcome

/-- What the caller of an operation gets: a failure becomes a call error. -/
def Outcome.answer (outcome : Outcome) : Except CallError Value :=
  outcome.result.mapError Failure.recover

/-- **Runs a call** through the table. -/
def Runner.call (nested : Runner σ) (callee : Invocation) : Thread σ (Except CallError Value) :=
  .act (.lookup callee.key) fun
    | .ok implementation => (nested implementation callee).map Outcome.answer
    | .error error => .done (.error error)

/-- **Runs a body** on a call, where `nested` runs the implementations that it
calls. -/
def Program.run (nested : Runner σ) : Program σ → Invocation → Thread σ Outcome
  | .done value, current => .done ⟨.ok value, current⟩
  | .fail failure, current => .done ⟨.error failure, current⟩
  | .abort fault, _ => .aborted fault
  | .inspect next, current => (next current).run nested current
  | .set index value next, current =>
    (next (current.argument? index)).run nested (current.set index value)
  | .memory change next, current =>
    .act (.memory change) fun old => (next old).run nested current
  | .request r bodies next, current =>
    .act (.request r bodies) fun answer => (next answer).run nested current
  | .call callee next, current =>
    (nested.call callee).bind fun answer => (next answer).run nested current
  | .callKept number callee next, current =>
    .act (.kept number) fun implementation =>
      (nested implementation callee).bind fun outcome =>
        (next outcome.result outcome.call).run nested current

/-! ### Trampolines -/

/-- The failure of a hook, as the call that it belongs to passes it on. -/
def hookFailure (handle : Handle) (slot : HookSlot) (cause : Failure) : Failure :=
  .raised (.hookFailed handle.key slot cause)

/-- The outcome of a hook: its failure names the hook. -/
def Outcome.ofHook (handle : Handle) (slot : HookSlot) (outcome : Outcome) : Outcome :=
  { outcome with result := outcome.result.mapError (hookFailure handle slot) }

/-- Goes on with the value and the call of an outcome, unless it is a failure. -/
def Outcome.andThen (outcome : Outcome) (next : Value → Invocation → Thread σ Outcome) :
    Thread σ Outcome :=
  match outcome.result with
  | .ok value => next value outcome.call
  | .error failure => .done ⟨.error failure, outcome.call⟩

/-- The before stage. Its value does not matter. -/
def runBefore (nested : Runner σ) (handle : Handle) (hooks : Hooks σ) (call : Invocation) :
    Thread σ Outcome :=
  match hooks.before with
  | some body => (body.run nested call).map (Outcome.ofHook handle .before)
  | none => .done ⟨.ok .null, call⟩

/-- The segment: the replace-hook, or else the implementation that is covered. -/
def runSegment (nested : Runner σ) (handle : Handle) (hooks : Hooks σ)
    (covered : Invocation → Thread σ Outcome) (call : Invocation) : Thread σ Outcome :=
  match hooks.replace with
  | some body => (body.run nested call).map (Outcome.ofHook handle .replace)
  | none => covered call

/-- The after stage. It ends with the call as it was given: an after-hook only
looks at it. -/
def runAfter (nested : Runner σ) (handle : Handle) (hooks : Hooks σ) (record : Record)
    (call : Invocation) : Thread σ Outcome :=
  match hooks.after with
  | some (.run body) =>
    ((body record).run nested call).map fun outcome =>
      { outcome.ofHook handle .after with call }
  | some (.collect collector) =>
    .act (.deliver collector record call.arguments) fun _ => .done ⟨.ok .null, call⟩
  | none => .done ⟨.ok .null, call⟩

/-- **The stages of a call** that goes through the hooks of an interceptor, given
these hooks and what runs the covered implementation. -/
def stages (nested : Runner σ) (handle : Handle) (hooks : Hooks σ)
    (covered : Invocation → Thread σ Outcome) (call : Invocation) : Thread σ Outcome :=
  (runBefore nested handle hooks call).bind fun outcome =>
    outcome.andThen fun _ call =>
      .act .readClock fun start =>
        (runSegment nested handle hooks covered call).bind fun outcome =>
          outcome.andThen fun value call =>
            .act .readClock fun stop =>
              .act (.record handle.key start stop hooks.replace.isSome) fun record =>
                (runAfter nested handle hooks record call).bind fun outcome =>
                  outcome.andThen fun _ call => .done ⟨.ok value, call⟩

/-- **Runs an implementation** on a call, where `nested` runs the implementations
that bodies call. -/
def Implementation.run (nested : Runner σ) : Implementation σ → Invocation → Thread σ Outcome
  | .plain body, call => body.run nested call
  | .trampoline handle covered, call =>
    .act (.enabled handle) fun
      | false => covered.run nested call
      | true =>
        .act (.hooks handle) fun hooks =>
          stages nested handle hooks (covered.run nested) call

/-- **Runs implementations whose calls nest at most `depth` deep.** -/
def runNested : (depth : Nat) → Runner σ
  | 0, _, _ => .aborted .tooDeep
  | depth + 1, implementation, call => implementation.run (runNested depth) call

/-! ### Running from outside -/

/-- The call that a program handles when it handles none: on no type, without
arguments. -/
def Invocation.idle : Invocation :=
  { receiver := .ofType, key := ⟨"", "", .onType⟩, arguments := [] }

/-- **The thread of a program** that is run from outside. -/
def Program.thread (depth : Nat) (p : Program σ) : Thread σ (Except Failure Value) :=
  (p.run (runNested depth) .idle).map Outcome.result

/-- **Runs a program from outside**, by itself. -/
def System.execute (depth : Nat) (p : Program σ) (s : System σ) :
    Except Fault (Except Failure Value) × System σ :=
  (p.thread depth).run s

/-- **Calls an operation from outside.** -/
def System.invoke (depth : Nat) (callee : Invocation) (s : System σ) :
    Except Fault (Except CallError Value) × System σ :=
  ((runNested depth : Runner σ).call callee).run s

end Interception
