import Interception.CallError
import Interception.Config
import Interception.Fault
import Interception.Invocation
import Interception.Record

/-!
# Programs

Implementations and hooks are `Program`s. A program is a tree of the things a body
can do, with what happens next as a function of what it got back:

| constructor | what the body does |
|---|---|
| `Program.done`, `Program.fail` | ends with a value or a failure |
| `Program.abort` | ends the whole thread, whatever calls it is in |
| `Program.inspect` | looks at the call it handles |
| `Program.set` | overwrites an argument of that call |
| `Program.memory` | reads and changes what bodies share |
| `Program.call`, `Program.callKept` | calls an operation, or an implementation kept earlier |
| `Program.request` | asks for anything else the system offers |

So bodies may do in the middle of a call whatever can be done outside of one: call
operations to any depth, define them, install and remove interceptors, change
hooks. `σ` is the memory that bodies share, for logs, counters and names.

A `Request` may carry bodies, for instance the implementation to define or the
hook to set. `Request.Body` says what bodies it carries – one for each element of
the type, none where it is empty – and `Request.Answer` what it answers with.
-/

namespace Interception

/-! ### Names for what the system holds -/

/-- **An interceptor**, by its number and the operation it was created for. -/
structure Handle where
  /-- The number of the interceptor. No two have the same. -/
  number : Nat
  /-- The operation it is for. -/
  key : Key
deriving DecidableEq, Repr, Inhabited

/-- The number of a collector. -/
abbrev CollectorId := Nat

/-- The number of an implementation kept for later. -/
abbrev KeptId := Nat

/-- **The interceptors of one type**, in the order in which they were attached. -/
structure Instrumentation where
  /-- The type. -/
  typeName : String
  /-- Its interceptors. -/
  handles : List Handle
deriving DecidableEq, Repr, Inhabited

namespace Instrumentation

/-- No interceptor of a type. -/
def ofType (typeName : String) : Instrumentation :=
  ⟨typeName, []⟩

/-- The key of an operation of the type. -/
def key (group : Instrumentation) (operation : String) (level : Level) : Key :=
  { typeName := group.typeName, operation, level }

/-- **The interceptor attached for an operation**: the first one, if there are
several. -/
def find? (group : Instrumentation) (operation : String) (level : Level) : Option Handle :=
  group.handles.find? fun h => h.key.operation = operation && h.key.level = level

end Instrumentation

/-! ### What can be seen from outside -/

/-- What an interceptor shows of itself. -/
structure InterceptorView where
  /-- Whether it acts on calls. -/
  enabled : Bool
  /-- Whether it owns its operation. -/
  installed : Bool
  /-- Whether it has a hook that runs before. -/
  before : Bool
  /-- Whether it has a hook that runs instead. -/
  replace : Bool
  /-- Whether it has a hook that runs after. -/
  after : Bool
deriving DecidableEq, Repr, Inhabited

/-- The counters of a collector. -/
structure CollectorView where
  /-- How many records were handed in. -/
  pushed : Nat
  /-- How many of them were dropped. -/
  dropped : Nat
  /-- How many are waiting. -/
  size : Nat
  /-- How many fit. -/
  capacity : Nat
deriving DecidableEq, Repr, Inhabited

/-! ### Requests -/

/-- **What a program can ask the system for**, calls apart. -/
inductive Request where
  /-- Define an operation. -/
  | define (key : Key)
  /-- Define an operation by an implementation kept earlier. -/
  | defineKept (key : Key) (kept : KeptId)
  /-- Exchange the implementation of an operation and keep the old one. -/
  | exchange (key : Key)
  /-- The same, with an implementation kept earlier. -/
  | exchangeKept (key : Key) (kept : KeptId)
  /-- Keep the current implementation of an operation. -/
  | keep (key : Key)
  /-- Is the operation defined? -/
  | contains (key : Key)
  /-- All defined operations. -/
  | operations
  /-- All operations that an interceptor owns. -/
  | intercepted
  /-- Give every operation back that an interceptor owns. -/
  | removeAll
  /-- Give every operation back, and then forget all of them. -/
  | reset
  /-- Create an interceptor. -/
  | create (key : Key)
  /-- Let an interceptor take over its operation. -/
  | install (handle : Handle)
  /-- Let an interceptor give its operation back. -/
  | remove (handle : Handle)
  /-- Give up an interceptor for good. -/
  | drop (handle : Handle)
  /-- Say whether an interceptor acts on calls. -/
  | setEnabled (handle : Handle) (enabled : Bool)
  /-- Set a hook. -/
  | setHook (handle : Handle) (slot : HookSlot)
  /-- Hand the records of an interceptor to a collector. -/
  | collect (handle : Handle) (collector : CollectorId)
  /-- Take a hook away. -/
  | clearHook (handle : Handle) (slot : HookSlot)
  /-- Look at an interceptor. -/
  | view (handle : Handle)
  /-- Create a collector. -/
  | createCollector (capacity : Nat) (threshold : Option Nat) (captures : Bool)
  /-- Take up to `max` records out of a collector. -/
  | drain (collector : CollectorId) (max : Nat)
  /-- Take all records out of a collector. -/
  | drainAll (collector : CollectorId)
  /-- Look at a collector. -/
  | viewCollector (collector : CollectorId)
  /-- Time the targets of a configuration. -/
  | timeTargets (config : Config) (collector : CollectorId)
  /-- Attach an interceptor with one hook to an operation of a type. -/
  | attach (group : Instrumentation) (operation : String) (level : Level) (slot : HookSlot)
  /-- Say whether the interceptors of a type act on calls. -/
  | setAllEnabled (group : Instrumentation) (enabled : Bool)
  /-- Remove the interceptors of a type and give them up. -/
  | removeInstrumentation (group : Instrumentation)
  /-- Give up several interceptors for good. -/
  | dropAll (handles : List Handle)
deriving Repr

/-- What a hook in a slot is given besides the call. -/
abbrev HookSlot.Input : HookSlot → Type
  | .before | .replace => Unit
  | .after => Record

/-- The bodies that a request carries. -/
abbrev Request.Body : Request → Type
  | .define _ | .exchange _ => Unit
  | .setHook _ slot | .attach _ _ _ slot => slot.Input
  | _ => Empty

/-- What a request answers with. -/
abbrev Request.Answer : Request → Type
  | .define _ | .defineKept .. | .install _ => Except CallError Unit
  | .exchange _ | .exchangeKept .. | .keep _ => Except CallError KeptId
  | .contains _ | .remove _ => Bool
  | .operations | .intercepted => List Key
  | .removeAll => Nat
  | .create _ => Handle
  | .view _ => InterceptorView
  | .createCollector .. => Option CollectorId
  | .drain .. | .drainAll _ => List Record
  | .viewCollector _ => CollectorView
  | .timeTargets .. => Except CallError (List Handle)
  | .attach .. => Except CallError Instrumentation
  | .removeInstrumentation _ => Nat × Instrumentation
  | .reset | .drop _ | .setEnabled .. | .setHook .. | .collect .. | .clearHook ..
  | .setAllEnabled .. | .dropAll _ => Unit

/-! ### Programs -/

/-- **What an implementation or a hook does.** -/
inductive Program (σ : Type) where
  /-- Ends with a value. -/
  | done (value : Value)
  /-- Ends with a failure. -/
  | fail (failure : Failure)
  /-- Ends the thread, and every call it is in, at once. -/
  | abort (fault : Fault)
  /-- Looks at the call being handled. -/
  | inspect (next : Invocation → Program σ)
  /-- Overwrites an argument of the call being handled; the answer is the value it
  had, if there is such an argument. -/
  | set (index : Nat) (value : Value) (next : Option Value → Program σ)
  /-- Changes the shared memory; the answer is what it held before. -/
  | memory (change : σ → σ) (next : σ → Program σ)
  /-- Asks the system for something. -/
  | request (r : Request) (bodies : r.Body → Program σ) (next : r.Answer → Program σ)
  /-- Calls an operation. -/
  | call (callee : Invocation) (next : Except CallError Value → Program σ)
  /-- Calls an implementation kept earlier; the answer is how it ended and what
  became of the call. -/
  | callKept (kept : KeptId) (callee : Invocation)
      (next : Except Failure Value → Invocation → Program σ)

namespace Program

variable {σ : Type}

instance : Inhabited (Program σ) := ⟨.done .null⟩

/-- **Goes on after a program**, with its value or its failure. -/
def attempt : Program σ → (Except Failure Value → Program σ) → Program σ
  | .done value, next => next (.ok value)
  | .fail failure, next => next (.error failure)
  | .abort fault, _ => .abort fault
  | .inspect k, next => .inspect fun call => (k call).attempt next
  | .set index value k, next => .set index value fun old => (k old).attempt next
  | .memory change k, next => .memory change fun old => (k old).attempt next
  | .request r bodies k, next => .request r bodies fun answer => (k answer).attempt next
  | .call callee k, next => .call callee fun answer => (k answer).attempt next
  | .callKept kept callee k, next =>
    .callKept kept callee fun answer call => (k answer call).attempt next

/-- **Goes on with the value of a program**; a failure is passed on. -/
def andThen (p : Program σ) (next : Value → Program σ) : Program σ :=
  p.attempt fun
    | .ok value => next value
    | .error failure => .fail failure

/-- Calls an operation and passes its error on. -/
def callThen (callee : Invocation) (next : Value → Program σ) : Program σ :=
  .call callee fun
    | .ok value => next value
    | .error error => .fail (.raised error)

end Program

end Interception
