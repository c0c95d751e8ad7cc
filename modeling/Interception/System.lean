import Interception.Collector
import Interception.Table

/-!
# The system

A `System` holds everything that calls and programs can reach: the table, the
interceptors, the collectors, the implementations that somebody kept, the clock,
the account of what happened, and the memory that bodies share.

Interceptors and collectors are numbered in the order of their creation and stay
for good. An interceptor that was given up is only marked so: a trampoline that
somebody kept still goes through its hooks.

`Request.perform` carries out any request, in one piece: whatever else is going
on, it happens entirely before or entirely after.
-/

namespace Interception

variable {σ : Type}

/-! ### Interceptors -/

/-- What runs after a call, with its record. -/
inductive AfterHook (σ : Type) where
  /-- A body. -/
  | run (body : Record → Program σ)
  /-- The collector that gets the record. -/
  | collect (collector : CollectorId)

/-- **The hooks of an interceptor**, each of which may be missing. -/
structure Hooks (σ : Type) where
  /-- Runs before the operation and may overwrite arguments. -/
  before : Option (Program σ)
  /-- Runs instead of the operation. -/
  replace : Option (Program σ)
  /-- Runs after the operation. -/
  after : Option (AfterHook σ)

namespace Hooks

/-- No hook. -/
def none : Hooks σ :=
  ⟨.none, .none, .none⟩

instance : Inhabited (Hooks σ) := ⟨none⟩

/-- The hooks with one of them set. -/
def set (hooks : Hooks σ) : (slot : HookSlot) → (slot.Input → Program σ) → Hooks σ
  | .before, body => { hooks with before := some (body ()) }
  | .replace, body => { hooks with replace := some (body ()) }
  | .after, body => { hooks with after := some (.run body) }

/-- The hooks with one of them taken away. -/
def clear (hooks : Hooks σ) : HookSlot → Hooks σ
  | .before => { hooks with before := .none }
  | .replace => { hooks with replace := .none }
  | .after => { hooks with after := .none }

end Hooks

/-- **What is known of an interceptor** besides its place in the table. -/
structure Interceptor (σ : Type) where
  /-- The operation it is for. -/
  key : Key
  /-- Whether it acts on calls. -/
  enabled : Bool
  /-- Its hooks. -/
  hooks : Hooks σ
  /-- Whether it has not been given up. -/
  live : Bool

namespace Interceptor

/-- A new interceptor: enabled, and without hooks. -/
def fresh (key : Key) : Interceptor σ :=
  { key, enabled := true, hooks := .none, live := true }

end Interceptor

/-! ### The state -/

/-- **Everything that calls and programs can reach.** -/
structure System (σ : Type) where
  /-- The table. -/
  table : Table σ
  /-- The interceptors, in the order of their numbers. -/
  interceptors : List (Interceptor σ)
  /-- The collectors, in the order of their numbers. -/
  collectors : List Collector
  /-- The implementations that somebody kept, in the order of their numbers. -/
  kept : List (Implementation σ)
  /-- The number that the next record gets. -/
  nextCallId : Nat
  /-- What the clock shows at each look. -/
  clock : Clock
  /-- How often somebody has looked. -/
  looks : Nat
  /-- What happened, in order. -/
  journal : Array Event
  /-- The memory that bodies share. -/
  memory : σ

namespace System

/-- The system with nothing in it. -/
def start (clock : Clock) (memory : σ) : System σ :=
  { table := .empty, interceptors := [], collectors := [], kept := [], nextCallId := 1
    clock, looks := 0, journal := #[], memory }

instance [Inhabited σ] : Inhabited (System σ) := ⟨start (fun _ => .atEpoch) default⟩

/-- Notes that something happened. -/
def note (s : System σ) (event : Event) : System σ :=
  { s with journal := s.journal.push event }

/-- Notes that several things happened. -/
def noteAll (s : System σ) (events : List Event) : System σ :=
  { s with journal := s.journal ++ events.toArray }

/-! ### Operations -/

/-- Keeps an implementation for later. -/
def keep (s : System σ) (implementation : Implementation σ) : KeptId × System σ :=
  (s.kept.length, { s with kept := s.kept ++ [implementation] })

/-- The implementation kept under a number. A number that was never given out
stands for the body that does nothing. -/
def keptImplementation (s : System σ) (kept : KeptId) : Implementation σ :=
  s.kept.getD kept default

/-- Defines an operation. -/
def define (s : System σ) (key : Key) (implementation : Implementation σ) :
    Except CallError Unit × System σ :=
  match s.table.define key implementation with
  | .ok table => (.ok (), { s with table }.note (.defined key))
  | .error error => (.error error, s)

/-- Exchanges the implementation of an operation and keeps the old one. -/
def exchange (s : System σ) (key : Key) (implementation : Implementation σ) :
    Except CallError KeptId × System σ :=
  match s.table.exchange key implementation with
  | .ok (old, table) =>
    let (kept, s) := ({ s with table }.note (.exchanged key)).keep old
    (.ok kept, s)
  | .error error => (.error error, s)

/-- Keeps the current implementation of an operation. -/
def keepCurrent (s : System σ) (key : Key) : Except CallError KeptId × System σ :=
  match s.table.lookup key with
  | .ok implementation =>
    let (kept, s) := s.keep implementation
    (.ok kept, s)
  | .error error => (.error error, s)

/-- Gives every operation back, and says how many there were. -/
def removeAll (s : System σ) : Nat × System σ :=
  let owned := s.table.intercepted
  (owned.length,
    { s with table := s.table.restoreAll }.noteAll (Event.removedTogether owned))

/-- Gives every operation back, and then forgets all of them. -/
def reset (s : System σ) : System σ :=
  let operations := s.table.size
  let (restored, s) := s.removeAll
  { s with table := .empty }.note (.reset operations restored)

/-! ### Interceptors -/

/-- What is known of an interceptor that has not been given up. -/
def interceptor? (s : System σ) (handle : Handle) : Option (Interceptor σ) :=
  (s.interceptors[handle.number]?).filter fun i => i.live && decide (i.key = handle.key)

/-- Changes what is known of an interceptor that has not been given up. -/
def adjustInterceptor (s : System σ) (handle : Handle) (f : Interceptor σ → Interceptor σ) :
    System σ :=
  match s.interceptor? handle with
  | some i => { s with interceptors := s.interceptors.set handle.number (f i) }
  | none => s

/-- Creates an interceptor. -/
def create (s : System σ) (key : Key) : Handle × System σ :=
  (⟨s.interceptors.length, key⟩, { s with interceptors := s.interceptors ++ [.fresh key] })

/-- Lets an interceptor take over its operation. One that was given up cannot
reach any operation any more. -/
def install (s : System σ) (handle : Handle) : Except CallError Unit × System σ :=
  if (s.interceptor? handle).isSome then
    match s.table.intercept handle with
    | .ok table => (.ok (), { s with table }.note (.installed handle.key))
    | .error error => (.error error, s)
  else (.error (.targetNotFound handle.key), s)

/-- Lets an interceptor give its operation back, and says whether it owned it. -/
def remove (s : System σ) (handle : Handle) : Bool × System σ :=
  match s.table.restore? handle with
  | some table => (true, { s with table }.note (.removed handle.key))
  | none => (false, s)

/-- Gives up an interceptor: it gives its operation back first. -/
def drop (s : System σ) (handle : Handle) : System σ :=
  (s.remove handle).2.adjustInterceptor handle fun i => { i with live := false }

/-- Gives up several interceptors, one after the other. -/
def dropAll (s : System σ) (handles : List Handle) : System σ :=
  handles.foldl drop s

/-- Says whether an interceptor acts on calls. -/
def setEnabled (s : System σ) (handle : Handle) (enabled : Bool) : System σ :=
  s.adjustInterceptor handle fun i => { i with enabled }

/-- Sets a hook of an interceptor. -/
def setHook (s : System σ) (handle : Handle) (slot : HookSlot) (body : slot.Input → Program σ) :
    System σ :=
  s.adjustInterceptor handle fun i => { i with hooks := i.hooks.set slot body }

/-- Hands the records of an interceptor to a collector. -/
def collect (s : System σ) (handle : Handle) (collector : CollectorId) : System σ :=
  s.adjustInterceptor handle fun i =>
    { i with hooks := { i.hooks with after := some (.collect collector) } }

/-- Takes a hook of an interceptor away. -/
def clearHook (s : System σ) (handle : Handle) (slot : HookSlot) : System σ :=
  s.adjustInterceptor handle fun i => { i with hooks := i.hooks.clear slot }

/-- Whether an interceptor owns its operation. -/
def isInstalled (s : System σ) (handle : Handle) : Bool :=
  decide (s.table.owner? handle.key = some handle)

/-- What an interceptor shows of itself. -/
def view (s : System σ) (handle : Handle) : InterceptorView :=
  match s.interceptor? handle with
  | some i =>
    { enabled := i.enabled
      installed := s.isInstalled handle
      before := i.hooks.before.isSome
      replace := i.hooks.replace.isSome
      after := i.hooks.after.isSome }
  | none => ⟨false, false, false, false, false⟩

/-! ### Collectors -/

/-- Creates a collector, if it has room for anything. -/
def createCollector (s : System σ) (capacity : Nat) (threshold : Option Nat) (captures : Bool) :
    Option CollectorId × System σ :=
  match Collector.new? capacity threshold captures with
  | some c => (some s.collectors.length, { s with collectors := s.collectors ++ [c] })
  | none => (none, s)

/-- Hands the record of a call to a collector. -/
def deliver (s : System σ) (collector : CollectorId) (record : Record) (arguments : List Value) :
    System σ :=
  match s.collectors[collector]? with
  | some c =>
    let record := c.prepare arguments record
    { s with collectors := s.collectors.set collector (c.push record).2 }.noteAll
      (c.warnings record)
  | none => s

/-- Takes the oldest record out of a collector, if there is any. -/
def pop (s : System σ) (collector : CollectorId) : Option Record × System σ :=
  match s.collectors[collector]? with
  | some c =>
    let (record, c) := c.pop
    (record, { s with collectors := s.collectors.set collector c })
  | none => (none, s)

/-- Takes up to `max` records out of a collector. -/
def drain (s : System σ) (collector : CollectorId) (max : Nat) : List Record × System σ :=
  match s.collectors[collector]? with
  | some c =>
    let (batch, c) := c.drain max
    (batch.toList, { s with collectors := s.collectors.set collector c })
  | none => ([], s)

/-- Takes all records out of a collector. -/
def drainAll (s : System σ) (collector : CollectorId) : List Record × System σ :=
  s.drain collector ((s.collectors[collector]?).elim 0 Collector.size)

theorem drain_one (s : System σ) (collector : CollectorId) :
    s.drain collector 1 = ((s.pop collector).1.toList, (s.pop collector).2) := by
  rw [drain, pop]
  cases s.collectors[collector]? with
  | none => rfl
  | some c =>
    simp only [c.drain_one, Option.toList_toArray]

/-- The counters of a collector. -/
def viewCollector (s : System σ) (collector : CollectorId) : CollectorView :=
  match s.collectors[collector]? with
  | some c => ⟨c.pushed, c.dropped, c.size, c.capacity⟩
  | none => ⟨0, 0, 0, 0⟩

/-! ### Several interceptors at once -/

/-- Times the targets that are left, where some interceptors are installed
already. If one cannot be installed, all of them are given up again. -/
def timeEach (config : Config) (collector : CollectorId) :
    List Key → List Handle → System σ → Except CallError (List Handle) × System σ
  | [], installed, s => (.ok installed, s.note (.timingInstalled installed.length))
  | target :: rest, installed, s =>
    let (handle, s) := s.create target
    let s := (s.setEnabled handle config.enabledByDefault).collect handle collector
    match s.install handle with
    | (.ok _, s) => timeEach config collector rest (installed ++ [handle]) s
    | (.error error, s) => (.error error, (s.drop handle).dropAll installed)

/-- **Times the targets of a configuration**: one interceptor for each, whose
records go to a collector. Either all of them are installed, or none is. -/
def timeTargets (s : System σ) (config : Config) (collector : CollectorId) :
    Except CallError (List Handle) × System σ :=
  timeEach config collector config.targets [] s

/-- **Attaches an interceptor** with one hook to an operation of a type. If it
cannot be installed, it is given up again. -/
def attach (s : System σ) (group : Instrumentation) (operation : String) (level : Level)
    (slot : HookSlot) (body : slot.Input → Program σ) :
    Except CallError Instrumentation × System σ :=
  let (handle, s) := s.create (group.key operation level)
  match (s.setHook handle slot body).install handle with
  | (.ok _, s) => (.ok { group with handles := group.handles ++ [handle] }, s)
  | (.error error, s) => (.error error, s.drop handle)

/-- Says whether the interceptors of a type act on calls. -/
def setAllEnabled (s : System σ) (group : Instrumentation) (enabled : Bool) : System σ :=
  group.handles.foldl (fun s handle => s.setEnabled handle enabled) s

/-- Removes interceptors one after the other, and says how many owned their
operation. -/
def removeEach : List Handle → System σ → Nat × System σ
  | [], s => (0, s)
  | handle :: rest, s =>
    let (removed, s) := s.remove handle
    let (count, s) := removeEach rest s
    ((if removed then count + 1 else count), s)

/-- **Removes the interceptors of a type** and gives them up; says how many owned
their operation. -/
def removeInstrumentation (s : System σ) (group : Instrumentation) :
    (Nat × Instrumentation) × System σ :=
  let (removed, s) := removeEach group.handles s
  ((removed, .ofType group.typeName),
    (s.dropAll group.handles).note (.instrumentationRemoved group.typeName removed))

end System

/-! ### Requests -/

/-- **Carries out a request.** -/
def Request.perform : (r : Request) → (r.Body → Program σ) → System σ → r.Answer × System σ
  | .define key, bodies, s => s.define key (.plain (bodies ()))
  | .defineKept key kept, _, s => s.define key (s.keptImplementation kept)
  | .exchange key, bodies, s => s.exchange key (.plain (bodies ()))
  | .exchangeKept key kept, _, s => s.exchange key (s.keptImplementation kept)
  | .keep key, _, s => s.keepCurrent key
  | .contains key, _, s => (s.table.contains key, s)
  | .operations, _, s => (s.table.operations, s)
  | .intercepted, _, s => (s.table.intercepted, s)
  | .removeAll, _, s => s.removeAll
  | .reset, _, s => ((), s.reset)
  | .create key, _, s => s.create key
  | .install handle, _, s => s.install handle
  | .remove handle, _, s => s.remove handle
  | .drop handle, _, s => ((), s.drop handle)
  | .setEnabled handle enabled, _, s => ((), s.setEnabled handle enabled)
  | .setHook handle slot, bodies, s => ((), s.setHook handle slot bodies)
  | .collect handle collector, _, s => ((), s.collect handle collector)
  | .clearHook handle slot, _, s => ((), s.clearHook handle slot)
  | .view handle, _, s => (s.view handle, s)
  | .createCollector capacity threshold captures, _, s =>
    s.createCollector capacity threshold captures
  | .drain collector max, _, s => s.drain collector max
  | .drainAll collector, _, s => s.drainAll collector
  | .viewCollector collector, _, s => (s.viewCollector collector, s)
  | .timeTargets config collector, _, s => s.timeTargets config collector
  | .attach group operation level slot, bodies, s => s.attach group operation level slot bodies
  | .setAllEnabled group enabled, _, s => ((), s.setAllEnabled group enabled)
  | .removeInstrumentation group, _, s => s.removeInstrumentation group
  | .dropAll handles, _, s => ((), s.dropAll handles)

end Interception
