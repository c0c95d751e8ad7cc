import Interception.Proofs.Agreement

/-!
# What a call carries

A call hands its arguments from stage to stage, and each stage may overwrite some of them. So the
invocation in flight is a state, threaded through whatever bodies the call runs and around the calls
that these make. Here it is replaced by what it comes from: the invocation as the caller made it,
which nobody changes, and the list of all writes to it so far.

* `Invocation.overwritten` is the invocation that the two determine: each position holds what was
  written there last, or else what the caller put there (`Invocation.After`). There is no other
  (`Invocation.After.eq_overwritten`).
* `Program.runLogged`, `Implementation.runLogged` and `Runner.logged` run bodies, implementations
  and calls on the two. Nothing is ever overwritten. What a body sees of its call is worked out
  from all the writes before, those of earlier stages included; a write is noted and does nothing
  else; and a call that is made on the way starts from its own arguments, without any writes.

Both ways of running a call are the same thread (`Interception.arguments_of_call`): with the same
actions in the same order whatever they are answered, the same records and captured arguments, and
the same outcome. Whoever looks at a call in flight sees what the writes before say.

| what runs | the same in both ways |
|---|---|
| a body | `Program.run_overwritten` |
| the after stage | `runAfter_overwritten` |
| all stages | `stages_overwritten` |
| an implementation | `Implementation.run_overwritten` |
-/

namespace Interception

variable {σ α β γ : Type}

/-! ### Writes -/

/-- **One argument is overwritten.** -/
structure Write where
  /-- At which position. -/
  index : Nat
  /-- With what. -/
  value : Value
deriving DecidableEq, Repr

/-- What was written last at a position. -/
def lastWritten? (writes : List Write) (index : Nat) : Option Value :=
  (writes.reverse.find? fun write => write.index = index).map Write.value

theorem lastWritten?_nil (index : Nat) : lastWritten? [] index = none := rfl

/-- Later writes hide earlier ones. -/
theorem lastWritten?_append (writes later : List Write) (index : Nat) :
    lastWritten? (writes ++ later) index =
      (lastWritten? later index).or (lastWritten? writes index) := by
  rw [lastWritten?, List.reverse_append, List.find?_append, Option.map_or]
  rfl

theorem lastWritten?_cons (write : Write) (later : List Write) (index : Nat) :
    lastWritten? (write :: later) index =
      (lastWritten? later index).or (if write.index = index then some write.value else none) := by
  have hone : lastWritten? [write] index =
      if write.index = index then some write.value else none := by
    by_cases h : write.index = index
    · simp [lastWritten?, h]
    · simp [lastWritten?, h]
  rw [← hone]
  exact lastWritten?_append [write] later index

theorem lastWritten?_eq_none_iff {writes : List Write} {index : Nat} :
    lastWritten? writes index = none ↔ ∀ write ∈ writes, write.index ≠ index := by
  simp [lastWritten?]

theorem exists_of_lastWritten? {writes : List Write} {index : Nat} {value : Value}
    (h : lastWritten? writes index = some value) :
    ∃ before later, writes = before ++ ⟨index, value⟩ :: later ∧
      ∀ other ∈ later, other.index ≠ index := by
  induction writes with
  | nil => cases h
  | cons write later ih =>
    rw [lastWritten?_cons] at h
    cases hlast : lastWritten? later index with
    | some last =>
      rw [hlast] at h
      obtain rfl : last = value := Option.some.inj h
      obtain ⟨before, rest, rfl, hrest⟩ := ih hlast
      exact ⟨write :: before, rest, rfl, hrest⟩
    | none =>
      rw [hlast, Option.none_or] at h
      split at h
      · next hindex =>
        obtain rfl := Option.some.inj h
        subst hindex
        exact ⟨[], later, rfl, lastWritten?_eq_none_iff.mp hlast⟩
      · cases h

namespace Invocation

/-- **The call after some writes.** -/
structure After (callee : Invocation) (writes : List Write) (now : Invocation) : Prop where
  /-- It is made on the same receiver. -/
  receiver_eq : now.receiver = callee.receiver
  /-- It is for the same operation. -/
  key_eq : now.key = callee.key
  /-- It has as many arguments as the caller passed. -/
  length_eq : now.arguments.length = callee.arguments.length
  /-- A position of the call holds what was written there last, … -/
  written : ∀ before write later, writes = before ++ write :: later →
    (∀ other ∈ later, other.index ≠ write.index) → write.index < callee.arguments.length →
      now.argument? write.index = some write.value
  /-- … or, if nothing was, what the caller put there. -/
  unwritten : ∀ index, (∀ write ∈ writes, write.index ≠ index) →
    now.argument? index = callee.argument? index

/-- The call as the caller made it, with the values that were written last. -/
def overwritten (callee : Invocation) (writes : List Write) : Invocation :=
  { callee with
    arguments := callee.arguments.mapIdx fun index own =>
      (lastWritten? writes index).getD own }

variable {callee now : Invocation} {writes : List Write}

/-- A call is its receiver, its operation and what stands at each position. -/
theorem ext_argument? {call other : Invocation} (hreceiver : call.receiver = other.receiver)
    (hkey : call.key = other.key) (h : ∀ index, call.argument? index = other.argument? index) :
    call = other := by
  obtain ⟨receiver, key, arguments⟩ := call
  obtain ⟨receiver', key', arguments'⟩ := other
  obtain rfl : arguments = arguments' := List.ext_getElem? h
  cases hreceiver
  cases hkey
  rfl

theorem argument?_overwritten (callee : Invocation) (writes : List Write) (index : Nat) :
    (callee.overwritten writes).argument? index =
      (callee.argument? index).map fun own => (lastWritten? writes index).getD own := by
  rw [argument?, overwritten, List.getElem?_mapIdx]
  rfl

theorem overwritten_nil (callee : Invocation) : callee.overwritten [] = callee := by
  refine ext_argument? rfl rfl fun index => ?_
  rw [argument?_overwritten, lastWritten?_nil]
  simp

/-- **One more write** overwrites the argument as it then stands. -/
theorem overwritten_append_singleton (callee : Invocation) (writes : List Write) (write : Write) :
    callee.overwritten (writes ++ [write]) =
      (callee.overwritten writes).set write.index write.value := by
  refine ext_argument? rfl rfl fun index => ?_
  rw [argument?_set, argument?_overwritten, argument?_overwritten, argument?_overwritten,
    lastWritten?_append, lastWritten?_cons, lastWritten?_nil]
  by_cases h : write.index = index
  · subst h
    simp [Function.comp_def]
  · simp [h]

/-- **The writes determine the call**: it is the one with the last values put in, … -/
theorem after_overwritten (callee : Invocation) (writes : List Write) :
    callee.After writes (callee.overwritten writes) where
  receiver_eq := rfl
  key_eq := rfl
  length_eq := List.length_mapIdx
  written before write later hwrites hlater hlt := by
    have hlast : lastWritten? writes write.index = some write.value := by
      rw [hwrites, lastWritten?_append, lastWritten?_cons, lastWritten?_eq_none_iff.mpr hlater]
      simp
    rw [argument?_overwritten, hlast, argument?, List.getElem?_eq_getElem hlt]
    rfl
  unwritten index hunwritten := by
    rw [argument?_overwritten, lastWritten?_eq_none_iff.mpr hunwritten]
    simp

/-- … and no other. -/
theorem After.eq_overwritten (h : callee.After writes now) : now = callee.overwritten writes := by
  refine ext_argument? h.receiver_eq h.key_eq fun index => ?_
  rw [argument?_overwritten]
  rcases Nat.lt_or_ge index callee.arguments.length with hlt | hge
  · cases hlast : lastWritten? writes index with
    | none =>
      rw [h.unwritten index (lastWritten?_eq_none_iff.mp hlast)]
      simp
    | some value =>
      obtain ⟨before, later, hwrites, hlater⟩ := exists_of_lastWritten? hlast
      rw [h.written before ⟨index, value⟩ later hwrites hlater hlt, argument?,
        List.getElem?_eq_getElem hlt]
      rfl
  · have hnow : now.arguments.length ≤ index := h.length_eq ▸ hge
    rw [argument?, List.getElem?_eq_none hnow, argument?, List.getElem?_eq_none hge]
    rfl

example (call : Invocation) : ({ call with arguments := [.null, .null] }.overwritten
    [⟨1, .bool true⟩, ⟨7, .null⟩, ⟨1, .bool false⟩]).arguments = [.null, .bool false] := rfl

/-- A position is out of range for ever or never. -/
theorem argument?_overwritten_eq_none_iff {index : Nat} :
    (callee.overwritten writes).argument? index = none ↔ callee.arguments.length ≤ index := by
  rw [argument?_overwritten, Option.map_eq_none_iff, argument?, List.getElem?_eq_none_iff]

/-- A write out of range changes nothing. -/
theorem overwritten_append_of_le {index : Nat} (h : callee.arguments.length ≤ index)
    (value : Value) :
    callee.overwritten (writes ++ [⟨index, value⟩]) = callee.overwritten writes := by
  have hnone : (callee.overwritten writes).argument? index = none :=
    argument?_overwritten_eq_none_iff.mpr h
  rw [overwritten_append_singleton]
  refine ext_argument? rfl rfl fun other => ?_
  rw [argument?_set]
  split
  · next he =>
    rw [← he, hnone]
    rfl
  · rfl

end Invocation

/-! ### Running on writes -/

/-- **How a body or an implementation ends**, with all the writes to the call. -/
structure Logged where
  /-- The value or the failure. -/
  result : Except Failure Value
  /-- The writes to the call, first to last. -/
  writes : List Write

namespace Logged

/-- The outcome, with the call as the writes have made it. -/
def outcome (callee : Invocation) (logged : Logged) : Outcome :=
  ⟨logged.result, callee.overwritten logged.writes⟩

/-- The end of a hook: its failure names the hook. -/
def ofHook (handle : Handle) (slot : HookSlot) (logged : Logged) : Logged :=
  { logged with result := logged.result.mapError (hookFailure handle slot) }

/-- Goes on with the value and the writes, unless it is a failure. -/
def andThen (logged : Logged) (next : Value → List Write → Thread σ Logged) : Thread σ Logged :=
  match logged.result with
  | .ok value => next value logged.writes
  | .error failure => .done ⟨.error failure, logged.writes⟩

end Logged

/-- **Runs a body** on a call to which some writes were made. -/
def Program.runLogged (nested : Runner σ) (callee : Invocation) :
    Program σ → List Write → Thread σ Logged
  | .done value, writes => .done ⟨.ok value, writes⟩
  | .fail failure, writes => .done ⟨.error failure, writes⟩
  | .abort fault, _ => .aborted fault
  | .inspect next, writes => (next (callee.overwritten writes)).runLogged nested callee writes
  | .set index value next, writes =>
    (next ((callee.overwritten writes).argument? index)).runLogged nested callee
      (writes ++ [⟨index, value⟩])
  | .memory change next, writes =>
    .act (.memory change) fun old => (next old).runLogged nested callee writes
  | .request r bodies next, writes =>
    .act (.request r bodies) fun answer => (next answer).runLogged nested callee writes
  | .call other next, writes =>
    (nested.call other).bind fun answer => (next answer).runLogged nested callee writes
  | .callKept number other next, writes =>
    .act (.kept number) fun implementation =>
      (nested implementation other).bind fun outcome =>
        (next outcome.result outcome.call).runLogged nested callee writes

section Stages

variable (nested : Runner σ) (handle : Handle) (hooks : Hooks σ)
  (covered : List Write → Thread σ Logged) (callee : Invocation)

/-- The before stage. -/
def beforeLogged (writes : List Write) : Thread σ Logged :=
  match hooks.before with
  | some body => (body.runLogged nested callee writes).map (Logged.ofHook handle .before)
  | none => .done ⟨.ok .null, writes⟩

/-- The segment: the replace-hook, or else what is covered. -/
def segmentLogged (writes : List Write) : Thread σ Logged :=
  match hooks.replace with
  | some body => (body.runLogged nested callee writes).map (Logged.ofHook handle .replace)
  | none => covered writes

/-- The after stage, once the segment has ended with a value. It looks at the call as the writes
have made it, and adds none. -/
def afterLogged (record : Record) (value : Value) (writes : List Write) : Thread σ Logged :=
  (runAfter nested handle hooks record (callee.overwritten writes)).map fun outcome =>
    ⟨outcome.result.map fun _ => value, writes⟩

/-- **The stages of a call** to which some writes were made: each goes on with the writes of those
before it. -/
def stagesLogged (writes : List Write) : Thread σ Logged :=
  (beforeLogged nested handle hooks callee writes).bind fun logged =>
    logged.andThen fun _ writes =>
      .act .readClock fun start =>
        (segmentLogged nested handle hooks covered callee writes).bind fun logged =>
          logged.andThen fun value writes =>
            .act .readClock fun stop =>
              .act (.record handle.key start stop hooks.replace.isSome) fun record =>
                afterLogged nested handle hooks callee record value writes

end Stages

/-- **Runs an implementation** on a call to which some writes were made. -/
def Implementation.runLogged (nested : Runner σ) (callee : Invocation) :
    Implementation σ → List Write → Thread σ Logged
  | .plain body, writes => body.runLogged nested callee writes
  | .trampoline handle covered, writes =>
    .act (.enabled handle) fun
      | false => covered.runLogged nested callee writes
      | true =>
        .act (.hooks handle) fun hooks =>
          stagesLogged nested handle hooks (covered.runLogged nested callee) callee writes

/-- **Runs implementations** on calls to which no writes were made yet. -/
def Runner.logged (nested : Runner σ) : Runner σ := fun implementation callee =>
  (implementation.runLogged nested callee []).map (Logged.outcome callee)

/-! ### Both ways are the same -/

/-- Whatever follows what follows a thread follows the thread. -/
theorem Thread.map_bind (t : Thread σ α) (f : α → Thread σ β) (g : β → γ) :
    (t.bind f).map g = t.bind fun result => (f result).map g := by
  induction t with
  | done result => rfl
  | aborted fault => rfl
  | act action next ih =>
    have hnext : (fun answer => ((next answer).bind f).map g) =
        fun answer => (next answer).bind fun result => (f result).map g := funext ih
    exact congrArg (Thread.act action) hnext

section Same

variable {nested : Runner σ} {callee : Invocation}

/-- **A body finds its call as the writes have made it**, those of the body included. -/
theorem Program.run_overwritten (program : Program σ) (writes : List Write) :
    program.run nested (callee.overwritten writes) =
      (program.runLogged nested callee writes).map (Logged.outcome callee) := by
  induction program generalizing writes with
  | done value => rfl
  | fail failure => rfl
  | abort fault => rfl
  | inspect next ih => exact ih _ writes
  | set index value next ih =>
    have hnext := ih ((callee.overwritten writes).argument? index) (writes ++ [⟨index, value⟩])
    rwa [Invocation.overwritten_append_singleton] at hnext
  | memory change next ih => exact congrArg (Thread.act _) (funext fun old => ih old writes)
  | request r bodies next _ ih =>
    exact congrArg (Thread.act _) (funext fun answer => ih answer writes)
  | call other next ih =>
    -- the call in between has its own invocation, and only its answer comes back
    rw [run, runLogged, Thread.map_bind]
    exact congrArg _ (funext fun answer => ih answer writes)
  | callKept number other next ih =>
    refine congrArg (Thread.act _) (funext fun implementation => ?_)
    refine Eq.trans ?_ (Thread.map_bind _ _ _).symm
    exact congrArg _ (funext fun outcome => ih _ _ writes)

/-- What follows an outcome, if it is no failure. -/
theorem Thread.bind_andThen (t : Thread σ Logged) {f : Value → Invocation → Thread σ Outcome}
    {g : Value → List Write → Thread σ Logged}
    (h : ∀ value writes,
      f value (callee.overwritten writes) = (g value writes).map (Logged.outcome callee)) :
    ((t.map (Logged.outcome callee)).bind fun outcome => outcome.andThen f) =
      (t.bind fun logged => logged.andThen g).map (Logged.outcome callee) := by
  rw [Thread.bind_map, Thread.map_bind]
  refine congrArg _ (funext fun logged => ?_)
  obtain ⟨result | result, writes⟩ := logged
  · rfl
  · exact h result writes

variable {handle : Handle} {hooks : Hooks σ}

/-- A hook that may write runs as a body. -/
theorem map_ofHook_overwritten (body : Program σ) (slot : HookSlot) (writes : List Write) :
    (body.run nested (callee.overwritten writes)).map (Outcome.ofHook handle slot) =
      ((body.runLogged nested callee writes).map (Logged.ofHook handle slot)).map
        (Logged.outcome callee) := by
  rw [Program.run_overwritten, Thread.map_map, Thread.map_map]
  rfl

theorem runBefore_overwritten (writes : List Write) :
    runBefore nested handle hooks (callee.overwritten writes) =
      (beforeLogged nested handle hooks callee writes).map (Logged.outcome callee) := by
  rw [runBefore, beforeLogged]
  cases hooks.before with
  | none => rfl
  | some body => exact map_ofHook_overwritten body .before writes

theorem runSegment_overwritten {covered : Invocation → Thread σ Outcome}
    {coveredLogged : List Write → Thread σ Logged}
    (hcovered : ∀ writes, covered (callee.overwritten writes) =
      (coveredLogged writes).map (Logged.outcome callee)) (writes : List Write) :
    runSegment nested handle hooks covered (callee.overwritten writes) =
      (segmentLogged nested handle hooks coveredLogged callee writes).map
        (Logged.outcome callee) := by
  rw [runSegment, segmentLogged]
  cases hooks.replace with
  | none => exact hcovered writes
  | some body => exact map_ofHook_overwritten body .replace writes

/-- The after stage ends with the call as it was given, so it adds no writes. -/
theorem runAfter_overwritten (record : Record) (value : Value) (writes : List Write) :
    ((runAfter nested handle hooks record (callee.overwritten writes)).bind fun outcome =>
        outcome.andThen fun _ call => .done ⟨.ok value, call⟩) =
      (afterLogged nested handle hooks callee record value writes).map (Logged.outcome callee) := by
  rw [afterLogged, runAfter_eq_map, Thread.bind_map, Thread.map_map, Thread.map_map]
  refine congrArg _ (funext fun result => ?_)
  cases result with
  | error failure => rfl
  | ok ignored => rfl

/-- **Each stage finds the call as those before it have left it.** -/
theorem stages_overwritten {covered : Invocation → Thread σ Outcome}
    {coveredLogged : List Write → Thread σ Logged}
    (hcovered : ∀ writes, covered (callee.overwritten writes) =
      (coveredLogged writes).map (Logged.outcome callee)) (writes : List Write) :
    stages nested handle hooks covered (callee.overwritten writes) =
      (stagesLogged nested handle hooks coveredLogged callee writes).map
        (Logged.outcome callee) := by
  rw [stages, stagesLogged, runBefore_overwritten]
  refine Thread.bind_andThen _ fun _ writes => ?_
  refine congrArg (Thread.act _) (funext fun start => ?_)
  rw [runSegment_overwritten hcovered]
  refine Thread.bind_andThen _ fun value writes => ?_
  refine congrArg (Thread.act _) (funext fun stop => ?_)
  exact congrArg (Thread.act _) (funext fun record => runAfter_overwritten record value writes)

/-- **An implementation finds its call as the writes have made it**, through however many
trampolines. -/
theorem Implementation.run_overwritten (implementation : Implementation σ) (writes : List Write) :
    implementation.run nested (callee.overwritten writes) =
      (implementation.runLogged nested callee writes).map (Logged.outcome callee) := by
  induction implementation generalizing writes with
  | plain body => exact body.run_overwritten writes
  | trampoline handle covered ih =>
    refine congrArg (Thread.act _) (funext fun enabled => ?_)
    cases enabled with
    | false => exact ih writes
    | true => exact congrArg (Thread.act _) (funext fun hooks => stages_overwritten ih writes)

end Same

/-- **The arguments of a call follow their last writer.** Calls run as the writes to them say, that
is, as `Runner.logged` runs them: at every moment, a body that handles a call sees of it what the
caller chose with all writes before put in, be they its own or those of an earlier stage; a write is
answered by what its position held; each later stage, the after-hook and the collector included,
starts from the same; and calls that are made on the way have no part in it. This is one thread, so
it is the same whatever else happens in between.

After any writes, in range or not:

* the call is the one that has the receiver, the operation and the number of arguments that the
  caller chose, and holds in each position what was written there last, or else what the caller put
  there;
* one more write puts its value into its position, where there was one to displace;
* if there is no such position, nothing changes;
* a collector that captures arguments puts just these on its record. -/
theorem arguments_of_call (depth : Nat) :
    (runNested (depth + 1) : Runner σ) = (runNested depth).logged ∧
      (∀ callee, (runNested (depth + 1) : Runner σ).call callee =
        .act (.lookup callee.key) fun
          | .ok implementation =>
            (implementation.runLogged (runNested depth) callee []).map fun logged =>
              (logged.outcome callee).answer
          | .error error => .done (.error error)) ∧
      ∀ (callee : Invocation) (writes : List Write),
        let now := callee.overwritten writes
        (∀ call, callee.After writes call ↔ call = now) ∧
          (∀ index value,
            (now.argument? index = none ↔ callee.arguments.length ≤ index) ∧
              callee.overwritten (writes ++ [⟨index, value⟩]) = now.set index value ∧
                (now.argument? index = none →
                  callee.overwritten (writes ++ [⟨index, value⟩]) = now)) ∧
          ∀ (collector : Collector) (record : Record), collector.captures = true →
            (collector.prepare now.arguments record).arguments = some now.arguments := by
  have hrunner : (runNested (depth + 1) : Runner σ) = (runNested depth).logged := by
    funext implementation callee
    have hrun : implementation.run (runNested depth) (callee.overwritten []) =
        (runNested depth).logged implementation callee := implementation.run_overwritten []
    rwa [Invocation.overwritten_nil] at hrun
  refine ⟨hrunner, fun callee => ?_, fun callee writes => ⟨fun call => ⟨?_, ?_⟩,
    fun index value => ⟨?_, ?_, fun hnone => ?_⟩, fun collector record hcaptures => ?_⟩⟩
  · rw [hrunner, Runner.call]
    refine congrArg (Thread.act _) (funext fun answer => ?_)
    cases answer with
    | error error => rfl
    | ok implementation => exact Thread.map_map ..
  · exact fun hafter => hafter.eq_overwritten
  · rintro rfl
    exact callee.after_overwritten writes
  · exact Invocation.argument?_overwritten_eq_none_iff
  · exact callee.overwritten_append_singleton writes ⟨index, value⟩
  · exact Invocation.overwritten_append_of_le
      (Invocation.argument?_overwritten_eq_none_iff.mp hnone) value
  · rw [Collector.prepare, if_pos hcaptures]
    rfl

end Interception
