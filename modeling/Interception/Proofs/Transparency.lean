import Interception.Calculator
import Interception.Proofs.Agreement

/-!
# Instrumentation does not show

Two systems are compared: one in which nobody owns an operation, and the same one after
some interceptors were installed that only look on – each of them is disabled, or has no
hook but one that hands records to a collector (`System.OnlyLooksOn`). The bodies of the
operations may do whatever concerns the calls themselves (`Program.CallsOnly`): look at
the call and rewrite its arguments, work on the shared memory, fail in any way, and call
operations to any depth.

Then no body and no caller can tell the two systems apart
(`Interception.answers_eq_of_onlyLooksOn`). `Instrumented` is what the two runs keep in
step: the same memory, the same bases, and owners that only look on. Clock, record
numbers, journal and collectors may differ, and are allowed to: no body of this kind asks
for them. The proof is about calls in direct style (`Mirrors`), where an interceptor that
only looks on adds changes of its own around a call but nothing else.
-/

namespace Interception

variable {σ α β : Type}

/-! ### Bodies and interceptors -/

/-- **A body that does nothing but what concerns calls**: it asks the system for nothing
else, and it calls operations only through the table. -/
inductive Program.CallsOnly : Program σ → Prop
  | done (value : Value) : CallsOnly (.done value)
  | fail (failure : Failure) : CallsOnly (.fail failure)
  | abort (fault : Fault) : CallsOnly (.abort fault)
  | inspect {next : Invocation → Program σ} (h : ∀ call, CallsOnly (next call)) :
      CallsOnly (.inspect next)
  | set (index : Nat) (value : Value) {next : Option Value → Program σ}
      (h : ∀ old, CallsOnly (next old)) : CallsOnly (.set index value next)
  | memory (change : σ → σ) {next : σ → Program σ} (h : ∀ old, CallsOnly (next old)) :
      CallsOnly (.memory change next)
  | call (callee : Invocation) {next : Except CallError Value → Program σ}
      (h : ∀ answer, CallsOnly (next answer)) : CallsOnly (.call callee next)

/-- Hooks that hand records to a collector at most. -/
structure Hooks.OnlyCollect (hooks : Hooks σ) : Prop where
  /-- Nothing runs before. -/
  before : hooks.before = .none
  /-- Nothing runs instead. -/
  replace : hooks.replace = .none
  /-- Nothing runs after, but a collector may get the record. -/
  after : hooks.after = .none ∨ ∃ collector, hooks.after = some (.collect collector)

/-- **An interceptor that only looks on**: it is disabled, with whatever hooks, or its
hooks hand records to a collector at most. -/
def System.OnlyLooksOn (s : System σ) (handle : Handle) : Prop :=
  s.enabled handle = false ∨ (s.hooks handle).OnlyCollect

/-- To look on is a matter of the interceptors alone. -/
theorem System.OnlyLooksOn.congr {s s' : System σ} {handle : Handle} (h : s.OnlyLooksOn handle)
    (hi : s'.interceptors = s.interceptors) : s'.OnlyLooksOn handle := by
  rw [System.OnlyLooksOn, System.enabled, System.hooks] at h ⊢
  rw [hi]
  exact h

/-- Installs interceptors, one after the other; whoever is refused is passed over. -/
def System.installAll (s : System σ) (handles : List Handle) : System σ :=
  handles.foldl (fun s handle => (s.install handle).2) s

/-- **What happens aside**: a change that leaves alone what calls and bodies depend on. -/
structure System.Aside (s s' : System σ) : Prop where
  /-- Bodies find the same in the memory. -/
  memory_eq : s'.memory = s.memory
  /-- Calls find the same in the table. -/
  table_eq : s'.table = s.table
  /-- Trampolines find the same flags and hooks. -/
  interceptors_eq : s'.interceptors = s.interceptors

namespace System

theorem aside_readClock (s : System σ) : s.Aside s.readClock.2 :=
  ⟨rfl, rfl, rfl⟩

theorem aside_record (s : System σ) (key : Key) (start stop : Reading) (replaced : Bool) :
    s.Aside (s.record key start stop replaced).2 :=
  ⟨rfl, rfl, rfl⟩

/-- Whether a collector has room or not, handing a record to it happens aside. -/
theorem aside_deliver (s : System σ) (collector : CollectorId) (record : Record)
    (arguments : List Value) : s.Aside (s.deliver collector record arguments) := by
  rw [deliver]
  split
  · exact ⟨rfl, rfl, rfl⟩
  · exact ⟨rfl, rfl, rfl⟩

end System

/-! ### The two systems -/

/-- **The second system is the first with interceptors that only look on.** -/
structure Instrumented (bare watched : System σ) : Prop where
  /-- They share what bodies share. -/
  memory_eq : watched.memory = bare.memory
  /-- Operations are what they are in both. -/
  base?_eq : ∀ key, watched.table.base? key = bare.table.base? key
  /-- In the first, nobody owns an operation. -/
  unowned : ∀ key, bare.table.owner? key = none
  /-- In the second, owners only look on. -/
  onlyLooksOn : ∀ key handle, watched.table.owner? key = some handle →
    watched.OnlyLooksOn handle
  /-- Bodies do nothing but what concerns calls. -/
  callsOnly : ∀ key base, bare.table.base? key = some base →
    ∃ body : Program σ, body.CallsOnly ∧ base = .plain body
  /-- Slots are sound in the second. They are in the first, where nobody owns them. -/
  sound : watched.table.Sound

/-- A table in which nobody owns an operation is sound. -/
theorem Table.sound_of_unowned {table : Table σ} (h : ∀ key, table.owner? key = none) :
    table.Sound := by
  intro key slot hf
  have ho : slot.owner? = none := by simpa [Table.owner?, hf] using h key
  rw [Slot.eq_free_of_owner?_eq_none ho]
  exact .free _

namespace Instrumented

variable {bare watched : System σ}

/-- In the second system, things may happen aside. -/
theorem aside (h : Instrumented bare watched) {watched' : System σ}
    (haside : watched.Aside watched') : Instrumented bare watched' where
  memory_eq := haside.memory_eq.trans h.memory_eq
  base?_eq key := by rw [haside.table_eq, h.base?_eq]
  unowned := h.unowned
  onlyLooksOn key handle ho := by
    rw [haside.table_eq] at ho
    exact (h.onlyLooksOn key handle ho).congr haside.interceptors_eq
  callsOnly := h.callsOnly
  sound := by
    rw [haside.table_eq]
    exact h.sound

/-- Both memories may change alike. -/
theorem remember (h : Instrumented bare watched) (change : σ → σ) :
    Instrumented { bare with memory := change bare.memory }
      { watched with memory := change watched.memory } :=
  ⟨congrArg change h.memory_eq, h.base?_eq, h.unowned, h.onlyLooksOn, h.callsOnly, h.sound⟩

end Instrumented

/-! ### Runs in step -/

/-- Doing nothing afterwards changes nothing. -/
theorem Run.bind_pure (run : Run σ α) : run >>= Pure.pure = run := by
  funext s
  show Run.bind run Run.pure s = run s
  unfold Run.bind Run.pure
  obtain ⟨fault | result, trees, s'⟩ := run s
  · rfl
  · simp

/-- **Runs that do not differ in what can be seen**: the same result and the same call
trees, and the systems after stay related. -/
structure Ran.Mirrored (bare watched : Ran σ α) : Prop where
  /-- They end alike. -/
  result_eq : watched.result = bare.result
  /-- The same ran. -/
  trees_eq : watched.trees = bare.trees
  /-- They stay in step. -/
  system : Instrumented bare.system watched.system

/-- **The second run does on an instrumented system what the first does on the bare
one.** -/
def Mirrors (run run' : Run σ α) : Prop :=
  ∀ bare watched : System σ, Instrumented bare watched → (run bare).Mirrored (run' watched)

namespace Mirrors

theorem pure (result : α) : Mirrors (Pure.pure result : Run σ α) (Pure.pure result) :=
  fun _ _ h => ⟨rfl, rfl, h⟩

theorem fault (fault : Fault) : Mirrors (Run.fault fault : Run σ α) (Run.fault fault) :=
  fun _ _ h => ⟨rfl, rfl, h⟩

/-- Both memories are read and may change alike. -/
theorem remember (change : σ → σ) :
    Mirrors (Run.act fun s : System σ => (s.memory, { s with memory := change s.memory }))
      (Run.act fun s => (s.memory, { s with memory := change s.memory })) :=
  fun _ _ h => ⟨congrArg Except.ok h.memory_eq, rfl, h.remember change⟩

end Mirrors

/-- Runs in step go on in step. -/
theorem Ran.Mirrored.bind {run run' : Run σ α} {next next' : α → Run σ β}
    {bare watched : System σ} (h : (run bare).Mirrored (run' watched))
    (hnext : ∀ result, Mirrors (next result) (next' result)) :
    Ran.Mirrored ((run >>= next) bare) ((run' >>= next') watched) := by
  show Ran.Mirrored (Run.bind run next bare) (Run.bind run' next' watched)
  unfold Run.bind
  generalize run bare = ran at h ⊢
  generalize run' watched = ran' at h ⊢
  obtain ⟨result, trees, bare'⟩ := ran
  obtain ⟨result', trees', watched'⟩ := ran'
  obtain ⟨rfl, rfl, hsystem⟩ := h
  rcases result' with fault | result
  · exact ⟨rfl, rfl, hsystem⟩
  · obtain ⟨hresult, htrees, hsystem'⟩ := hnext result bare' watched' hsystem
    exact ⟨hresult, congrArg (trees' ++ ·) htrees, hsystem'⟩

/-- Runs in step stay so under a node. -/
theorem Ran.Mirrored.under {run run' : Run σ α} {bare watched : System σ}
    (h : (run bare).Mirrored (run' watched)) (label : Except Fault α → Label) :
    Ran.Mirrored (run.under label bare) (run'.under label watched) := by
  obtain ⟨hresult, htrees, hsystem⟩ := h
  refine ⟨hresult, ?_, hsystem⟩
  show [CallTree.node (label (run' watched).result) (run' watched).trees] =
    [CallTree.node (label (run bare).result) (run bare).trees]
  rw [hresult, htrees]

namespace Mirrors

theorem bind {run run' : Run σ α} {next next' : α → Run σ β} (h : Mirrors run run')
    (hnext : ∀ result, Mirrors (next result) (next' result)) :
    Mirrors (run >>= next) (run' >>= next') :=
  fun bare watched hs => (h bare watched hs).bind hnext

theorem under {run run' : Run σ α} (h : Mirrors run run') (label : Except Fault α → Label) :
    Mirrors (run.under label) (run'.under label) :=
  fun bare watched hs => (h bare watched hs).under label

/-- The second run may go on by itself, if that comes to the same. -/
theorem bind_right {run run' : Run σ α} {next : α → Run σ α} (h : Mirrors run run')
    (hnext : ∀ result, Mirrors (Pure.pure result) (next result)) :
    Mirrors run (run' >>= next) := by
  rw [← run.bind_pure]
  exact h.bind hnext

/-- Doing nothing first changes nothing. -/
theorem pure_right {run : Run σ β} {result : α} {next : α → Run σ β}
    (hnext : Mirrors run (next result)) : Mirrors run (Pure.pure result >>= next) :=
  hnext

/-- In the second run, something may happen aside first. -/
theorem act_right {run : Run σ β} {change : System σ → α × System σ} {next : α → Run σ β}
    (haside : ∀ s : System σ, s.Aside (change s).2) (hnext : ∀ answer, Mirrors run (next answer)) :
    Mirrors run (Run.act change >>= next) :=
  fun bare _ h => hnext _ bare _ (h.aside (haside _))

end Mirrors

/-! ### Calls -/

/-- **Hooks that only collect do not show**: a call through them comes to what the base
comes to. -/
theorem mirrors_hooked {run : BodyRun σ} {key : Key} {hooks : Hooks σ}
    (hhooks : hooks.OnlyCollect) {base base' : Invocation → Run σ Outcome}
    (hbase : ∀ call, Mirrors (base call) (base' call)) (call : Invocation) :
    Mirrors (base call) (hooked run key hooks base' call) := by
  unfold hooked evaluateBefore evaluateSegment
  rw [hhooks.before, hhooks.replace]
  -- no before-hook and no replace-hook: the base runs, between two looks at the clock
  refine Mirrors.pure_right ?_
  refine Mirrors.act_right System.aside_readClock fun start => ?_
  refine (hbase call).bind_right fun segment => ?_
  rcases segment with ⟨failure | value, call⟩
  · exact .pure _
  refine Mirrors.act_right System.aside_readClock fun stop => ?_
  refine Mirrors.act_right (fun s => s.aside_record ..) fun record => ?_
  -- the base succeeded: there is a record, which a collector gets at most
  rw [evaluateAfter]
  rcases hhooks.after with hafter | ⟨collector, hafter⟩
  · rw [hafter]
    exact .pure _
  · rw [hafter]
    have haside : ∀ s : System σ, s.Aside (s.deliver collector record call.arguments) :=
      fun s => s.aside_deliver collector record call.arguments
    show Mirrors _ (Run.act (fun s => ((), s.deliver collector record call.arguments)) >>=
      fun _ => pure (Outcome.mk (.ok value) call))
    exact Mirrors.act_right haside fun _ => .pure _

/-- **An interceptor that only looks on does not show.** -/
theorem mirrored_routed {run : BodyRun σ} {key : Key} {owner : Handle}
    {base base' : Invocation → Run σ Outcome}
    (hbase : ∀ call, Mirrors (base call) (base' call)) (call : Invocation)
    {bare watched : System σ} (h : Instrumented bare watched)
    (hlooks : watched.OnlyLooksOn owner) :
    (base call bare).Mirrored (routed run owner key base' call watched) := by
  rw [routed, Run.look_bind]
  rcases henabled : watched.enabled owner with _ | _
  -- disabled: whatever its hooks are, the base runs
  · exact hbase call bare watched h
  · have hcollect : (watched.hooks owner).OnlyCollect :=
      hlooks.resolve_left (by simp [henabled])
    show (base call bare).Mirrored
      ((Run.look (fun s => s.hooks owner) >>= fun hooks => hooked run key hooks base' call) watched)
    rw [Run.look_bind]
    exact mirrors_hooked hcollect hbase call bare watched h

/-- A way to run bodies that does not tell the two systems apart, on bodies that do nothing
but what concerns calls. -/
def BodiesMirrored (run : BodyRun σ) : Prop :=
  ∀ body : Program σ, body.CallsOnly → ∀ call, Mirrors (run body call) (run body call)

/-- **Nor does a call through the table.** -/
theorem mirrors_call {run? : Option (BodyRun σ)} (h : ∀ run ∈ run?, BodiesMirrored run)
    (callee : Invocation) : Mirrors (evaluateCall run? callee) (evaluateCall run? callee) := by
  intro bare watched hs
  refine Ran.Mirrored.under ?_ _
  rw [Run.look_bind, Run.look_bind, hs.base?_eq]
  rcases hbase : bare.table.base? callee.key with _ | base
  · exact Mirrors.pure _ bare watched hs
  obtain ⟨body, hbody, rfl⟩ := hs.callsOnly callee.key base hbase
  rcases run? with _ | run
  · exact Mirrors.fault _ bare watched hs
  have himplementation : ∀ call, Mirrors ((Implementation.plain body).evaluate run call)
      ((Implementation.plain body).evaluate run call) := fun call =>
    (h run rfl body hbody call).under _
  dsimp only
  rw [Run.look_bind, Run.look_bind, hs.unowned]
  -- in the bare system the base runs; in the other one, it may run through a trampoline
  rcases howner : watched.table.owner? callee.key with _ | owner
  · exact (himplementation callee bare watched hs).bind fun outcome => .pure _
  · exact (mirrored_routed himplementation callee hs
      (hs.onlyLooksOn callee.key owner howner)).bind fun outcome => .pure _

/-- **Nor does a body**, if the calls it makes do not. -/
theorem mirrors_body {run? : Option (BodyRun σ)} (h : ∀ run ∈ run?, BodiesMirrored run) :
    BodiesMirrored (Program.evaluate run?) := by
  intro body hbody
  induction hbody with
  | done value => exact fun call => .pure _
  | fail failure => exact fun call => .pure _
  | abort fault => exact fun call => .fault fault
  | inspect _ ih => exact fun call => ih call call
  | set index value _ ih => exact fun call => ih _ _
  | memory change _ ih => exact fun call => (Mirrors.remember change).bind fun old => ih old call
  | call callee _ ih => exact fun call => (mirrors_call h callee).bind fun answer => ih answer call

/-! ### Installing -/

namespace System

theorem memory_install (s : System σ) (handle : Handle) :
    (s.install handle).2.memory = s.memory := by
  rw [install]
  split
  · split
    · rfl
    · rfl
  · rfl

end System

namespace Instrumented

variable {bare watched : System σ}

/-- Installing one more interceptor that only looks on. -/
theorem install (h : Instrumented bare watched) {handle : Handle}
    (hlooks : watched.OnlyLooksOn handle) : Instrumented bare (watched.install handle).2 where
  memory_eq := (watched.memory_install handle).trans h.memory_eq
  base?_eq key := ((watched.handover_install handle).base?_eq key).trans (h.base?_eq key)
  unowned := h.unowned
  onlyLooksOn key owner ho := by
    have hi := watched.interceptors_install handle
    rcases watched.owner?_install handle ho with rfl | hold
    · exact hlooks.congr hi
    · exact (h.onlyLooksOn key owner hold).congr hi
  callsOnly := h.callsOnly
  sound := (watched.handover_install handle).sound h.sound

/-- Installing any number of them. -/
theorem installAll (h : Instrumented bare watched) (handles : List Handle)
    (hlooks : ∀ handle ∈ handles, watched.OnlyLooksOn handle) :
    Instrumented bare (watched.installAll handles) := by
  induction handles generalizing watched with
  | nil => exact h
  | cons handle rest ih =>
    obtain ⟨hhandle, hrest⟩ := List.forall_mem_cons.mp hlooks
    -- installing changes the table only, so the others still only look on
    have hi := watched.interceptors_install handle
    exact ih (h.install hhandle) fun other hother => (hrest other hother).congr hi

end Instrumented

/-! ### Calls from outside -/

/-- Calls operations from outside one after the other, each with how deep its calls may
nest. -/
def System.invokeEach : List (Nat × Invocation) → System σ →
    List (Except Fault (Except CallError Value)) × System σ
  | [], s => ([], s)
  | (depth, callee) :: rest, s =>
    let (answer, s) := s.invoke depth callee
    let (answers, s) := s.invokeEach rest
    (answer :: answers, s)

/-- What runs in the course of them. -/
def System.callTrees : List (Nat × Invocation) → System σ → List CallTree
  | [], _ => []
  | (depth, callee) :: rest, s =>
    (s.evaluate depth callee).trees ++ (s.invoke depth callee).2.callTrees rest

/-- One call from outside. -/
theorem Instrumented.invoke {bare watched : System σ} (h : Instrumented bare watched)
    (depth : Nat) (callee : Invocation) :
    (watched.invoke depth callee).1 = (bare.invoke depth callee).1 ∧
      (watched.evaluate depth callee).trees = (bare.evaluate depth callee).trees ∧
      Instrumented (bare.invoke depth callee).2 (watched.invoke depth callee).2 := by
  have hmirrored : (bare.evaluate depth callee).Mirrored (watched.evaluate depth callee) :=
    mirrors_call (bodyRun?_induction (fun _ => mirrors_body) depth) callee bare watched h
  rw [watched.invoke_eq_of_sound depth callee h.sound,
    bare.invoke_eq_of_sound depth callee (Table.sound_of_unowned h.unowned)]
  exact ⟨hmirrored.result_eq, hmirrored.trees_eq, hmirrored.system⟩

/-- Any number of them. -/
theorem Instrumented.invokeEach {bare watched : System σ} (h : Instrumented bare watched)
    (calls : List (Nat × Invocation)) :
    (watched.invokeEach calls).1 = (bare.invokeEach calls).1 ∧
      watched.callTrees calls = bare.callTrees calls ∧
      Instrumented (bare.invokeEach calls).2 (watched.invokeEach calls).2 := by
  induction calls generalizing bare watched with
  | nil => exact ⟨rfl, rfl, h⟩
  | cons call rest ih =>
    obtain ⟨depth, callee⟩ := call
    obtain ⟨hanswer, htrees, hsystem⟩ := h.invoke depth callee
    obtain ⟨hanswers, hrest, hlast⟩ := ih hsystem
    refine ⟨?_, ?_, hlast⟩
    · exact congrArg₂ List.cons hanswer hanswers
    · exact congrArg₂ List.append htrees hrest

/-- **Instrumentation does not show.** Of two systems with the same operations and the same
memory, one is left as it is, and in the other interceptors are installed that only look
on: each of them disabled, or with a collector at most. Whatever else there is – clock,
other interceptors, collectors with or without room – may differ from the start. Then
whatever is called from outside, one call after the other, each call gets the same answer
in both, or ends in the same fault; the same bodies run, entered with the same calls, inside
of each other in the same way; and the memory, where bodies may have noted all of this
themselves, holds the same in the end. -/
theorem answers_eq_of_onlyLooksOn {bare s : System σ} (htable : s.table = bare.table)
    (hmemory : s.memory = bare.memory)
    (hbodies : ∀ key slot, bare.table.find? key = some slot →
      ∃ body : Program σ, body.CallsOnly ∧ slot = .free (.plain body))
    (handles : List Handle) (hlooks : ∀ handle ∈ handles, s.OnlyLooksOn handle)
    (calls : List (Nat × Invocation)) :
    let watched := s.installAll handles
    (watched.invokeEach calls).1 = (bare.invokeEach calls).1 ∧
      watched.callTrees calls = bare.callTrees calls ∧
      (watched.invokeEach calls).2.memory = (bare.invokeEach calls).2.memory := by
  intro watched
  have hunowned : ∀ key, bare.table.owner? key = none := by
    intro key
    rw [Table.owner?]
    rcases hf : bare.table.find? key with _ | slot
    · rfl
    · obtain ⟨body, -, rfl⟩ := hbodies key slot hf
      rfl
  have hstart : Instrumented bare s :=
    { memory_eq := hmemory
      base?_eq := fun key => by rw [htable]
      unowned := hunowned
      onlyLooksOn := fun key handle ho => by
        rw [htable, hunowned] at ho
        cases ho
      callsOnly := fun key base hbase => by
        obtain ⟨slot, hf, rfl⟩ := Option.map_eq_some_iff.mp hbase
        obtain ⟨body, hbody, rfl⟩ := hbodies key slot hf
        exact ⟨body, hbody, rfl⟩
      sound := Table.sound_of_unowned fun key => by rw [htable, hunowned] }
  obtain ⟨hanswers, htrees, hsystem⟩ := (hstart.installAll handles hlooks).invokeEach calls
  exact ⟨hanswers, htrees, hsystem.memory_eq⟩

/-! ### Two operations with two interceptors -/

namespace Relay

/-- The key of the operation that passes calls on. -/
def key : Key :=
  .ofInstance "Relay" "compute"

/-- Passes a call on to the sample type, and a failure with a word of its own. -/
def body : Program σ :=
  .inspect fun call =>
    .call { call with key := Calculator.computeKey } fun
      | .ok value => .done value
      | .error error => .fail (.context "relay" (.raised error))

/-- A system with the operation and the one that it passes calls on to. -/
def bare : System Unit :=
  { System.start (fun _ => .atEpoch) () with
    table :=
      (Directory.empty.put Calculator.computeKey (.free (.plain Calculator.compute))).put key
        (.free (.plain body)) }

/-- The interceptor that collects the records of one operation. -/
def collecting : Handle :=
  ⟨0, Calculator.computeKey⟩

/-- The interceptor on the other operation, which is disabled. -/
def sleeping : Handle :=
  ⟨1, key⟩

/-- The system with both interceptors, and a collector in which there is room for one
record. -/
def prepared : System Unit :=
  { bare with
    interceptors :=
      [{ key := Calculator.computeKey, enabled := true
         hooks := ⟨none, none, some (.collect 0)⟩, live := true },
       { key, enabled := false
         hooks := ⟨some (.fail (.message "before")), some (.done .null), none⟩, live := true }]
    collectors := (Collector.new? 1 none true).toList }

/-- Calls that succeed, fail, nest too deep and find nothing. -/
def calls : List (Nat × Invocation) :=
  [(2, ⟨.ofType, key, [.int 1]⟩), (2, ⟨.ofType, key, []⟩), (1, ⟨.ofType, key, [.int 1]⟩),
    (1, ⟨.ofType, Calculator.describeKey, []⟩)]

theorem callsOnly_compute : (Calculator.compute : Program σ).CallsOnly := by
  refine .inspect fun call => ?_
  split
  · exact .fail _
  · split
    · exact .done _
    · exact .fail _

theorem callsOnly_body : (body : Program σ).CallsOnly := by
  refine .inspect fun call => .call _ fun answer => ?_
  split
  · exact .done _
  · exact .fail _

/-- What these calls answer. -/
def answers : List (Except Fault (Except CallError Value)) :=
  [.ok (.ok (.int 2)),
    .ok (.error (.operationFailed (.message "compute expects an integer argument"))),
    .error .tooDeep, .ok (.error (.targetNotFound Calculator.describeKey))]

/-- The two interceptors do not show, though both own their operations: the calls answer
what they answer without them, and the same runs. -/
theorem answers_eq_prepared :
    let watched := prepared.installAll [collecting, sleeping]
    watched.table.owner? collecting.key = some collecting ∧
      watched.table.owner? sleeping.key = some sleeping ∧
      (watched.invokeEach calls).1 = answers ∧ watched.callTrees calls = bare.callTrees calls := by
  intro watched
  have hbodies : ∀ key' slot, bare.table.find? key' = some slot →
      ∃ body : Program Unit, body.CallsOnly ∧ slot = .free (.plain body) := by
    intro key' slot hf
    rw [bare, Directory.find?_put, Directory.find?_put] at hf
    split at hf
    · exact ⟨body, callsOnly_body, (Option.some.inj hf).symm⟩
    · split at hf
      · exact ⟨Calculator.compute, callsOnly_compute, (Option.some.inj hf).symm⟩
      · cases hf
  have hlooks : ∀ handle ∈ [collecting, sleeping], prepared.OnlyLooksOn handle := by
    intro handle hhandle
    simp only [List.mem_cons, List.not_mem_nil, or_false] at hhandle
    rcases hhandle with rfl | rfl
    · exact .inr ⟨rfl, rfl, .inr ⟨0, rfl⟩⟩
    · exact .inl rfl
  obtain ⟨hanswers, htrees, -⟩ :=
    @answers_eq_of_onlyLooksOn Unit bare prepared rfl rfl hbodies [collecting, sleeping] hlooks
      calls
  have hbare : (bare.invokeEach calls).1 = answers := rfl
  exact ⟨by decide, by decide, hanswers.trans hbare, htrees⟩

end Relay

end Interception
