import Interception.Crew
import Interception.Proofs.Ownership
import Interception.Proofs.Transparency
import Interception.Proofs.Workload

/-!
# Results that are settled from the start

While calls are made, collectors fill up and are drained, the clock goes on, and other threads do
the same things in between. As long as nobody touches the table and the interceptors, none of this
can change the result of a thread that only calls operations whose interceptors look on.
`Thread.EndsWith` says so of a thread and its result: in this setting it comes to this end, whatever
happens between its actions.

* An operation comes down to a body if the body stands in its slot, or an interceptor that only
  looks on has its trampoline around it (`System.ComesDownTo`). A call of it then has the answer of
  the body, be it a value or an error (`endsWith_call`). So it is with every operation of a system
  that only times, however targets are timed on it (`System.OnlyTimes`).
* One action of a thread leaves the setting alone and the result what it was
  (`Thread.EndsWith.step`), so a thread that runs to its end has it (`Thread.EndsWith.run`).
* The same goes for threads side by side, whosever turn it is (`Crew.EndWith.step`).
-/

namespace Interception

variable {σ α β : Type}

/-! ### The setting -/

namespace System.SameSetting

theorem refl (s : System σ) : s.SameSetting s :=
  ⟨rfl, rfl⟩

theorem trans {s s' s'' : System σ} (h : s.SameSetting s') (h' : s'.SameSetting s'') :
    s.SameSetting s'' :=
  ⟨h'.table_eq.trans h.table_eq, h'.interceptors_eq.trans h.interceptors_eq⟩

end System.SameSetting

theorem System.Aside.sameSetting {s s' : System σ} (h : s.Aside s') : s.SameSetting s' :=
  ⟨h.table_eq, h.interceptors_eq⟩

/-- Draining a collector leaves table and interceptors alone. -/
theorem System.sameSetting_drain (s : System σ) (collector : CollectorId) (max : Nat) :
    s.SameSetting (s.drain collector max).2 := by
  rw [drain]
  split
  · exact ⟨rfl, rfl⟩
  · exact .refl s

/-! ### Threads -/

/-- **A thread that ends with a result**, as long as it finds the table and the interceptors of a
setting at each of its actions. None of its own actions changes them. -/
inductive Thread.EndsWith (setting : System σ) : Thread σ α → α → Prop
  /-- It has ended. -/
  | done (result : α) : EndsWith setting (.done result) result
  /-- It does something that leaves the setting alone, and goes on towards the result whatever the
  answer is. -/
  | act {action : Action σ} {next : action.Answer → Thread σ α} {result : α}
      (hkeeps : ∀ s : System σ, s.SameSetting (action.perform s).2)
      (h : ∀ s, setting.SameSetting s → EndsWith setting (next (action.perform s).1) result) :
      EndsWith setting (.act action next) result

namespace Thread.EndsWith

variable {setting : System σ}

/-- Looking something up, reading the clock and making a record leave the setting alone. -/
theorem pass {action : Action σ} {next : action.Answer → Thread σ α} {result : α}
    (hpassing : action.isPassing = true)
    (h : ∀ s, setting.SameSetting s →
      (next (action.perform s).1).EndsWith setting result) :
    (Thread.act action next).EndsWith setting result :=
  .act (fun s => (action.perform_of_isPassing hpassing s).1) h

/-- So does handing a record in. -/
theorem deliver {collector : CollectorId} {record : Record} {arguments : List Value}
    {next : Unit → Thread σ α} {result : α} (h : (next ()).EndsWith setting result) :
    (Thread.act (.deliver collector record arguments) next).EndsWith setting result :=
  .act (fun s => (s.aside_deliver collector record arguments).sameSetting) fun _ _ => h

/-- **The result of a thread that goes on after another one.** -/
theorem bind {t : Thread σ α} {f : α → Thread σ β} {a : α} {b : β}
    (h : t.EndsWith setting a) (hrest : (f a).EndsWith setting b) :
    (t.bind f).EndsWith setting b := by
  induction h with
  | done result => exact hrest
  | act hkeeps _ ih => exact .act hkeeps fun s hs => ih s hs hrest

theorem map {t : Thread σ α} {a : α} (h : t.EndsWith setting a) (f : α → β) :
    (t.map f).EndsWith setting (f a) :=
  h.bind (.done (f a))

/-- **One action of a thread**: the result stays what it is, and so does the setting. -/
theorem step {t : Thread σ α} {result : α} (h : t.EndsWith setting result) {s : System σ}
    (hs : setting.SameSetting s) :
    (t.step s).1.EndsWith setting result ∧ setting.SameSetting (t.step s).2 := by
  cases h with
  | done result => exact ⟨.done result, hs⟩
  | act hkeeps hnext => exact ⟨hnext s hs, hs.trans (hkeeps s)⟩

/-- **A thread that runs by itself** comes to its result. -/
theorem run {t : Thread σ α} {result : α} (h : t.EndsWith setting result) {s : System σ}
    (hs : setting.SameSetting s) :
    (t.run s).1 = .ok result ∧ setting.SameSetting (t.run s).2 := by
  induction h generalizing s with
  | done result => exact ⟨rfl, hs⟩
  | act hkeeps _ ih => exact ih s hs (hs.trans (hkeeps s))

end Thread.EndsWith

/-! ### Calls -/

/-- **An operation that comes down to a body**: the body stands in its slot, or an interceptor that
only looks on has its trampoline around it. -/
def System.ComesDownTo (s : System σ) (key : Key) (body : Program σ) : Prop :=
  s.table.lookup key = .ok (.plain body) ∨
    ∃ handle : Handle, s.table.lookup key = .ok (.trampoline handle (.plain body)) ∧
      s.OnlyLooksOn handle

/-- An operation that is timed by a collector comes down to its body. -/
theorem System.Serves.comesDownTo {s : System σ} {collector : CollectorId} {timed : Bool}
    {key : Key} {body : Program σ} (h : s.Serves collector timed key body) :
    s.ComesDownTo key body := by
  rcases h with ⟨hlookup, -⟩ | ⟨handle, -, hlookup, -, hhooks⟩
  · exact .inl hlookup
  · refine .inr ⟨handle, hlookup, .inr ?_⟩
    rw [hhooks]
    exact ⟨rfl, rfl, .inr ⟨collector, rfl⟩⟩

/-- **Stages that only hand a record in** end as what is covered does. -/
theorem endsWith_stages {setting : System σ} {hooks : Hooks σ} (hhooks : hooks.OnlyCollect)
    (nested : Runner σ) (handle : Handle) {covered : Invocation → Thread σ Outcome}
    {call : Invocation} {result : Except Failure Value}
    (hcovered : covered call = .done ⟨result, call⟩) :
    (stages nested handle hooks covered call).EndsWith setting ⟨result, call⟩ := by
  obtain ⟨before, replace, after⟩ := hooks
  obtain ⟨rfl, rfl, hafter⟩ := hhooks
  -- the clock is read, what is covered runs, and if it fails that is all
  refine .pass rfl fun s _ => ?_
  simp only [runSegment, hcovered]
  cases result with
  | error failure => exact .done _
  | ok value =>
    -- otherwise the clock is read again, and there is a record
    refine .pass rfl fun s _ => .pass rfl fun s _ => ?_
    rcases hafter with rfl | ⟨collector, rfl⟩
    · exact .done _
    · exact .deliver (.done _)

/-- **A call of an operation that comes down to a body** has the answer of the body. -/
theorem endsWith_call {setting : System σ} (callee : Invocation) {body : Program σ}
    (hbody : setting.ComesDownTo callee.key body) {result : Except Failure Value}
    (hresult : ∀ nested : Runner σ, body.run nested callee = .done ⟨result, callee⟩)
    (depth : Nat) :
    ((runNested (depth + 1) : Runner σ).call callee).EndsWith setting
      (result.mapError Failure.recover) := by
  refine .pass rfl fun s hs => ?_
  rw [Action.perform, hs.table_eq]
  rcases hbody with hlookup | ⟨handle, hlookup, hlooks⟩
  -- the body stands in the slot
  · rw [hlookup]
    simp only [runNested, Implementation.run, hresult]
    exact .done _
  -- a trampoline stands in the slot, and the body is behind it
  · rw [hlookup]
    simp only [runNested, Implementation.run]
    refine .map (a := ⟨result, callee⟩) ?_ Outcome.answer
    refine .pass rfl fun s' hs' => ?_
    have hlooks' : s'.OnlyLooksOn handle := hlooks.congr hs'.interceptors_eq
    rw [Action.perform]
    cases henabled : s'.enabled handle with
    | false =>
      dsimp only
      rw [hresult]
      exact .done _
    | true =>
      refine .pass rfl fun s'' hs'' => ?_
      have hcollect : (s''.hooks handle).OnlyCollect := by
        rw [System.hooks, hs''.interceptors_eq, ← hs'.interceptors_eq]
        exact hlooks'.resolve_left (by rw [henabled]; decide)
      exact endsWith_stages hcollect _ handle (hresult _)

/-! ### Systems that only time -/

/-- **A system that only times**: whoever owns what, no interceptor does anything but hand records
in. -/
structure System.OnlyTimes (s : System σ) : Prop where
  /-- Slots are sound. -/
  sound : s.table.Sound
  /-- Interceptors hand records in at most. -/
  collects : ∀ i ∈ s.interceptors, i.hooks.OnlyCollect

namespace System.OnlyTimes

variable {s s' : System σ}

/-- An operation whose base is a body comes down to it. -/
theorem comesDownTo (h : s.OnlyTimes) {key : Key} {body : Program σ}
    (hbase : s.table.base? key = some (.plain body)) : s.ComesDownTo key body := by
  obtain ⟨slot, hslot, hplain⟩ := Option.map_eq_some_iff.mp hbase
  have hlookup : s.table.lookup key = .ok slot.implementation := by
    rw [Table.lookup, hslot]
  cases h.sound key slot hslot with
  | free given =>
    obtain rfl : given = .plain body := hplain
    exact .inl hlookup
  | intercepted given owner _ =>
    obtain rfl : given = .plain body := hplain
    refine .inr ⟨owner, hlookup, .inr ?_⟩
    rw [System.hooks]
    cases hi : s.interceptors[owner.number]? with
    | none => exact ⟨rfl, rfl, .inl rfl⟩
    | some i => exact h.collects i (List.mem_of_getElem? hi)

/-- Owners may change. -/
theorem handovers (h : s.OnlyTimes) (htable : Table.Handovers s.table s'.table)
    (hinterceptors : s'.interceptors = s.interceptors) : s'.OnlyTimes :=
  ⟨htable.sound h.sound, by rw [hinterceptors]; exact h.collects⟩

theorem install (h : s.OnlyTimes) (handle : Handle) : (s.install handle).2.OnlyTimes :=
  h.handovers (s.handover_install handle) (s.interceptors_install handle)

/-- An interceptor may change, as long as it does no more than before. -/
theorem adjustInterceptor (h : s.OnlyTimes) (handle : Handle) {f : Interceptor σ → Interceptor σ}
    (hf : ∀ i, i.hooks.OnlyCollect → (f i).hooks.OnlyCollect) :
    (s.adjustInterceptor handle f).OnlyTimes := by
  rw [System.adjustInterceptor]
  split
  · next i hi =>
    refine ⟨h.sound, fun j hj => ?_⟩
    have hmem : i ∈ s.interceptors := List.mem_of_getElem? (Option.filter_eq_some_iff.mp hi).1
    rcases List.mem_or_eq_of_mem_set hj with hj | rfl
    · exact h.collects j hj
    · exact hf i (h.collects i hmem)
  · exact h

theorem setEnabled (h : s.OnlyTimes) (handle : Handle) (enabled : Bool) :
    (s.setEnabled handle enabled).OnlyTimes :=
  h.adjustInterceptor handle fun _ hi => hi

theorem drop (h : s.OnlyTimes) (handle : Handle) : (s.drop handle).OnlyTimes :=
  (h.handovers (s.handover_remove handle) (s.interceptors_remove handle)).adjustInterceptor handle
    fun _ hi => hi

theorem dropAll (h : s.OnlyTimes) (handles : List Handle) : (s.dropAll handles).OnlyTimes := by
  induction handles generalizing s with
  | nil => exact h
  | cons handle handles ih => exact ih (h.drop handle)

theorem create (h : s.OnlyTimes) (key : Key) : (s.create key).2.OnlyTimes := by
  refine ⟨h.sound, fun i hi => ?_⟩
  rcases List.mem_append.mp hi with hi | hi
  · exact h.collects i hi
  · obtain rfl := List.mem_singleton.mp hi
    exact ⟨rfl, rfl, .inl rfl⟩

theorem collect (h : s.OnlyTimes) (handle : Handle) (collector : CollectorId) :
    (s.collect handle collector).OnlyTimes :=
  h.adjustInterceptor handle fun _ hi => ⟨hi.before, hi.replace, .inr ⟨collector, rfl⟩⟩

/-- **Timing targets** leaves it so, whether it succeeds or not. -/
theorem timeTargets (h : s.OnlyTimes) (config : Config) (collector : CollectorId) :
    (s.timeTargets config collector).2.OnlyTimes := by
  have hall : ∀ (targets : List Key) (installed : List Handle) (s : System σ), s.OnlyTimes →
      (timeEach config collector targets installed s).2.OnlyTimes := by
    intro targets
    induction targets with
    | nil => exact fun _ _ h => ⟨h.sound, h.collects⟩
    | cons target targets ih =>
      intro installed s h
      have hinstall := (((h.create target).setEnabled (s.create target).1
        config.enabledByDefault).collect (s.create target).1 collector).install (s.create target).1
      rw [timeEach]
      dsimp only
      split
      · next hrun =>
        rw [hrun] at hinstall
        exact ih _ _ hinstall
      · next hrun =>
        rw [hrun] at hinstall
        exact (hinstall.drop _).dropAll _
  exact hall config.targets [] s h

end System.OnlyTimes

/-! ### Threads side by side -/

/-- **Threads that all end with one result**, in the setting that they are in. -/
structure Crew.EndWith (setting : System σ) (result : α) (crew : Crew σ α) : Prop where
  /-- Each of them ends with it. -/
  threads : ∀ t ∈ crew.threads, t.EndsWith setting result
  /-- Nobody has touched the setting. -/
  same : setting.SameSetting crew.system

namespace Crew.EndWith

variable {setting : System σ} {result : α} {crew : Crew σ α}

/-- **Whosever turn it is**, the results stay what they are. -/
theorem step (h : crew.EndWith setting result) (member : Nat) :
    (crew.step member).EndWith setting result := by
  rw [Crew.step]
  cases ht : crew.threads[member]? with
  | none => exact h
  | some t =>
    obtain ⟨hends, hsame⟩ := (h.threads t (List.mem_of_getElem? ht)).step h.same
    refine ⟨fun t' ht' => ?_, hsame⟩
    rcases List.mem_or_eq_of_mem_set ht' with hmem | rfl
    · exact h.threads t' hmem
    · exact hends

/-- **Threads that run to their ends** have it, each of them. -/
theorem finish (h : crew.EndWith setting result) :
    crew.finish.1 = List.replicate crew.threads.length (.ok result) := by
  obtain ⟨threads, s⟩ := crew
  obtain ⟨hthreads, hs⟩ := h
  dsimp only at hthreads hs
  rw [Crew.finish]
  dsimp only
  induction threads generalizing s with
  | nil => rfl
  | cons t threads ih =>
    obtain ⟨hresult, hsame⟩ := (hthreads t List.mem_cons_self).run hs
    have hrest := ih _ (fun t' ht' => hthreads t' (List.mem_cons_of_mem t ht')) hsame
    rw [List.length_cons, List.replicate_succ, ← hrest, ← hresult]
    rfl

end Crew.EndWith

end Interception
