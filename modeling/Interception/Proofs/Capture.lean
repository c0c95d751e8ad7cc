import Interception.Proofs.Numbering
import Interception.Proofs.Ownership
import Interception.Proofs.Stories

/-!
# What trampolines cover

A trampoline covers what stood in the slot when its interceptor took over the operation. It
may be found much later, and under other names: whoever looks it up can keep it, and give it to
another operation, whose next interceptor then covers it in turn.

`Deed.Installs` is the moment at which an interceptor takes over its operation: nobody owned
it, and what a call would have run is what is covered from then on. An implementation is
*captured* (`Implementation.Captured`) when each of its trampolines goes back to such a moment
of the history. Whatever can be found in a system is captured (`History.Captures`), at every
moment of every course of events (`History.Captures.follow`).

That nobody owned the operation has to be known of each request: none of them replaces an
owner by another one (`Deed.owner?_after`), because requests that deal with several
interceptors first let them take over, and only then give operations back.
-/

namespace Interception

variable {σ α : Type}

/-! ### Owners are not replaced -/

/-- **Whoever owns an operation in one table still owns it in another.** -/
def Table.OwnersStay (table table' : Table σ) : Prop :=
  ∀ key owner, table.owner? key = some owner → table'.owner? key = some owner

/-- **Owners come first and go later**: there is a table in between in which owners from before
and owners from after own what they owned. -/
def Table.Relieves (table table' : Table σ) : Prop :=
  ∃ between : Table σ, table.OwnersStay between ∧ table'.OwnersStay between

namespace Table

variable {table table' table'' : Table σ}

theorem OwnersStay.refl (table : Table σ) : table.OwnersStay table := fun _ _ ho => ho

theorem OwnersStay.trans (h : table.OwnersStay table') (h' : table'.OwnersStay table'') :
    table.OwnersStay table'' := fun key owner ho => h' key owner (h key owner ho)

/-- Some owners may have come. -/
theorem OwnersStay.relieves (h : table.OwnersStay table') : table.Relieves table' :=
  ⟨table', h, .refl table'⟩

/-- Some owners may have gone. -/
theorem OwnersStay.relieved (h : table'.OwnersStay table) : table.Relieves table' :=
  ⟨table, .refl table, h⟩

theorem Relieves.of_eq (h : table' = table) : table.Relieves table' := by
  rw [h]
  exact (OwnersStay.refl table).relieves

/-- Where owners have gone, others may have come before. -/
theorem OwnersStay.relieves_trans (h : table.OwnersStay table') (h' : table'.Relieves table'') :
    table.Relieves table'' := by
  obtain ⟨between, hstay, hafter⟩ := h'
  exact ⟨between, h.trans hstay, hafter⟩

/-- **No owner is replaced by another one.** -/
theorem Relieves.owner?_eq (h : table.Relieves table') {key : Key} {owner other : Handle}
    (hbefore : table.owner? key = some owner) (hafter : table'.owner? key = some other) :
    other = owner := by
  obtain ⟨between, hstay, hcome⟩ := h
  have howner := hstay key owner hbefore
  have hother := hcome key other hafter
  exact Option.some.inj (hother.symm.trans howner)

/-- Giving an operation an implementation makes nobody an owner. -/
theorem ownersStay_put_free (table : Table σ) (key : Key) (given : Implementation σ) :
    OwnersStay (table.put key (.free given)) table := by
  intro other owner ho
  rw [owner?_put] at ho
  split at ho
  · cases ho
  · exact ho

end Table

namespace System

variable {s : System σ}

theorem ownersStay_install (s : System σ) (handle : Handle) :
    s.table.OwnersStay (s.install handle).2.table := by
  intro key owner ho
  rw [Table.owner?, find?_install ho]
  exact ho

theorem ownersStay_remove (hs : s.table.Sound) (handle : Handle) :
    (s.remove handle).2.table.OwnersStay s.table :=
  fun _ _ ho => (owner?_remove hs ho).2

theorem ownersStay_drop (hs : s.table.Sound) (handle : Handle) :
    (s.drop handle).table.OwnersStay s.table := by
  rw [drop, table_adjustInterceptor]
  exact ownersStay_remove hs handle

theorem ownersStay_dropAll (hs : s.table.Sound) (handles : List Handle) :
    (s.dropAll handles).table.OwnersStay s.table := by
  rw [dropAll]
  induction handles generalizing s with
  | nil => exact .refl s.table
  | cons handle rest ih =>
    exact (ih ((s.handover_drop handle).sound hs)).trans (ownersStay_drop hs handle)

theorem ownersStay_removeEach (hs : s.table.Sound) (handles : List Handle) :
    (removeEach handles s).2.table.OwnersStay s.table := by
  induction handles generalizing s with
  | nil => exact .refl s.table
  | cons handle rest ih =>
    exact (ih ((s.handover_remove handle).sound hs)).trans (ownersStay_remove hs handle)

theorem ownersStay_removeInstrumentation (hs : s.table.Sound) (group : Instrumentation) :
    (s.removeInstrumentation group).2.table.OwnersStay s.table :=
  (ownersStay_dropAll ((handover_removeEach group.handles s).sound hs) group.handles).trans
    (ownersStay_removeEach hs group.handles)

/-- An interceptor may be given up again that could not be installed. -/
theorem relieves_attach (hs : s.table.Sound) (group : Instrumentation) (operation : String)
    (level : Level) (slot : HookSlot) (body : slot.Input → Program σ) :
    s.table.Relieves (s.attach group operation level slot body).2.table := by
  have hready : ((s.create (group.key operation level)).2.setHook
      (s.create (group.key operation level)).1 slot body).table = s.table := by
    rw [table_setHook, table_create]
  have hstay := ownersStay_install ((s.create (group.key operation level)).2.setHook
    (s.create (group.key operation level)).1 slot body) (s.create (group.key operation level)).1
  have hsound := (handover_install ((s.create (group.key operation level)).2.setHook
    (s.create (group.key operation level)).1 slot body)
    (s.create (group.key operation level)).1).sound (hready.symm ▸ hs)
  rw [hready] at hstay
  rw [attach]
  dsimp only
  split
  · next h =>
    rw [h] at hstay
    exact hstay.relieves
  · next h =>
    rw [h] at hstay hsound
    exact ⟨_, hstay, ownersStay_drop hsound _⟩

/-- Interceptors are installed one after the other, and given up again if one of them could not
be. -/
theorem relieves_timeEach (config : Config) (collector : CollectorId) (targets : List Key)
    (installed : List Handle) (hs : s.table.Sound) :
    s.table.Relieves (timeEach config collector targets installed s).2.table := by
  induction targets generalizing installed s with
  | nil => exact .of_eq rfl
  | cons target rest ih =>
    have hready : (((s.create target).2.setEnabled (s.create target).1
        config.enabledByDefault).collect (s.create target).1 collector).table = s.table := by
      rw [table_collect, table_setEnabled, table_create]
    have hstay := ownersStay_install (((s.create target).2.setEnabled (s.create target).1
      config.enabledByDefault).collect (s.create target).1 collector) (s.create target).1
    have hsound := (handover_install (((s.create target).2.setEnabled (s.create target).1
      config.enabledByDefault).collect (s.create target).1 collector)
      (s.create target).1).sound (hready.symm ▸ hs)
    rw [hready] at hstay
    rw [timeEach]
    dsimp only
    split
    · next h =>
      rw [h] at hstay hsound
      exact hstay.relieves_trans (ih _ hsound)
    · next h =>
      rw [h] at hstay hsound
      exact ⟨_, hstay, (ownersStay_dropAll ((handover_drop ..).sound hsound) _).trans
        (ownersStay_drop hsound _)⟩

end System

/-- **No request replaces an owner.** -/
theorem Request.relieves (r : Request) (bodies : r.Body → Program σ) {s : System σ}
    (hs : s.table.Sound) : s.table.Relieves (r.perform bodies s).2.table := by
  have hdefine (key : Key) (given : Implementation σ) :
      s.table.Relieves (s.define key given).2.table := by
    rcases s.define_cases key given with ⟨done, -, -, ht⟩ | ⟨error, he⟩
    · exact ht ▸ (s.table.ownersStay_put_free key given).relieved
    · exact .of_eq (by rw [he])
  have hexchange (key : Key) (given : Implementation σ) :
      s.table.Relieves (s.exchange key given).2.table := by
    rcases s.exchange_cases key given with ⟨old, -, -, ht⟩ | ⟨error, he⟩
    · exact ht ▸ (s.table.ownersStay_put_free key given).relieved
    · exact .of_eq (by rw [he])
  cases r with
  -- first what gives an operation an implementation, or takes it from all of them
  | define key => exact hdefine key _
  | defineKept key kept => exact hdefine key _
  | exchange key => exact hexchange key _
  | exchangeKept key kept => exact hexchange key _
  | removeAll =>
    refine Table.OwnersStay.relieved fun key owner ho => ?_
    have hnone := (s.table.owner?_restoreAll key).symm.trans ho
    cases hnone
  | reset => exact Table.OwnersStay.relieved fun key owner ho => by cases ho
  -- then what changes owners
  | install handle => exact (s.ownersStay_install handle).relieves
  | remove handle => exact (System.ownersStay_remove hs handle).relieved
  | drop handle => exact (System.ownersStay_drop hs handle).relieved
  | dropAll handles => exact (System.ownersStay_dropAll hs handles).relieved
  | timeTargets config collector => exact System.relieves_timeEach config collector _ _ hs
  | attach group operation level slot =>
    exact System.relieves_attach hs group operation level slot bodies
  | removeInstrumentation group =>
    exact (System.ownersStay_removeInstrumentation hs group).relieved
  -- and the rest leaves the table alone
  | keep key => exact .of_eq (s.table_keepCurrent key)
  | create key => exact .of_eq (s.table_create key)
  | contains key | operations | intercepted | view handle | viewCollector collector =>
    exact .of_eq rfl
  | setEnabled handle enabled => exact .of_eq (s.table_setEnabled ..)
  | setHook handle slot => exact .of_eq (s.table_setHook ..)
  | collect handle collector => exact .of_eq (s.table_collect ..)
  | clearHook handle slot => exact .of_eq (s.table_clearHook ..)
  | createCollector capacity threshold captures => exact .of_eq (s.table_createCollector ..)
  | drain collector max => exact .of_eq (s.table_drain ..)
  | drainAll collector => exact .of_eq (s.table_drain ..)
  | setAllEnabled group enabled => exact .of_eq (s.table_setAllEnabled ..)

/-- **Nor does anything else that can be done.** -/
theorem Deed.owner?_after {d : Deed σ} (hs : d.before.table.Sound) {key : Key}
    {owner other : Handle} (hbefore : d.before.table.owner? key = some owner)
    (hafter : d.after.table.owner? key = some other) : other = owner := by
  obtain ⟨s, action⟩ := d
  have hsame : (action.perform s).2.table = s.table → other = owner := fun h =>
    (Table.Relieves.of_eq h).owner?_eq hbefore hafter
  cases action with
  | request r bodies => exact (r.relieves bodies hs).owner?_eq hbefore hafter
  | deliver collector record arguments => exact hsame (s.table_deliver ..)
  | lookup key | kept number | enabled handle | hooks handle | readClock | memory change =>
    exact hsame rfl
  | record key start stop replaced => exact hsame rfl

/-! ### Installation -/

/-- **A deed with which an interceptor takes over its operation**, and what it covers from then
on. -/
structure Deed.Installs (d : Deed σ) (owner : Handle) (covered : Implementation σ) : Prop where
  /-- Nobody owned the operation. -/
  unowned : d.before.table.owner? owner.key = none
  /-- A call would have run what is covered now. -/
  lookup_eq : d.before.table.lookup owner.key = .ok covered
  /-- A call goes through the trampoline now. -/
  lookup_after : d.after.table.lookup owner.key = .ok (.trampoline owner covered)

/-- **An implementation of which each trampoline was installed**, around what it covers. -/
def Implementation.Captured (history : List (Deed σ)) : Implementation σ → Prop
  | .plain _ => True
  | .trampoline owner covered =>
    (∃ d ∈ history, d.Installs owner covered) ∧ covered.Captured history

theorem Implementation.Captured.mono {history longer : List (Deed σ)}
    {implementation : Implementation σ} (h : implementation.Captured history)
    (hsub : history ⊆ longer) : implementation.Captured longer := by
  induction implementation with
  | plain body => trivial
  | trampoline owner covered ih =>
    obtain ⟨⟨d, hd, hinstalls⟩, hcovered⟩ := h
    exact ⟨⟨d, hsub hd, hinstalls⟩, ih hcovered⟩

/-- An operation that somebody owns after a deed was not given anything by it. -/
theorem Table.Change.settles_eq_none {table table' : Table σ}
    {settles : Key → Option (Option (Implementation σ))} (h : table.Change settles table')
    {key : Key} {owner : Handle} (ho : table'.owner? key = some owner) : settles key = none := by
  cases h with
  | given key' implementation =>
    rw [owner?_put] at ho
    split at ho
    · cases ho
    · next hne => exact if_neg fun he => hne he.symm
  | emptied => cases ho
  | handed h => rfl

/-- What is looked up of a sound slot: its base, or the trampoline of its owner around the
base. -/
theorem Table.Sound.lookup_cases {table : Table σ} (hs : table.Sound) {key : Key}
    {implementation : Implementation σ} (hl : table.lookup key = .ok implementation) :
    ∃ base, table.base? key = some base ∧
      ((table.owner? key = none ∧ implementation = base) ∨
        ∃ owner, owner.key = key ∧ table.owner? key = some owner ∧
          implementation = .trampoline owner base) := by
  rw [lookup] at hl
  split at hl
  · next slot hf =>
    obtain rfl := Except.ok.inj hl
    refine ⟨slot.base, by rw [base?, hf]; rfl, ?_⟩
    have howner : table.owner? key = slot.owner? := by rw [owner?, hf]; rfl
    rw [howner]
    cases hs key slot hf with
    | free given => exact .inl ⟨rfl, rfl⟩
    | intercepted given owner forKey => exact .inr ⟨owner, forKey, rfl, rfl⟩
  · cases hl

/-- What is looked up where nobody owns the operation is its base. -/
theorem Table.Sound.lookup_of_unowned {table : Table σ} {key : Key}
    {base : Implementation σ} (hbase : table.base? key = some base)
    (ho : table.owner? key = none) : table.lookup key = .ok base := by
  obtain ⟨slot, hf, rfl⟩ := Option.map_eq_some_iff.mp hbase
  have hslot : slot.owner? = none := by simpa [owner?, hf] using ho
  rw [lookup, hf, Slot.eq_free_of_owner?_eq_none hslot]
  rfl

/-- **A system in which whatever can be found is captured**, with the history that led to it. -/
structure History.Captures (history : List (Deed σ)) (s : System σ) : Prop where
  /-- Nothing stands between owners and bases. -/
  sound : s.table.Sound
  /-- What calls run is captured. -/
  lookup : ∀ key implementation, s.table.lookup key = .ok implementation →
    implementation.Captured history
  /-- What somebody kept is captured. -/
  kept : ∀ implementation ∈ s.kept, implementation.Captured history

namespace History.Captures

variable {history : List (Deed σ)} {s : System σ}

theorem start (clock : Clock) (memory : σ) : Captures [] (System.start clock memory) where
  sound := Table.sound_empty
  lookup key implementation h := by cases h
  kept implementation h := absurd h List.not_mem_nil

/-- A number gives back something that is captured. -/
theorem keptImplementation (h : Captures history s) (number : KeptId) :
    (s.keptImplementation number).Captured history := by
  rcases s.keptImplementation_cases number with ⟨body, hbody⟩ | hmem
  · rw [hbody]
    trivial
  · exact h.kept _ hmem

/-- The base of an operation is captured. -/
theorem base (h : Captures history s) {key : Key} {base : Implementation σ}
    (hbase : s.table.base? key = some base) : base.Captured history := by
  obtain ⟨slot, hf, rfl⟩ := Option.map_eq_some_iff.mp hbase
  have hl : s.table.lookup key = .ok slot.implementation := by rw [Table.lookup, hf]
  obtain ⟨base, hbase', hcases⟩ := h.sound.lookup_cases hl
  have he : slot.base = base := Option.some.inj (hbase.symm.trans hbase')
  have hcaptured := h.lookup key _ hl
  rw [he]
  rcases hcases with ⟨-, himplementation⟩ | ⟨owner, -, -, himplementation⟩
  · rwa [himplementation] at hcaptured
  · rw [himplementation] at hcaptured
    exact hcaptured.2

/-- **Whatever is found for a call is captured.** -/
theorem finds {d : Deed σ} (h : Captures history d.before) {callee : Invocation}
    {implementation : Implementation σ} (hfinds : d.Finds callee implementation) :
    implementation.Captured history := by
  cases hfinds with
  | lookup hl => exact h.lookup _ _ hl
  | kept s number => exact h.keptImplementation number

/-- What an operation is given is captured. -/
theorem settled {d : Deed σ} (h : Captures history d.before) {key : Key}
    {implementation : Implementation σ}
    (hsettles : d.settles? key = some (some implementation)) :
    implementation.Captured history := by
  rcases Deed.settled_cases hsettles with ⟨body, rfl⟩ | ⟨-, number, rfl⟩
  · trivial
  · exact h.keptImplementation number

/-- The base of an operation after one more deed is captured: it was the base before, or it was
given to the operation. -/
theorem base_after {d : Deed σ} (h : Captures history d.before) {key : Key}
    {base : Implementation σ} (hbase : d.after.table.base? key = some base) :
    base.Captured history := by
  rw [d.change.base?_eq] at hbase
  cases hsettles : d.settles? key with
  | none =>
    rw [hsettles] at hbase
    exact h.base hbase
  | some settled =>
    rw [hsettles] at hbase
    have hsettled : settled = some base := hbase
    exact h.settled (hsettled ▸ hsettles)

/-- **Whoever owns an operation after one more deed** owned it before with the same trampoline,
or has taken it over with this deed. -/
theorem exists_installs {d : Deed σ} (h : Captures history d.before) {owner : Handle}
    {base : Implementation σ} (ho : d.after.table.owner? owner.key = some owner)
    (hbase : d.after.table.base? owner.key = some base)
    (hl : d.after.table.lookup owner.key = .ok (.trampoline owner base)) :
    ∃ installing ∈ history ++ [d], installing.Installs owner base := by
  -- the operation was not given anything, so its base is that from before
  rw [d.change.base?_eq, d.change.settles_eq_none ho] at hbase
  cases howned : d.before.table.owner? owner.key with
  | none => exact ⟨d, by simp, howned, Table.Sound.lookup_of_unowned hbase howned, hl⟩
  | some other =>
    obtain rfl := Deed.owner?_after h.sound howned ho
    obtain ⟨slot, hf, -⟩ := Option.bind_eq_some_iff.mp howned
    have hl' : d.before.table.lookup owner.key = .ok slot.implementation := by
      rw [Table.lookup, hf]
    obtain ⟨base', hbase', hcases⟩ := h.sound.lookup_cases hl'
    have he : base' = base := Option.some.inj (hbase'.symm.trans hbase)
    rcases hcases with ⟨hnone, -⟩ | ⟨other, -, ho', himplementation⟩
    · rw [hnone] at howned
      cases howned
    · have hsame : other = owner := Option.some.inj (ho'.symm.trans howned)
      have hbefore := h.lookup _ _ hl'
      rw [himplementation, he, hsame] at hbefore
      obtain ⟨⟨installing, hmem, hinstalls⟩, -⟩ := hbefore
      exact ⟨installing, List.mem_append_left _ hmem, hinstalls⟩

/-- **One more deed.** -/
theorem deed {d : Deed σ} (h : Captures history d.before) :
    Captures (history ++ [d]) d.after where
  sound := d.change.sound h.sound
  lookup key implementation hl := by
    have hsound := d.change.sound h.sound
    obtain ⟨base, hbase, hcases⟩ := hsound.lookup_cases hl
    have hcaptured := (h.base_after hbase).mono (List.subset_append_left history [d])
    rcases hcases with ⟨-, rfl⟩ | ⟨owner, rfl, ho, rfl⟩
    · exact hcaptured
    · exact ⟨h.exists_installs ho hbase hl, hcaptured⟩
  kept implementation hmem := by
    have hcaptured : implementation.Captured history := by
      rcases Deed.mem_kept_or_lookup hmem with hkept | ⟨key, hl⟩
      · exact h.kept implementation hkept
      · exact h.lookup key implementation hl
    exact hcaptured.mono (List.subset_append_left history [d])

/-- **Every moment of every course of events.** -/
theorem follow (clock : Clock) (memory : σ) (threads : List (Thread σ α)) (turns : List Nat) :
    let crew : Crew σ α := ⟨threads, .start clock memory⟩
    Captures (crew.history turns) (crew.follow turns).system :=
  Crew.start_induction Captures (fun _ _ h => h.deed) (start clock memory) threads turns

end History.Captures

end Interception
