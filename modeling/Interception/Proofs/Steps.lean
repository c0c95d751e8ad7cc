import Interception.Proofs.Sides

/-!
# Steps on one side

A `Step` is something that can be done with an operation or with an interceptor: define and exchange
it, set its hooks, let it take over an operation and give it back, call it. A step concerns one side
of a system if its operation, or that of its interceptor, is on the side, and if the bodies that
come with it keep to the side (`Step.KeepsTo`).

Such a step does the same in any two systems in which the side is the same, and spares everything
else (`Step.together`). There are three kinds of them.

| what changes | which steps | theorems |
|---|---|---|
| one slot | define, exchange, install, remove | `System.OnlySlot`, and a `_congr` lemma for each |
| one interceptor | hooks, flag, drop | `System.getElem?_adjustInterceptor` |
| nothing but memory and records | call | `alike_call` |
-/

namespace Interception

variable {σ : Type}

/-! ### Steps -/

/-- **Something that can be done with an operation or with an interceptor.** -/
inductive Step (σ : Type) where
  /-- Define an operation. -/
  | define (key : Key) (implementation : Implementation σ)
  /-- Exchange the implementation of an operation. -/
  | exchange (key : Key) (implementation : Implementation σ)
  /-- Set a hook of an interceptor. -/
  | setHook (handle : Handle) (slot : HookSlot) (body : slot.Input → Program σ)
  /-- Hand the records of an interceptor to a collector. -/
  | collect (handle : Handle) (collector : CollectorId)
  /-- Take a hook of an interceptor away. -/
  | clearHook (handle : Handle) (slot : HookSlot)
  /-- Say whether an interceptor acts on calls. -/
  | setEnabled (handle : Handle) (enabled : Bool)
  /-- Let an interceptor take over its operation. -/
  | install (handle : Handle)
  /-- Let an interceptor give its operation back. -/
  | remove (handle : Handle)
  /-- Give up an interceptor. -/
  | drop (handle : Handle)
  /-- Call an operation. -/
  | call (depth : Nat) (callee : Invocation)

/-- **What a step answers.** Whoever exchanges an implementation gets the old one. -/
inductive Reply (σ : Type) where
  /-- It was done, or refused. -/
  | settled (answer : Except CallError Unit)
  /-- It was done and this is the old implementation, or it was refused. -/
  | exchanged (answer : Except CallError (Implementation σ))
  /-- It was done. -/
  | done
  /-- Whether the interceptor owned its operation. -/
  | removed (owned : Bool)
  /-- How the call ended. -/
  | answered (answer : Except Fault (Except CallError Value))

namespace Step

/-- **Takes a step.** -/
def perform : Step σ → System σ → Reply σ × System σ
  | .define key implementation, s =>
    let (answer, s) := s.define key implementation
    (.settled answer, s)
  | .exchange key implementation, s =>
    let (answer, s) := s.exchange key implementation
    (.exchanged (answer.map s.keptImplementation), s)
  | .setHook handle slot body, s => (.done, s.setHook handle slot body)
  | .collect handle collector, s => (.done, s.collect handle collector)
  | .clearHook handle slot, s => (.done, s.clearHook handle slot)
  | .setEnabled handle enabled, s => (.done, s.setEnabled handle enabled)
  | .install handle, s =>
    let (answer, s) := s.install handle
    (.settled answer, s)
  | .remove handle, s =>
    let (owned, s) := s.remove handle
    (.removed owned, s)
  | .drop handle, s => (.done, s.drop handle)
  | .call depth callee, s =>
    let (answer, s) := s.invoke depth callee
    (.answered answer, s)

/-- **A step that concerns one side**, with bodies that keep to it. -/
def KeepsTo (own other : Side σ) (roster : List Key) : Step σ → Prop
  | .define key implementation | .exchange key implementation =>
    own.keys key ∧ implementation.KeepsTo own other roster
  | .setHook handle slot body => own.keys handle.key ∧ slot.KeepsTo own other body
  | .collect handle _ | .clearHook handle _ | .setEnabled handle _ | .install handle
  | .remove handle | .drop handle => own.keys handle.key
  | .call _ callee => own.keys callee.key

end Step

/-! ### What a step does to its side -/

/-- **What a step did on one side of two systems**: it was answered alike, the side is still the
same in both, nothing but the side has changed, and the first system is still ready. -/
structure Step.Together (own other : Side σ) (roster : List Key) (s : System σ)
    (did did' : Reply σ × System σ) : Prop where
  /-- The answers are the same. -/
  reply_eq : did'.1 = did.1
  /-- The side is still the same. -/
  same : own.Same did.2 did'.2
  /-- Nothing else has changed. -/
  spares : own.Spares other s did.2
  /-- Whatever runs for the side still keeps to it. -/
  ready : did.2.Ready own other roster

variable {own other : Side σ} {roster : List Key} {s s' : System σ}

/-! ### Steps that change one slot -/

/-- **Nothing but the slot of one operation has changed**; something may have been kept. -/
structure System.OnlySlot (key : Key) (s s' : System σ) : Prop where
  /-- Other operations have the slots that they had. -/
  slots : ∀ other, other ≠ key → s'.table.find? other = s.table.find? other
  /-- The interceptors are the same. -/
  interceptors_eq : s'.interceptors = s.interceptors
  /-- What was kept is kept. -/
  kept_prefix : s.kept <+: s'.kept
  /-- The memory is the same. -/
  memory_eq : s'.memory = s.memory

namespace System

theorem OnlySlot.refl (key : Key) (s : System σ) : s.OnlySlot key s :=
  ⟨fun _ _ => rfl, rfl, List.prefix_rfl, rfl⟩

/-- One slot is entered. -/
theorem OnlySlot.put (s : System σ) (key : Key) (slot : Slot σ) (event : Event) :
    s.OnlySlot key ({ s with table := s.table.put key slot }.note event) where
  slots other hne := by rw [table_note, Directory.find?_put, if_neg hne]
  interceptors_eq := rfl
  kept_prefix := List.prefix_rfl
  memory_eq := rfl

theorem onlySlot_define (s : System σ) (key : Key) (implementation : Implementation σ) :
    s.OnlySlot key (s.define key implementation).2 := by
  rw [define, Table.define]
  cases s.table.find? key with
  | none => exact .put s key _ _
  | some slot => exact .refl key s

theorem onlySlot_exchange (s : System σ) (key : Key) (implementation : Implementation σ) :
    s.OnlySlot key (s.exchange key implementation).2 := by
  rw [exchange, Table.exchange]
  rcases s.table.find? key with _ | ⟨old, _ | capture⟩
  · exact .refl key s
  · obtain ⟨hslots, hinterceptors, -, hmemory⟩ :=
      OnlySlot.put s key (.free implementation) (.exchanged key)
    exact ⟨hslots, hinterceptors, List.prefix_append _ _, hmemory⟩
  · exact .refl key s

theorem onlySlot_install (s : System σ) (handle : Handle) :
    s.OnlySlot handle.key (s.install handle).2 := by
  rw [install]
  split
  · split
    · next h =>
      obtain ⟨slot, -, -, rfl⟩ := Table.intercept_eq_ok_iff.mp h
      exact .put s handle.key _ _
    · exact .refl _ s
  · exact .refl _ s

theorem onlySlot_remove (s : System σ) (handle : Handle) :
    s.OnlySlot handle.key (s.remove handle).2 := by
  rw [remove]
  split
  · next h =>
    obtain ⟨-, rfl⟩ := Table.restore?_eq_some_iff.mp h
    refine ⟨fun other hne => ?_, rfl, List.prefix_rfl, rfl⟩
    rw [table_note, Directory.find?_adjust, if_neg hne]
  · exact .refl _ s

variable {key : Key} {s₁ s₁' : System σ}

theorem OnlySlot.spares (h : s.OnlySlot key s₁) (hkey : own.keys key) : own.Spares other s s₁ where
  slots k hk := h.slots k fun he => hk (he ▸ hkey)
  roster_eq := congrArg (List.map Interceptor.key) h.interceptors_eq
  interceptors number i hi _ := by rwa [h.interceptors_eq]
  kept_prefix := h.kept_prefix
  view_eq := by rw [h.memory_eq]

/-- **The same slot in two systems**: if it is the same afterwards, so is the side. -/
theorem OnlySlot.same (h : s.OnlySlot key s₁) (h' : s'.OnlySlot key s₁')
    (hready : s.Ready own other roster) (hsame : own.Same s s')
    (hslot : s₁'.table.find? key = s₁.table.find? key) : own.Same s₁ s₁' where
  slots k hk := by
    by_cases he : k = key
    · rw [he, hslot]
    · rw [h'.slots k he, h.slots k he, hsame.slots k hk]
  roster_eq := by
    rw [System.roster, System.roster, h'.interceptors_eq, h.interceptors_eq]
    exact hsame.roster_eq
  interceptors number i hi hk := by
    rw [h.interceptors_eq] at hi
    rw [h'.interceptors_eq]
    exact hsame.interceptors number i hi hk
  kept_eq number hnumber := by
    -- what was kept for the side was kept before
    obtain ⟨implementation, hkept, -⟩ := hready.keepsTo.kept number hnumber
    obtain ⟨hlt, -⟩ := List.getElem?_eq_some_iff.mp hkept
    obtain ⟨hlt', -⟩ := List.getElem?_eq_some_iff.mp ((hsame.kept_eq number hnumber).trans hkept)
    obtain ⟨more, hmore⟩ := h.kept_prefix
    obtain ⟨more', hmore'⟩ := h'.kept_prefix
    rw [← hmore, ← hmore', List.getElem?_append_left hlt, List.getElem?_append_left hlt',
      hsame.kept_eq number hnumber]
  view_eq := by rw [h'.memory_eq, h.memory_eq, hsame.view_eq]

/-- A system stays ready if the base of the operation keeps to the side. -/
theorem OnlySlot.ready (h : s.OnlySlot key s₁) (hready : s.Ready own other roster)
    (hinOrder : s₁.InOrder) (hbase : ∀ base, s₁.table.base? key = some base →
      base.KeepsTo own other roster) : s₁.Ready own other roster := by
  have hroster : s₁.roster = roster :=
    (congrArg (List.map Interceptor.key) h.interceptors_eq).trans hready.roster_eq
  refine ⟨hinOrder, ⟨?_, ?_, ?_⟩, hroster⟩
  · intro k base hk hb
    rw [hroster]
    by_cases he : k = key
    · exact hbase base (he ▸ hb)
    · rw [Table.base?, h.slots k he] at hb
      exact hready.roster_eq ▸ hready.keepsTo.bases k base hk hb
  · rw [h.interceptors_eq]
    exact hready.keepsTo.hooks
  · intro number hnumber
    obtain ⟨implementation, hkept, hkeeps⟩ := hready.keepsTo.kept number hnumber
    obtain ⟨hlt, -⟩ := List.getElem?_eq_some_iff.mp hkept
    obtain ⟨more, hmore⟩ := h.kept_prefix
    refine ⟨implementation, ?_, hroster ▸ hready.roster_eq ▸ hkeeps⟩
    rw [← hmore, List.getElem?_append_left hlt, hkept]

/-! ### Steps that change one slot, in two systems -/

/-- Defining an operation goes by its slot. -/
theorem define_congr (hslot : s'.table.find? key = s.table.find? key)
    (implementation : Implementation σ) :
    (s'.define key implementation).1 = (s.define key implementation).1 ∧
      (s'.define key implementation).2.table.find? key =
        (s.define key implementation).2.table.find? key := by
  rw [define, Table.define, hslot, define, Table.define]
  cases h : s.table.find? key with
  | none =>
    refine ⟨rfl, ?_⟩
    rw [table_note, table_note, Directory.find?_put, Directory.find?_put, if_pos rfl, if_pos rfl]
  | some slot => exact ⟨rfl, hslot⟩

/-- So does exchanging its implementation. -/
theorem exchange_congr (hslot : s'.table.find? key = s.table.find? key)
    (implementation : Implementation σ) :
    (s'.exchange key implementation).1.map (s'.exchange key implementation).2.keptImplementation =
        (s.exchange key implementation).1.map (s.exchange key implementation).2.keptImplementation ∧
      (s'.exchange key implementation).2.table.find? key =
        (s.exchange key implementation).2.table.find? key := by
  rw [exchange, Table.exchange, hslot, exchange, Table.exchange]
  rcases h : s.table.find? key with _ | ⟨old, _ | capture⟩
  · exact ⟨rfl, hslot⟩
  · -- the old implementation is the one that was kept last
    refine ⟨?_, ?_⟩
    · simp [Except.map, keep, keptImplementation, note]
    · simp [keep, note, Directory.find?_put]
  · exact ⟨rfl, hslot⟩

/-- Taking over an operation goes by its slot, and by whether the interceptor was given up. -/
theorem install_congr {handle : Handle}
    (hslot : s'.table.find? handle.key = s.table.find? handle.key)
    (hi : s'.interceptor? handle = s.interceptor? handle) :
    (s'.install handle).1 = (s.install handle).1 ∧
      (s'.install handle).2.table.find? handle.key =
        (s.install handle).2.table.find? handle.key := by
  rw [install, Table.intercept, hslot, hi, install, Table.intercept]
  split
  · cases s.table.find? handle.key with
    | none => exact ⟨rfl, hslot⟩
    | some slot =>
      dsimp only
      cases slot.owner? with
      | none =>
        refine ⟨rfl, ?_⟩
        simp [note, Directory.find?_put]
      | some owner =>
        dsimp only
        by_cases he : owner = handle
        · rw [if_pos he]
          exact ⟨rfl, hslot⟩
        · rw [if_neg he]
          exact ⟨rfl, hslot⟩
  · exact ⟨rfl, hslot⟩

/-- Giving an operation back goes by its slot. -/
theorem remove_congr {handle : Handle}
    (hslot : s'.table.find? handle.key = s.table.find? handle.key) :
    (s'.remove handle).1 = (s.remove handle).1 ∧
      (s'.remove handle).2.table.find? handle.key =
        (s.remove handle).2.table.find? handle.key := by
  have howner : s'.table.owner? handle.key = s.table.owner? handle.key := by
    rw [Table.owner?, hslot, Table.owner?]
  rw [remove, Table.restore?, howner, remove, Table.restore?]
  split_ifs
  · refine ⟨rfl, ?_⟩
    simp [note, Directory.find?_adjust, hslot]
  · exact ⟨rfl, hslot⟩

/-! ### Steps that change one interceptor -/

/-- The interceptors after one of them was changed. -/
theorem getElem?_adjustInterceptor (s : System σ) (handle : Handle)
    (f : Interceptor σ → Interceptor σ) (number : Nat) :
    (s.adjustInterceptor handle f).interceptors[number]? =
      if number = handle.number then
        ((s.interceptor? handle).map f).or s.interceptors[number]?
      else s.interceptors[number]? := by
  rw [adjustInterceptor]
  cases hi : s.interceptor? handle with
  | none => simp
  | some i =>
    obtain ⟨hget, -⟩ := Option.filter_eq_some_iff.mp hi
    obtain ⟨hlt, -⟩ := List.getElem?_eq_some_iff.mp hget
    dsimp only
    rw [List.getElem?_set]
    by_cases he : number = handle.number
    · simp [he, hlt]
    · simp [he, Ne.symm he]

theorem adjustInterceptor_fields (s : System σ) (handle : Handle)
    (f : Interceptor σ → Interceptor σ) :
    (s.adjustInterceptor handle f).kept = s.kept ∧
      (s.adjustInterceptor handle f).memory = s.memory := by
  rw [adjustInterceptor]
  split
  · exact ⟨rfl, rfl⟩
  · exact ⟨rfl, rfl⟩

/-- An interceptor that is changed stays with its operation. -/
theorem roster_adjustInterceptor (s : System σ) (handle : Handle)
    {f : Interceptor σ → Interceptor σ} (hf : ∀ i, (f i).key = i.key) :
    (s.adjustInterceptor handle f).roster = s.roster := by
  refine List.ext_getElem? fun number => ?_
  rw [getElem?_roster, getElem?_roster, getElem?_adjustInterceptor]
  split
  · next he =>
    cases hi : s.interceptor? handle with
    | none => rfl
    | some i =>
      obtain ⟨hget, -⟩ := Option.filter_eq_some_iff.mp hi
      rw [he, hget]
      exact congrArg some (hf i)
  · rfl

variable {handle : Handle} {f : Interceptor σ → Interceptor σ}

theorem spares_adjustInterceptor (hkey : own.keys handle.key) (hf : ∀ i, (f i).key = i.key) :
    own.Spares other s (s.adjustInterceptor handle f) := by
  obtain ⟨hkept, hmemory⟩ := s.adjustInterceptor_fields handle f
  refine ⟨fun _ _ => by rw [table_adjustInterceptor], s.roster_adjustInterceptor handle hf, ?_, ?_,
    by rw [hmemory]⟩
  · intro number i hi hnot
    rw [getElem?_adjustInterceptor]
    split
    · next he =>
      -- the handle stands for no interceptor, because the one there is not on the side
      have hnone : s.interceptor? handle = none := by
        rw [interceptor?, ← he, hi, Option.filter_some, if_neg]
        simp only [Bool.and_eq_true, decide_eq_true_eq, not_and]
        exact fun _ hk => hnot (hk ▸ hkey)
      rw [hnone]
      exact hi
    · exact hi
  · exact ⟨[], by rw [List.append_nil, hkept]⟩

theorem same_adjustInterceptor (hsame : own.Same s s') (hkey : own.keys handle.key)
    (hf : ∀ i, (f i).key = i.key) :
    own.Same (s.adjustInterceptor handle f) (s'.adjustInterceptor handle f) := by
  obtain ⟨hkept, hmemory⟩ := s.adjustInterceptor_fields handle f
  obtain ⟨hkept', hmemory'⟩ := s'.adjustInterceptor_fields handle f
  refine ⟨?_, ?_, ?_, ?_, ?_⟩
  · rw [table_adjustInterceptor, table_adjustInterceptor]
    exact hsame.slots
  · rw [roster_adjustInterceptor s' handle hf, roster_adjustInterceptor s handle hf]
    exact hsame.roster_eq
  · intro number i hi hk
    rw [getElem?_adjustInterceptor] at hi ⊢
    rw [hsame.interceptor?_eq hkey]
    split
    · next he =>
      rw [if_pos he] at hi
      cases hfound : s.interceptor? handle with
      | none =>
        rw [hfound] at hi
        exact hsame.interceptors number i hi hk
      | some j =>
        rw [hfound] at hi
        exact hi
    · next hne =>
      rw [if_neg hne] at hi
      exact hsame.interceptors number i hi hk
  · rw [hkept, hkept']
    exact hsame.kept_eq
  · rw [hmemory, hmemory']
    exact hsame.view_eq

theorem ready_adjustInterceptor (hready : s.Ready own other roster)
    (hinOrder : (s.adjustInterceptor handle f).InOrder) (hf : ∀ i, (f i).key = i.key)
    (hhooks : ∀ i : Interceptor σ, i.hooks.KeepsTo own other → (f i).hooks.KeepsTo own other) :
    (s.adjustInterceptor handle f).Ready own other roster := by
  obtain ⟨hkept, -⟩ := s.adjustInterceptor_fields handle f
  have hroster := s.roster_adjustInterceptor handle hf
  refine ⟨hinOrder, ⟨?_, ?_, ?_⟩, hroster.trans hready.roster_eq⟩
  · rw [table_adjustInterceptor, hroster]
    exact hready.keepsTo.bases
  · intro number i hi hk
    rw [getElem?_adjustInterceptor] at hi
    split at hi
    · next he =>
      cases hfound : s.interceptor? handle with
      | none =>
        rw [hfound] at hi
        exact hready.keepsTo.hooks number i hi hk
      | some j =>
        rw [hfound] at hi
        obtain rfl := Option.some.inj hi
        obtain ⟨hget, -⟩ := Option.filter_eq_some_iff.mp hfound
        exact hhooks j (hready.keepsTo.hooks _ j hget (hf j ▸ hk))
    · exact hready.keepsTo.hooks number i hi hk
  · rw [hkept, hroster]
    exact hready.keepsTo.kept

end System

namespace Hooks.KeepsTo

variable {hooks : Hooks σ}

/-- A hook that keeps to the side may be set. -/
theorem set (h : hooks.KeepsTo own other) {slot : HookSlot} {body : slot.Input → Program σ}
    (hbody : slot.KeepsTo own other body) : (hooks.set slot body).KeepsTo own other := by
  cases slot with
  | before =>
    refine ⟨fun b hb => ?_, h.replace, h.after⟩
    obtain rfl := Option.some.inj hb
    exact hbody
  | replace =>
    refine ⟨h.before, fun b hb => ?_, h.after⟩
    obtain rfl := Option.some.inj hb
    exact hbody
  | after =>
    refine ⟨h.before, h.replace, fun b hb => ?_⟩
    obtain rfl := AfterHook.run.inj (Option.some.inj hb)
    exact hbody

/-- Any hook may be taken away. -/
theorem clear (h : hooks.KeepsTo own other) (slot : HookSlot) :
    (hooks.clear slot).KeepsTo own other := by
  cases slot with
  | before =>
    refine ⟨?_, h.replace, h.after⟩
    intro b hb
    cases hb
  | replace =>
    refine ⟨h.before, ?_, h.after⟩
    intro b hb
    cases hb
  | after =>
    refine ⟨h.before, h.replace, ?_⟩
    intro b hb
    cases hb

/-- Any collector may get the records. -/
theorem collect (h : hooks.KeepsTo own other) (collector : CollectorId) :
    Hooks.KeepsTo own other { hooks with after := some (.collect collector) } :=
  ⟨h.before, h.replace, fun b hb => by cases hb⟩

end Hooks.KeepsTo

namespace Side.Spares

/-- Sparing everything but one side, twice. -/
theorem trans {s'' : System σ} (h : own.Spares other s s') (h' : own.Spares other s' s'') :
    own.Spares other s s'' where
  slots key hkey := (h'.slots key hkey).trans (h.slots key hkey)
  roster_eq := h'.roster_eq.trans h.roster_eq
  interceptors number i hi hkey := h'.interceptors number i (h.interceptors number i hi hkey) hkey
  kept_prefix := h.kept_prefix.trans h'.kept_prefix
  view_eq := h'.view_eq.trans h.view_eq

end Side.Spares

/-! ### One step in two systems -/

namespace Step

/-- A step that changes the slot of one operation of the side. -/
theorem together_of_onlySlot {key : Key} (hready : s.Ready own other roster)
    (hsame : own.Same s s') (hkey : own.keys key) {did did' : Reply σ × System σ}
    (h : s.OnlySlot key did.2) (h' : s'.OnlySlot key did'.2) (hreply : did'.1 = did.1)
    (hslot : did'.2.table.find? key = did.2.table.find? key) (hinOrder : did.2.InOrder)
    (hbase : ∀ base, did.2.table.base? key = some base → base.KeepsTo own other roster) :
    Together own other roster s did did' :=
  ⟨hreply, h.same h' hready hsame hslot, h.spares hkey, h.ready hready hinOrder hbase⟩

/-- A step that changes one interceptor of the side. -/
theorem together_of_adjust {handle : Handle} (f : Interceptor σ → Interceptor σ)
    (hready : s.Ready own other roster) (hsame : own.Same s s') (hkey : own.keys handle.key)
    (hf : ∀ i, (f i).live = i.live ∧ (f i).key = i.key)
    (hhooks : ∀ i : Interceptor σ, i.hooks.KeepsTo own other → (f i).hooks.KeepsTo own other) :
    Together own other roster s (.done, s.adjustInterceptor handle f)
      (.done, s'.adjustInterceptor handle f) := by
  have hkeys : ∀ i, (f i).key = i.key := fun i => (hf i).2
  exact ⟨rfl, System.same_adjustInterceptor hsame hkey hkeys,
    System.spares_adjustInterceptor hkey hkeys,
    System.ready_adjustInterceptor hready (hready.inOrder.adjustInterceptor handle hf) hkeys
      hhooks⟩

/-- The base of an operation keeps to the side when owners have changed. -/
theorem keepsTo_of_handovers (hready : s.Ready own other roster) {key : Key}
    (hkey : own.keys key) {table : Table σ} (h : Table.Handovers s.table table)
    (base : Implementation σ) (hbase : table.base? key = some base) :
    base.KeepsTo own other roster := by
  rw [h.base?_eq key] at hbase
  exact hready.roster_eq ▸ hready.keepsTo.bases key base hkey hbase

/-- So it does when it was given to the operation. -/
theorem keepsTo_of_put {key : Key} {implementation : Implementation σ}
    (himplementation : implementation.KeepsTo own other roster) (table : Table σ)
    (base : Implementation σ)
    (hbase : Table.base? (table.put key (.free implementation)) key = some base) :
    base.KeepsTo own other roster := by
  rw [Table.base?_put, if_pos rfl, Slot.base_free] at hbase
  exact Option.some.inj hbase ▸ himplementation

/-- **A step that concerns one side** does the same in every system in which the side is the same,
and spares everything else. -/
theorem together (step : Step σ) (hready : s.Ready own other roster) (hsame : own.Same s s')
    (hstep : step.KeepsTo own other roster) :
    Together own other roster s (step.perform s) (step.perform s') := by
  cases step with
  -- what gives an operation an implementation, or refuses to
  | define key implementation =>
    obtain ⟨hkey, himplementation⟩ := hstep
    obtain ⟨hanswer, hslot⟩ := System.define_congr (hsame.slots key hkey) implementation
    refine together_of_onlySlot hready hsame hkey (s.onlySlot_define key implementation)
      (s'.onlySlot_define key implementation) (congrArg Reply.settled hanswer) hslot
      (hready.inOrder.define key implementation) fun base hbase => ?_
    rcases s.define_cases key implementation with ⟨_, -, -, ht⟩ | ⟨error, he⟩
    · exact keepsTo_of_put himplementation s.table base (ht ▸ hbase)
    · rw [perform, he] at hbase
      exact keepsTo_of_handovers hready hkey .refl base hbase
  | exchange key implementation =>
    obtain ⟨hkey, himplementation⟩ := hstep
    obtain ⟨hanswer, hslot⟩ := System.exchange_congr (hsame.slots key hkey) implementation
    refine together_of_onlySlot hready hsame hkey (s.onlySlot_exchange key implementation)
      (s'.onlySlot_exchange key implementation) (congrArg Reply.exchanged hanswer) hslot
      (hready.inOrder.exchange key implementation) fun base hbase => ?_
    rcases s.exchange_cases key implementation with ⟨_, -, -, ht⟩ | ⟨error, he⟩
    · exact keepsTo_of_put himplementation s.table base (ht ▸ hbase)
    · rw [perform, he] at hbase
      exact keepsTo_of_handovers hready hkey .refl base hbase
  -- what changes an interceptor
  | setHook handle slot body =>
    obtain ⟨hkey, hbody⟩ := hstep
    exact together_of_adjust (fun i => { i with hooks := i.hooks.set slot body }) hready hsame hkey
      (fun _ => ⟨rfl, rfl⟩) fun _ h => h.set hbody
  | collect handle collector =>
    exact together_of_adjust
      (fun i => { i with hooks := { i.hooks with after := some (.collect collector) } })
      hready hsame hstep (fun _ => ⟨rfl, rfl⟩) fun _ h => h.collect collector
  | clearHook handle slot =>
    exact together_of_adjust (fun i => { i with hooks := i.hooks.clear slot }) hready hsame hstep
      (fun _ => ⟨rfl, rfl⟩) fun _ h => h.clear slot
  | setEnabled handle enabled =>
    exact together_of_adjust (fun i => { i with enabled }) hready hsame hstep
      (fun _ => ⟨rfl, rfl⟩) fun _ h => h
  -- what changes an owner
  | install handle =>
    obtain ⟨hanswer, hslot⟩ :=
      System.install_congr (hsame.slots handle.key hstep) (hsame.interceptor?_eq hstep)
    exact together_of_onlySlot hready hsame hstep (s.onlySlot_install handle)
      (s'.onlySlot_install handle) (congrArg Reply.settled hanswer) hslot
      (hready.inOrder.install handle)
      (keepsTo_of_handovers hready hstep (s.handover_install handle))
  | remove handle =>
    obtain ⟨hanswer, hslot⟩ := System.remove_congr (hsame.slots handle.key hstep)
    exact together_of_onlySlot hready hsame hstep (s.onlySlot_remove handle)
      (s'.onlySlot_remove handle) (congrArg Reply.removed hanswer) hslot
      (hready.inOrder.remove handle) (keepsTo_of_handovers hready hstep (s.handover_remove handle))
  | drop handle =>
    obtain ⟨-, hslot⟩ := System.remove_congr (hsame.slots handle.key hstep)
    have hremoved : Together own other roster s (.done, (s.remove handle).2)
        (.done, (s'.remove handle).2) :=
      together_of_onlySlot hready hsame hstep (s.onlySlot_remove handle)
        (s'.onlySlot_remove handle) rfl hslot (hready.inOrder.remove handle)
        (keepsTo_of_handovers hready hstep (s.handover_remove handle))
    -- the interceptor is given up once it owns nothing any more
    exact ⟨rfl, System.same_adjustInterceptor hremoved.same hstep fun _ => rfl,
      hremoved.spares.trans (System.spares_adjustInterceptor hstep fun _ => rfl),
      System.ready_adjustInterceptor hremoved.ready (hready.inOrder.drop handle) (fun _ => rfl)
        fun _ h => h⟩
  | call depth callee =>
    obtain ⟨hanswer, hsame', hstays⟩ :=
      alike_call (keepsTo_runNested depth) hstep s s' hready hsame
    exact ⟨congrArg Reply.answered hanswer, hsame', hstays.spares own, hready.stays hstays⟩

end Step

end Interception
