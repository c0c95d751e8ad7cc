import Interception.System
import Mathlib.Logic.Relation

/-!
# What an operation is, whoever owns it

Behind whatever stands in a slot there is the implementation that somebody gave the
operation: its *base* (`Slot.base`). While no interceptor owns the operation, the
base is what stands in the slot; while one does, it is what the interceptor left
aside.

A slot is *sound* (`Slot.Sound`) when there is nothing between the owner and the
base: the slot of an unowned operation holds its base, and that of an owned one holds
the trampoline of its owner directly around its base.

Whether an operation on the table succeeds is read off one slot. `Table.define_eq_ok_iff` and the
lemmas after it say when it does and what becomes of the table, and `Table.define_eq_error_iff` and
the lemmas after that why it does not.

| change of the table | what becomes of the base | what becomes of soundness |
|---|---|---|
| an operation is defined or exchanged | it is the new implementation | `Table.sound_put_free` |
| owners change hands (`Table.Handover`) | `Table.Handover.base?_eq` | `Table.Handover.sound` |

Everything that an interceptor, or a group of them, asks of the table is a chain of
handovers: `System.handover_install` and the lemmas after it.
-/

namespace Interception

variable {σ : Type}

/-! ### Slots -/

namespace Slot

/-- **The base of a slot**: what its owner left aside, or else what stands in it. -/
def base (slot : Slot σ) : Implementation σ :=
  match slot.capture with
  | some capture => capture.covered
  | none => slot.implementation

/-- **A slot in which nothing stands between the owner and the base.** -/
inductive Sound (key : Key) : Slot σ → Prop
  /-- No interceptor owns the operation. -/
  | free (given : Implementation σ) : Sound key (.free given)
  /-- An interceptor that was created for the operation owns it. -/
  | intercepted (given : Implementation σ) (owner : Handle) (forKey : owner.key = key) :
      Sound key ((Slot.free given).interceptedBy owner)

@[simp] theorem base_free (given : Implementation σ) : (free given).base = given := rfl

@[simp] theorem base_interceptedBy (owner : Handle) (slot : Slot σ) :
    (slot.interceptedBy owner).base = slot.implementation := rfl

@[simp] theorem implementation_free (given : Implementation σ) :
    (free given).implementation = given := rfl

@[simp] theorem implementation_interceptedBy (owner : Handle) (slot : Slot σ) :
    (slot.interceptedBy owner).implementation = .trampoline owner slot.implementation := rfl

@[simp] theorem owner?_free (given : Implementation σ) : (free given).owner? = none := rfl

@[simp] theorem owner?_interceptedBy (owner : Handle) (slot : Slot σ) :
    (slot.interceptedBy owner).owner? = some owner := rfl

@[simp] theorem base_restored (slot : Slot σ) : slot.restored.base = slot.base := by
  obtain ⟨implementation, _ | capture⟩ := slot <;> rfl

/-- Where nobody owns an operation, its base stands in the slot. -/
theorem eq_free_of_owner?_eq_none {slot : Slot σ} (h : slot.owner? = none) :
    slot = free slot.base := by
  obtain ⟨implementation, _ | capture⟩ := slot
  · rfl
  · simp [owner?] at h

/-- The slot of an operation that is given back holds its base. -/
theorem restored_eq_free (slot : Slot σ) : slot.restored = free slot.base := by
  obtain ⟨implementation, _ | capture⟩ := slot <;> rfl

end Slot

/-! ### The table -/

namespace Table

/-- **The base of an operation**, if the operation is defined. -/
def base? (table : Table σ) (key : Key) : Option (Implementation σ) :=
  (table.find? key).map Slot.base

/-- A table whose slots are sound. -/
def Sound (table : Table σ) : Prop :=
  ∀ key slot, table.find? key = some slot → slot.Sound key

@[simp] theorem base?_empty (key : Key) : base? (.empty : Table σ) key = none := rfl

theorem sound_empty : Sound (.empty : Table σ) := by
  intro key slot h
  simp at h

theorem base?_put (key other : Key) (slot : Slot σ) (table : Table σ) :
    base? (table.put key slot) other =
      if other = key then some slot.base else table.base? other := by
  rw [base?, Directory.find?_put]
  split
  · rfl
  · rfl

theorem owner?_put (key other : Key) (slot : Slot σ) (table : Table σ) :
    owner? (table.put key slot) other =
      if other = key then slot.owner? else table.owner? other := by
  rw [owner?, Directory.find?_put]
  split
  · rfl
  · rfl

/-- Entering a sound slot keeps a table sound. -/
theorem Sound.put {table : Table σ} (ht : table.Sound) {key : Key} {slot : Slot σ}
    (hs : slot.Sound key) : Sound (table.put key slot) := by
  intro other slot' h
  rw [Directory.find?_put] at h
  split at h
  · next he =>
    obtain rfl := Option.some.inj h
    exact he ▸ hs
  · exact ht other slot' h

/-- Giving an operation an implementation keeps a table sound. -/
theorem sound_put_free {table : Table σ} (ht : table.Sound) (key : Key)
    (given : Implementation σ) : Sound (table.put key (.free given)) :=
  ht.put (.free given)

/-! ### What a successful operation did -/

theorem define_eq_ok_iff {table table' : Table σ} {key : Key} {given : Implementation σ} :
    table.define key given = .ok table' ↔
      table.find? key = none ∧ table' = table.put key (.free given) := by
  rw [define]
  cases h : table.find? key with
  | none => simp [eq_comm]
  | some slot => simp

theorem exchange_eq_ok_iff {table table' : Table σ} {key : Key} {given old : Implementation σ} :
    table.exchange key given = .ok (old, table') ↔
      table.find? key = some (.free old) ∧ table' = table.put key (.free given) := by
  rw [exchange]
  rcases h : table.find? key with _ | ⟨implementation, _ | capture⟩
  · simp
  · simp [Slot.free, eq_comm]
  · simp [Slot.free]

theorem intercept_eq_ok_iff {table table' : Table σ} {owner : Handle} :
    table.intercept owner = .ok table' ↔
      ∃ slot, table.find? owner.key = some slot ∧ slot.owner? = none ∧
        table' = table.put owner.key (slot.interceptedBy owner) := by
  rw [intercept]
  rcases h : table.find? owner.key with _ | slot
  · simp
  · rcases ho : slot.owner? with _ | other
    · simp [ho, eq_comm]
    · by_cases he : other = owner
      · simp [ho, he]
      · simp [ho, he]

/-- Whoever owns an operation after an interceptor has taken over its own is that
interceptor or owned it before. -/
theorem owner?_of_intercept {table table' : Table σ} {handle owner : Handle} {key : Key}
    (h : table.intercept handle = .ok table')
    (ho : table'.owner? key = some owner) : owner = handle ∨ table.owner? key = some owner := by
  obtain ⟨slot, -, -, rfl⟩ := intercept_eq_ok_iff.mp h
  rw [owner?_put] at ho
  split at ho
  · exact .inl (Option.some.inj ho).symm
  · exact .inr ho

theorem restore?_eq_some_iff {table table' : Table σ} {owner : Handle} :
    table.restore? owner = some table' ↔
      table.owner? owner.key = some owner ∧
        table' = table.adjust owner.key Slot.restored := by
  rw [restore?]
  by_cases h : table.owner? owner.key = some owner
  · simp [h, eq_comm]
  · simp [h]

/-! ### Why an operation is refused -/

/-- **Why an operation cannot be defined.** -/
inductive DefineRefused (table : Table σ) (key : Key) : CallError → Prop
  /-- It is defined. -/
  | defined (h : table.contains key = true) : DefineRefused table key (.duplicateOperation key)

/-- **Why the implementation of an operation cannot be exchanged.** -/
inductive ExchangeRefused (table : Table σ) (key : Key) : CallError → Prop
  /-- The operation is not defined. -/
  | undefined (h : table.contains key = false) : ExchangeRefused table key (.targetNotFound key)
  /-- Somebody owns it. -/
  | owned {owner : Handle} (h : table.owner? key = some owner) :
      ExchangeRefused table key (.targetAlreadyIntercepted key)

/-- **Why an interceptor cannot take over its operation.** -/
inductive InstallRefused (table : Table σ) (handle : Handle) : CallError → Prop
  /-- The operation is not defined. -/
  | undefined (h : table.contains handle.key = false) :
      InstallRefused table handle (.targetNotFound handle.key)
  /-- The interceptor owns it. -/
  | own (h : table.owner? handle.key = some handle) :
      InstallRefused table handle (.alreadyInstalled handle.key)
  /-- Another one owns it. -/
  | foreign {other : Handle} (h : table.owner? handle.key = some other) (hne : other ≠ handle) :
      InstallRefused table handle (.targetAlreadyIntercepted handle.key)

section Causes

variable {β : Type} {Refused : CallError → Prop} {error : CallError}

/-- What is refused for a cause is refused for this one, if there is no other. -/
theorem error_eq_error_iff {cause : CallError} (h : Refused cause)
    (hunique : ∀ other, Refused other → other = cause) :
    (.error cause : Except CallError β) = .error error ↔ Refused error := by
  constructor
  · intro he
    obtain rfl := Except.error.inj he
    exact h
  · intro hother
    rw [hunique error hother]

/-- What is done is not refused, if there is no cause. -/
theorem ok_eq_error_iff {done : β} (hnone : ∀ other, ¬Refused other) :
    (.ok done : Except CallError β) = .error error ↔ Refused error :=
  iff_of_false (fun he => by cases he) (hnone error)

end Causes

section Refused

variable {table : Table σ} {key : Key} {handle : Handle} {given : Implementation σ}
  {error : CallError}

theorem define_eq_error_iff :
    table.define key given = .error error ↔ table.DefineRefused key error := by
  rw [define]
  cases hfind : table.find? key with
  | none =>
    refine ok_eq_error_iff fun other hother => ?_
    cases hother with
    | defined hdefined => simp [Directory.contains, hfind] at hdefined
  | some slot =>
    have hdefined : table.contains key = true := by simp [Directory.contains, hfind]
    refine error_eq_error_iff (.defined hdefined) fun other hother => ?_
    cases hother with
    | defined _ => rfl

theorem exchange_eq_error_iff :
    table.exchange key given = .error error ↔ table.ExchangeRefused key error := by
  rw [exchange]
  rcases hfind : table.find? key with _ | ⟨old, _ | capture⟩
  · have hundefined : table.contains key = false := by simp [Directory.contains, hfind]
    refine error_eq_error_iff (.undefined hundefined) fun other hother => ?_
    cases hother with
    | undefined _ => rfl
    | owned howner => simp [owner?, hfind] at howner
  · refine ok_eq_error_iff fun other hother => ?_
    cases hother with
    | undefined hundefined => simp [Directory.contains, hfind] at hundefined
    | owned howner => simp [owner?, hfind, Slot.owner?] at howner
  · have howner : table.owner? key = some capture.owner := by simp [owner?, hfind, Slot.owner?]
    refine error_eq_error_iff (.owned howner) fun other hother => ?_
    cases hother with
    | undefined hundefined => simp [Directory.contains, hfind] at hundefined
    | owned howner' => rfl

theorem intercept_eq_error_iff :
    table.intercept handle = .error error ↔ table.InstallRefused handle error := by
  rw [intercept]
  rcases hfind : table.find? handle.key with _ | slot
  · have hundefined : table.contains handle.key = false := by simp [Directory.contains, hfind]
    refine error_eq_error_iff (.undefined hundefined) fun other hother => ?_
    cases hother with
    | undefined _ => rfl
    | own howner | foreign howner hne => simp [owner?, hfind] at howner
  · have hdefined : table.contains handle.key = true := by simp [Directory.contains, hfind]
    have howner : table.owner? handle.key = slot.owner? := by rw [owner?, hfind, Option.bind_some]
    dsimp only
    cases hslot : slot.owner? with
    | none =>
      rw [hslot] at howner
      refine ok_eq_error_iff fun other hother => ?_
      cases hother with
      | undefined hundefined => simp [hdefined] at hundefined
      | own h | foreign h hne => simp [howner] at h
    | some owner =>
      rw [hslot] at howner
      dsimp only
      by_cases he : owner = handle
      · subst he
        rw [if_pos rfl]
        refine error_eq_error_iff (.own howner) fun other hother => ?_
        cases hother with
        | undefined hundefined => simp [hdefined] at hundefined
        | own h => rfl
        | foreign h hne => exact absurd (Option.some.inj (h.symm.trans howner)) hne
      · rw [if_neg he]
        refine error_eq_error_iff (.foreign howner he) fun other hother => ?_
        cases hother with
        | undefined hundefined => simp [hdefined] at hundefined
        | own h => exact absurd (Option.some.inj (howner.symm.trans h)) he
        | foreign h hne => rfl

end Refused

/-! ### Handovers -/

/-- **One change of owners**: an interceptor takes over its operation or gives it back,
or every operation is given back. -/
inductive Handover : Table σ → Table σ → Prop
  /-- An interceptor takes over its operation. -/
  | taken {table table' : Table σ} {owner : Handle} (h : table.intercept owner = .ok table') :
      Handover table table'
  /-- An interceptor gives its operation back. -/
  | returned {table table' : Table σ} {owner : Handle} (h : table.restore? owner = some table') :
      Handover table table'
  /-- Every operation is given back. -/
  | allReturned (table : Table σ) : Handover table table.restoreAll

/-- Several changes of owners, one after the other. -/
abbrev Handovers : Table σ → Table σ → Prop :=
  Relation.ReflTransGen Handover

/-- **Changing owners leaves every operation what it is.** -/
theorem Handover.base?_eq {table table' : Table σ} (h : Handover table table') (key : Key) :
    table'.base? key = table.base? key := by
  cases h with
  | taken h =>
    obtain ⟨slot, hf, ho, rfl⟩ := intercept_eq_ok_iff.mp h
    rw [base?_put, Slot.base_interceptedBy]
    split
    · next he =>
      -- nobody owned the operation, so what the interceptor covers is its base
      subst he
      rw [Slot.eq_free_of_owner?_eq_none ho] at hf ⊢
      simp [base?, hf]
    · rfl
  | returned h =>
    obtain ⟨-, rfl⟩ := restore?_eq_some_iff.mp h
    rw [base?, Directory.find?_adjust]
    split
    · rw [Option.map_map]
      exact congrArg (fun f => (table.find? key).map f) (funext Slot.base_restored)
    · rfl
  | allReturned =>
    rw [base?, restoreAll, Directory.find?_mapEntries, Option.map_map]
    exact congrArg (fun f => (table.find? key).map f) (funext Slot.base_restored)

/-- **Changing owners keeps a table sound**: whoever takes over an operation finds its
base in the slot, and whoever gives it back puts the base there. -/
theorem Handover.sound {table table' : Table σ} (h : Handover table table') (ht : table.Sound) :
    table'.Sound := by
  cases h with
  | taken h =>
    obtain ⟨slot, -, ho, rfl⟩ := intercept_eq_ok_iff.mp h
    rw [Slot.eq_free_of_owner?_eq_none ho]
    exact ht.put (.intercepted _ _ rfl)
  | returned h =>
    obtain ⟨-, rfl⟩ := restore?_eq_some_iff.mp h
    intro key slot hf
    rw [Directory.find?_adjust] at hf
    split at hf
    · obtain ⟨old, -, rfl⟩ := Option.map_eq_some_iff.mp hf
      rw [Slot.restored_eq_free]
      exact .free _
    · exact ht key slot hf
  | allReturned =>
    intro key slot hf
    rw [restoreAll] at hf
    rw [Directory.find?_mapEntries] at hf
    obtain ⟨old, -, rfl⟩ := Option.map_eq_some_iff.mp hf
    rw [Slot.restored_eq_free]
    exact .free _

theorem Handovers.base?_eq {table table' : Table σ} (h : Handovers table table') (key : Key) :
    table'.base? key = table.base? key := by
  induction h with
  | refl => rfl
  | tail _ hstep ih => exact (hstep.base?_eq key).trans ih

theorem Handovers.sound {table table' : Table σ} (h : Handovers table table')
    (ht : table.Sound) : table'.Sound := by
  induction h with
  | refl => exact ht
  | tail _ hstep ih => exact hstep.sound ih

end Table

/-! ### What interceptors ask of the table -/

namespace System

open Relation

@[simp] theorem table_note (s : System σ) (event : Event) : (s.note event).table = s.table := rfl

@[simp] theorem table_noteAll (s : System σ) (events : List Event) :
    (s.noteAll events).table = s.table := rfl

@[simp] theorem table_adjustInterceptor (s : System σ) (handle : Handle)
    (f : Interceptor σ → Interceptor σ) : (s.adjustInterceptor handle f).table = s.table := by
  rw [adjustInterceptor]
  split
  · rfl
  · rfl

@[simp] theorem table_create (s : System σ) (key : Key) : (s.create key).2.table = s.table := rfl

@[simp] theorem table_setEnabled (s : System σ) (handle : Handle) (enabled : Bool) :
    (s.setEnabled handle enabled).table = s.table :=
  table_adjustInterceptor ..

@[simp] theorem table_setHook (s : System σ) (handle : Handle) (slot : HookSlot)
    (body : slot.Input → Program σ) : (s.setHook handle slot body).table = s.table :=
  table_adjustInterceptor ..

@[simp] theorem table_clearHook (s : System σ) (handle : Handle) (slot : HookSlot) :
    (s.clearHook handle slot).table = s.table :=
  table_adjustInterceptor ..

@[simp] theorem table_collect (s : System σ) (handle : Handle) (collector : CollectorId) :
    (s.collect handle collector).table = s.table :=
  table_adjustInterceptor ..

@[simp] theorem table_setAllEnabled (s : System σ) (group : Instrumentation) (enabled : Bool) :
    (s.setAllEnabled group enabled).table = s.table := by
  rw [setAllEnabled]
  induction group.handles generalizing s with
  | nil => rfl
  | cons handle rest ih =>
    rw [List.foldl_cons, ih]
    exact table_setEnabled ..

@[simp] theorem table_drain (s : System σ) (collector : CollectorId) (max : Nat) :
    (s.drain collector max).2.table = s.table := by
  rw [drain]
  split
  · rfl
  · rfl

@[simp] theorem table_deliver (s : System σ) (collector : CollectorId) (record : Record)
    (arguments : List Value) : (s.deliver collector record arguments).table = s.table := by
  rw [deliver]
  split
  · rfl
  · rfl

@[simp] theorem table_createCollector (s : System σ) (capacity : Nat) (threshold : Option Nat)
    (captures : Bool) : (s.createCollector capacity threshold captures).2.table = s.table := by
  rw [createCollector]
  split
  · rfl
  · rfl

@[simp] theorem table_keepCurrent (s : System σ) (key : Key) :
    (s.keepCurrent key).2.table = s.table := by
  rw [keepCurrent]
  split
  · rfl
  · rfl

theorem interceptors_install (s : System σ) (handle : Handle) :
    (s.install handle).2.interceptors = s.interceptors := by
  rw [install]
  split
  · split
    · rfl
    · rfl
  · rfl

/-- Installing an interceptor changes owners at most. -/
theorem handover_install (s : System σ) (handle : Handle) :
    Table.Handovers s.table (s.install handle).2.table := by
  rw [install]
  split
  · split
    · next h => exact .single (.taken h)
    · exact .refl
  · exact .refl

/-- Whoever owns an operation after an interceptor was installed is that interceptor or
owned it before. -/
theorem owner?_install (s : System σ) (handle : Handle) {key : Key} {owner : Handle}
    (h : (s.install handle).2.table.owner? key = some owner) :
    owner = handle ∨ s.table.owner? key = some owner := by
  rw [install] at h
  split at h
  · split at h
    · next hintercept => exact Table.owner?_of_intercept hintercept h
    · exact .inr h
  · exact .inr h

/-- Removing an interceptor changes owners at most. -/
theorem handover_remove (s : System σ) (handle : Handle) :
    Table.Handovers s.table (s.remove handle).2.table := by
  rw [remove]
  split
  · next h => exact .single (.returned h)
  · exact .refl

/-- Giving up an interceptor changes owners at most. -/
theorem handover_drop (s : System σ) (handle : Handle) :
    Table.Handovers s.table (s.drop handle).table := by
  rw [drop, table_adjustInterceptor]
  exact s.handover_remove handle

theorem handover_dropAll (s : System σ) (handles : List Handle) :
    Table.Handovers s.table (s.dropAll handles).table := by
  rw [dropAll]
  induction handles generalizing s with
  | nil => exact .refl
  | cons handle rest ih => exact (s.handover_drop handle).trans (ih (s.drop handle))

theorem handover_removeAll (s : System σ) :
    Table.Handovers s.table (s.removeAll).2.table :=
  .single (.allReturned s.table)

theorem handover_timeEach (config : Config) (collector : CollectorId) (targets : List Key)
    (installed : List Handle) (s : System σ) :
    Table.Handovers s.table (timeEach config collector targets installed s).2.table := by
  induction targets generalizing installed s with
  | nil => exact .refl
  | cons target rest ih =>
    rw [timeEach]
    have hinstall := handover_install
      ((((s.create target).2.setEnabled (s.create target).1 config.enabledByDefault).collect
        (s.create target).1 collector)) (s.create target).1
    simp only [table_collect, table_setEnabled, table_create] at hinstall
    dsimp only
    split
    · next h =>
      rw [h] at hinstall
      exact hinstall.trans (ih _ _)
    · next h =>
      rw [h] at hinstall
      exact (hinstall.trans (handover_drop ..)).trans (handover_dropAll ..)

theorem handover_attach (s : System σ) (group : Instrumentation) (operation : String)
    (level : Level) (slot : HookSlot) (body : slot.Input → Program σ) :
    Table.Handovers s.table (s.attach group operation level slot body).2.table := by
  rw [attach]
  have hinstall := handover_install
    ((s.create (group.key operation level)).2.setHook
      (s.create (group.key operation level)).1 slot body) (s.create (group.key operation level)).1
  simp only [table_setHook, table_create] at hinstall
  dsimp only
  split
  · next h =>
    rw [h] at hinstall
    exact hinstall
  · next h =>
    rw [h] at hinstall
    exact hinstall.trans (handover_drop ..)

theorem handover_removeEach (handles : List Handle) (s : System σ) :
    Table.Handovers s.table (removeEach handles s).2.table := by
  induction handles generalizing s with
  | nil => exact .refl
  | cons handle rest ih => exact (s.handover_remove handle).trans (ih (s.remove handle).2)

theorem handover_removeInstrumentation (s : System σ) (group : Instrumentation) :
    Table.Handovers s.table (s.removeInstrumentation group).2.table :=
  (handover_removeEach group.handles s).trans (handover_dropAll ..)

end System

end Interception
