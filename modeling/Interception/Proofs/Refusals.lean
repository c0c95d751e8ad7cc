import Interception.Proofs.Ownership
import Interception.Proofs.Steps

/-!
# Refusals

Four operations ask for one slot of the table: an operation is defined or exchanged, an interceptor
takes its operation over or gives it back. Each of them may be refused, and for exact reasons. A
refusal leaves everything as it was, down to the journal, so that whatever happens after it happens
as if nobody had asked. Otherwise just the one slot changes, and no interceptor does
(`Interception.refusal_of_history`).

| operation | when it is refused | what the slot becomes |
|---|---|---|
| define | `Table.DefineRefused` | the new implementation, owned by nobody |
| exchange | `Table.ExchangeRefused` | the same; the old one is kept |
| install | `Table.InstallRefused` | the trampoline of the interceptor around the base |
| remove | it does not own its operation | the base, owned by nobody |

The causes are those of the table (`Table.define_eq_error_iff` and the two lemmas after it). The
base is what was given last (`History.base?`): that is what the history adds.
-/

namespace Interception

variable {σ α β : Type}

/-! ### Attempts -/

namespace System

/-- **How an attempt to change the slot of an operation ends.** Either it is refused for one of
certain reasons, and everything is as before; or it is done, and nothing but the slot has
changed. -/
structure Attempted (s : System σ) (key : Key) (Refused : CallError → Prop)
    (Done : β → System σ → Prop) (did : Except CallError β × System σ) : Prop where
  /-- It is refused exactly for these reasons. -/
  refused_iff : ∀ error, did.1 = .error error ↔ Refused error
  /-- A refusal changes nothing at all. -/
  unchanged : ∀ error, did.1 = .error error → did.2 = s
  /-- What is done is done to the one slot. -/
  changed : ∀ answer, did.1 = .ok answer → s.OnlySlot key did.2 ∧ Done answer did.2

namespace Attempted

variable {γ : Type} {s s' : System σ} {key : Key} {Refused : CallError → Prop}
  {Done : β → System σ → Prop} {outcome : Except CallError γ}
  (hiff : ∀ error, outcome = .error error ↔ Refused error)

include hiff

/-- The table refuses. -/
theorem of_error {error : CallError} (h : outcome = .error error) :
    s.Attempted key Refused Done (.error error, s) where
  refused_iff error' := by
    rw [← hiff, h]
    simp
  unchanged _ _ := rfl
  changed _ hok := by cases hok

/-- The table has changed. -/
theorem of_ok {c : γ} (h : outcome = .ok c) {answer : β} (honly : s.OnlySlot key s')
    (hdone : Done answer s') : s.Attempted key Refused Done (.ok answer, s') where
  refused_iff error := by
    rw [← hiff, h]
    simp
  unchanged _ herror := by cases herror
  changed _ hok := by
    obtain rfl := Except.ok.inj hok
    exact ⟨honly, hdone⟩

end Attempted

/-- **Defining an operation.** -/
theorem attempted_define (s : System σ) (key : Key) (implementation : Implementation σ) :
    s.Attempted key (s.table.DefineRefused key)
      (fun _ s' => s'.table.find? key = some (.free implementation))
      (s.define key implementation) := by
  have honly := s.onlySlot_define key implementation
  rw [define] at honly ⊢
  cases h : s.table.define key implementation with
  | error error => exact .of_error (fun _ => Table.define_eq_error_iff) h
  | ok table =>
    rw [h] at honly
    refine .of_ok (fun _ => Table.define_eq_error_iff) h honly ?_
    obtain ⟨-, rfl⟩ := Table.define_eq_ok_iff.mp h
    rw [table_note, Directory.find?_put, if_pos rfl]

/-- **Exchanging the implementation of an operation**: what was there is kept. -/
theorem attempted_exchange (s : System σ) (key : Key) (implementation : Implementation σ) :
    s.Attempted key (s.table.ExchangeRefused key)
      (fun kept s' => s.table.find? key = some (.free (s'.keptImplementation kept)) ∧
        s'.table.find? key = some (.free implementation))
      (s.exchange key implementation) := by
  have honly := s.onlySlot_exchange key implementation
  rw [exchange] at honly ⊢
  cases h : s.table.exchange key implementation with
  | error error => exact .of_error (fun _ => Table.exchange_eq_error_iff) h
  | ok exchanged =>
    obtain ⟨old, table⟩ := exchanged
    rw [h] at honly
    refine .of_ok (fun _ => Table.exchange_eq_error_iff) h honly ?_
    obtain ⟨hfind, rfl⟩ := Table.exchange_eq_ok_iff.mp h
    refine ⟨?_, ?_⟩
    · rw [hfind]
      simp [keptImplementation, note]
    · simp [note, Directory.find?_put]

/-- **Installing an interceptor** that has not been given up. -/
theorem attempted_install {s : System σ} {handle : Handle} (hlive : s.IsLive handle) :
    s.Attempted handle.key (s.table.InstallRefused handle)
      (fun _ s' => ∃ given, s.table.find? handle.key = some (.free given) ∧
        s'.table.find? handle.key = some ((Slot.free given).interceptedBy handle))
      (s.install handle) := by
  have honly := s.onlySlot_install handle
  rw [install, if_pos (isSome_interceptor?_iff.mpr hlive)] at honly ⊢
  cases h : s.table.intercept handle with
  | error error => exact .of_error (fun _ => Table.intercept_eq_error_iff) h
  | ok table =>
    rw [h] at honly
    refine .of_ok (fun _ => Table.intercept_eq_error_iff) h honly ?_
    obtain ⟨slot, hfind, hslot, rfl⟩ := Table.intercept_eq_ok_iff.mp h
    rw [Slot.eq_free_of_owner?_eq_none hslot] at hfind
    refine ⟨slot.base, hfind, ?_⟩
    rw [table_note, Directory.find?_put, if_pos rfl, Slot.eq_free_of_owner?_eq_none hslot]
    rfl

/-- **Removing an interceptor** says whether it owned its operation. -/
theorem remove_eq_true_iff {s : System σ} {handle : Handle} :
    (s.remove handle).1 = true ↔ s.table.owner? handle.key = some handle := by
  rw [remove, Table.restore?]
  split_ifs with howner
  · exact iff_of_true rfl howner
  · exact iff_of_false (by simp) howner

/-- If it did not, nothing changes at all. -/
theorem remove_of_not_owner {s : System σ} {handle : Handle} (h : (s.remove handle).1 = false) :
    (s.remove handle).2 = s := by
  have hno : ¬s.table.owner? handle.key = some handle := fun howner => by
    rw [remove_eq_true_iff.mpr howner] at h
    cases h
  rw [remove, Table.restore?, if_neg hno]

/-- If it did, its operation has its base back. -/
theorem find?_remove_self {s : System σ} {handle : Handle} (h : (s.remove handle).1 = true) :
    ∃ given, s.table.base? handle.key = some given ∧
      (s.remove handle).2.table.find? handle.key = some (.free given) := by
  have howner := remove_eq_true_iff.mp h
  obtain ⟨slot, hfind, -⟩ := Option.bind_eq_some_iff.mp howner
  refine ⟨slot.base, by rw [Table.base?, hfind, Option.map_some], ?_⟩
  rw [remove, Table.restore?, if_pos howner]
  simp [note, Directory.find?_adjust, hfind, Slot.restored_eq_free]

end System

/-! ### At every moment -/

/-- **Refusals have exact causes and no effect.** At every moment of every course of events that
starts with nothing,

* an operation can be defined unless it is defined;
* its implementation can be exchanged unless it is not defined or somebody owns it, and what is
  kept is the implementation that was there, which is the one that was given last;
* an interceptor that has not been given up can take over its operation unless the operation is not
  defined, or the interceptor or another one owns it;
* an interceptor gives its operation back if it owns it.

Each refusal says which of the causes it has and leaves everything as it is. And whatever is not
refused changes the slot of its own operation and no other slot, and no interceptor. -/
theorem refusal_of_history (clock : Clock) (memory : σ) (threads : List (Thread σ α))
    (turns : List Nat) :
    let crew : Crew σ α := ⟨threads, .start clock memory⟩
    let s := (crew.follow turns).system
    let given? := History.base? (crew.history turns)
    (∀ key implementation,
      s.Attempted key (s.table.DefineRefused key)
        (fun _ s' => s'.table.find? key = some (.free implementation))
        (s.define key implementation)) ∧
      (∀ key implementation,
        s.Attempted key (s.table.ExchangeRefused key)
          (fun kept s' => s.table.lookup key = .ok (s'.keptImplementation kept) ∧
            given? key = some (s'.keptImplementation kept) ∧
              s'.table.find? key = some (.free implementation))
          (s.exchange key implementation)) ∧
      (∀ handle, s.IsLive handle →
        s.Attempted handle.key (s.table.InstallRefused handle)
          (fun _ s' => ∃ given, given? handle.key = some given ∧
            s'.table.find? handle.key = some ((Slot.free given).interceptedBy handle))
          (s.install handle)) ∧
      ∀ handle,
        ((s.remove handle).1 = true ↔ s.table.owner? handle.key = some handle) ∧
          ((s.remove handle).1 = false → (s.remove handle).2 = s) ∧
            ((s.remove handle).1 = true →
              s.OnlySlot handle.key (s.remove handle).2 ∧ ∃ given, given? handle.key = some given ∧
                (s.remove handle).2.table.find? handle.key = some (.free given)) := by
  intro crew s given?
  have haccounts : History.Accounts (crew.history turns) s := .follow clock memory threads turns
  have hbase : ∀ {key : Key} {given : Implementation σ},
      s.table.base? key = some given → given? key = some given := fun h =>
    (haccounts.base?_eq _).symm.trans h
  refine ⟨s.attempted_define, fun key implementation => ?_, fun handle hlive => ?_,
    fun handle => ⟨System.remove_eq_true_iff, System.remove_of_not_owner, fun hremoved => ?_⟩⟩
  · obtain ⟨hiff, hunchanged, hchanged⟩ := s.attempted_exchange key implementation
    refine ⟨hiff, hunchanged, fun kept hok => ?_⟩
    obtain ⟨honly, hfind, hnow⟩ := hchanged kept hok
    refine ⟨honly, ?_, hbase ?_, hnow⟩
    · rw [Table.lookup, hfind]
      rfl
    · rw [Table.base?, hfind, Option.map_some, Slot.base_free]
  · obtain ⟨hiff, hunchanged, hchanged⟩ := System.attempted_install hlive
    refine ⟨hiff, hunchanged, fun answer hok => ?_⟩
    obtain ⟨honly, given, hfind, hnow⟩ := hchanged answer hok
    refine ⟨honly, given, hbase ?_, hnow⟩
    rw [Table.base?, hfind, Option.map_some, Slot.base_free]
  · obtain ⟨given, hgiven, hnow⟩ := System.find?_remove_self hremoved
    exact ⟨s.onlySlot_remove handle, given, hbase hgiven, hnow⟩

end Interception
