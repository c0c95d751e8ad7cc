import Interception.Proofs.Ownership

/-!
# Giving operations back

Operations are given back in four ways: an interceptor is removed, it is given up, several
interceptors are removed or given up one after the other, or every operation is given back at
once. What is left is the same table in each case, as long as the same interceptors are concerned:
the one in which their slots hold what they had left aside, and no other slot is touched
(`Table.without`). Nothing in this depends on the order.

| what happens | what is left |
|---|---|
| one interceptor is removed or given up | `System.table_remove`, `System.table_drop` |
| several are, one after the other | `System.table_removeEach`, `System.table_dropAll` |
| every operation is given back | `Table.restoreAll_eq_without` |
| owners change in any way | the operations are the same: `Table.Handovers.keys_eq` |

All four need sound slots: an interceptor gives back the operation that it was created for, and in
an unsound table it might own another one.
-/

namespace Interception

variable {σ : Type}

/-! ### Slots and tables without some owners -/

/-- **The slot without some interceptors**: if one of them owns the operation, it has given it
back. -/
def Slot.without (handles : List Handle) (slot : Slot σ) : Slot σ :=
  if ∃ owner ∈ handles, slot.owner? = some owner then slot.restored else slot

/-- **The table without some interceptors.** -/
def Table.without (table : Table σ) (handles : List Handle) : Table σ :=
  table.mapEntries fun _ slot => slot.without handles

namespace Slot

variable {slot : Slot σ} {handles : List Handle} {owner : Handle}

theorem without_of_mem (ho : slot.owner? = some owner) (hmem : owner ∈ handles) :
    slot.without handles = slot.restored :=
  if_pos ⟨owner, hmem, ho⟩

theorem without_of_forall_not_mem (h : ∀ owner, slot.owner? = some owner → owner ∉ handles) :
    slot.without handles = slot :=
  if_neg fun ⟨owner, hmem, ho⟩ => h owner ho hmem

/-- What some interceptors have given back, others cannot give back again. -/
theorem without_without (first rest : List Handle) (slot : Slot σ) :
    (slot.without first).without rest = slot.without (first ++ rest) := by
  by_cases hfirst : ∃ owner ∈ first, slot.owner? = some owner
  · obtain ⟨owner, hmem, ho⟩ := hfirst
    rw [without_of_mem ho hmem, without_of_mem ho (List.mem_append_left rest hmem)]
    exact without_of_forall_not_mem fun other h => by simp at h
  · have hkept : slot.without first = slot := if_neg hfirst
    have hiff : (∃ owner ∈ first ++ rest, slot.owner? = some owner) ↔
        ∃ owner ∈ rest, slot.owner? = some owner := by
      simp only [List.mem_append, or_and_right, exists_or, or_iff_right_iff_imp]
      exact fun h => absurd h hfirst
    rw [hkept, without, without]
    simp only [hiff]

end Slot

namespace Table

variable {table : Table σ} {handles : List Handle} {key : Key}

@[simp] theorem keys_without (table : Table σ) (handles : List Handle) :
    (table.without handles).keys = table.keys :=
  Directory.keys_mapEntries ..

theorem find?_without (table : Table σ) (handles : List Handle) (key : Key) :
    (table.without handles).find? key = (table.find? key).map (Slot.without handles) :=
  Directory.find?_mapEntries ..

/-- Only who gives operations back matters. -/
theorem without_congr {handles' : List Handle} (table : Table σ)
    (h : ∀ owner, owner ∈ handles' ↔ owner ∈ handles) :
    table.without handles' = table.without handles := by
  simp only [without, Slot.without, h]

theorem without_without (table : Table σ) (first rest : List Handle) :
    (table.without first).without rest = table.without (first ++ rest) := by
  refine Directory.ext_find? (by simp) fun key => ?_
  rw [find?_without, find?_without, find?_without, Option.map_map]
  exact congrArg (fun f => (table.find? key).map f) (funext (Slot.without_without first rest))

/-- What becomes of an operation is a matter of whether its owner is among them. -/
theorem find?_without_congr {handles' : List Handle}
    (h : ∀ owner, table.owner? key = some owner → (owner ∈ handles ↔ owner ∈ handles')) :
    (table.without handles).find? key = (table.without handles').find? key := by
  rw [find?_without, find?_without]
  cases hfind : table.find? key with
  | none => rfl
  | some slot =>
    have hslot : ∀ owner, slot.owner? = some owner → (owner ∈ handles ↔ owner ∈ handles') := by
      rwa [owner?, hfind, Option.bind_some] at h
    have hiff : (∃ owner ∈ handles, slot.owner? = some owner) ↔
        ∃ owner ∈ handles', slot.owner? = some owner :=
      exists_congr fun owner => and_congr_left fun ho => hslot owner ho
    simp only [Option.map_some, Slot.without, hiff]

/-- An operation that none of them owns is not touched. -/
theorem find?_without_of_forall_not_mem
    (h : ∀ owner, table.owner? key = some owner → owner ∉ handles) :
    (table.without handles).find? key = table.find? key := by
  rw [find?_without]
  cases hfind : table.find? key with
  | none => rfl
  | some slot =>
    rw [owner?, hfind] at h
    exact congrArg some (Slot.without_of_forall_not_mem h)

/-- An operation that one of them owns is given back. -/
theorem find?_without_of_mem {owner : Handle} (ho : table.owner? key = some owner)
    (hmem : owner ∈ handles) :
    (table.without handles).find? key = (table.find? key).map Slot.restored := by
  obtain ⟨slot, hfind, hslot⟩ := Option.bind_eq_some_iff.mp ho
  rw [find?_without, hfind, Option.map_some, Option.map_some, Slot.without_of_mem hslot hmem]

/-- Interceptors that own nothing give nothing back. -/
theorem without_of_forall_ne
    (h : ∀ key owner, table.owner? key = some owner → owner ∉ handles) :
    table.without handles = table :=
  Directory.ext_find? (keys_without ..) fun key => find?_without_of_forall_not_mem (h key)

/-- **Giving every operation back** is giving back those of all owners. -/
theorem restoreAll_eq_without
    (h : ∀ key owner, table.owner? key = some owner → owner ∈ handles) :
    table.restoreAll = table.without handles := by
  refine Directory.ext_find? ?_ fun key => ?_
  · rw [keys_without]
    exact Directory.keys_mapEntries ..
  · have hall : (restoreAll table).find? key = (table.find? key).map Slot.restored :=
      Directory.find?_mapEntries ..
    rw [hall]
    cases ho : table.owner? key with
    | some owner => rw [find?_without_of_mem ho (h key owner ho)]
    | none =>
      rw [find?_without_of_forall_not_mem fun owner howner => by rw [ho] at howner; cases howner]
      cases hfind : table.find? key with
      | none => rfl
      | some slot =>
        have hslot : slot.owner? = none := by simpa [owner?, hfind] using ho
        rw [Option.map_some, Slot.restored_eq_free, ← Slot.eq_free_of_owner?_eq_none hslot]

/-- **What an interceptor gives back**, if it owns its operation: nothing else was its own. -/
theorem Sound.restore?_eq (hs : table.Sound) (handle : Handle) :
    (table.restore? handle).getD table = table.without [handle] := by
  rw [restore?]
  split
  · next ho =>
    refine Directory.ext_find? ?_ fun key => ?_
    · rw [keys_without]
      exact Directory.keys_adjust ..
    rw [Option.getD_some, Directory.find?_adjust]
    split
    · next he => rw [find?_without_of_mem (he ▸ ho) List.mem_cons_self]
    · next hne =>
      refine (find?_without_of_forall_not_mem fun owner howner hmem => hne ?_).symm
      rw [← hs.key_eq howner, List.mem_singleton.mp hmem]
  · next hno =>
    refine (without_of_forall_ne fun key owner howner hmem => hno ?_).symm
    rw [← List.mem_singleton.mp hmem, hs.key_eq howner]
    exact howner

end Table

/-! ### The operations stay the same -/

namespace Table

/-- **Changing owners leaves the names of the operations as they are**, and in order. -/
theorem Handover.keys_eq {table table' : Table σ} (h : Handover table table') :
    table'.keys = table.keys := by
  cases h with
  | taken h =>
    obtain ⟨slot, hfind, -, rfl⟩ := intercept_eq_ok_iff.mp h
    refine Directory.keys_put_of_mem (Directory.isSome_find?_iff.mp ?_)
    rw [hfind]
    rfl
  | returned h =>
    obtain ⟨-, rfl⟩ := restore?_eq_some_iff.mp h
    exact Directory.keys_adjust ..
  | allReturned => exact Directory.keys_mapEntries ..

theorem Handovers.keys_eq {table table' : Table σ} (h : Handovers table table') :
    table'.keys = table.keys := by
  induction h with
  | refl => rfl
  | tail _ hstep ih => exact hstep.keys_eq.trans ih

end Table

/-! ### What interceptors give back -/

namespace System

variable {s : System σ}

/-- **Removing an interceptor.** -/
theorem table_remove (hs : s.table.Sound) (handle : Handle) :
    (s.remove handle).2.table = s.table.without [handle] := by
  rw [← hs.restore?_eq handle, remove]
  cases s.table.restore? handle with
  | none => rfl
  | some table => rfl

/-- **Giving an interceptor up** changes the table just as much. -/
theorem table_drop (hs : s.table.Sound) (handle : Handle) :
    (s.drop handle).table = s.table.without [handle] := by
  rw [drop, table_adjustInterceptor, table_remove hs]

/-- **Removing several interceptors**, one after the other. -/
theorem table_removeEach (hs : s.table.Sound) (handles : List Handle) :
    (removeEach handles s).2.table = s.table.without handles := by
  induction handles generalizing s with
  | nil => exact (Table.without_of_forall_ne fun _ _ _ => List.not_mem_nil).symm
  | cons handle rest ih =>
    have hrest := ih ((s.handover_remove handle).sound hs)
    rw [table_remove hs, Table.without_without] at hrest
    exact hrest

/-- **Giving several interceptors up.** -/
theorem table_dropAll (hs : s.table.Sound) (handles : List Handle) :
    (s.dropAll handles).table = s.table.without handles := by
  induction handles generalizing s with
  | nil => exact (Table.without_of_forall_ne fun _ _ _ => List.not_mem_nil).symm
  | cons handle rest ih =>
    have hrest := ih ((s.handover_drop handle).sound hs)
    rw [table_drop hs, Table.without_without] at hrest
    exact hrest

/-! ### What giving up leaves alone -/

theorem collectors_drop (s : System σ) (handle : Handle) :
    (s.drop handle).collectors = s.collectors := by
  have hadjust : ∀ s' : System σ, (s'.adjustInterceptor handle
      fun i => { i with live := false }).collectors = s'.collectors := by
    intro s'
    rw [adjustInterceptor]
    split
    · rfl
    · rfl
  rw [drop, hadjust, remove]
  split
  · rfl
  · rfl

theorem collectors_dropAll (s : System σ) (handles : List Handle) :
    (s.dropAll handles).collectors = s.collectors := by
  induction handles generalizing s with
  | nil => rfl
  | cons handle rest ih => exact (ih (s.drop handle)).trans (s.collectors_drop handle)

/-- Interceptors with lower numbers do not notice. -/
theorem interceptors_prefix_drop {before : List (Interceptor σ)} (h : before <+: s.interceptors)
    {handle : Handle} (hnumber : before.length ≤ handle.number) :
    before <+: (s.drop handle).interceptors := by
  rw [drop, adjustInterceptor]
  split
  · obtain ⟨more, hmore⟩ := h
    dsimp only
    rw [interceptors_remove, ← hmore, List.set_append_right _ _ hnumber]
    exact List.prefix_append _ _
  · rwa [interceptors_remove]

theorem interceptors_prefix_dropAll {before : List (Interceptor σ)} (h : before <+: s.interceptors)
    {handles : List Handle} (hnumber : ∀ handle ∈ handles, before.length ≤ handle.number) :
    before <+: (s.dropAll handles).interceptors := by
  induction handles generalizing s with
  | nil => exact h
  | cons handle rest ih =>
    obtain ⟨hhandle, hrest⟩ := List.forall_mem_cons.mp hnumber
    exact ih (interceptors_prefix_drop h hhandle) hrest

end System

end Interception
