import Interception.Proofs.GivingBack
import Interception.Proofs.Transparency

/-!
# Giving everything back at once

To give every operation back at once is the same as to remove the installed interceptors one after
the other, in whatever order, or to give them up (`Interception.removeAll_of_history`). The two go
about it in different ways: one goes through the slots and asks for no owner, the other goes
through the owners, each of which looks up its slot. What they leave is compared as the table
without the installed interceptors (`Table.without`).

The interceptors do not notice: they keep their flags and hooks, and each of them finds its
operation as it found it when it was installed. So installing some of them again puts back just the
slots that they had (`System.installAll_without`), and installing all of them puts back the table.
-/

namespace Interception

variable {σ α : Type}

/-! ### Where nobody owns anything -/

namespace Table

variable {table : Table σ} (h : ∀ key, table.owner? key = none)

include h

theorem intercepted_eq_nil : table.intercepted = [] := by
  refine List.eq_nil_iff_forall_not_mem.mpr fun key hkey => ?_
  obtain ⟨owner, ho⟩ := mem_intercepted_iff.mp hkey
  rw [h] at ho
  cases ho

theorem restoreAll_of_unowned : table.restoreAll = table := by
  have hnone : table.restoreAll = table.without [] := restoreAll_eq_without fun key owner ho => by
    rw [h] at ho
    cases ho
  rw [hnone, without_of_forall_ne fun _ _ _ => List.not_mem_nil]

end Table

namespace System

variable {s : System σ}

/-- **Where nobody owns anything, nothing is given back**: neither at once, … -/
theorem removeAll_of_unowned (h : ∀ key, s.table.owner? key = none) : s.removeAll = (0, s) := by
  rw [removeAll, Table.intercepted_eq_nil h, Table.restoreAll_of_unowned h]
  simp [noteAll, Event.removedTogether]

/-- … nor by any interceptor. -/
theorem remove_of_unowned (h : ∀ key, s.table.owner? key = none) (handle : Handle) :
    s.remove handle = (false, s) := by
  have hno : ¬s.table.owner? handle.key = some handle := by simp [h]
  rw [remove, Table.restore?, if_neg hno]

/-- **An operation that is not defined can be defined**, and is then looked up as it was given. -/
theorem lookup_define_of_find?_eq_none {key : Key} (h : s.table.find? key = none)
    (implementation : Implementation σ) :
    (s.define key implementation).2.table.lookup key = .ok implementation := by
  rw [define, Table.define_eq_ok_iff.mpr ⟨h, rfl⟩]
  simp [Table.lookup, table_note, Directory.find?_put, Slot.free]

/-! ### One after the other -/

/-- **Each of several installed interceptors gives something back** when they are removed one
after the other: removing one of them leaves the others installed. -/
theorem removeEach_of_owned {handles : List Handle} (hnodup : handles.Nodup)
    (howned : ∀ handle ∈ handles, s.table.owner? handle.key = some handle) :
    (removeEach handles s).1 = handles.length := by
  induction handles generalizing s with
  | nil => rfl
  | cons handle rest ih =>
    obtain ⟨hnew, hrest⟩ := List.nodup_cons.mp hnodup
    obtain ⟨hhandle, hothers⟩ := List.forall_mem_cons.mp howned
    have hremoved : (s.remove handle).1 = true := by
      rw [remove, Table.restore?, if_pos hhandle]
    have hcount : (removeEach rest (s.remove handle).2).1 = rest.length := by
      refine ih hrest fun other hother => ?_
      have hne : other ≠ handle := fun he => hnew (he ▸ hother)
      have ho := hothers other hother
      rw [Table.owner?, find?_remove hne ho]
      exact ho
    rw [removeEach]
    simp [hremoved, hcount]

/-! ### Once more -/

theorem interceptors_installAll (s : System σ) (handles : List Handle) :
    (s.installAll handles).interceptors = s.interceptors := by
  induction handles generalizing s with
  | nil => rfl
  | cons handle rest ih => exact (ih (s.install handle).2).trans (s.interceptors_install handle)

section Again

variable {table : Table σ} (ht : table.Sound) {left : List Handle}

include ht

/-- **An interceptor that was installed can be installed again**, and finds what it found before:
its slot is once more what it was. -/
theorem install_without {handle : Handle} (hs : s.table = table.without left)
    (hleft : handle ∈ left) (howned : table.owner? handle.key = some handle)
    (hlive : s.IsLive handle) :
    (s.install handle).1 = .ok () ∧
      (s.install handle).2.table = table.without (left.filter fun other => other ≠ handle) := by
  obtain ⟨slot, hfind, hslot⟩ := Option.bind_eq_some_iff.mp howned
  have hfound : s.table.find? handle.key = some slot.restored := by
    rw [hs, Table.find?_without_of_mem howned hleft, hfind, Option.map_some]
  have hintercept : s.table.intercept handle =
      .ok (s.table.put handle.key (slot.restored.interceptedBy handle)) :=
    Table.intercept_eq_ok_iff.mpr ⟨_, hfound, slot.owner?_restored, rfl⟩
  have hagain : slot.restored.interceptedBy handle = slot := by
    cases ht handle.key slot hfind with
    | free given => cases hslot
    | intercepted given owner forKey =>
      obtain rfl := Option.some.inj hslot
      rfl
  rw [install, if_pos (isSome_interceptor?_iff.mpr hlive), hintercept, hagain]
  refine ⟨rfl, ?_⟩
  refine Directory.ext_find? ?_ fun key => ?_
  · have hmem : handle.key ∈ s.table.keys := by
      rw [← Directory.isSome_find?_iff, hfound]
      rfl
    rw [table_note, Directory.keys_put_of_mem hmem, hs, Table.keys_without, Table.keys_without]
  · rw [table_note, Directory.find?_put]
    split
    · next he =>
      rw [he, Table.find?_without_of_forall_not_mem, hfind]
      intro owner howner hmem
      rw [howned] at howner
      simp [← Option.some.inj howner] at hmem
    · next hne =>
      rw [hs]
      refine Table.find?_without_congr fun owner howner => ?_
      have howner' : owner ≠ handle := fun he => hne (by rw [← he, ht.key_eq howner])
      simp [howner']

/-- **Several of them can be installed again**, one after the other. -/
theorem installAll_without {again : List Handle} (hs : s.table = table.without left)
    (hnodup : again.Nodup) (hleft : ∀ handle ∈ again, handle ∈ left)
    (howned : ∀ handle ∈ again, table.owner? handle.key = some handle)
    (hlive : ∀ handle ∈ again, s.IsLive handle) :
    (s.installAll again).table = table.without (left.filter fun other => other ∉ again) := by
  induction again generalizing s left with
  | nil => simpa [installAll] using hs
  | cons handle rest ih =>
    obtain ⟨hnew, hrest⟩ := List.nodup_cons.mp hnodup
    obtain ⟨hhandle, hothers⟩ := List.forall_mem_cons.mp hleft
    obtain ⟨howner, howners⟩ := List.forall_mem_cons.mp howned
    obtain ⟨hlivehandle, hlives⟩ := List.forall_mem_cons.mp hlive
    obtain ⟨-, hnext⟩ := install_without ht hs hhandle howner hlivehandle
    have hall := ih hnext hrest
      (fun other hother => by
        have hne : other ≠ handle := fun he => hnew (he ▸ hother)
        simpa [hne] using hothers other hother)
      howners fun other hother => (hlives other hother).congr (s.interceptors_install handle)
    refine hall.trans (Table.without_congr table fun owner => ?_)
    simp only [List.mem_filter, decide_eq_true_eq, List.mem_cons, not_or, and_assoc]

end Again

end System

/-! ### At once -/

/-- **A system in which everything was given back**, where `s` was before and `given?` says what was
given last. -/
structure System.GivenBack (s : System σ) (given? : Key → Option (Implementation σ))
    (s' : System σ) : Prop where
  /-- Nobody owns an operation. -/
  unowned : s'.table.intercepted = []
  /-- The operations are the same. -/
  operations_eq : s'.table.operations = s.table.operations
  /-- Each is looked up as its base. -/
  lookup_eq : ∀ key,
    s'.table.lookup key = (given? key).elim (.error (.targetNotFound key)) .ok
  /-- Nothing more can be given back at once. -/
  removeAll_eq : s'.removeAll = (0, s')
  /-- No interceptor has anything to give back. -/
  remove_eq : ∀ handle, s'.remove handle = (false, s')
  /-- The interceptors have their flags and hooks. -/
  interceptors_eq : s'.interceptors = s.interceptors

/-- **Interceptors that are installed again** after everything was given back, where `s` was before
that and `s'` is after it. -/
structure System.Reinstalls (s s' : System σ) (again : List Handle) : Prop where
  /-- Each of them succeeds, one after the other. -/
  succeeds : ∀ before handle after, again = before ++ handle :: after →
    ((s'.installAll before).install handle).1 = .ok ()
  /-- Each has the slot that it had. -/
  slots : ∀ handle ∈ again,
    (s'.installAll again).table.find? handle.key = s.table.find? handle.key
  interceptors_eq : (s'.installAll again).interceptors = s.interceptors
  /-- Once all of them are installed, the table is what it was. -/
  whole : s.installed ⊆ again → (s'.installAll again).table = s.table

/-- **A system after a reset**: nothing is left that could be given back, and any operation can be
defined. -/
structure System.IsReset (s : System σ) : Prop where
  table_eq : s.table = .empty
  remove_eq : ∀ handle, s.remove handle = (false, s)
  define : ∀ key implementation, (s.define key implementation).1 = .ok () ∧
    (s.define key implementation).2.table.lookup key = .ok implementation

theorem System.isReset_reset (s : System σ) : s.reset.IsReset where
  table_eq := rfl
  remove_eq := remove_of_unowned fun _ => rfl
  define _ implementation := ⟨rfl, lookup_define_of_find?_eq_none rfl implementation⟩

namespace System.InOrder

variable {s : System σ} (h : s.InOrder)

include h

/-- **Giving everything back at once** leaves the table without the installed interceptors. -/
theorem table_removeAll {order : List Handle} (horder : ∀ handle ∈ s.installed, handle ∈ order) :
    s.removeAll.2.table = s.table.without order := by
  refine Table.restoreAll_eq_without fun key owner ho => horder owner ?_
  rw [h.mem_installed_iff, h.sound.key_eq ho]
  exact ho

/-- It says how many there were. -/
theorem removeAll_eq_length : s.removeAll.1 = s.installed.length := by
  have hlength := h.intercepted_perm.length_eq
  rwa [List.length_map] at hlength

/-- **One after the other, in any order**, the installed interceptors leave the same table, whether
they are removed or given up, and each of those that are removed gives something back. -/
theorem removeEach_installed {order : List Handle} (horder : order.Perm s.installed) :
    s.removeAll.2.table = (System.removeEach order s).2.table ∧
      s.removeAll.2.table = (s.dropAll order).table ∧
        s.removeAll.1 = (System.removeEach order s).1 := by
  have hall := h.table_removeAll fun handle => horder.mem_iff.mpr
  refine ⟨?_, ?_, ?_⟩
  · rw [hall, table_removeEach h.sound]
  · rw [hall, table_dropAll h.sound]
  · rw [removeEach_of_owned (horder.nodup_iff.mpr s.nodup_installed), h.removeAll_eq_length,
      horder.length_eq]
    exact fun handle hmem => h.mem_installed_iff.mp (horder.mem_iff.mp hmem)

/-- **Whoever was installed can be installed again**, after everything was given back, and has the
slot that it had. -/
theorem installAll_removeAll {again : List Handle} (hnodup : again.Nodup)
    (hagain : again ⊆ s.installed) : s.Reinstalls s.removeAll.2 again := by
  have howned : ∀ handle ∈ again, s.table.owner? handle.key = some handle :=
    fun handle hmem => h.mem_installed_iff.mp (hagain hmem)
  have hlive : ∀ handle ∈ again, s.removeAll.2.IsLive handle := fun handle hmem =>
    h.live handle.key handle (howned handle hmem)
  have hstart := h.table_removeAll fun _ hmem => hmem
  have hlast := installAll_without h.sound hstart hnodup hagain howned hlive
  refine ⟨?_, fun handle hmem => ?_, interceptors_installAll _ again, fun hwhole => ?_⟩
  · rintro before handle after rfl
    obtain ⟨hbefore, -, hapart⟩ := List.nodup_append.mp hnodup
    have hmem : handle ∈ before ++ handle :: after := by simp
    have hnext := installAll_without h.sound hstart hbefore
      (fun other hother => hagain (List.mem_append_left _ hother))
      (fun other hother => howned other (List.mem_append_left _ hother))
      fun other hother => hlive other (List.mem_append_left _ hother)
    have hnew : handle ∉ before := fun hold => hapart handle hold handle List.mem_cons_self rfl
    refine (install_without h.sound hnext ?_ (howned handle hmem) ?_).1
    · simpa [hnew] using hagain hmem
    · exact (hlive handle hmem).congr (interceptors_installAll _ before)
  · rw [hlast, Table.find?_without_of_forall_not_mem]
    intro owner howner hleft
    rw [howned handle hmem] at howner
    simp [← Option.some.inj howner, hmem] at hleft
  · rw [hlast]
    refine Table.without_of_forall_ne fun key owner ho hleft => ?_
    have hinstalled : owner ∈ s.installed := List.mem_of_mem_filter hleft
    simp [hwhole hinstalled] at hleft

end System.InOrder

/-! ### At every moment -/

/-- Where a history accounts for the operations, it does so when everything was given back. -/
theorem History.Accounts.givenBack {history : List (Deed σ)} {s : System σ}
    (h : History.Accounts history s) :
    s.GivenBack (History.base? history) s.removeAll.2 := by
  have hunowned : ∀ key, s.removeAll.2.table.owner? key = none := s.table.owner?_restoreAll
  have hafter : History.Accounts history s.removeAll.2 :=
    ⟨s.handover_removeAll.sound h.sound, fun key =>
      (s.handover_removeAll.base?_eq key).trans (h.base?_eq key)⟩
  exact
    { unowned := Table.intercepted_eq_nil hunowned
      operations_eq := by
        rw [Table.operations, s.handover_removeAll.keys_eq, Table.operations]
      lookup_eq := fun key => hafter.lookup_of_owner?_eq_none (hunowned key)
      removeAll_eq := System.removeAll_of_unowned hunowned
      remove_eq := System.remove_of_unowned hunowned
      interceptors_eq := rfl }

/-- **Giving everything back at once is giving it back one after the other.** At every moment of
every course of events that starts with nothing:

* in whatever order the installed interceptors are removed, or given up, one after the other, what
  is left is the table that is left when every operation is given back at once; and that says how
  many there were, which is the number of removals that gave something back;
* after that nobody owns an operation, the operations are the same, each is looked up as its base,
  nothing more can be given back in either way, and the interceptors have their flags and hooks;
* whichever of the interceptors that were installed are installed again, each of them succeeds and
  has the slot that it had; once all of them are, the table is what it was;
* emptying the table leaves nothing that could be given back, and any operation can be defined. -/
theorem removeAll_of_history (clock : Clock) (memory : σ) (threads : List (Thread σ α))
    (turns : List Nat) :
    let crew : Crew σ α := ⟨threads, .start clock memory⟩
    let s := (crew.follow turns).system
    (∀ order : List Handle, order.Perm s.installed →
        s.removeAll.2.table = (System.removeEach order s).2.table ∧
          s.removeAll.2.table = (s.dropAll order).table ∧
            s.removeAll.1 = (System.removeEach order s).1) ∧
      s.removeAll.1 = s.table.intercepted.length ∧
      s.GivenBack (History.base? (crew.history turns)) s.removeAll.2 ∧
      (∀ again : List Handle, again.Nodup → again ⊆ s.installed →
        s.Reinstalls s.removeAll.2 again) ∧
      s.reset.IsReset := by
  intro crew s
  have hinOrder : s.InOrder := .follow clock memory threads turns
  have haccounts : History.Accounts (crew.history turns) s := .follow clock memory threads turns
  exact ⟨fun order horder => hinOrder.removeEach_installed horder, rfl, haccounts.givenBack,
    fun again hnodup hagain => hinOrder.installAll_removeAll hnodup hagain, s.isReset_reset⟩

end Interception
