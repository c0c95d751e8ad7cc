import Interception.Proofs.Keeping
import Interception.Proofs.Refusals

/-!
# Groups and the table

A group of interceptors and the table can drift apart. The group lists what was attached; the
table knows who owns an operation now, and others may have given operations back, emptied the
table, defined operations anew or taken them over. So what is asked of a group has to come out
right whichever of its interceptors are installed (`Interception.instrumentation_of_history`).

| what is asked | what comes of it |
|---|---|
| attach | nothing at all, or one more interceptor (`System.Refused`, `System.Attached`) |
| switch on or off | the flags of just these interceptors (`System.interceptors_setAllEnabled`) |
| remove | the operations that they own are given back (`System.Removed`) |

The group may hold several interceptors for one operation, at most one of which owns it. The
number that removing them answers with is that of the operations, because an interceptor that is
removed gives nothing back that another one owns (`System.removeEach_eq_length`).
-/

namespace Interception

variable {σ α : Type}

/-! ### Changing several interceptors -/

/-- Interceptors, some of which are changed. -/
def Interceptor.changeAmong (handles : List Handle) (f : Interceptor σ → Interceptor σ)
    (interceptors : List (Interceptor σ)) : List (Interceptor σ) :=
  interceptors.mapIdx fun number i => if ⟨number, i.key⟩ ∈ handles then f i else i

theorem Interceptor.changeAmong_nil (f : Interceptor σ → Interceptor σ)
    (interceptors : List (Interceptor σ)) : changeAmong [] f interceptors = interceptors := by
  refine List.ext_getElem? fun number => ?_
  rw [changeAmong, List.getElem?_mapIdx]
  simp

/-- Changing some and then others is changing all of them. -/
theorem Interceptor.changeAmong_changeAmong {f : Interceptor σ → Interceptor σ}
    (hf : ∀ i, (f i).key = i.key) {first rest : List Handle} (h : ∀ handle ∈ first, handle ∉ rest)
    (interceptors : List (Interceptor σ)) :
    changeAmong rest f (changeAmong first f interceptors) =
      changeAmong (first ++ rest) f interceptors := by
  rw [changeAmong, changeAmong, changeAmong, List.mapIdx_mapIdx]
  refine congrArg (fun g => List.mapIdx g interceptors) (funext fun number => funext fun i => ?_)
  by_cases hfirst : (⟨number, i.key⟩ : Handle) ∈ first
  · simp [hfirst, hf, h _ hfirst]
  · simp [hfirst]

namespace System

variable {s : System σ}

theorem interceptors_adjustInterceptor {handle : Handle} (h : s.IsLive handle)
    (f : Interceptor σ → Interceptor σ) :
    (s.adjustInterceptor handle f).interceptors =
      Interceptor.changeAmong [handle] f s.interceptors := by
  obtain ⟨i, hi, hlive, hkey⟩ := h
  have hfind : s.interceptor? handle = some i := by simp [interceptor?, hi, hlive, hkey]
  refine List.ext_getElem? fun number => ?_
  rw [getElem?_adjustInterceptor, hfind, Interceptor.changeAmong, List.getElem?_mapIdx]
  split
  · next he =>
    subst he
    simp [hi, hkey]
  · next hne =>
    cases s.interceptors[number]? with
    | none => rfl
    | some j =>
      have hother : ¬(⟨number, j.key⟩ : Handle) = handle := fun he =>
        hne (congrArg Handle.number he)
      simp [hother]

/-- **Several interceptors are changed one after the other**: each of them is, and no other. -/
theorem interceptors_foldl {step : System σ → Handle → System σ}
    {f : Interceptor σ → Interceptor σ} (hf : ∀ i, (f i).key = i.key)
    (hstep : ∀ s handle, s.IsLive handle →
      (step s handle).interceptors = Interceptor.changeAmong [handle] f s.interceptors)
    (hlive : ∀ s handle other, s.IsLive other → other ≠ handle → (step s handle).IsLive other)
    {handles : List Handle} (hnodup : handles.Nodup) (hall : ∀ handle ∈ handles, s.IsLive handle) :
    (handles.foldl step s).interceptors = Interceptor.changeAmong handles f s.interceptors := by
  induction handles generalizing s with
  | nil => exact (Interceptor.changeAmong_nil f s.interceptors).symm
  | cons handle rest ih =>
    obtain ⟨hnew, hrest⟩ := List.nodup_cons.mp hnodup
    obtain ⟨hhandle, hothers⟩ := List.forall_mem_cons.mp hall
    have hstill : ∀ other ∈ rest, (step s handle).IsLive other := fun other hother =>
      hlive s handle other (hothers other hother) fun he => hnew (he ▸ hother)
    rw [List.foldl_cons, ih hrest hstill, hstep s handle hhandle,
      Interceptor.changeAmong_changeAmong hf (List.forall_mem_singleton.mpr hnew)]
    rfl

/-- **The flags of just these interceptors are set.** -/
theorem interceptors_setAllEnabled {group : Instrumentation} (hnodup : group.handles.Nodup)
    (hall : ∀ handle ∈ group.handles, s.IsLive handle) (enabled : Bool) :
    (s.setAllEnabled group enabled).interceptors =
      Interceptor.changeAmong group.handles (fun i => { i with enabled }) s.interceptors :=
  interceptors_foldl (f := fun i => { i with enabled }) (fun _ => rfl)
    (fun _ _ hlive => interceptors_adjustInterceptor hlive _)
    (fun _ _ _ hlive _ => hlive.adjustInterceptor fun _ _ => ⟨rfl, rfl⟩) hnodup hall

/-- **Just these interceptors are given up.** -/
theorem interceptors_dropAll {handles : List Handle} (hnodup : handles.Nodup)
    (hall : ∀ handle ∈ handles, s.IsLive handle) :
    (s.dropAll handles).interceptors =
      Interceptor.changeAmong handles (fun i => { i with live := false }) s.interceptors := by
  refine interceptors_foldl (f := fun i => { i with live := false }) (fun _ => rfl)
    (fun s handle hlive => ?_)
    (fun _ _ _ hlive hne => hlive.drop hne) hnodup hall
  have hstill : (s.remove handle).2.IsLive handle := hlive.congr (s.interceptors_remove handle)
  rw [drop, interceptors_adjustInterceptor hstill, interceptors_remove]

/-! ### Attaching -/

/-- **What attaching an interceptor leaves when it fails**: the new one is given up, and that is
all. -/
structure Refused (s s' : System σ) : Prop where
  /-- Every slot is as before. -/
  table_eq : s'.table = s.table
  /-- So are the interceptors that there were, and the new one is given up. -/
  interceptors_eq : ∃ new, new.live = false ∧ s'.interceptors = s.interceptors ++ [new]

/-- **What attaching an interceptor leaves when it succeeds.** -/
structure Attached (s : System σ) (given? : Key → Option (Implementation σ)) (key : Key)
    (slot : HookSlot) (body : slot.Input → Program σ) (s' : System σ) : Prop where
  /-- There is one more interceptor, which has the one hook. -/
  interceptors_eq : s'.interceptors = s.interceptors ++ [.attached key slot body]
  /-- It is enabled and installed. -/
  view_eq : s'.view (s.next key) =
    { enabled := true, installed := true, before := slot = .before, replace := slot = .replace
      after := slot = .after }
  /-- It has taken over the operation, around what was given last. -/
  taken : ∃ base, given? key = some base ∧ s.table.find? key = some (.free base) ∧
    s'.table.find? key = some ((Slot.free base).interceptedBy (s.next key))
  /-- Other operations are as before. -/
  others : ∀ other, other ≠ key → s'.table.find? other = s.table.find? other

/-- A new interceptor owns nothing. -/
theorem InOrder.owner?_ne_next (h : s.InOrder) (key other : Key) :
    s.table.owner? other ≠ some (s.next key) :=
  fun ho => absurd (h.number_lt ho) (Nat.lt_irrefl _)

theorem Refused.drop_withAttached (h : s.InOrder) (key : Key) (slot : HookSlot)
    (body : slot.Input → Program σ) :
    s.Refused ((s.withAttached key slot body).drop (s.next key)) where
  table_eq := by
    have hsound : (s.withAttached key slot body).table.Sound := h.sound
    rw [table_drop hsound]
    refine Table.without_of_forall_ne fun other owner ho hmem => ?_
    rw [List.mem_singleton.mp hmem] at ho
    exact h.owner?_ne_next key other ho
  interceptors_eq := by
    have hno : ¬s.table.owner? key = some (s.next key) := h.owner?_ne_next key key
    have hremove : (s.withAttached key slot body).remove (s.next key) =
        (false, s.withAttached key slot body) := by
      rw [remove, Table.restore?]
      exact if_neg hno ▸ rfl
    have hdrop : (s.withAttached key slot body).drop (s.next key) =
        { s with interceptors := s.interceptors ++ [{ Interceptor.attached key slot body with
          live := false }] } := by
      rw [drop, hremove]
      exact adjustInterceptor_append (s.withAttached key slot body) rfl rfl _
    exact ⟨_, rfl, by rw [hdrop]⟩

theorem Attached.of_intercept {given? : Key → Option (Implementation σ)}
    (hgiven : ∀ key, s.table.base? key = given? key) {key : Key} {slot : HookSlot}
    {body : slot.Input → Program σ} {table : Table σ}
    (h : s.table.intercept (s.next key) = .ok table) :
    s.Attached given? key slot body
      ({ s.withAttached key slot body with table }.note (.installed key)) := by
  obtain ⟨old, hfind, hold, rfl⟩ := Table.intercept_eq_ok_iff.mp h
  have hkey : (s.next key).key = key := rfl
  rw [hkey, Slot.eq_free_of_owner?_eq_none hold] at hfind ⊢
  refine ⟨rfl, ?_, ⟨old.base, ?_, hfind, ?_⟩, fun other hne => ?_⟩
  · have hfound : interceptor? ({ s.withAttached key slot body with
        table := s.table.put key ((Slot.free old.base).interceptedBy (s.next key)) }.note
          (.installed key)) (s.next key) = some (.attached key slot body) := by
      simp [interceptor?, note, withAttached, next, Interceptor.attached, Interceptor.fresh]
    have howner : isInstalled ({ s.withAttached key slot body with
        table := s.table.put key ((Slot.free old.base).interceptedBy (s.next key)) }.note
          (.installed key)) (s.next key) = true := by
      rw [isInstalled_iff]
      exact (Table.owner?_put ..).trans (if_pos rfl)
    rw [view, hfound, howner]
    cases slot with
    | before | replace | after => rfl
  · rw [← hgiven, Table.base?, hfind, Option.map_some, Slot.base_free]
  · exact (Directory.find?_put ..).trans (if_pos rfl)
  · exact (Directory.find?_put ..).trans (if_neg hne)

end System

/-! ### Removing -/

/-- The operations that some interceptors own. -/
def Table.ownedBy (table : Table σ) (handles : List Handle) : List Key :=
  table.intercepted.filter fun key => (table.owner? key).any fun owner => owner ∈ handles

theorem Table.nodup_ownedBy (table : Table σ) (handles : List Handle) :
    (table.ownedBy handles).Nodup :=
  table.nodup_intercepted.filter _

theorem Table.mem_ownedBy_iff {table : Table σ} {handles : List Handle} {key : Key} :
    key ∈ table.ownedBy handles ↔ ∃ owner ∈ handles, table.owner? key = some owner := by
  rw [ownedBy, List.mem_filter, mem_intercepted_iff]
  constructor
  · rintro ⟨⟨owner, ho⟩, hmem⟩
    rw [ho, Option.any_some, decide_eq_true_eq] at hmem
    exact ⟨owner, hmem, ho⟩
  · rintro ⟨owner, hmem, ho⟩
    exact ⟨⟨owner, ho⟩, by rw [ho, Option.any_some, decide_eq_true hmem]⟩

namespace System

variable {s : System σ}

/-- **What removing the interceptors of a group leaves.** -/
structure Removed (s : System σ) (given? : Key → Option (Implementation σ))
    (group : Instrumentation) (did : (Nat × Instrumentation) × System σ) : Prop where
  /-- The answer is the number of operations that they owned. -/
  count_eq : did.1.1 = (s.table.ownedBy group.handles).length
  /-- The group has no interceptors any more. -/
  emptied : did.1.2 = .ofType group.typeName
  /-- They own nothing. -/
  unowned : ∀ handle ∈ group.handles, ∀ key, did.2.table.owner? key ≠ some handle
  /-- What they owned is what was given last. -/
  givenBack : ∀ handle ∈ group.handles, ∀ key, s.table.owner? key = some handle →
    ∃ base, given? key = some base ∧ did.2.table.find? key = some (.free base)
  /-- Other operations are as before. -/
  others : ∀ key, (∀ handle ∈ group.handles, s.table.owner? key ≠ some handle) →
    did.2.table.find? key = s.table.find? key
  /-- These interceptors are given up, and the others are as before. -/
  interceptors_eq : did.2.interceptors =
    Interceptor.changeAmong group.handles (fun i => { i with live := false }) s.interceptors

/-- Removing an interceptor does not install or remove any other one. -/
theorem isInstalled_remove (hs : s.table.Sound) {handle other : Handle} (hne : other ≠ handle) :
    (s.remove handle).2.isInstalled other = s.isInstalled other := by
  rw [Bool.eq_iff_iff, isInstalled_iff, isInstalled_iff]
  constructor
  · exact fun ho => (owner?_remove hs ho).2
  · intro ho
    rw [Table.owner?, find?_remove hne ho]
    exact ho

/-- Several interceptors, removed one after the other, give something back just as often as one of
them is installed. -/
theorem removeEach_eq_countP (hs : s.table.Sound) {handles : List Handle}
    (hnodup : handles.Nodup) :
    (removeEach handles s).1 = handles.countP fun handle => s.isInstalled handle := by
  induction handles generalizing s with
  | nil => rfl
  | cons handle rest ih =>
    obtain ⟨hnew, hrest⟩ := List.nodup_cons.mp hnodup
    have hremoved : (s.remove handle).1 = s.isInstalled handle := by
      rw [Bool.eq_iff_iff, remove_eq_true_iff, isInstalled_iff]
    have hothers : rest.countP (fun other => (s.remove handle).2.isInstalled other) =
        rest.countP fun other => s.isInstalled other := by
      refine List.countP_congr fun other hother => ?_
      have hne : other ≠ handle := fun he => hnew (he ▸ hother)
      rw [isInstalled_remove hs hne]
    rw [removeEach]
    dsimp only
    rw [ih ((s.handover_remove handle).sound hs) hrest, hothers, hremoved, List.countP_cons]
    split
    · rfl
    · rfl

/-- **The number of removals that give something back is that of the operations owned.** -/
theorem removeEach_eq_length (h : s.InOrder) {handles : List Handle} (hnodup : handles.Nodup) :
    (removeEach handles s).1 = (s.table.ownedBy handles).length := by
  have hkeys : ((handles.filter fun handle => s.isInstalled handle).map Handle.key).Nodup := by
    refine (hnodup.filter _).map_on fun a ha b hb he => ?_
    rw [List.mem_filter, isInstalled_iff] at ha hb
    rw [he, hb.2] at ha
    exact (Option.some.inj ha.2).symm
  have hperm : ((handles.filter fun handle => s.isInstalled handle).map Handle.key).Perm
      (s.table.ownedBy handles) := by
    rw [List.perm_ext_iff_of_nodup hkeys (s.table.nodup_ownedBy handles)]
    intro key
    rw [Table.mem_ownedBy_iff, List.mem_map]
    constructor
    · rintro ⟨owner, hmem, rfl⟩
      rw [List.mem_filter, isInstalled_iff] at hmem
      exact ⟨owner, hmem⟩
    · rintro ⟨owner, hmem, ho⟩
      obtain rfl := h.sound.key_eq ho
      exact ⟨owner, List.mem_filter.mpr ⟨hmem, isInstalled_iff.mpr ho⟩, rfl⟩
  rw [removeEach_eq_countP h.sound hnodup, List.countP_eq_length_filter, ← hperm.length_eq,
    List.length_map]

theorem Removed.of_inOrder (h : s.InOrder) {given? : Key → Option (Implementation σ)}
    (hgiven : ∀ key, s.table.base? key = given? key) {group : Instrumentation}
    (hnodup : group.handles.Nodup) (hlive : ∀ handle ∈ group.handles, s.IsLive handle) :
    s.Removed given? group (s.removeInstrumentation group) where
  count_eq := removeEach_eq_length h hnodup
  emptied := rfl
  unowned handle hmem key ho := by
    rw [h.table_removeInstrumentation, Table.owner?_without_eq_some_iff] at ho
    exact ho.2 hmem
  givenBack handle hmem key ho := by
    obtain ⟨slot, hfind, -⟩ := Option.bind_eq_some_iff.mp ho
    refine ⟨slot.base, ?_, ?_⟩
    · rw [← hgiven, Table.base?, hfind, Option.map_some]
    · rw [h.table_removeInstrumentation, Table.find?_without_of_mem ho hmem, hfind,
        Option.map_some, Slot.restored_eq_free]
  others key hothers := by
    rw [h.table_removeInstrumentation]
    exact Table.find?_without_of_forall_not_mem fun owner ho hmem => hothers owner hmem ho
  interceptors_eq := by
    have hstill : ∀ handle ∈ group.handles, (removeEach group.handles s).2.IsLive handle :=
      fun handle hmem => (hlive handle hmem).removeEach _
    rw [← interceptors_removeEach group.handles s]
    exact interceptors_dropAll hnodup hstill

end System

/-! ### At every moment -/

/-- **Groups and the table agree.** At every moment of every course of events that starts with
nothing, and for every group that is then kept – among any number of groups, whoever else has
installed or removed interceptors, given operations back, or emptied the table in between:

* the interceptors of the groups have not been given up, are for operations of the type of their
  group, and belong to one group, once;
* attaching an interceptor fails just if the operation cannot be taken over, and then every slot,
  every interceptor and the group are as before;
* otherwise the group has one more interceptor, for the operation of its type that was asked for,
  which is enabled and installed and has the one hook;
* switching the group on or off sets the flags of just its interceptors;
* removing the group answers with the number of operations that its interceptors own; after that
  they own nothing, those operations are again what was given last, every other slot is as before,
  and the group is empty. -/
theorem instrumentation_of_history (clock : Clock) (memory : σ) (threads : List (Thread σ α))
    (turns : List Nat) (kept : List Instrumentation) :
    let crew : Crew σ α := ⟨threads, .start clock memory⟩
    let s := (crew.follow turns).system
    let given? := History.base? (crew.history turns)
    History.Keeps (crew.history turns) kept →
      s.Holds kept ∧ ∀ group ∈ kept,
        (∀ operation level slot body,
          let key := group.key operation level
          let did := s.attach group operation level slot body
          (∀ error, did.1 = .error error ↔ s.table.InstallRefused (s.next key) error) ∧
            (∀ error, did.1 = .error error → s.Refused did.2) ∧
              ∀ group', did.1 = .ok group' →
                group' = { group with handles := group.handles ++ [s.next key] } ∧
                  s.Attached given? key slot body did.2) ∧
          (∀ enabled,
            (s.setAllEnabled group enabled).table = s.table ∧
              (s.setAllEnabled group enabled).interceptors =
                Interceptor.changeAmong group.handles (fun i => { i with enabled })
                  s.interceptors) ∧
            s.Removed given? group (s.removeInstrumentation group) := by
  intro crew s given? hkept
  have haccounts : History.Accounts (crew.history turns) s := .follow clock memory threads turns
  have hupholds : History.Upholds (crew.history turns) s := .follow clock memory threads turns
  have hinOrder := hupholds.inOrder
  have hholds := hupholds.holds kept hkept
  refine ⟨hholds, fun group hgroup => ⟨fun operation level slot body => ?_, fun enabled => ?_, ?_⟩⟩
  · intro key did
    have hdid : did = _ := s.attach_eq group operation level slot body
    cases hintercept : s.table.intercept (s.next key) with
    | error error =>
      rw [hintercept] at hdid
      refine ⟨fun error' => ?_, fun error' _ => ?_, fun group' hok => ?_⟩
      · rw [hdid, ← Table.intercept_eq_error_iff, hintercept]
        simp
      · rw [hdid]
        exact .drop_withAttached hinOrder key slot body
      · rw [hdid] at hok
        cases hok
    | ok table =>
      rw [hintercept] at hdid
      refine ⟨fun error' => ?_, fun error' herror => ?_, fun group' hok => ?_⟩
      · rw [hdid, ← Table.intercept_eq_error_iff, hintercept]
        simp
      · rw [hdid] at herror
        cases herror
      · rw [hdid] at hok ⊢
        exact ⟨(Except.ok.inj hok).symm, .of_intercept haccounts.base?_eq hintercept⟩
  · exact ⟨s.table_setAllEnabled group enabled, System.interceptors_setAllEnabled
      (hholds.nodup_handles hgroup) (hholds.live group hgroup) enabled⟩
  · exact .of_inOrder hinOrder haccounts.base?_eq (hholds.nodup_handles hgroup)
      (hholds.live group hgroup)

namespace Lamp

/-- The one operation of a type. -/
def key : Key :=
  .ofType "Lamp" "light"

/-- Attaches an interceptor, after which every operation is given back, and then another one for
the same operation. -/
def evening : Program Unit :=
  Calculator.defineThen key (.done (.int 1)) <|
    .request (.attach (.ofType "Lamp") "light" .onType .replace) (fun _ => .done (.int 2)) fun
      | .ok group =>
        .request .removeAll Empty.elim fun _ =>
          .request (.attach group "light" .onType .before) (fun _ => .done .null) fun _ =>
            .done .null
      | .error error => .fail (.raised error)

/-- The evening, by itself. -/
def crew : Crew Unit (Except Failure Value) :=
  ⟨[evening.thread 1], .start (fun _ => .atEpoch) ()⟩

/-- What is kept in the end. -/
def group : Instrumentation :=
  ⟨"Lamp", [⟨0, key⟩, ⟨1, key⟩]⟩

theorem keeps_evening : History.Keeps (crew.history (List.replicate 4 0)) [group] := by
  have hbegun : History.Keeps (crew.history []) [.ofType "Lamp"] := .start ["Lamp"]
  have hdefined : History.Keeps (crew.history [0]) [.ofType "Lamp"] :=
    hbegun.turn rfl (.other fun _ _ _ _ => List.not_mem_nil)
  have hattached : History.Keeps (crew.history [0, 0]) [⟨"Lamp", [⟨0, key⟩]⟩] :=
    hdefined.turn rfl (.attached [] [] rfl)
  have hgivenBack : History.Keeps (crew.history [0, 0, 0]) [⟨"Lamp", [⟨0, key⟩]⟩] :=
    hattached.turn rfl (.other fun _ _ _ _ => List.not_mem_nil)
  exact hgivenBack.turn rfl (.attached [] [] rfl)

/-- Two interceptors are removed, and one operation is given back. -/
theorem removed_of_evening :
    let s := (crew.follow (List.replicate 4 0)).system
    group.handles.length = 2 ∧ (s.table.ownedBy group.handles).length = 1 ∧
      (s.removeInstrumentation group).1.1 = 1 ∧
        (s.removeInstrumentation group).1.2.handles = [] := by
  obtain ⟨-, hgroups⟩ := instrumentation_of_history (fun _ => .atEpoch) () [evening.thread 1]
    (List.replicate 4 0) [group] keeps_evening
  obtain ⟨-, -, hremoved⟩ := hgroups group (List.mem_singleton_self group)
  exact ⟨rfl, hremoved.count_eq.symm.trans rfl, rfl, congrArg _ hremoved.emptied⟩

end Lamp

end Interception
