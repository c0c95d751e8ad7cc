import Interception.Proofs.History
import Mathlib.Data.List.Nodup
import Mathlib.Data.List.Perm.Basic

/-!
# Who owns which operation

Any number of interceptors may be created for one operation, and any of them may be
installed, removed or given up at any time, also after the table was emptied and the
operation was defined anew. Through all of this owners and installed interceptors stay in
step (`Interception.ownership_of_history`).

| what is asked of the table | who owns an operation then | whose slots stay as they are |
|---|---|---|
| an interceptor takes one over | `Table.owner?_of_intercept` | `Table.find?_of_intercept` |
| an interceptor gives its operation back | `Table.owner?_of_restore?` | `Table.find?_of_restore?` |
| an operation is defined or exchanged | `Table.owner?_put` | |
| every operation is given back | `Table.owner?_restoreAll` | |

What carries the statement through a history is that owners have not been given up
(`System.InOrder`). Each request keeps this (`Request.inOrder`): only a live interceptor can
take over an operation, and one that is given up gives its operation back first.
-/

namespace Interception

variable {σ α : Type}

/-! ### The table -/

@[simp] theorem Slot.owner?_restored (slot : Slot σ) : slot.restored.owner? = none := by
  rw [Slot.restored_eq_free, Slot.owner?_free]

/-- In a sound slot, the owner was created for the operation. -/
theorem Slot.Sound.key_eq {key : Key} {slot : Slot σ} (h : slot.Sound key) {owner : Handle}
    (ho : slot.owner? = some owner) : owner.key = key := by
  cases h with
  | free given => cases ho
  | intercepted given owner' forKey =>
    obtain rfl := Option.some.inj ho
    exact forKey

namespace Table

variable {table table' : Table σ} {key : Key} {handle owner other : Handle}

theorem Sound.key_eq (h : table.Sound) (ho : table.owner? key = some owner) :
    owner.key = key := by
  obtain ⟨slot, hf, hslot⟩ := Option.bind_eq_some_iff.mp ho
  exact (h key slot hf).key_eq hslot

theorem owner?_restoreAll (table : Table σ) (key : Key) : owner? table.restoreAll key = none := by
  rw [owner?, restoreAll, Directory.find?_mapEntries]
  cases table.find? key with
  | none => rfl
  | some slot => exact slot.owner?_restored

/-- Taking over an operation touches no slot that somebody owns. -/
theorem find?_of_intercept (h : table.intercept handle = .ok table')
    (ho : table.owner? key = some other) : table'.find? key = table.find? key := by
  obtain ⟨slot, hf, hslot, rfl⟩ := intercept_eq_ok_iff.mp h
  rw [Directory.find?_put]
  split
  · next he =>
    -- nobody owned the operation that was taken over
    rw [he, owner?, hf, Option.bind_some, hslot] at ho
    cases ho
  · rfl

/-- An interceptor that has given its operation back owns nothing, and whoever owns
something owned it before. -/
theorem owner?_of_restore? (hs : table.Sound) (h : table.restore? handle = some table')
    (ho : table'.owner? key = some owner) : owner ≠ handle ∧ table.owner? key = some owner := by
  obtain ⟨-, rfl⟩ := restore?_eq_some_iff.mp h
  rw [owner?, Directory.find?_adjust] at ho
  split at ho
  · cases hf : table.find? key with
    | none => simp [hf] at ho
    | some slot => simp [hf] at ho
  · next hne =>
    have ho' : table.owner? key = some owner := ho
    refine ⟨fun he => hne ?_, ho'⟩
    rw [← hs.key_eq ho', he]

/-- Giving an operation back touches no slot that somebody else owns. -/
theorem find?_of_restore? (h : table.restore? handle = some table') (hne : other ≠ handle)
    (ho : table.owner? key = some other) : table'.find? key = table.find? key := by
  obtain ⟨hown, rfl⟩ := restore?_eq_some_iff.mp h
  rw [Directory.find?_adjust]
  split
  · next he =>
    rw [he, hown] at ho
    exact absurd (Option.some.inj ho).symm hne
  · rfl

end Table

/-! ### Interceptors that have not been given up -/

namespace System

/-- **An interceptor that was created and has not been given up.** -/
def IsLive (s : System σ) (handle : Handle) : Prop :=
  ∃ i, s.interceptors[handle.number]? = some i ∧ i.live = true ∧ i.key = handle.key

/-- **Ownership is in order**: slots are sound, and owners have not been given up. -/
structure InOrder (s : System σ) : Prop where
  /-- Nothing stands between owners and bases. -/
  sound : s.table.Sound
  /-- Owners have not been given up. -/
  live : ∀ key owner, s.table.owner? key = some owner → s.IsLive owner

theorem isSome_interceptor?_iff {s : System σ} {handle : Handle} :
    (s.interceptor? handle).isSome = true ↔ s.IsLive handle := by
  rw [interceptor?, IsLive]
  cases s.interceptors[handle.number]? with
  | none => simp
  | some i => simp

/-- To be live is a matter of the interceptors alone. -/
theorem IsLive.congr {s s' : System σ} {handle : Handle} (h : s.IsLive handle)
    (hi : s'.interceptors = s.interceptors) : s'.IsLive handle := by
  rw [IsLive] at h ⊢
  rwa [hi]

/-- Changing an interceptor gives up no other one. -/
theorem IsLive.adjustInterceptor {s : System σ} {other : Handle} (h : s.IsLive other)
    {handle : Handle} {f : Interceptor σ → Interceptor σ}
    (hf : other = handle → ∀ i, (f i).live = i.live ∧ (f i).key = i.key) :
    (s.adjustInterceptor handle f).IsLive other := by
  obtain ⟨i, hi, hlive, hkey⟩ := h
  rw [System.adjustInterceptor]
  split
  · next j hj =>
    obtain ⟨hget, hj'⟩ := Option.filter_eq_some_iff.mp hj
    simp only [Bool.and_eq_true, decide_eq_true_eq] at hj'
    by_cases hn : handle.number = other.number
    -- both are live under one number, so both are for the operation on record there
    · rw [← hn, hget] at hi
      obtain rfl := Option.some.inj hi
      have heq : other = handle := by
        obtain ⟨number, key⟩ := other
        exact congrArg₂ Handle.mk hn.symm (hkey.symm.trans hj'.2)
      obtain ⟨hl, hk⟩ := hf heq j
      obtain ⟨hlt, -⟩ := List.getElem?_eq_some_iff.mp hget
      exact ⟨f j, by simp [← hn, hlt], hl.trans hlive, hk.trans hkey⟩
    · exact ⟨i, by rwa [List.getElem?_set_ne hn], hlive, hkey⟩
  · exact ⟨i, hi, hlive, hkey⟩

theorem interceptors_remove (s : System σ) (handle : Handle) :
    (s.remove handle).2.interceptors = s.interceptors := by
  rw [System.remove]
  split
  · rfl
  · rfl

/-- Whoever owns something after a removal owned it before, and it is not the interceptor
that was removed. -/
theorem owner?_remove {s : System σ} (hs : s.table.Sound) {handle owner : Handle} {key : Key}
    (ho : (s.remove handle).2.table.owner? key = some owner) :
    owner ≠ handle ∧ s.table.owner? key = some owner := by
  rw [System.remove] at ho
  split at ho
  · next table hrestore => exact Table.owner?_of_restore? hs hrestore ho
  · next hrestore =>
    refine ⟨?_, ho⟩
    rintro rfl
    rw [Table.restore?, hs.key_eq ho, if_pos ho] at hrestore
    cases hrestore

namespace InOrder

variable {s s' : System σ}

/-- Ownership is a matter of the table and the interceptors alone. -/
theorem congr (h : s.InOrder) (ht : s'.table = s.table)
    (hi : s'.interceptors = s.interceptors) : s'.InOrder where
  sound := by rw [ht]; exact h.sound
  live key owner ho := (h.live key owner (by rwa [ht] at ho)).congr hi

/-- Where nobody owns anything, no owner has been given up. -/
theorem of_unowned (hs : s.table.Sound) (h : ∀ key, s.table.owner? key = none) : s.InOrder where
  sound := hs
  live key owner ho := by
    rw [h] at ho
    cases ho

/-- An operation may get an implementation. -/
theorem given (h : s.InOrder) {key : Key} {implementation : Implementation σ}
    (ht : s'.table = s.table.put key (.free implementation))
    (hi : s'.interceptors = s.interceptors) : s'.InOrder where
  sound := by rw [ht]; exact Table.sound_put_free h.sound key implementation
  live other owner ho := by
    rw [ht, Table.owner?_put] at ho
    split at ho
    · cases ho
    · exact (h.live other owner ho).congr hi

theorem create (h : s.InOrder) (key : Key) : (s.create key).2.InOrder where
  sound := h.sound
  live other owner ho := by
    obtain ⟨i, hi, hrest⟩ := h.live other owner ho
    obtain ⟨hlt, -⟩ := List.getElem?_eq_some_iff.mp hi
    exact ⟨i, by rwa [System.create, List.getElem?_append_left hlt], hrest⟩

/-- The flag or the hooks of an interceptor may change. -/
theorem adjustInterceptor (h : s.InOrder) (handle : Handle) {f : Interceptor σ → Interceptor σ}
    (hf : ∀ i, (f i).live = i.live ∧ (f i).key = i.key) :
    (s.adjustInterceptor handle f).InOrder where
  sound := by rw [table_adjustInterceptor]; exact h.sound
  live key owner ho := by
    rw [table_adjustInterceptor] at ho
    exact (h.live key owner ho).adjustInterceptor fun _ => hf

/-- Only a live interceptor becomes an owner. -/
theorem install (h : s.InOrder) (handle : Handle) : (s.install handle).2.InOrder where
  sound := (s.handover_install handle).sound h.sound
  live key owner ho := by
    refine IsLive.congr ?_ (s.interceptors_install handle)
    rw [System.install] at ho
    split at ho
    · next hlive =>
      split at ho
      · next table hintercept =>
        rcases Table.owner?_of_intercept hintercept ho with rfl | hold
        · exact isSome_interceptor?_iff.mp hlive
        · exact h.live key owner hold
      · exact h.live key owner ho
    · exact h.live key owner ho

theorem remove (h : s.InOrder) (handle : Handle) : (s.remove handle).2.InOrder where
  sound := (s.handover_remove handle).sound h.sound
  live key owner ho :=
    (h.live key owner (owner?_remove h.sound ho).2).congr (s.interceptors_remove handle)

/-- An interceptor that is given up owns nothing any more. -/
theorem drop (h : s.InOrder) (handle : Handle) : (s.drop handle).InOrder where
  sound := (s.handover_drop handle).sound h.sound
  live key owner ho := by
    rw [System.drop, table_adjustInterceptor] at ho
    have hlive := (h.remove handle).live key owner ho
    exact hlive.adjustInterceptor fun he => absurd he (owner?_remove h.sound ho).1

theorem dropAll (h : s.InOrder) (handles : List Handle) : (s.dropAll handles).InOrder := by
  rw [System.dropAll]
  induction handles generalizing s with
  | nil => exact h
  | cons handle rest ih => exact ih (h.drop handle)

theorem removeEach (h : s.InOrder) (handles : List Handle) :
    (System.removeEach handles s).2.InOrder := by
  induction handles generalizing s with
  | nil => exact h
  | cons handle rest ih => exact ih (h.remove handle)

theorem setEnabled (h : s.InOrder) (handle : Handle) (enabled : Bool) :
    (s.setEnabled handle enabled).InOrder :=
  h.adjustInterceptor handle fun _ => ⟨rfl, rfl⟩

theorem setAllEnabled (h : s.InOrder) (group : Instrumentation) (enabled : Bool) :
    (s.setAllEnabled group enabled).InOrder := by
  rw [System.setAllEnabled]
  induction group.handles generalizing s with
  | nil => exact h
  | cons handle rest ih => exact ih (h.setEnabled handle enabled)

theorem setHook (h : s.InOrder) (handle : Handle) (slot : HookSlot)
    (body : slot.Input → Program σ) : (s.setHook handle slot body).InOrder :=
  h.adjustInterceptor handle fun _ => ⟨rfl, rfl⟩

theorem collect (h : s.InOrder) (handle : Handle) (collector : CollectorId) :
    (s.collect handle collector).InOrder :=
  h.adjustInterceptor handle fun _ => ⟨rfl, rfl⟩

/-- Either all targets are timed, or those that were are given up again. -/
theorem timeEach (h : s.InOrder) (config : Config) (collector : CollectorId)
    (targets : List Key) (installed : List Handle) :
    (System.timeEach config collector targets installed s).2.InOrder := by
  induction targets generalizing installed s with
  | nil => exact h.congr rfl rfl
  | cons target rest ih =>
    rw [System.timeEach]
    have hinstall :=
      (((h.create target).setEnabled (s.create target).1 config.enabledByDefault).collect
        (s.create target).1 collector).install (s.create target).1
    dsimp only
    split
    · next hok =>
      rw [hok] at hinstall
      exact ih hinstall _
    · next herror =>
      rw [herror] at hinstall
      exact (hinstall.drop _).dropAll _

theorem attach (h : s.InOrder) (group : Instrumentation) (operation : String) (level : Level)
    (slot : HookSlot) (body : slot.Input → Program σ) :
    (s.attach group operation level slot body).2.InOrder := by
  rw [System.attach]
  have hinstall :=
    ((h.create (group.key operation level)).setHook (s.create (group.key operation level)).1 slot
      body).install (s.create (group.key operation level)).1
  dsimp only
  split
  · next hok =>
    rw [hok] at hinstall
    exact hinstall
  · next herror =>
    rw [herror] at hinstall
    exact hinstall.drop _

/-- Defining an operation, or exchanging its implementation, touches no owner. -/
theorem define (h : s.InOrder) (key : Key) (implementation : Implementation σ) :
    (s.define key implementation).2.InOrder := by
  rw [System.define]
  split
  · next hdefine =>
    obtain ⟨-, rfl⟩ := Table.define_eq_ok_iff.mp hdefine
    exact h.given rfl rfl
  · exact h

theorem exchange (h : s.InOrder) (key : Key) (implementation : Implementation σ) :
    (s.exchange key implementation).2.InOrder := by
  rw [System.exchange]
  split
  · next hexchange =>
    obtain ⟨-, rfl⟩ := Table.exchange_eq_ok_iff.mp hexchange
    exact h.given rfl rfl
  · exact h

theorem keepCurrent (h : s.InOrder) (key : Key) : (s.keepCurrent key).2.InOrder := by
  rw [System.keepCurrent]
  split
  · exact h.congr rfl rfl
  · exact h

theorem createCollector (h : s.InOrder) (capacity : Nat) (threshold : Option Nat)
    (captures : Bool) : (s.createCollector capacity threshold captures).2.InOrder := by
  rw [System.createCollector]
  split
  · exact h.congr rfl rfl
  · exact h

theorem drain (h : s.InOrder) (collector : CollectorId) (max : Nat) :
    (s.drain collector max).2.InOrder := by
  rw [System.drain]
  split
  · exact h.congr rfl rfl
  · exact h

theorem deliver (h : s.InOrder) (collector : CollectorId) (record : Record)
    (arguments : List Value) : (s.deliver collector record arguments).InOrder := by
  rw [System.deliver]
  split
  · exact h.congr rfl rfl
  · exact h

end InOrder

end System

/-- **Every request keeps ownership in order.** -/
theorem Request.inOrder (r : Request) (bodies : r.Body → Program σ) {s : System σ}
    (h : s.InOrder) : (r.perform bodies s).2.InOrder := by
  cases r with
  | define key => exact h.define key _
  | defineKept key kept => exact h.define key _
  | exchange key => exact h.exchange key _
  | exchangeKept key kept => exact h.exchange key _
  | keep key => exact h.keepCurrent key
  | contains key | operations | intercepted | view handle | viewCollector collector => exact h
  | removeAll =>
    exact .of_unowned (s.handover_removeAll.sound h.sound) fun key => s.table.owner?_restoreAll key
  | reset => exact .of_unowned Table.sound_empty fun key => rfl
  | create key => exact h.create key
  | install handle => exact h.install handle
  | remove handle => exact h.remove handle
  | drop handle => exact h.drop handle
  | dropAll handles => exact h.dropAll handles
  | setEnabled handle enabled => exact h.setEnabled handle enabled
  | setHook handle slot => exact h.setHook handle slot bodies
  | collect handle collector => exact h.collect handle collector
  | clearHook handle slot => exact h.adjustInterceptor handle fun _ => ⟨rfl, rfl⟩
  | createCollector capacity threshold captures =>
    exact h.createCollector capacity threshold captures
  | drain collector max => exact h.drain collector max
  | drainAll collector => exact h.drain collector _
  | timeTargets config collector => exact h.timeEach config collector _ _
  | attach group operation level slot => exact h.attach group operation level slot bodies
  | setAllEnabled group enabled => exact h.setAllEnabled group enabled
  | removeInstrumentation group => exact ((h.removeEach group.handles).dropAll _).congr rfl rfl

/-- **So does everything else that can be done.** -/
theorem Deed.inOrder (deed : Deed σ) (h : deed.before.InOrder) : deed.after.InOrder := by
  obtain ⟨s, action⟩ := deed
  cases action with
  | request r bodies => exact r.inOrder bodies h
  | deliver collector record arguments => exact h.deliver collector record arguments
  | lookup key | kept number | enabled handle | hooks handle => exact h
  | readClock | memory change => exact h.congr rfl rfl
  | record key start stop replaced => exact h.congr rfl rfl

/-- **Ownership is in order at every moment** of every course of events that starts with
nothing. -/
theorem System.InOrder.follow (clock : Clock) (memory : σ) (threads : List (Thread σ α))
    (turns : List Nat) :
    ((⟨threads, .start clock memory⟩ : Crew σ α).follow turns).system.InOrder := by
  have hstart : (System.start clock memory : System σ).InOrder :=
    .of_unowned Table.sound_empty fun _ => rfl
  exact Crew.start_induction (fun _ s => s.InOrder) (fun _ d h => d.inOrder h) hstart threads
    turns

/-! ### Steps of one interceptor -/

/-- The interceptor whose step a request is, if it is the step of just one that exists. -/
def Request.actor? : Request → Option Handle
  | .install handle | .remove handle | .drop handle | .setEnabled handle _ | .setHook handle _
  | .collect handle _ | .clearHook handle _ | .view handle => some handle
  | _ => none

namespace System

variable {s : System σ} {handle other : Handle} {key : Key}

/-- An interceptor that takes over its operation, or fails to, touches no slot that somebody
owns. -/
theorem find?_install (ho : s.table.owner? key = some other) :
    (s.install handle).2.table.find? key = s.table.find? key := by
  rw [install]
  split
  · split
    · next hintercept => exact Table.find?_of_intercept hintercept ho
    · rfl
  · rfl

/-- An interceptor that gives its operation back touches no slot that somebody else owns. -/
theorem find?_remove (hne : other ≠ handle) (ho : s.table.owner? key = some other) :
    (s.remove handle).2.table.find? key = s.table.find? key := by
  rw [remove]
  split
  · next hrestore => exact Table.find?_of_restore? hrestore hne ho
  · rfl

end System

/-- **No step of one interceptor touches the slots of another one.** -/
theorem Request.find?_of_actor {r : Request} {handle : Handle} (hr : r.actor? = some handle)
    (bodies : r.Body → Program σ) {s : System σ} {other : Handle} (hne : other ≠ handle)
    {key : Key} (ho : s.table.owner? key = some other) :
    (r.perform bodies s).2.table.find? key = s.table.find? key := by
  cases r with
  | install handle => exact System.find?_install ho
  | remove handle' =>
    obtain rfl := Option.some.inj hr
    exact System.find?_remove hne ho
  | drop handle' =>
    obtain rfl := Option.some.inj hr
    show (s.drop handle').table.find? key = _
    rw [System.drop, System.table_adjustInterceptor]
    exact System.find?_remove hne ho
  | setEnabled handle enabled => rw [perform, System.table_setEnabled]
  | setHook handle slot => rw [perform, System.table_setHook]
  | collect handle collector => rw [perform, System.table_collect]
  | clearHook handle slot => rw [perform, System.table_clearHook]
  | view handle => rfl
  | _ => cases hr

/-- **Nor does it make another one an owner.** -/
theorem Request.owner?_of_actor {r : Request} {handle : Handle} (hr : r.actor? = some handle)
    (bodies : r.Body → Program σ) {s : System σ} (hs : s.table.Sound) {other : Handle}
    (hne : other ≠ handle) {key : Key}
    (ho : (r.perform bodies s).2.table.owner? key = some other) :
    s.table.owner? key = some other := by
  cases r with
  | install handle' =>
    obtain rfl := Option.some.inj hr
    exact (s.owner?_install handle' ho).resolve_left hne
  | remove handle' => exact (System.owner?_remove hs ho).2
  | drop handle' =>
    change (s.drop handle').table.owner? key = some other at ho
    rw [System.drop, System.table_adjustInterceptor] at ho
    exact (System.owner?_remove hs ho).2
  | setEnabled handle enabled => rwa [perform, System.table_setEnabled] at ho
  | setHook handle slot => rwa [perform, System.table_setHook] at ho
  | collect handle collector => rwa [perform, System.table_collect] at ho
  | clearHook handle slot => rwa [perform, System.table_clearHook] at ho
  | view handle => exact ho
  | _ => cases hr

/-! ### Installed interceptors -/

namespace System

/-- All interceptors that were ever created. -/
def handles (s : System σ) : List Handle :=
  s.interceptors.mapIdx fun number i => ⟨number, i.key⟩

/-- **The installed interceptors.** -/
def installed (s : System σ) : List Handle :=
  s.handles.filter fun handle => s.isInstalled handle

theorem mem_handles_iff {s : System σ} {handle : Handle} :
    handle ∈ s.handles ↔ ∃ i, s.interceptors[handle.number]? = some i ∧ i.key = handle.key := by
  rw [handles, List.mem_mapIdx]
  constructor
  · rintro ⟨number, hlt, rfl⟩
    exact ⟨s.interceptors[number], List.getElem?_eq_getElem hlt, rfl⟩
  · rintro ⟨i, hi, hkey⟩
    obtain ⟨hlt, rfl⟩ := List.getElem?_eq_some_iff.mp hi
    exact ⟨handle.number, hlt, by rw [hkey]⟩

theorem nodup_handles (s : System σ) : s.handles.Nodup := by
  have hnumbers : s.handles.map Handle.number = List.range s.interceptors.length := by
    refine List.ext_getElem (by simp [handles]) fun number _ _ => ?_
    simp [handles]
  exact List.Nodup.of_map Handle.number (hnumbers ▸ List.nodup_range)

theorem isInstalled_iff {s : System σ} {handle : Handle} :
    s.isInstalled handle = true ↔ s.table.owner? handle.key = some handle := by
  rw [isInstalled, decide_eq_true_eq]

variable {s : System σ} (h : s.InOrder)

include h

/-- **An interceptor is installed just if it owns an operation**, and that is then the one it
was created for. -/
theorem InOrder.isInstalled_iff_owner {handle : Handle} :
    s.isInstalled handle = true ↔ ∃ key, s.table.owner? key = some handle := by
  rw [isInstalled_iff]
  constructor
  · exact fun ho => ⟨handle.key, ho⟩
  · rintro ⟨key, ho⟩
    rwa [h.sound.key_eq ho]

theorem InOrder.mem_installed_iff {handle : Handle} :
    handle ∈ s.installed ↔ s.table.owner? handle.key = some handle := by
  rw [installed, List.mem_filter, isInstalled_iff]
  constructor
  · exact fun hh => hh.2
  · intro ho
    obtain ⟨i, hi, -, hkey⟩ := h.live handle.key handle ho
    exact ⟨mem_handles_iff.mpr ⟨i, hi, hkey⟩, ho⟩

omit h in
theorem nodup_installed (s : System σ) : s.installed.Nodup :=
  s.nodup_handles.filter _

/-- No two installed interceptors are for the same operation. -/
theorem InOrder.nodup_keys_installed : (s.installed.map Handle.key).Nodup := by
  refine s.nodup_installed.map_on fun a ha b hb he => ?_
  rw [h.mem_installed_iff] at ha hb
  rw [he, hb] at ha
  exact (Option.some.inj ha).symm

end System

namespace Table

variable {table : Table σ} {key : Key}

/-- **The listing of intercepted operations** has those that somebody owns. -/
theorem mem_intercepted_iff : key ∈ table.intercepted ↔ ∃ owner, table.owner? key = some owner := by
  rw [intercepted, List.mem_mergeSort]
  constructor
  · intro hmem
    obtain ⟨⟨key', slot⟩, hentry, rfl⟩ := List.mem_map.mp hmem
    obtain ⟨hin, hcapture⟩ := List.mem_filter.mp hentry
    obtain ⟨capture, hcapture⟩ : ∃ capture, slot.capture = some capture :=
      Option.isSome_iff_exists.mp hcapture
    have hfind : table.find? key' = some slot := Directory.find?_eq_some_iff.mpr hin
    exact ⟨capture.owner, by simp [owner?, hfind, Slot.owner?, hcapture]⟩
  · rintro ⟨owner, ho⟩
    obtain ⟨slot, hfind, hslot⟩ := Option.bind_eq_some_iff.mp ho
    obtain ⟨capture, hcapture, -⟩ := Option.map_eq_some_iff.mp hslot
    have hin : (key, slot) ∈ table.entries := Directory.find?_eq_some_iff.mp hfind
    exact List.mem_map.mpr ⟨(key, slot), List.mem_filter.mpr ⟨hin, by simp [hcapture]⟩, rfl⟩

theorem nodup_intercepted (table : Table σ) : table.intercepted.Nodup := by
  rw [intercepted, (List.mergeSort_perm _ _).nodup_iff]
  exact table.nodup.sublist (List.filter_sublist.map Prod.fst)

theorem mem_operations_iff : key ∈ table.operations ↔ key ∈ table.keys := by
  rw [operations, List.mem_mergeSort]

/-- Intercepted operations are defined. -/
theorem intercepted_subset (table : Table σ) : table.intercepted ⊆ table.operations := by
  intro key hmem
  obtain ⟨owner, ho⟩ := mem_intercepted_iff.mp hmem
  obtain ⟨slot, hfind, -⟩ := Option.bind_eq_some_iff.mp ho
  rw [mem_operations_iff, ← Directory.isSome_find?_iff, hfind]
  rfl

end Table

/-- **The intercepted operations are those of the installed interceptors**, each once. -/
theorem System.InOrder.intercepted_perm {s : System σ} (h : s.InOrder) :
    s.table.intercepted.Perm (s.installed.map Handle.key) := by
  rw [List.perm_ext_iff_of_nodup s.table.nodup_intercepted h.nodup_keys_installed]
  intro key
  rw [Table.mem_intercepted_iff, List.mem_map]
  constructor
  · rintro ⟨owner, ho⟩
    obtain rfl := h.sound.key_eq ho
    exact ⟨owner, h.mem_installed_iff.mpr ho, rfl⟩
  · rintro ⟨handle, hmem, rfl⟩
    exact ⟨handle, h.mem_installed_iff.mp hmem⟩

/-- **Owners and installed interceptors are in step.** At every moment of every course of
events that starts with nothing:

* the owner of an operation is a live interceptor that was created for just this operation;
* an interceptor is installed just if it owns an operation;
* the intercepted operations are listed once each, all of them are defined, and they are
  those of the installed interceptors, of which there are just as many;
* a step of one interceptor, whatever it comes to, leaves the slot of every operation that
  another one owns as it is, and makes no other one an owner. -/
theorem ownership_of_history (clock : Clock) (memory : σ) (threads : List (Thread σ α))
    (turns : List Nat) :
    let s := ((⟨threads, .start clock memory⟩ : Crew σ α).follow turns).system
    (∀ key owner, s.table.owner? key = some owner → owner.key = key ∧ s.IsLive owner) ∧
      (∀ handle, s.isInstalled handle = true ↔ ∃ key, s.table.owner? key = some handle) ∧
      (s.table.intercepted.Nodup ∧ s.table.intercepted ⊆ s.table.operations ∧
        s.table.intercepted.Perm (s.installed.map Handle.key) ∧
        s.table.intercepted.length = s.installed.length) ∧
      ∀ (r : Request) (bodies : r.Body → Program σ) (handle other : Handle),
        r.actor? = some handle → other ≠ handle →
          let s' := (r.perform bodies s).2
          (∀ key, s'.table.owner? key = some other ↔ s.table.owner? key = some other) ∧
            ∀ key, s.table.owner? key = some other → s'.table.find? key = s.table.find? key := by
  intro s
  have h : s.InOrder := .follow clock memory threads turns
  refine ⟨fun key owner ho => ⟨h.sound.key_eq ho, h.live key owner ho⟩,
    fun handle => h.isInstalled_iff_owner, ⟨s.table.nodup_intercepted, s.table.intercepted_subset,
      h.intercepted_perm, ?_⟩, ?_⟩
  · rw [h.intercepted_perm.length_eq, List.length_map]
  · intro r bodies handle other hr hne s'
    have hkeeps : ∀ key, s.table.owner? key = some other →
        s'.table.find? key = s.table.find? key := fun key ho => r.find?_of_actor hr bodies hne ho
    refine ⟨fun key => ⟨r.owner?_of_actor hr bodies h.sound hne, fun ho => ?_⟩, hkeeps⟩
    rw [Table.owner?, hkeeps key ho]
    exact ho

end Interception
