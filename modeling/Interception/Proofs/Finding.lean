import Interception.Proofs.Instrumented

/-!
# Finding an interceptor of a group

Whoever keeps a group can ask it for the interceptor of an operation, to switch it on or off or to
give it another hook, and means the one that calls go through. The group answers with the first one
that was attached for the operation (`Instrumentation.find?`). That need not be the one that owns
the operation: others may have given the operation back, and then a second interceptor can be
attached to it. From then on the first one is in the way.

| of the interceptors of a group for one operation | which one it is |
|---|---|
| the one that is found | the first |
| the one that owns the operation | the last, unless others installed one (`LastOwns`) |

So the one that is found is the one that calls go through just if there is no other
(`Interception.finding_of_history`), and otherwise whatever is done to it, no call notices.
-/

namespace Interception

variable {σ α : Type}

/-! ### What is found -/

namespace Instrumentation

variable {group : Instrumentation}

/-- In a group for its type, an interceptor is found by its whole key. -/
theorem find?_eq_find?_key
    (htyped : ∀ handle ∈ group.handles, handle.key.typeName = group.typeName) (operation : String)
    (level : Level) :
    group.find? operation level =
      group.handles.find? fun handle => handle.key = group.key operation level := by
  refine List.find?_congr fun handle hmem => ?_
  have htype := htyped handle hmem
  obtain ⟨number, typeName, operation', level'⟩ := handle
  obtain rfl : typeName = group.typeName := htype
  simp [key]

/-- **What is found for an operation** is the first interceptor of the group for it. -/
theorem exists_find?_eq_first
    (htyped : ∀ handle ∈ group.handles, handle.key.typeName = group.typeName) {operation : String}
    {level : Level} {owner : Handle} (hmem : owner ∈ group.handles)
    (hkey : owner.key = group.key operation level) :
    ∃ found ∈ group.handles, group.find? operation level = some found ∧ found.key = owner.key ∧
      (found = owner ↔ ∃ before after, group.handles = before ++ owner :: after ∧
        ∀ other ∈ before, other.key ≠ owner.key) := by
  rw [find?_eq_find?_key htyped, ← hkey]
  have hfirst (handle : Handle) :
      (group.handles.find? fun other => other.key = owner.key) = some handle ↔
        handle.key = owner.key ∧ ∃ before after, group.handles = before ++ handle :: after ∧
          ∀ other ∈ before, other.key ≠ owner.key := by
    simp [List.find?_eq_some_iff_append]
  cases hfind : group.handles.find? fun other => other.key = owner.key with
  | none =>
    have hnot := List.find?_eq_none.mp hfind owner hmem
    simp at hnot
  | some found =>
    refine ⟨found, List.mem_of_find?_eq_some hfind, rfl, ((hfirst found).mp hfind).1, ?_, ?_⟩
    · rintro rfl
      exact ((hfirst found).mp hfind).2
    · exact fun hsplit => Option.some.inj (hfind.symm.trans ((hfirst owner).mpr ⟨rfl, hsplit⟩))

end Instrumentation

/-! ### Who owns the operation -/

/-- **Of the interceptors of a group, the one that owns an operation is the last one for it.** -/
def Instrumentation.LastOwns (group : Instrumentation) (table : Table σ) : Prop :=
  ∀ before owner after, group.handles = before ++ owner :: after →
    table.owner? owner.key = some owner → ∀ other ∈ after, other.key ≠ owner.key

/-- **A group that is left alone**: nobody installs any of its interceptors again. -/
def History.LeavesAlone (history : List (Deed σ)) (group : Instrumentation) : Prop :=
  ∀ d ∈ history, ∀ handle ∈ group.handles, d.asksToInstall? ≠ some handle

/-- An interceptor of a group owns what it owned before, if it is not installed again. -/
theorem Deed.owner?_of_kept {d : Deed σ} (h : d.before.InOrder) {handle : Handle}
    (hlive : d.before.IsLive handle) (hd : d.asksToInstall? ≠ some handle) {key : Key}
    (ho : d.after.table.owner? key = some handle) : d.before.table.owner? key = some handle := by
  rcases Deed.owner?_of_after h ho with hold | hasks | hnew
  · exact hold
  · exact absurd hasks hd
  · exact absurd hlive.number_lt (Nat.not_lt.mpr hnew)

namespace Instrumentation.LastOwns

variable {d : Deed σ} (h : d.before.InOrder) {group : Instrumentation}
  (hlive : ∀ handle ∈ group.handles, d.before.IsLive handle)
  (hd : ∀ handle ∈ group.handles, d.asksToInstall? ≠ some handle)
  (hlast : group.LastOwns d.before.table)

include h hlive hd hlast

/-- Nothing is attached to the group. -/
theorem after : group.LastOwns d.after.table := by
  intro before owner after hsplit ho
  have hmem : owner ∈ group.handles := hsplit ▸ by simp
  exact hlast before owner after hsplit
    (Deed.owner?_of_kept h (hlive owner hmem) (hd owner hmem) ho)

/-- One more interceptor is attached, and takes over its operation. -/
theorem attach {new : Handle} (hnew : new ∉ group.handles)
    (htaken : d.after.table.owner? new.key = some new) :
    LastOwns { group with handles := group.handles ++ [new] } d.after.table := by
  intro before owner after hsplit ho
  rcases List.eq_nil_or_concat after with rfl | ⟨rest, last, rfl⟩
  · exact fun other hother => absurd hother List.not_mem_nil
  -- the owner came before the new one, so it is one of the others
  rw [List.concat_eq_append, ← List.cons_append, ← List.append_assoc] at hsplit
  obtain ⟨hhandles, hlast'⟩ := List.append_inj' hsplit rfl
  obtain rfl := List.singleton_inj.mp hlast'
  rw [List.concat_eq_append]
  refine List.forall_mem_append.mpr
    ⟨after h hlive hd hlast before owner rest hhandles ho, List.forall_mem_singleton.mpr ?_⟩
  intro hkey
  rw [hkey, ho] at htaken
  obtain rfl := Option.some.inj htaken
  exact hnew (hhandles ▸ by simp)

end Instrumentation.LastOwns

/-- **The last one is the owner**, in every group that is kept and left alone. -/
def History.LastOwn (history : List (Deed σ)) (s : System σ) : Prop :=
  ∀ kept, Keeps history kept → ∀ group ∈ kept, LeavesAlone history group → group.LastOwns s.table

theorem Instrumentation.lastOwns_of_eq_nil {group : Instrumentation} (h : group.handles = [])
    (table : Table σ) : group.LastOwns table := by
  intro before owner after hsplit
  rw [h] at hsplit
  simp at hsplit

namespace History.LastOwn

/-- One more deed is done. -/
theorem deed {history : List (Deed σ)} {d : Deed σ} (hupholds : Upholds history d.before)
    (h : LastOwn history d.before) : LastOwn (history ++ [d]) d.after := by
  intro kept hkept group hgroup halone
  obtain ⟨earlier, now, types, hearlier, hd, rfl⟩ := hkept.before
  have hholds := hupholds.holds earlier hearlier
  have hnow : ∀ handle ∈ group.handles, d.asksToInstall? ≠ some handle :=
    halone d (List.mem_append_right _ (List.mem_singleton_self d))
  -- whoever was kept as it is has its last one as the owner
  have hstay : group ∈ earlier → group.LastOwns d.after.table := fun hmem =>
    .after hupholds.inOrder (hholds.live group hmem) hnow
      (h earlier hearlier group hmem fun d hd => halone d (List.mem_append_left _ hd))
  rcases List.mem_append.mp hgroup with hgroup | hgroup
  · cases hd with
    | other hother => exact hstay hgroup
    | givenUp given before after =>
      refine hstay (List.mem_append.mpr ?_)
      exact (List.mem_append.mp hgroup).imp id (List.mem_cons_of_mem _)
    | removed given before after =>
      rcases List.mem_append.mp hgroup with hin | hin
      · exact hstay (List.mem_append_left _ hin)
      rcases List.mem_cons.mp hin with rfl | hin
      · exact Instrumentation.lastOwns_of_eq_nil rfl _
      · exact hstay (List.mem_append_right _ (List.mem_cons_of_mem _ hin))
    | @attached s given group' operation level slot bodies before after hattach =>
      rcases List.mem_append.mp hgroup with hin | hin
      · exact hstay (List.mem_append_left _ hin)
      rcases List.mem_cons.mp hin with rfl | hin
      have hgiven : given ∈ before ++ given :: after := by simp
      obtain ⟨table, hintercept, rfl, hran⟩ := System.exists_of_attach_eq_ok hattach
      refine .attach hupholds.inOrder (hholds.live given hgiven)
        (fun handle hmem => hnow handle (List.mem_append_left _ hmem))
        (h _ hearlier given hgiven fun d' hd' handle hmem =>
          halone d' (List.mem_append_left _ hd') handle (List.mem_append_left _ hmem)) ?_ ?_
      · exact fun hold => absurd (hholds.live given hgiven _ hold).number_lt (Nat.lt_irrefl _)
      · obtain ⟨old, -, -, rfl⟩ := Table.intercept_eq_ok_iff.mp hintercept
        show (s.attach given operation level slot bodies).2.table.owner? _ = _
        rw [hran]
        exact (Table.owner?_put ..).trans (if_pos rfl)
      · exact hstay (List.mem_append_right _ (List.mem_cons_of_mem _ hin))
  · exact Instrumentation.lastOwns_of_eq_nil (handles_of_mem_newGroups hgroup) _

/-- **The last one is the owner at every moment** of every course of events that starts with
nothing. -/
theorem follow (clock : Clock) (memory : σ) (threads : List (Thread σ α)) (turns : List Nat) :
    let crew : Crew σ α := ⟨threads, .start clock memory⟩
    LastOwn (crew.history turns) (crew.follow turns).system := by
  have hstart : LastOwn [] (System.start clock memory) := by
    intro kept hkept group hgroup _
    obtain ⟨types, rfl⟩ := hkept.of_nil
    exact Instrumentation.lastOwns_of_eq_nil (handles_of_mem_newGroups hgroup) _
  exact (Crew.start_induction (fun history s => Upholds history s ∧ LastOwn history s)
    (fun _ _ h => ⟨h.1.deed, deed h.1 h.2⟩) ⟨.start clock memory, hstart⟩ threads turns).2

end History.LastOwn

/-! ### What calls notice -/

namespace System

variable {s : System σ} {handle other : Handle}

/-- Whether one interceptor is enabled is a matter of its own flag. -/
theorem enabled_setEnabled (h : s.IsLive handle) (hother : s.IsLive other) (enabled : Bool) :
    (s.setEnabled handle enabled).enabled other =
      if handle = other then enabled else s.enabled other := by
  obtain ⟨i, hi, -, hkey⟩ := hother
  rw [System.enabled, setEnabled, interceptors_adjustInterceptor h, Interceptor.changeAmong,
    List.getElem?_mapIdx, System.enabled, hi, Option.map_some, hkey]
  by_cases he : handle = other
  · simp [he]
  · simp [he, Ne.symm he]

/-- So are its hooks. -/
theorem hooks_setHook (h : s.IsLive handle) (hother : s.IsLive other) (slot : HookSlot)
    (body : slot.Input → Program σ) :
    (s.setHook handle slot body).hooks other =
      if handle = other then (s.hooks other).set slot body else s.hooks other := by
  obtain ⟨i, hi, -, hkey⟩ := hother
  rw [hooks, setHook, interceptors_adjustInterceptor h, Interceptor.changeAmong,
    List.getElem?_mapIdx, hooks, hi, Option.map_some, hkey]
  by_cases he : handle = other
  · simp [he]
  · simp [he, Ne.symm he]

end System

/-- **What a group finds for an operation that one of its interceptors owns.** At every moment of
every course of events that starts with nothing, and for every group that is then kept, the
operation is looked up as the trampoline of its owner around what was given last, and the group
finds an interceptor for it. This

* is the owner just if no other interceptor of the group for the operation was attached before the
  owner;
* and as long as nobody installs interceptors of the group again, it is the owner just if the group
  has no other interceptor for the operation at all.

Switching the one that is found on or off, or giving it a hook, does that to the owner if they are
the same, and otherwise leaves the flag and the hooks of the owner, which are all that a call asks
for, as they are. -/
theorem finding_of_history (clock : Clock) (memory : σ) (threads : List (Thread σ α))
    (turns : List Nat) (kept : List Instrumentation) :
    let crew : Crew σ α := ⟨threads, .start clock memory⟩
    let s := (crew.follow turns).system
    History.Keeps (crew.history turns) kept → ∀ group ∈ kept, ∀ operation level,
      let key := group.key operation level
      ∀ owner ∈ group.handles, s.table.owner? key = some owner →
        (∃ base, History.base? (crew.history turns) key = some base ∧
          s.table.lookup key = .ok (.trampoline owner base)) ∧
          ∃ found ∈ group.handles, group.find? operation level = some found ∧
            (found = owner ↔ ∃ before after, group.handles = before ++ owner :: after ∧
              ∀ other ∈ before, other.key ≠ key) ∧
            (History.LeavesAlone (crew.history turns) group →
              (found = owner ↔ ∀ other ∈ group.handles, other.key = key → other = owner)) ∧
            (∀ enabled, (s.setEnabled found enabled).enabled owner =
              if found = owner then enabled else s.enabled owner) ∧
            ∀ slot body, (s.setHook found slot body).hooks owner =
              if found = owner then (s.hooks owner).set slot body else s.hooks owner := by
  intro crew s hkept group hgroup operation level key owner hmem ho
  have haccounts : History.Accounts (crew.history turns) s := .follow clock memory threads turns
  have hupholds : History.Upholds (crew.history turns) s := .follow clock memory threads turns
  have hholds := hupholds.holds kept hkept
  have hlive := hholds.live group hgroup
  have hkey : owner.key = key := hupholds.inOrder.sound.key_eq ho
  obtain ⟨found, hfound, hfind, hfoundKey, hfirst⟩ :=
    Instrumentation.exists_find?_eq_first (hholds.typed group hgroup) hmem hkey
  rw [hkey] at hfirst hfoundKey
  refine ⟨?_, found, hfound, hfind, hfirst, fun halone => ⟨?_, fun hone => ?_⟩,
    System.enabled_setEnabled (hlive found hfound) (hlive owner hmem),
    System.hooks_setHook (hlive found hfound) (hlive owner hmem)⟩
  · obtain ⟨slot, hslot, hslotOwner⟩ := Option.bind_eq_some_iff.mp ho
    obtain ⟨base, hbase, rfl | ⟨other, -, rfl⟩⟩ := haccounts.slot_cases hslot
    · cases hslotOwner
    · obtain rfl := Option.some.inj hslotOwner
      exact ⟨base, hbase, by rw [Table.lookup, hslot]; rfl⟩
  -- none comes before the owner, and none comes after it
  · intro he
    obtain ⟨before, after, hsplit, hbefore⟩ := hfirst.mp he
    have hlast := History.LastOwn.follow clock memory threads turns kept hkept group hgroup halone
      before owner after hsplit (hkey.symm ▸ ho)
    intro other hother hotherKey
    rw [hsplit, List.mem_append, List.mem_cons] at hother
    rcases hother with hin | rfl | hin
    · exact absurd hotherKey (hbefore other hin)
    · rfl
    · exact absurd (hotherKey.trans hkey.symm) (hlast other hin)
  · exact hone found hfound hfoundKey

namespace Lamp

theorem leavesAlone_evening : History.LeavesAlone (crew.history (List.replicate 4 0)) group := by
  intro d hd handle _ hasks
  have hnone : (crew.history (List.replicate 4 0)).map Deed.asksToInstall? =
      List.replicate 4 none := rfl
  have hmem : d.asksToInstall? ∈ List.replicate 4 none := hnone ▸ List.mem_map_of_mem hd
  cases hasks.symm.trans (List.eq_of_mem_replicate hmem)

/-- In the evening the interceptor is found that no call goes through: to switch it off switches
nothing off. -/
theorem finding_of_evening :
    let s := (crew.follow (List.replicate 4 0)).system
    ∃ found, group.find? "light" .onType = some found ∧ found ≠ ⟨1, key⟩ ∧
      (s.setEnabled found false).enabled ⟨1, key⟩ = true := by
  have howner : (⟨1, key⟩ : Handle) ∈ group.handles := by simp [group]
  obtain ⟨-, found, -, hfind, -, hiff, henabled, -⟩ :=
    finding_of_history (fun _ => .atEpoch) () [evening.thread 1] (List.replicate 4 0) [group]
      keeps_evening group (List.mem_singleton_self group) "light" .onType ⟨1, key⟩ howner rfl
  have hne : found ≠ ⟨1, key⟩ := fun he => by
    have hfirst : (⟨0, key⟩ : Handle) ∈ group.handles := by simp [group]
    have hsame := (hiff leavesAlone_evening).mp he ⟨0, key⟩ hfirst rfl
    simp at hsame
  refine ⟨found, hfind, hne, (henabled false).trans ?_⟩
  rw [if_neg hne]
  rfl

/-- An interceptor of the group owns the operation, and another one is found. -/
theorem evening_finds_other :
    let s := (crew.follow (List.replicate 4 0)).system
    History.Keeps (crew.history (List.replicate 4 0)) [group] ∧
      History.LeavesAlone (crew.history (List.replicate 4 0)) group ∧
      ¬∀ owner ∈ group.handles, s.table.owner? (group.key "light" .onType) = some owner →
        group.find? "light" .onType = some owner := by
  refine ⟨keeps_evening, leavesAlone_evening, fun h => ?_⟩
  have hfound : group.find? "light" .onType = some ⟨1, key⟩ := h ⟨1, key⟩ (by simp [group]) rfl
  exact absurd hfound (by decide)

end Lamp

end Interception
