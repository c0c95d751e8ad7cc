import Interception.Proofs.GivingBack
import Interception.Proofs.SettingUp

/-!
# All targets or none

Targets are timed one after the other, and any of them may be refused. Then everything that was
done is undone, and no slot shows that anything had been tried
(`Interception.timeTargets_of_history`).

What undoes it are the interceptors themselves, as they are given up: first the one that was
refused, and then those before it. The first must not give anything back. Its operation may be
owned by an interceptor that was there all along or by one for an earlier, equal target, and both
are others, because a new interceptor has a number of its own (`System.InOrder.number_lt`). Each of
those that follow finds in its slot what it had put there, and so puts back what it had found
(`System.Timed.find?_without`).

| what happens | where |
|---|---|
| the first target that is refused, and why | `System.timeEach_cases` |
| slots of timed operations are sound | `System.Timed.sound` |
| giving up those who time gives back the table | `System.Timed.table_dropAll` |
-/

namespace Interception

variable {σ α : Type}

namespace System

/-- **Owners were created before any interceptor that is created now.** -/
theorem InOrder.number_lt {s : System σ} (h : s.InOrder) {key : Key} {owner : Handle}
    (ho : s.table.owner? key = some owner) : owner.number < s.interceptors.length := by
  obtain ⟨i, hi, -⟩ := h.live key owner ho
  obtain ⟨hlt, -⟩ := List.getElem?_eq_some_iff.mp hi
  exact hlt

namespace Timed

variable {enabled : Bool} {collector : CollectorId} {s s' : System σ} {handles : List Handle}

/-- An operation is either that of an interceptor that times it, or it is as before. -/
theorem cases_find? (h : Timed enabled collector s handles s')
    (havailable : s.table.Available (handles.map Handle.key)) (key : Key) :
    (∃ handle ∈ handles, handle.key = key ∧ ∃ given, s.table.find? key = some (.free given) ∧
      s'.table.find? key = some ((Slot.free given).interceptedBy handle)) ∨
    (∀ handle ∈ handles, handle.key ≠ key) ∧ s'.table.find? key = s.table.find? key := by
  by_cases hkey : ∃ handle ∈ handles, handle.key = key
  · obtain ⟨handle, hmem, rfl⟩ := hkey
    have htarget : handle.key ∈ handles.map Handle.key := List.mem_map_of_mem hmem
    obtain ⟨slot, hfind⟩ := Option.isSome_iff_exists.mp (havailable.defined _ htarget)
    have hslot : slot.owner? = none := by
      have hunowned := havailable.unowned _ htarget
      rwa [Table.owner?, hfind, Option.bind_some] at hunowned
    rw [Slot.eq_free_of_owner?_eq_none hslot] at hfind
    refine .inl ⟨handle, hmem, rfl, slot.base, hfind, ?_⟩
    rw [h.owned handle hmem, hfind, Option.map_some]
  · have hother : ∀ handle ∈ handles, handle.key ≠ key := fun handle hmem he =>
      hkey ⟨handle, hmem, he⟩
    exact .inr ⟨hother, h.others key hother⟩

/-- Timing operations keeps slots sound. -/
theorem sound (h : Timed enabled collector s handles s')
    (havailable : s.table.Available (handles.map Handle.key)) (hs : s.table.Sound) :
    s'.table.Sound := by
  intro key slot hslot
  rcases h.cases_find? havailable key with ⟨handle, -, rfl, given, -, hfind⟩ | ⟨-, hfind⟩
  · rw [hfind] at hslot
    obtain rfl := Option.some.inj hslot
    exact .intercepted given handle rfl
  · rw [hfind] at hslot
    exact hs key slot hslot

/-- Each interceptor that times an operation owns it. -/
theorem isInstalled (h : Timed enabled collector s handles s')
    (havailable : s.table.Available (handles.map Handle.key)) {handle : Handle}
    (hmem : handle ∈ handles) : s'.isInstalled handle = true := by
  obtain ⟨slot, hfind⟩ :=
    Option.isSome_iff_exists.mp (havailable.defined _ (List.mem_map_of_mem hmem))
  rw [System.isInstalled, Table.owner?, h.owned handle hmem, hfind]
  simp

/-- **What was timed is given back as it was**, whoever else is given up with those who time it,
as long as they are new. -/
theorem find?_without (h : Timed enabled collector s handles s')
    (havailable : s.table.Available (handles.map Handle.key)) (hs : s.InOrder)
    {order : List Handle} (hall : ∀ handle ∈ handles, handle ∈ order)
    (hnew : ∀ handle ∈ order, s.interceptors.length ≤ handle.number) (key : Key) :
    (s'.table.without order).find? key = s.table.find? key := by
  rcases h.cases_find? havailable key with ⟨handle, hmem, -, given, hbefore, hfind⟩ | ⟨-, hfind⟩
  · have howner : s'.table.owner? key = some handle := by
      rw [Table.owner?, hfind, Option.bind_some, Slot.owner?_interceptedBy]
    rw [Table.find?_without_of_mem howner (hall handle hmem), hfind, hbefore]
    rfl
  · rw [Table.find?_without_of_forall_not_mem, hfind]
    intro owner ho hmem
    rw [Table.owner?, hfind] at ho
    have hold := hs.number_lt ho
    have hle := hnew owner hmem
    omega

/-- So giving them up leaves the table that was there before. -/
theorem table_dropAll (h : Timed enabled collector s handles s')
    (havailable : s.table.Available (handles.map Handle.key)) (hs : s.InOrder) {now : System σ}
    (hnow : now.table = s'.table) {order : List Handle} (hall : ∀ handle ∈ handles, handle ∈ order)
    (hnew : ∀ handle ∈ order, s.interceptors.length ≤ handle.number)
    (hkeys : (now.dropAll order).table.keys = s.table.keys) :
    (now.dropAll order).table = s.table := by
  have hsound : now.table.Sound := hnow ▸ h.sound havailable hs.sound
  refine Directory.ext_find? hkeys fun key => ?_
  rw [System.table_dropAll hsound, hnow]
  exact h.find?_without havailable hs hall hnew key

end Timed

end System

/-- **Targets are timed all together or not at all.** At every moment of every course of events
that starts with nothing, for any configuration, valid or not, and any collector:

* timing the targets succeeds exactly if they are all defined, nobody owns any of them, and none
  comes twice;
* when it succeeds, there is one new interceptor for each target, in order, which is installed, has
  its flag from the configuration and hands records to the collector and nothing else, while every
  other operation is as before; and giving up these interceptors, in whatever order, leaves the
  table that was there before;
* when it fails, it says what is wrong with the first target that cannot be taken over together
  with those before it, and leaves the table that was there before, the interceptors that there
  were, and the collectors. -/
theorem timeTargets_of_history (clock : Clock) (memory : σ) (threads : List (Thread σ α))
    (turns : List Nat) (config : Config) (collector : CollectorId) :
    let crew : Crew σ α := ⟨threads, .start clock memory⟩
    let s := (crew.follow turns).system
    let answer := (s.timeTargets config collector).1
    let s' := (s.timeTargets config collector).2
    ((∃ handles, answer = .ok handles) ↔ s.table.Available config.targets) ∧
      (∀ handles, answer = .ok handles →
        handles.map Handle.key = config.targets ∧
          (∀ handle ∈ handles, s.interceptors.length ≤ handle.number ∧
            s'.isInstalled handle = true) ∧
          System.Timed config.enabledByDefault collector s handles s' ∧
          ∀ order : List Handle, order.Perm handles → (s'.dropAll order).table = s.table) ∧
      ∀ error, answer = .error error →
        (∃ before target after, config.targets = before ++ target :: after ∧
          s.table.Available before ∧ s.table.Refuses before target error) ∧
          s'.table = s.table ∧ s.interceptors <+: s'.interceptors ∧
            s'.collectors = s.collectors := by
  intro crew s answer s'
  have hinOrder : s.InOrder := .follow clock memory threads turns
  have hkeys : s'.table.keys = s.table.keys := (System.handover_timeEach ..).keys_eq
  have hcases := System.timeEach_cases config collector config.targets [] s
    fun _ _ _ ho => hinOrder.number_lt ho
  rcases hcases with ⟨handles, timed, hrun, htargets, hall, htimed, hnew⟩ |
    ⟨before, target, after, error, handles, timed, htargets, hbefore, hall, hrefuses, htimed, hnew,
      hrun⟩
  · have hanswer : answer = .ok handles := congrArg Prod.fst hrun
    obtain rfl : s' = timed := congrArg Prod.snd hrun
    rw [← htargets] at hall
    refine ⟨iff_of_true ⟨handles, hanswer⟩ (htargets ▸ hall), fun handles' hok => ?_,
      fun error herror => ?_⟩
    · obtain rfl := Except.ok.inj (hanswer.symm.trans hok)
      refine ⟨htargets, fun handle hmem => ⟨hnew handle hmem, htimed.isInstalled hall hmem⟩,
        htimed, fun order horder => ?_⟩
      exact htimed.table_dropAll hall hinOrder rfl (fun _ => horder.mem_iff.mpr)
        (fun handle hmem => hnew handle (horder.mem_iff.mp hmem))
        ((s'.handover_dropAll order).keys_eq.trans hkeys)
    · cases hanswer.symm.trans herror
  · have hanswer : answer = .error error := congrArg Prod.fst hrun
    -- the one that was refused is given up first, and then those that time
    have hundone : s' = (timed.withTiming config.enabledByDefault collector target).dropAll
        (⟨timed.interceptors.length, target⟩ :: handles) := congrArg Prod.snd hrun
    have hlater : ∀ handle ∈ ⟨timed.interceptors.length, target⟩ :: handles,
        s.interceptors.length ≤ handle.number :=
      List.forall_mem_cons.mpr ⟨htimed.interceptors_prefix.length_le, hnew⟩
    rw [← hbefore] at hall
    refine ⟨iff_of_false ?_ ?_, fun handles' hok => ?_, fun error' herror => ?_⟩
    · rintro ⟨handles', hok⟩
      cases hanswer.symm.trans hok
    · exact htargets ▸ hrefuses.not_available after
    · cases hanswer.symm.trans hok
    · obtain rfl := Except.error.inj (hanswer.symm.trans herror)
      rw [hundone] at hkeys ⊢
      refine ⟨⟨before, target, after, htargets, hbefore ▸ hall, hrefuses⟩, ?_, ?_, ?_⟩
      · have htable : (timed.withTiming config.enabledByDefault collector target).table =
            timed.table := rfl
        exact htimed.table_dropAll hall hinOrder htable (fun _ => List.mem_cons_of_mem _) hlater
          hkeys
      · exact System.interceptors_prefix_dropAll
          (htimed.interceptors_prefix.trans (List.prefix_append _ _)) hlater
      · exact (System.collectors_dropAll _ _).trans htimed.collectors_eq

end Interception
