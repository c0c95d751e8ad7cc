import Interception.Proofs.AllOrNothing
import Interception.Proofs.Steps
import Mathlib.Data.List.Flatten

/-!
# Groups of interceptors that somebody keeps

The interceptors of a type are attached to it one by one, and whoever attaches them keeps
them together, as an `Instrumentation`. Any number of such groups may be kept at a time, for
the same type or for different ones, and nothing but the table connects them: operations are
given back, exchanged and defined anew around them, and other interceptors come and go.

A history says which groups are kept (`History.Keeps`): a group begins without interceptors,
and only who keeps it can attach more to it, remove those it has, or give them up. Through all
of this the groups stay in order (`History.Upholds.follow`): their interceptors have not been
given up, are for operations of the type of their group, and belong to one group, once. They
need not own their operations.

| what a deed may do to interceptors | what it never does |
|---|---|
| change them, or give some of them up | give up any other (`Deed.isLive_after`) |
| make owners of those it installs, or of new ones | make one of others (`Deed.owner?_of_after`) |
-/

namespace Interception

variable {σ α : Type}

/-! ### Attaching -/

/-- **An interceptor as it is attached**: it has one hook. -/
def Interceptor.attached (key : Key) (slot : HookSlot) (body : slot.Input → Program σ) :
    Interceptor σ :=
  { (Interceptor.fresh key : Interceptor σ) with hooks := Hooks.none.set slot body }

namespace System

/-- The interceptor that is created next for an operation. -/
def next (s : System σ) (key : Key) : Handle :=
  ⟨s.interceptors.length, key⟩

/-- The system with one more interceptor that has one hook, not yet installed. -/
def withAttached (s : System σ) (key : Key) (slot : HookSlot) (body : slot.Input → Program σ) :
    System σ :=
  { s with interceptors := s.interceptors ++ [.attached key slot body] }

/-- **Attaching an interceptor**: only the table decides whether that succeeds. -/
theorem attach_eq (s : System σ) (group : Instrumentation) (operation : String) (level : Level)
    (slot : HookSlot) (body : slot.Input → Program σ) :
    s.attach group operation level slot body =
      match s.table.intercept (s.next (group.key operation level)) with
      | .ok table =>
        (.ok { group with handles := group.handles ++ [s.next (group.key operation level)] },
          { s.withAttached (group.key operation level) slot body with table }.note
            (.installed (group.key operation level)))
      | .error error =>
        (.error error, (s.withAttached (group.key operation level) slot body).drop
          (s.next (group.key operation level))) := by
  have hready : (s.create (group.key operation level)).2.setHook
      (s.create (group.key operation level)).1 slot body =
        s.withAttached (group.key operation level) slot body :=
    adjustInterceptor_append (s.create (group.key operation level)).2 rfl rfl _
  have hlive : ((s.withAttached (group.key operation level) slot body).interceptor?
      (s.next (group.key operation level))).isSome = true := by
    simp [interceptor?, withAttached, next, Interceptor.attached, Interceptor.fresh]
  have hnext : (s.create (group.key operation level)).1 = s.next (group.key operation level) := rfl
  have htable : (s.withAttached (group.key operation level) slot body).table = s.table := rfl
  rw [attach]
  dsimp only
  cases h : s.table.intercept (s.next (group.key operation level)) with
  | ok table =>
    have hinstall : (s.withAttached (group.key operation level) slot body).install
        (s.next (group.key operation level)) =
          (.ok (), { s.withAttached (group.key operation level) slot body with table }.note
            (.installed (group.key operation level))) := by
      rw [install, if_pos hlive, htable, h, next]
    rw [hready, hnext, hinstall]
  | error error =>
    have hinstall : (s.withAttached (group.key operation level) slot body).install
        (s.next (group.key operation level)) =
          (.error error, s.withAttached (group.key operation level) slot body) := by
      rw [install, if_pos hlive, htable, h]
    rw [hready, hnext, hinstall]

/-- **An interceptor that is attached takes over its operation**, and the group has one more. -/
theorem exists_of_attach_eq_ok {s : System σ} {group group' : Instrumentation} {operation : String}
    {level : Level} {slot : HookSlot} {body : slot.Input → Program σ}
    (h : (s.attach group operation level slot body).1 = .ok group') :
    ∃ table, s.table.intercept (s.next (group.key operation level)) = .ok table ∧
      group' = { group with handles := group.handles ++ [s.next (group.key operation level)] } ∧
      (s.attach group operation level slot body).2 =
        { s.withAttached (group.key operation level) slot body with table }.note
          (.installed (group.key operation level)) := by
  rw [attach_eq] at h ⊢
  cases hintercept : s.table.intercept (s.next (group.key operation level)) with
  | ok table =>
    rw [hintercept] at h
    exact ⟨table, rfl, (Except.ok.inj h).symm, rfl⟩
  | error error =>
    rw [hintercept] at h
    cases h

/-- Whatever comes of it, the interceptors that there were are as before. -/
theorem interceptors_prefix_attach (s : System σ) (group : Instrumentation) (operation : String)
    (level : Level) (slot : HookSlot) (body : slot.Input → Program σ) :
    s.interceptors <+: (s.attach group operation level slot body).2.interceptors := by
  rw [attach_eq]
  split
  · exact List.prefix_append _ _
  · exact interceptors_prefix_drop (List.prefix_append _ _) (Nat.le_refl _)

end System

/-! ### Who becomes an owner -/

/-- Nobody is an owner without some interceptors but those who are otherwise. -/
theorem Table.owner?_without_eq_some_iff {table : Table σ} {handles : List Handle} {key : Key}
    {owner : Handle} :
    (table.without handles).owner? key = some owner ↔
      table.owner? key = some owner ∧ owner ∉ handles := by
  rw [owner?, owner?, find?_without]
  cases table.find? key with
  | none => simp
  | some slot =>
    rw [Option.map_some, Option.bind_some, Option.bind_some, Slot.without]
    split
    · next h =>
      obtain ⟨other, hmem, hother⟩ := h
      rw [Slot.owner?_restored, hother]
      refine iff_of_false (by simp) ?_
      rintro ⟨he, hnot⟩
      exact hnot (Option.some.inj he ▸ hmem)
    · next h => exact ⟨fun ho => ⟨ho, fun hmem => h ⟨owner, hmem, ho⟩⟩, fun ho => ho.1⟩

namespace System

variable {s : System σ} {key : Key} {owner : Handle}

/-- Defining an operation makes nobody an owner. -/
theorem ownersStay_define (s : System σ) (given : Key) (implementation : Implementation σ) :
    (s.define given implementation).2.table.OwnersStay s.table := by
  rcases s.define_cases given implementation with ⟨done, -, -, ht⟩ | ⟨error, he⟩
  · exact ht ▸ s.table.ownersStay_put_free given implementation
  · exact he ▸ .refl s.table

/-- Nor does exchanging its implementation. -/
theorem ownersStay_exchange (s : System σ) (given : Key) (implementation : Implementation σ) :
    (s.exchange given implementation).2.table.OwnersStay s.table := by
  rcases s.exchange_cases given implementation with ⟨old, -, -, ht⟩ | ⟨error, he⟩
  · exact ht ▸ s.table.ownersStay_put_free given implementation
  · exact he ▸ .refl s.table

variable (h : s.InOrder)

include h

/-- After interceptors of a type were removed, they own nothing, and nobody owns more. -/
theorem InOrder.table_removeInstrumentation (group : Instrumentation) :
    (s.removeInstrumentation group).2.table = s.table.without group.handles := by
  have hremoved : (System.removeEach group.handles s).2.table.Sound :=
    (h.removeEach group.handles).sound
  show ((System.removeEach group.handles s).2.dropAll group.handles).table = _
  rw [table_dropAll hremoved, table_removeEach h.sound, Table.without_without]
  exact Table.without_congr s.table fun owner => by simp

/-- Only the new interceptor may have become an owner. -/
theorem InOrder.owner?_attach {group : Instrumentation} {operation : String} {level : Level}
    {slot : HookSlot} {body : slot.Input → Program σ}
    (ho : (s.attach group operation level slot body).2.table.owner? key = some owner) :
    owner = s.next (group.key operation level) ∨ s.table.owner? key = some owner := by
  rw [attach_eq] at ho
  split at ho
  · next hintercept => exact Table.owner?_of_intercept hintercept ho
  · have hsound : (s.withAttached (group.key operation level) slot body).table.Sound := h.sound
    rw [table_drop hsound, Table.owner?_without_eq_some_iff] at ho
    exact .inr ho.1

/-- Timing targets leaves the interceptors that there were as they are, and makes no other
owners than the new ones. -/
theorem InOrder.timeTargets (config : Config) (collector : CollectorId) :
    s.interceptors <+: (s.timeTargets config collector).2.interceptors ∧
      ∀ key owner, (s.timeTargets config collector).2.table.owner? key = some owner →
        s.interceptors.length ≤ owner.number ∨ s.table.owner? key = some owner := by
  -- while they are timed, whoever owns something is new or owned it before
  have howner {handles : List Handle} {timed : System σ}
      (htimed : Timed config.enabledByDefault collector s handles timed)
      (hall : s.table.Available (handles.map Handle.key))
      (hnew : ∀ handle ∈ handles, s.interceptors.length ≤ handle.number) {key : Key}
      {owner : Handle} (ho : timed.table.owner? key = some owner) :
      s.interceptors.length ≤ owner.number ∨ s.table.owner? key = some owner := by
    rcases htimed.cases_find? hall key with ⟨handle, hmem, -, given, -, hfind⟩ | ⟨-, hfind⟩
    · rw [Table.owner?, hfind, Option.bind_some, Slot.owner?_interceptedBy] at ho
      exact .inl (Option.some.inj ho ▸ hnew handle hmem)
    · rw [Table.owner?, hfind] at ho
      exact .inr ho
  rcases timeEach_cases config collector config.targets [] s fun _ _ _ ho => h.number_lt ho with
    ⟨handles, timed, hrun, htargets, hall, htimed, hnew⟩ |
    ⟨before, target, after, error, handles, timed, -, hbefore, hall, -, htimed, hnew, hrun⟩
  · rw [System.timeTargets, hrun]
    exact ⟨htimed.interceptors_prefix, fun key owner => howner htimed (htargets ▸ hall) hnew⟩
  · rw [← hbefore] at hall
    rw [System.timeTargets, hrun]
    have hsound : (timed.withTiming config.enabledByDefault collector target).table.Sound :=
      htimed.sound hall h.sound
    have hlater : ∀ handle ∈ ⟨timed.interceptors.length, target⟩ :: handles,
        s.interceptors.length ≤ handle.number :=
      List.forall_mem_cons.mpr ⟨htimed.interceptors_prefix.length_le, hnew⟩
    refine ⟨interceptors_prefix_dropAll (s := timed.withTiming config.enabledByDefault collector
      target) (htimed.interceptors_prefix.trans (List.prefix_append _ _)) hlater,
      fun key owner ho => ?_⟩
    have hdropped : ((timed.withTiming config.enabledByDefault collector target).dropAll
        (⟨timed.interceptors.length, target⟩ :: handles)).table.owner? key = some owner := ho
    rw [table_dropAll hsound, Table.owner?_without_eq_some_iff] at hdropped
    exact howner htimed hall hnew hdropped.1

end System

/-- The interceptor that a deed is to install, if it asks for just that. -/
def Deed.asksToInstall? (d : Deed σ) : Option Handle :=
  match d.action with
  | .request (.install handle) _ => some handle
  | _ => none

/-- **A deed makes owners of interceptors that it installs or creates**, and of no others. -/
theorem Deed.owner?_of_after {d : Deed σ} (h : d.before.InOrder) {key : Key} {owner : Handle}
    (ho : d.after.table.owner? key = some owner) :
    d.before.table.owner? key = some owner ∨ d.asksToInstall? = some owner ∨
      d.before.interceptors.length ≤ owner.number := by
  obtain ⟨s, action⟩ := d
  have hstay (hs : (action.perform s).2.table.OwnersStay s.table) :
      s.table.owner? key = some owner := hs key owner ho
  have hsame (ht : (action.perform s).2.table = s.table) : s.table.owner? key = some owner :=
    ht ▸ ho
  cases action with
  | lookup key | kept number | enabled handle | hooks handle | readClock | memory change =>
    exact .inl ho
  | record key start stop replaced => exact .inl ho
  | deliver collector record arguments => exact .inl (hsame (s.table_deliver ..))
  | request r bodies =>
    cases r with
    -- these make owners
    | install handle =>
      rcases s.owner?_install handle ho with rfl | hold
      · exact .inr (.inl rfl)
      · exact .inl hold
    | timeTargets config collector =>
      rcases (h.timeTargets config collector).2 key owner ho with hnew | hold
      · exact .inr (.inr hnew)
      · exact .inl hold
    | attach group operation level slot =>
      rcases System.InOrder.owner?_attach h ho with rfl | hold
      · exact .inr (.inr (Nat.le_refl _))
      · exact .inl hold
    -- these at most end it
    | define key => exact .inl (hstay (s.ownersStay_define key _))
    | defineKept key kept => exact .inl (hstay (s.ownersStay_define key _))
    | exchange key => exact .inl (hstay (s.ownersStay_exchange key _))
    | exchangeKept key kept => exact .inl (hstay (s.ownersStay_exchange key _))
    | removeAll => cases (s.table.owner?_restoreAll key).symm.trans ho
    | reset => cases ho
    | remove handle => exact .inl (hstay (System.ownersStay_remove h.sound handle))
    | drop handle => exact .inl (hstay (System.ownersStay_drop h.sound handle))
    | dropAll handles => exact .inl (hstay (System.ownersStay_dropAll h.sound handles))
    | removeInstrumentation group =>
      exact .inl (hstay (System.ownersStay_removeInstrumentation h.sound group))
    -- and the rest leaves the table alone
    | keep key => exact .inl (hsame (s.table_keepCurrent key))
    | create key | contains key | operations | intercepted | view handle
    | viewCollector collector => exact .inl ho
    | setEnabled handle enabled => exact .inl (hsame (s.table_setEnabled ..))
    | setHook handle slot => exact .inl (hsame (s.table_setHook ..))
    | collect handle collector => exact .inl (hsame (s.table_collect ..))
    | clearHook handle slot => exact .inl (hsame (s.table_clearHook ..))
    | createCollector capacity threshold captures =>
      exact .inl (hsame (s.table_createCollector ..))
    | drain collector max => exact .inl (hsame (s.table_drain ..))
    | drainAll collector => exact .inl (hsame (s.table_drain ..))
    | setAllEnabled group enabled => exact .inl (hsame (s.table_setAllEnabled ..))

/-! ### Who is given up -/

/-- The interceptors that a request gives up. -/
def Request.givesUp : Request → List Handle
  | .drop handle => [handle]
  | .dropAll handles => handles
  | .removeInstrumentation group => group.handles
  | _ => []

/-- The interceptors that a deed gives up. -/
def Deed.givesUp (d : Deed σ) : List Handle :=
  match d.action with
  | .request r _ => r.givesUp
  | _ => []

theorem System.interceptors_removeEach (handles : List Handle) (s : System σ) :
    (removeEach handles s).2.interceptors = s.interceptors := by
  induction handles generalizing s with
  | nil => rfl
  | cons handle rest ih => exact (ih (s.remove handle).2).trans (s.interceptors_remove handle)

namespace System.IsLive

variable {s s' : System σ} {handle : Handle} (h : s.IsLive handle)

include h

/-- Interceptors may be added. -/
theorem of_prefix (hs : s.interceptors <+: s'.interceptors) : s'.IsLive handle := by
  obtain ⟨i, hi, hrest⟩ := h
  obtain ⟨more, hmore⟩ := hs
  obtain ⟨hlt, -⟩ := List.getElem?_eq_some_iff.mp hi
  exact ⟨i, by rwa [← hmore, List.getElem?_append_left hlt], hrest⟩

theorem number_lt : handle.number < s.interceptors.length := by
  obtain ⟨i, hi, -⟩ := h
  exact (List.getElem?_eq_some_iff.mp hi).1

theorem drop {other : Handle} (hne : handle ≠ other) : (s.drop other).IsLive handle :=
  (h.congr (s.interceptors_remove other)).adjustInterceptor fun he => absurd he hne

theorem dropAll {others : List Handle} (hnot : handle ∉ others) :
    (s.dropAll others).IsLive handle := by
  induction others generalizing s with
  | nil => exact h
  | cons other rest ih =>
    rw [List.mem_cons, not_or] at hnot
    exact ih (h.drop hnot.1) hnot.2

theorem removeEach (others : List Handle) : (System.removeEach others s).2.IsLive handle :=
  h.congr (interceptors_removeEach others s)

theorem setAllEnabled (group : Instrumentation) (enabled : Bool) :
    (s.setAllEnabled group enabled).IsLive handle := by
  rw [System.setAllEnabled]
  induction group.handles generalizing s with
  | nil => exact h
  | cons other rest ih => exact ih (h.adjustInterceptor fun _ _ => ⟨rfl, rfl⟩)

theorem define (key : Key) (implementation : Implementation σ) :
    (s.define key implementation).2.IsLive handle :=
  h.congr (s.onlySlot_define key implementation).interceptors_eq

theorem exchange (key : Key) (implementation : Implementation σ) :
    (s.exchange key implementation).2.IsLive handle :=
  h.congr (s.onlySlot_exchange key implementation).interceptors_eq

theorem keepCurrent (key : Key) : (s.keepCurrent key).2.IsLive handle := by
  rw [System.keepCurrent]
  split
  · exact h.congr rfl
  · exact h

theorem createCollector (capacity : Nat) (threshold : Option Nat) (captures : Bool) :
    (s.createCollector capacity threshold captures).2.IsLive handle := by
  rw [System.createCollector]
  split
  · exact h.congr rfl
  · exact h

theorem drain (collector : CollectorId) (max : Nat) :
    (s.drain collector max).2.IsLive handle := by
  rw [System.drain]
  split
  · exact h.congr rfl
  · exact h

theorem deliver (collector : CollectorId) (record : Record) (arguments : List Value) :
    (s.deliver collector record arguments).IsLive handle := by
  rw [System.deliver]
  split
  · exact h.congr rfl
  · exact h

end System.IsLive

/-- **A deed gives up no interceptors but those it is about.** -/
theorem Deed.isLive_after {d : Deed σ} (h : d.before.InOrder) {handle : Handle}
    (hlive : d.before.IsLive handle) (hd : handle ∉ d.givesUp) : d.after.IsLive handle := by
  obtain ⟨s, action⟩ := d
  cases action with
  | lookup key | kept number | enabled handle | hooks handle => exact hlive
  | readClock | memory change => exact hlive.congr rfl
  | record key start stop replaced => exact hlive.congr rfl
  | deliver collector record arguments => exact hlive.deliver collector record arguments
  | request r bodies =>
    have hnot : handle ∉ r.givesUp := hd
    show (r.perform bodies s).2.IsLive handle
    cases r with
    | drop other => exact hlive.drop fun he => hnot (he ▸ List.mem_singleton_self _)
    | dropAll others => exact hlive.dropAll hnot
    | removeInstrumentation group => exact ((hlive.removeEach _).dropAll hnot).congr rfl
    | timeTargets config collector =>
      exact hlive.of_prefix (h.timeTargets config collector).1
    | attach group operation level slot =>
      exact hlive.of_prefix (s.interceptors_prefix_attach group operation level slot bodies)
    | create key => exact hlive.of_prefix (List.prefix_append _ _)
    | define key => exact hlive.define key _
    | defineKept key kept => exact hlive.define key _
    | exchange key => exact hlive.exchange key _
    | exchangeKept key kept => exact hlive.exchange key _
    | keep key => exact hlive.keepCurrent key
    | removeAll | reset => exact hlive.congr rfl
    | contains key | operations | intercepted | view other | viewCollector collector =>
      exact hlive
    | install other => exact hlive.congr (s.interceptors_install other)
    | remove other => exact hlive.congr (s.interceptors_remove other)
    | setEnabled other enabled => exact hlive.adjustInterceptor fun _ _ => ⟨rfl, rfl⟩
    | setHook other slot => exact hlive.adjustInterceptor fun _ _ => ⟨rfl, rfl⟩
    | collect other collector => exact hlive.adjustInterceptor fun _ _ => ⟨rfl, rfl⟩
    | clearHook other slot => exact hlive.adjustInterceptor fun _ _ => ⟨rfl, rfl⟩
    | createCollector capacity threshold captures =>
      exact hlive.createCollector capacity threshold captures
    | drain collector max => exact hlive.drain collector max
    | drainAll collector => exact hlive.drain collector _
    | setAllEnabled group enabled => exact hlive.setAllEnabled group enabled

/-! ### Groups and their histories -/

/-- **What a deed leaves of the groups that are kept.** -/
inductive Deed.Leaves : Deed σ → List Instrumentation → List Instrumentation → Prop
  /-- An interceptor is attached to one of them. -/
  | attached {s : System σ} {group group' : Instrumentation} {operation : String} {level : Level}
      {slot : HookSlot} {bodies : slot.Input → Program σ} (before after : List Instrumentation)
      (h : (s.attach group operation level slot bodies).1 = .ok group') :
      Leaves ⟨s, .request (.attach group operation level slot) bodies⟩
        (before ++ group :: after) (before ++ group' :: after)
  /-- The interceptors of one of them are removed. -/
  | removed {s : System σ} {bodies : Empty → Program σ} (group : Instrumentation)
      (before after : List Instrumentation) :
      Leaves ⟨s, .request (.removeInstrumentation group) bodies⟩
        (before ++ group :: after) (before ++ .ofType group.typeName :: after)
  /-- One of them is given up. -/
  | givenUp {s : System σ} {bodies : Empty → Program σ} (group : Instrumentation)
      (before after : List Instrumentation) :
      Leaves ⟨s, .request (.dropAll group.handles) bodies⟩
        (before ++ group :: after) (before ++ after)
  /-- Anything else is done, as long as it does not give up what somebody keeps. -/
  | other {d : Deed σ} {kept : List Instrumentation}
      (h : ∀ group ∈ kept, ∀ handle ∈ group.handles, handle ∉ d.givesUp) : Leaves d kept kept

/-- Groups without interceptors, for some types. -/
def newGroups (types : List String) : List Instrumentation :=
  types.map .ofType

/-- **The groups that are kept according to a history.** New ones may begin at any time. -/
inductive History.Keeps : List (Deed σ) → List Instrumentation → Prop
  /-- Nothing was done yet. -/
  | start (types : List String) : Keeps [] (newGroups types)
  /-- One more deed was done. -/
  | deed {history : List (Deed σ)} {d : Deed σ} {kept kept' : List Instrumentation}
      (h : Keeps history kept) (hd : d.Leaves kept kept') (types : List String) :
      Keeps (history ++ [d]) (kept' ++ newGroups types)

theorem History.Keeps.of_nil {kept : List Instrumentation}
    (h : Keeps ([] : List (Deed σ)) kept) : ∃ types, kept = newGroups types := by
  generalize hnil : ([] : List (Deed σ)) = history at h
  cases h with
  | start types => exact ⟨types, rfl⟩
  | deed h hd types => exact absurd hnil (by simp)

/-- What was kept before the last deed. -/
theorem History.Keeps.before {history : List (Deed σ)} {d : Deed σ} {kept : List Instrumentation}
    (h : Keeps (history ++ [d]) kept) :
    ∃ before now types, Keeps history before ∧ d.Leaves before now ∧
      kept = now ++ newGroups types := by
  generalize hwhole : history ++ [d] = whole at h
  cases h with
  | start types => exact absurd hwhole (by simp)
  | @deed history' d' before now h hd types =>
    obtain ⟨rfl, hlast⟩ := List.append_inj' hwhole rfl
    obtain rfl := List.singleton_inj.mp hlast
    exact ⟨before, now, types, h, hd, rfl⟩

/-! ### Groups in order -/

/-- **A system with the interceptors of some groups.** -/
structure System.Holds (s : System σ) (kept : List Instrumentation) : Prop where
  /-- They have not been given up. -/
  live : ∀ group ∈ kept, ∀ handle ∈ group.handles, s.IsLive handle
  /-- Those of a group are for operations of its type. -/
  typed : ∀ group ∈ kept, ∀ handle ∈ group.handles, handle.key.typeName = group.typeName
  /-- Each of them belongs to one group, once. -/
  nodup : (kept.flatMap Instrumentation.handles).Nodup

theorem handles_of_mem_newGroups {types : List String} {group : Instrumentation}
    (h : group ∈ newGroups types) : group.handles = [] := by
  obtain ⟨typeName, -, rfl⟩ := List.mem_map.mp h
  rfl

theorem flatMap_newGroups (types : List String) :
    (newGroups types).flatMap Instrumentation.handles = [] :=
  List.flatMap_eq_nil_iff.mpr fun _ => handles_of_mem_newGroups

namespace System.Holds

variable {s s' : System σ} {kept before after : List Instrumentation} {group : Instrumentation}

theorem new (s : System σ) (types : List String) : s.Holds (newGroups types) where
  live group hmem := by simp [handles_of_mem_newGroups hmem]
  typed group hmem := by simp [handles_of_mem_newGroups hmem]
  nodup := by simp [flatMap_newGroups]

/-- New groups begin. -/
theorem append_new (h : s.Holds kept) (types : List String) :
    s.Holds (kept ++ newGroups types) where
  live := List.forall_mem_append.mpr ⟨h.live, (Holds.new s types).live⟩
  typed := List.forall_mem_append.mpr ⟨h.typed, (Holds.new s types).typed⟩
  nodup := by simpa [flatMap_newGroups] using h.nodup

theorem nodup_handles (h : s.Holds kept) (hgroup : group ∈ kept) : group.handles.Nodup :=
  (List.nodup_flatMap.mp h.nodup).1 group hgroup

/-- The interceptors of one group belong to no other. -/
theorem not_mem_handles (h : s.Holds (before ++ group :: after)) :
    ∀ other ∈ before ++ after, ∀ handle ∈ other.handles, handle ∉ group.handles := by
  have hnodup := h.nodup
  simp only [List.flatMap_append, List.flatMap_cons, List.nodup_append] at hnodup
  obtain ⟨-, ⟨-, -, hafter⟩, hbefore⟩ := hnodup
  intro other hother handle hmem hgroup
  rcases List.mem_append.mp hother with hother | hother
  · exact hbefore handle (List.mem_flatMap.mpr ⟨other, hother, hmem⟩) handle
      (List.mem_append_left _ hgroup) rfl
  · exact hafter handle hgroup handle (List.mem_flatMap.mpr ⟨other, hother, hmem⟩) rfl

/-- The other groups stay, if none of their interceptors is given up. -/
theorem others (h : s.Holds (before ++ group :: after))
    (hlive : ∀ handle, s.IsLive handle → handle ∉ group.handles → s'.IsLive handle) :
    s'.Holds (before ++ after) where
  live other hother handle hmem := by
    refine hlive handle (h.live other ?_ handle hmem) (h.not_mem_handles other hother handle hmem)
    exact List.mem_append.mpr ((List.mem_append.mp hother).imp id (List.mem_cons_of_mem _))
  typed other hother := by
    refine h.typed other ?_
    exact List.mem_append.mpr ((List.mem_append.mp hother).imp id (List.mem_cons_of_mem _))
  nodup := by
    refine h.nodup.sublist ?_
    exact ((List.sublist_cons_self group after).append_left before).flatMap _

/-- One group is exchanged for another one. -/
theorem exchange (h : s.Holds (before ++ after))
    (hlive : ∀ handle ∈ group.handles, s.IsLive handle)
    (htyped : ∀ handle ∈ group.handles, handle.key.typeName = group.typeName)
    (hnodup : group.handles.Nodup)
    (hnew : ∀ other ∈ before ++ after, ∀ handle ∈ other.handles, handle ∉ group.handles) :
    s.Holds (before ++ group :: after) where
  live := by
    refine List.forall_mem_append.mpr ⟨?_, List.forall_mem_cons.mpr ⟨hlive, ?_⟩⟩
    · exact (List.forall_mem_append.mp h.live).1
    · exact (List.forall_mem_append.mp h.live).2
  typed := by
    refine List.forall_mem_append.mpr ⟨?_, List.forall_mem_cons.mpr ⟨htyped, ?_⟩⟩
    · exact (List.forall_mem_append.mp h.typed).1
    · exact (List.forall_mem_append.mp h.typed).2
  nodup := by
    have hperm : ((before ++ group :: after).flatMap Instrumentation.handles).Perm
        (group.handles ++ (before ++ after).flatMap Instrumentation.handles) := by
      rw [← List.flatMap_cons]
      exact List.perm_middle.flatMap_right _
    refine hperm.nodup_iff.mpr (List.nodup_append.mpr ⟨hnodup, h.nodup, ?_⟩)
    rintro handle hmem other hother rfl
    obtain ⟨other, hin, hhandle⟩ := List.mem_flatMap.mp hother
    exact hnew other hin handle hhandle hmem

end System.Holds

/-- **A deed leaves the groups that are kept in order.** -/
theorem Deed.holds_after {d : Deed σ} (h : d.before.InOrder) {kept kept' : List Instrumentation}
    (hholds : d.before.Holds kept) (hd : d.Leaves kept kept') : d.after.Holds kept' := by
  cases hd with
  | other hother =>
    exact ⟨fun group hgroup handle hmem =>
      isLive_after h (hholds.live group hgroup handle hmem) (hother group hgroup handle hmem),
      hholds.typed, hholds.nodup⟩
  | @givenUp s bodies group before after =>
    exact hholds.others fun handle hlive hnot => hlive.dropAll hnot
  | @removed s bodies group before after =>
    refine System.Holds.exchange (hholds.others fun handle hlive hnot => ?_)
      (fun handle hmem => by cases hmem) (fun handle hmem => by cases hmem) .nil
      fun other hother handle hmem => List.not_mem_nil
    exact ((hlive.removeEach _).dropAll hnot).congr rfl
  | @attached s group group' operation level slot bodies before after hattach =>
    have hgroup : group ∈ before ++ group :: after := by simp
    have hprefix := s.interceptors_prefix_attach group operation level slot bodies
    have hstay : ∀ handle, s.IsLive handle →
        (s.attach group operation level slot bodies).2.IsLive handle :=
      fun handle hlive => hlive.of_prefix hprefix
    have hrest : (s.attach group operation level slot bodies).2.Holds (before ++ after) :=
      hholds.others fun handle hlive _ => hstay handle hlive
    -- the new interceptor has a number of its own
    have hold : ∀ other ∈ before ++ group :: after, ∀ handle ∈ other.handles,
        handle ≠ s.next (group.key operation level) := by
      rintro other hother _ hmem rfl
      exact absurd (hholds.live other hother _ hmem).number_lt (Nat.lt_irrefl _)
    obtain ⟨table, -, rfl, hran⟩ := System.exists_of_attach_eq_ok hattach
    have hnew : (s.attach group operation level slot bodies).2.IsLive
        (s.next (group.key operation level)) := by
      rw [hran]
      exact ⟨.attached (group.key operation level) slot bodies, List.getElem?_concat_length ..,
        rfl, rfl⟩
    refine hrest.exchange (List.forall_mem_append.mpr ⟨?_, List.forall_mem_singleton.mpr hnew⟩)
      (List.forall_mem_append.mpr ⟨hholds.typed group hgroup, List.forall_mem_singleton.mpr rfl⟩)
      ?_ ?_
    · exact fun handle hmem => hstay handle (hholds.live group hgroup handle hmem)
    · refine List.nodup_append.mpr ⟨hholds.nodup_handles hgroup, List.nodup_singleton _, ?_⟩
      rintro handle hmem _ hlast rfl
      exact hold group hgroup handle hmem (List.mem_singleton.mp hlast)
    · intro other hother handle hmem
      rw [List.mem_append, List.mem_singleton, not_or]
      refine ⟨hholds.not_mem_handles other hother handle hmem, hold other ?_ handle hmem⟩
      exact List.mem_append.mpr ((List.mem_append.mp hother).imp id (List.mem_cons_of_mem _))

/-- **A system in which all groups that a history keeps are in order.** -/
structure History.Upholds (history : List (Deed σ)) (s : System σ) : Prop where
  /-- Owners have not been given up. -/
  inOrder : s.InOrder
  /-- Nor have interceptors that somebody keeps. -/
  holds : ∀ kept, Keeps history kept → s.Holds kept

namespace History.Upholds

theorem start (clock : Clock) (memory : σ) : Upholds [] (.start clock memory) where
  inOrder := .of_unowned Table.sound_empty fun _ => rfl
  holds kept hkept := by
    obtain ⟨types, rfl⟩ := hkept.of_nil
    exact .new _ types

/-- One more deed is done. -/
theorem deed {history : List (Deed σ)} {d : Deed σ} (h : Upholds history d.before) :
    Upholds (history ++ [d]) d.after where
  inOrder := d.inOrder h.inOrder
  holds kept hkept := by
    obtain ⟨before, now, types, hbefore, hd, rfl⟩ := hkept.before
    exact (d.holds_after h.inOrder (h.holds before hbefore) hd).append_new types

/-- **Groups are in order at every moment** of every course of events that starts with
nothing, as long as they are kept. -/
theorem follow (clock : Clock) (memory : σ) (threads : List (Thread σ α)) (turns : List Nat) :
    let crew : Crew σ α := ⟨threads, .start clock memory⟩
    Upholds (crew.history turns) (crew.follow turns).system :=
  Crew.start_induction Upholds (fun _ _ h => h.deed) (start clock memory) threads turns

end History.Upholds

/-- One more turn is taken. -/
theorem History.Keeps.turn {crew : Crew σ α} {turns : List Nat} {kept kept' : List Instrumentation}
    (h : Keeps (crew.history turns) kept) {member : Nat} {d : Deed σ}
    (hd : (crew.follow turns).deed? member = some d) (hleaves : d.Leaves kept kept') :
    Keeps (crew.history (turns ++ [member])) kept' := by
  have hkeeps := h.deed hleaves []
  rw [Crew.history_append, Crew.history, hd]
  simpa [newGroups, Crew.history] using hkeeps

end Interception
