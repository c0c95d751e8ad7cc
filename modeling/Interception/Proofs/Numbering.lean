import Interception.Proofs.History

/-!
# What is given out by number

Two things in a system are given out by number and stay for good: the implementations that
somebody kept, and the records of calls. Neither interceptors nor collectors nor the table
have anything to do with the numbers. So most requests leave both as they are
(`System.SameNumbers`), and no request touches the number of the next record
(`Request.numbers`).

* Records are numbered 1, 2, 3, … in the order in which they are made, whoever makes them
  (`Crew.callIds_history`).
* Whatever was kept is what a call would have run at that moment
  (`Deed.mem_kept_or_lookup`).
-/

namespace Interception

variable {σ α : Type}

namespace System

/-- **Two systems that have given out the same.** -/
structure SameNumbers (s s' : System σ) : Prop where
  /-- The same implementations are kept. -/
  kept_eq : s'.kept = s.kept
  /-- The next record gets the same number. -/
  nextCallId_eq : s'.nextCallId = s.nextCallId

namespace SameNumbers

theorem refl (s : System σ) : s.SameNumbers s :=
  ⟨rfl, rfl⟩

theorem trans {s s' s'' : System σ} (h : s.SameNumbers s') (h' : s'.SameNumbers s'') :
    s.SameNumbers s'' :=
  ⟨h'.kept_eq.trans h.kept_eq, h'.nextCallId_eq.trans h.nextCallId_eq⟩

theorem note (s : System σ) (event : Event) : s.SameNumbers (s.note event) :=
  ⟨rfl, rfl⟩

/-! ### One interceptor -/

theorem create (s : System σ) (key : Key) : s.SameNumbers (s.create key).2 :=
  ⟨rfl, rfl⟩

theorem adjustInterceptor (s : System σ) (handle : Handle) (f : Interceptor σ → Interceptor σ) :
    s.SameNumbers (s.adjustInterceptor handle f) := by
  rw [System.adjustInterceptor]
  split
  · exact ⟨rfl, rfl⟩
  · exact .refl s

theorem install (s : System σ) (handle : Handle) : s.SameNumbers (s.install handle).2 := by
  rw [System.install]
  split
  · split
    · exact ⟨rfl, rfl⟩
    · exact .refl s
  · exact .refl s

theorem remove (s : System σ) (handle : Handle) : s.SameNumbers (s.remove handle).2 := by
  rw [System.remove]
  split
  · exact ⟨rfl, rfl⟩
  · exact .refl s

theorem drop (s : System σ) (handle : Handle) : s.SameNumbers (s.drop handle) :=
  (remove s handle).trans (adjustInterceptor ..)

/-! ### Several interceptors -/

theorem dropAll (s : System σ) (handles : List Handle) : s.SameNumbers (s.dropAll handles) := by
  rw [System.dropAll]
  induction handles generalizing s with
  | nil => exact .refl s
  | cons handle rest ih => exact (drop s handle).trans (ih (s.drop handle))

theorem setAllEnabled (s : System σ) (group : Instrumentation) (enabled : Bool) :
    s.SameNumbers (s.setAllEnabled group enabled) := by
  rw [System.setAllEnabled]
  induction group.handles generalizing s with
  | nil => exact .refl s
  | cons handle rest ih => exact (adjustInterceptor ..).trans (ih (s.setEnabled handle enabled))

theorem timeEach (config : Config) (collector : CollectorId) (targets : List Key)
    (installed : List Handle) (s : System σ) :
    s.SameNumbers (System.timeEach config collector targets installed s).2 := by
  induction targets generalizing installed s with
  | nil => exact ⟨rfl, rfl⟩
  | cons target rest ih =>
    -- until the new interceptor is installed, only what is known of it changes
    have hready : s.SameNumbers (((s.create target).2.setEnabled (s.create target).1
        config.enabledByDefault).collect (s.create target).1 collector) :=
      ((create s target).trans (adjustInterceptor ..)).trans (adjustInterceptor ..)
    have hinstall := hready.trans (install _ (s.create target).1)
    rw [System.timeEach]
    dsimp only
    split
    · next h =>
      rw [h] at hinstall
      exact hinstall.trans (ih _ _)
    · next h =>
      rw [h] at hinstall
      exact (hinstall.trans (drop ..)).trans (dropAll ..)

theorem attach (s : System σ) (group : Instrumentation) (operation : String) (level : Level)
    (slot : HookSlot) (body : slot.Input → Program σ) :
    s.SameNumbers (s.attach group operation level slot body).2 := by
  have hready : s.SameNumbers ((s.create (group.key operation level)).2.setHook
      (s.create (group.key operation level)).1 slot body) :=
    (create s _).trans (adjustInterceptor ..)
  have hinstall := hready.trans (install _ (s.create (group.key operation level)).1)
  rw [System.attach]
  dsimp only
  split
  · next h =>
    rw [h] at hinstall
    exact hinstall
  · next h =>
    rw [h] at hinstall
    exact hinstall.trans (drop ..)

theorem removeEach (handles : List Handle) (s : System σ) :
    s.SameNumbers (System.removeEach handles s).2 := by
  induction handles generalizing s with
  | nil => exact .refl s
  | cons handle rest ih => exact (remove s handle).trans (ih (s.remove handle).2)

theorem removeInstrumentation (s : System σ) (group : Instrumentation) :
    s.SameNumbers (s.removeInstrumentation group).2 :=
  ((removeEach group.handles s).trans (dropAll ..)).trans (note ..)

/-! ### Operations and collectors -/

theorem removeAll (s : System σ) : s.SameNumbers s.removeAll.2 :=
  ⟨rfl, rfl⟩

theorem reset (s : System σ) : s.SameNumbers s.reset :=
  ⟨rfl, rfl⟩

theorem define (s : System σ) (key : Key) (implementation : Implementation σ) :
    s.SameNumbers (s.define key implementation).2 := by
  rw [System.define]
  split
  · exact ⟨rfl, rfl⟩
  · exact .refl s

theorem createCollector (s : System σ) (capacity : Nat) (threshold : Option Nat)
    (captures : Bool) : s.SameNumbers (s.createCollector capacity threshold captures).2 := by
  rw [System.createCollector]
  split
  · exact ⟨rfl, rfl⟩
  · exact .refl s

theorem drain (s : System σ) (collector : CollectorId) (max : Nat) :
    s.SameNumbers (s.drain collector max).2 := by
  rw [System.drain]
  split
  · exact ⟨rfl, rfl⟩
  · exact .refl s

theorem deliver (s : System σ) (collector : CollectorId) (record : Record)
    (arguments : List Value) : s.SameNumbers (s.deliver collector record arguments) := by
  rw [System.deliver]
  split
  · exact ⟨rfl, rfl⟩
  · exact .refl s

end SameNumbers

/-! ### What a request gives out -/

/-- **All that a request can give out**: implementations to keep, each of which is what a call
of some operation would run. -/
structure GivesOut (s s' : System σ) : Prop where
  /-- What is kept anew stood in a slot. -/
  kept_eq : ∃ new, s'.kept = s.kept ++ new ∧
    ∀ implementation ∈ new, ∃ key, s.table.lookup key = .ok implementation
  /-- No record is made. -/
  nextCallId_eq : s'.nextCallId = s.nextCallId

theorem SameNumbers.givesOut {s s' : System σ} (h : s.SameNumbers s') : s.GivesOut s' :=
  ⟨⟨[], by rw [h.kept_eq, List.append_nil], by simp⟩, h.nextCallId_eq⟩

/-- An implementation that stands in a slot may be kept. -/
theorem GivesOut.one {s s' : System σ} {key : Key} {implementation : Implementation σ}
    (hl : s.table.lookup key = .ok implementation) (hk : s'.kept = s.kept ++ [implementation])
    (hn : s'.nextCallId = s.nextCallId) : s.GivesOut s' := by
  refine ⟨⟨[implementation], hk, ?_⟩, hn⟩
  intro other hmem
  obtain rfl := List.mem_singleton.mp hmem
  exact ⟨key, hl⟩

theorem givesOut_keepCurrent (s : System σ) (key : Key) : s.GivesOut (s.keepCurrent key).2 := by
  rw [keepCurrent]
  split
  · next implementation h => exact .one h rfl rfl
  · exact (SameNumbers.refl s).givesOut

/-- Exchanging keeps the old implementation, which stood in the slot. -/
theorem givesOut_exchange (s : System σ) (key : Key) (implementation : Implementation σ) :
    s.GivesOut (s.exchange key implementation).2 := by
  rw [exchange]
  split
  · next old table h =>
    obtain ⟨hf, -⟩ := Table.exchange_eq_ok_iff.mp h
    have hl : s.table.lookup key = .ok old := by
      rw [Table.lookup, hf]
      rfl
    exact .one hl rfl rfl
  · exact (SameNumbers.refl s).givesOut

end System

/-- **What a request gives out.** -/
theorem Request.givesOut (r : Request) (bodies : r.Body → Program σ) (s : System σ) :
    s.GivesOut (r.perform bodies s).2 := by
  cases r with
  -- these three keep an implementation
  | keep key => exact s.givesOut_keepCurrent key
  | exchange key => exact s.givesOut_exchange key _
  | exchangeKept key kept => exact s.givesOut_exchange key _
  -- all others keep nothing
  | define key => exact (System.SameNumbers.define ..).givesOut
  | defineKept key kept => exact (System.SameNumbers.define ..).givesOut
  | install handle => exact (System.SameNumbers.install ..).givesOut
  | remove handle => exact (System.SameNumbers.remove ..).givesOut
  | drop handle => exact (System.SameNumbers.drop ..).givesOut
  | dropAll handles => exact (System.SameNumbers.dropAll ..).givesOut
  | setEnabled handle enabled => exact (System.SameNumbers.adjustInterceptor ..).givesOut
  | setHook handle slot => exact (System.SameNumbers.adjustInterceptor ..).givesOut
  | collect handle collector => exact (System.SameNumbers.adjustInterceptor ..).givesOut
  | clearHook handle slot => exact (System.SameNumbers.adjustInterceptor ..).givesOut
  | createCollector capacity threshold captures =>
    exact (System.SameNumbers.createCollector ..).givesOut
  | drain collector max => exact (System.SameNumbers.drain ..).givesOut
  | drainAll collector => exact (System.SameNumbers.drain ..).givesOut
  | timeTargets config collector => exact (System.SameNumbers.timeEach ..).givesOut
  | attach group operation level slot => exact (System.SameNumbers.attach ..).givesOut
  | setAllEnabled group enabled => exact (System.SameNumbers.setAllEnabled ..).givesOut
  | removeInstrumentation group => exact (System.SameNumbers.removeInstrumentation ..).givesOut
  | contains key | operations | intercepted | view handle | viewCollector collector =>
    exact (System.SameNumbers.refl s).givesOut
  | removeAll => exact (System.SameNumbers.removeAll s).givesOut
  | reset => exact (System.SameNumbers.reset s).givesOut
  | create key => exact (System.SameNumbers.create s key).givesOut

namespace Deed

/-- The record that a deed made, if it made one. -/
def record? (d : Deed σ) : Option Record :=
  match d.action with
  | .record key start stop replaced => some (d.before.record key start stop replaced).1
  | _ => none

/-- **Only records count on**: the record that a deed makes has the next number, and any other
deed leaves the next number as it is. -/
theorem nextCallId_after (d : Deed σ) :
    (d.record? = none ∧ d.after.nextCallId = d.before.nextCallId) ∨
      ∃ record, d.record? = some record ∧ record.callId = d.before.nextCallId ∧
        d.after.nextCallId = d.before.nextCallId + 1 := by
  obtain ⟨s, action⟩ := d
  cases action with
  | record key start stop replaced => exact .inr ⟨_, rfl, rfl, rfl⟩
  | request r bodies => exact .inl ⟨rfl, (r.givesOut bodies s).nextCallId_eq⟩
  | deliver collector record arguments =>
    exact .inl ⟨rfl, (System.SameNumbers.deliver s collector record arguments).nextCallId_eq⟩
  | lookup key | kept number | enabled handle | hooks handle | readClock | memory change =>
    exact .inl ⟨rfl, rfl⟩

/-- **What is kept was kept before, or a call would have run it.** -/
theorem mem_kept_or_lookup {d : Deed σ} {implementation : Implementation σ}
    (h : implementation ∈ d.after.kept) :
    implementation ∈ d.before.kept ∨ ∃ key, d.before.table.lookup key = .ok implementation := by
  obtain ⟨s, action⟩ := d
  cases action with
  | request r bodies =>
    obtain ⟨new, hkept, hnew⟩ := (r.givesOut bodies s).kept_eq
    have hmem : implementation ∈ s.kept ++ new := hkept ▸ h
    exact (List.mem_append.mp hmem).imp_right fun hmem => hnew implementation hmem
  | deliver collector record arguments =>
    have hkept := (System.SameNumbers.deliver s collector record arguments).kept_eq
    exact .inl (hkept ▸ h)
  | lookup key | kept number | enabled handle | hooks handle | readClock | memory change =>
    exact .inl h
  | record key start stop replaced => exact .inl h

end Deed

/-! ### What is given back by number -/

/-- An implementation that is asked for by number is one that was kept, or else the ordinary body
that stands for all numbers that were never given out. -/
theorem System.keptImplementation_cases (s : System σ) (number : KeptId) :
    (∃ body, s.keptImplementation number = .plain body) ∨ s.keptImplementation number ∈ s.kept := by
  rw [keptImplementation, List.getD_eq_getElem?_getD]
  cases hk : s.kept[number]? with
  | none => exact .inl ⟨default, rfl⟩
  | some implementation => exact .inr (List.mem_of_getElem? hk)

/-- Whether a request gives an operation an implementation that somebody kept. -/
def Request.givesKept : Request → Bool
  | .defineKept .. | .exchangeKept .. => true
  | _ => false

namespace Deed

/-- Whether a deed gives an operation an implementation that somebody kept. -/
def givesKept (d : Deed σ) : Bool :=
  match d.action with
  | .request r _ => r.givesKept
  | _ => false

/-- **What an operation is given is an ordinary body, or it was kept.** -/
theorem settled_cases {d : Deed σ} {key : Key} {implementation : Implementation σ}
    (h : d.settles? key = some (some implementation)) :
    (∃ body, implementation = .plain body) ∨
      d.givesKept = true ∧ ∃ number, implementation = d.before.keptImplementation number := by
  obtain ⟨s, action⟩ := d
  cases action with
  | request r bodies =>
    change r.settles? bodies s key = some (some implementation) at h
    rw [Request.settles?] at h
    split at h
    · next given implementation' hg =>
      split at h
      · obtain rfl := Option.some.inj (Option.some.inj h)
        unfold Request.given? at hg
        split at hg
        · obtain ⟨-, rfl⟩ := Prod.mk.inj (Option.some.inj hg)
          exact .inl ⟨_, rfl⟩
        · obtain ⟨-, rfl⟩ := Prod.mk.inj (Option.some.inj hg)
          exact .inr ⟨rfl, _, rfl⟩
        · obtain ⟨-, rfl⟩ := Prod.mk.inj (Option.some.inj hg)
          exact .inl ⟨_, rfl⟩
        · obtain ⟨-, rfl⟩ := Prod.mk.inj (Option.some.inj hg)
          exact .inr ⟨rfl, _, rfl⟩
        · cases hg
      · cases h
    · split at h
      · cases h
      · cases h
  | _ => cases h

end Deed

/-! ### The numbers of records -/

/-- The records that were made, in order. -/
def History.records (history : List (Deed σ)) : List Record :=
  history.filterMap Deed.record?

/-- **Records are numbered 1, 2, 3, …** in the order in which they are made. -/
theorem Crew.callIds_history (clock : Clock) (memory : σ) (threads : List (Thread σ α))
    (turns : List Nat) :
    let crew : Crew σ α := ⟨threads, .start clock memory⟩
    let records := History.records (crew.history turns)
    records.map Record.callId = List.range' 1 records.length := by
  intro crew records
  have h : (records.map Record.callId = List.range' 1 records.length) ∧
      (crew.follow turns).system.nextCallId = 1 + records.length := by
    refine Crew.start_induction (fun history s =>
      ((History.records history).map Record.callId =
        List.range' 1 (History.records history).length) ∧
      s.nextCallId = 1 + (History.records history).length) ?_ ⟨rfl, rfl⟩ threads turns
    rintro history d ⟨hids, hnext⟩
    rcases d.nextCallId_after with ⟨hrecord, hafter⟩ | ⟨record, hrecord, hid, hafter⟩
    · have hsame : History.records (history ++ [d]) = History.records history := by
        simp [History.records, hrecord]
      rw [hsame]
      exact ⟨hids, hafter.trans hnext⟩
    · have hmore : History.records (history ++ [d]) = History.records history ++ [record] := by
        simp [History.records, hrecord]
      rw [hmore, List.map_append, hids, List.length_append, List.length_singleton,
        List.range'_concat]
      refine ⟨?_, by omega⟩
      simp [hid, hnext]
  exact h.1

end Interception
