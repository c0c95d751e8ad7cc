import Interception.Proofs.Capture

/-!
# A call works on one snapshot

While a call is in flight anything may happen to the system: its own hooks, the calls nested
in it and all other threads may set hooks and clear them, disable the interceptor, remove it
or give it up, and reset or redefine operations. None of this has an influence on the stages
of the call that are still to come.

Each call looks at the system at three moments at most.

| when | what it looks at | what depends on it |
|---|---|---|
| `Crew.LooksUpOnce` | the table, or what was kept | which implementation runs |
| `Crew.KeepsSnapshot`, on entry | whether the interceptor is enabled | whether it is bypassed |
| `Crew.KeepsSnapshot`, after that | the hooks of the interceptor | which bodies run as stages |

What it sees is the system as all turns before that moment have left it, so changes show
just in the calls that look after them. What the trampoline covers was captured before, when
it was installed. All else that a passage does by itself is to read the clock, to make its
record and to hand it on (`Stages.isRecording`).

`Interception.snapshot_of_history` says this of every call, at whatever depth it is made, in
every course of events.
-/

namespace Interception

variable {σ α : Type}

/-! ### One look each -/

/-- What a passage does by itself once it has its hooks: none of it looks at interceptors or at
the table. -/
inductive Action.IsRecording : Action σ → Prop
  | readClock : IsRecording .readClock
  | record (key : Key) (start stop : Reading) (replaced : Bool) :
      IsRecording (.record key start stop replaced)
  | deliver (collector : CollectorId) (record : Record) (arguments : List Value) :
      IsRecording (.deliver collector record arguments)

section Moments

variable (crew : Crew σ α) (turns : List Nat) (member : Nat)

/-- **A call that looks its implementation up once**, at some moment. What it finds was captured
by then, and is what runs. -/
inductive Crew.LooksUpOnce (callee : Invocation) : List (Story σ) → Prop
  /-- Nothing runs. -/
  | nothing {moment : Nat} {found : Deed σ} (hfound : crew.DoneAt turns member moment found) :
      LooksUpOnce callee [.deed found]
  /-- What is found runs. -/
  | found {moment : Nat} {found : Deed σ} {implementation : Implementation σ}
      (hfound : crew.DoneAt turns member moment found)
      (hfinds : found.Finds callee implementation)
      (hcaptured : implementation.Captured (crew.history (turns.take moment)))
      (ended : Except Fault Outcome) (inside : List (Story σ)) :
      LooksUpOnce callee [.deed found, implementation.told callee ended inside]

/-- **A passage that works on one snapshot**: the interceptor was installed before, around what is
covered; at one moment the call looks whether it is enabled, at a later one it takes the hooks,
and its stages are those of these hooks. -/
inductive Crew.KeepsSnapshot (owner : Handle) (covered : Implementation σ)
    (entered : Invocation) : List (Story σ) → Except Fault Outcome → Prop
  /-- The interceptor is not enabled, and what it covers runs. -/
  | bypassed {entry : Nat} {s : System σ} {installing : Deed σ}
      (hinstalling : installing ∈ crew.history (turns.take entry))
      (hinstalls : installing.Installs owner covered)
      (hentry : crew.DoneAt turns member entry ⟨s, .enabled owner⟩)
      (henabled : s.enabled owner = false)
      (ended : Except Fault Outcome) (inside : List (Story σ)) :
      KeepsSnapshot owner covered entered
        [.deed ⟨s, .enabled owner⟩, covered.told entered ended inside] ended
  /-- The interceptor is enabled, and its hooks as they are taken then are what runs. -/
  | routed {entry later : Nat} {s snapshot : System σ} {installing : Deed σ}
      {rest : List (Story σ)} {ended : Except Fault Outcome}
      (hinstalling : installing ∈ crew.history (turns.take entry))
      (hinstalls : installing.Installs owner covered)
      (hentry : crew.DoneAt turns member entry ⟨s, .enabled owner⟩)
      (henabled : s.enabled owner = true) (hlater : entry < later)
      (hsnapshot : crew.DoneAt turns member later ⟨snapshot, .hooks owner⟩)
      (hstages : Stages owner (snapshot.hooks owner) covered entered rest ended)
      (hrest : ∀ d, .deed d ∈ rest → d.action.IsRecording) :
      KeepsSnapshot owner covered entered
        (.deed ⟨s, .enabled owner⟩ :: .deed ⟨snapshot, .hooks owner⟩ :: rest) ended

/-- A story that is such a call or such a passage, if it is one at all. -/
def Story.IsConsistent : Story σ → Prop
  | .call callee within => crew.LooksUpOnce turns member callee within
  | .passage owner covered entered ended within =>
    crew.KeepsSnapshot turns member owner covered entered within ended
  | _ => True

/-- A story, done at given moments, that is not a passage, or the passage through a trampoline
that was captured before all of them. -/
def Story.CapturedBefore (moments : List Nat) : Story σ → Prop
  | .passage owner covered _ _ _ => ∃ earlier, (∀ moment ∈ moments, earlier < moment) ∧
      (Implementation.trampoline owner covered).Captured (crew.history (turns.take earlier))
  | _ => True

end Moments

/-! ### What the stages do by themselves -/

section Stages

variable {owner : Handle} {hooks : Hooks σ} {covered : Implementation σ} {call : Invocation}
  {stories : List (Story σ)} {ended : Except Fault Outcome}

theorem Implementation.told_ne_deed (implementation : Implementation σ) (call : Invocation)
    (ended : Except Fault Outcome) (within : List (Story σ)) (d : Deed σ) :
    Story.deed d ≠ implementation.told call ended within := by
  cases implementation with
  | plain body => exact fun he => by cases he
  | trampoline owner covered => exact fun he => by cases he

theorem BeforeStage.isRecording (h : BeforeStage owner hooks call stories ended) :
    ∀ d, .deed d ∈ stories → d.action.IsRecording := by
  intro d hmem
  cases h with
  | skipped h => cases hmem
  | hook h ended within => cases List.mem_singleton.mp hmem

theorem AfterStage.isRecording {record : Record}
    (h : AfterStage owner hooks record call stories ended) :
    ∀ d, .deed d ∈ stories → d.action.IsRecording := by
  intro d hmem
  cases h with
  | skipped h => cases hmem
  | collect h s =>
    obtain rfl := Story.deed.inj (List.mem_singleton.mp hmem)
    exact .deliver ..
  | hook h ended within => cases List.mem_singleton.mp hmem

theorem SegmentStage.ne_deed {story : Story σ}
    (h : SegmentStage owner hooks covered call story ended) (d : Deed σ) : .deed d ≠ story := by
  cases h with
  | hook h ended within => exact fun he => by cases he
  | covered h ended within => exact covered.told_ne_deed call ended within d

/-- **Once it has its hooks, a passage looks at nothing any more** but at the clock. -/
theorem Stages.isRecording (h : Stages owner hooks covered call stories ended) :
    ∀ d, .deed d ∈ stories → d.action.IsRecording := by
  intro d hmem
  cases h with
  | stopped hbefore hended => exact hbefore.isRecording d hmem
  | failed start hbefore hsegment hended =>
    rcases List.mem_append.mp hmem with hmem | hmem
    · exact hbefore.isRecording d hmem
    · rcases List.mem_pair.mp hmem with he | he
      · obtain rfl := Story.deed.inj he
        exact .readClock
      · exact absurd he (hsegment.ne_deed d)
  | recorded start stop made hbefore hsegment hafter =>
    rcases List.mem_append.mp hmem with hmem | hmem
    · rcases List.mem_append.mp hmem with hmem | hmem
      · exact hbefore.isRecording d hmem
      · simp only [List.mem_cons, List.not_mem_nil, or_false] at hmem
        rcases hmem with he | he | he | he
        · obtain rfl := Story.deed.inj he
          exact .readClock
        · exact absurd he (hsegment.ne_deed d)
        · obtain rfl := Story.deed.inj he
          exact .readClock
        · obtain rfl := Story.deed.inj he
          exact .record ..
    · exact hafter.isRecording d hmem

end Stages

/-! ### Every node of a story -/

section Consistent

open Story

variable {crew : Crew σ α} {turns : List Nat} {member : Nat} {moments : List Nat}

/-- What a call finds was captured before all that it does then. -/
theorem Implementation.Captured.told {implementation : Implementation σ} {moment : Nat}
    (h : implementation.Captured (crew.history (turns.take moment)))
    (hmoments : ∀ later ∈ moments, moment < later) (call : Invocation)
    (ended : Except Fault Outcome) (within : List (Story σ)) :
    (implementation.told call ended within).CapturedBefore crew turns moments := by
  cases implementation with
  | plain body => trivial
  | trampoline owner covered => exact ⟨moment, hmoments, h⟩

theorem Story.capturedBefore_of_isPassage_eq_false {story : Story σ}
    (h : story.isPassage = false) : story.CapturedBefore crew turns moments := by
  cases story with
  | passage => exact absurd h Bool.noConfusion
  | _ => trivial

/-- All that a system of a moment may hold is captured. -/
def Crew.Captures (crew : Crew σ α) (turns : List Nat) : Prop :=
  ∀ moment, History.Captures (crew.history (turns.take moment))
    (crew.follow (turns.take moment)).system

theorem Crew.Captures.finds (h : crew.Captures turns) {moment : Nat} {found : Deed σ}
    (hfound : crew.DoneAt turns member moment found) {callee : Invocation}
    {implementation : Implementation σ} (hfinds : found.Finds callee implementation) :
    implementation.Captured (crew.history (turns.take moment)) := by
  have hcaptures := h moment
  rw [← hfound.2] at hcaptures
  exact hcaptures.finds hfinds

/-- Calls look up once. -/
theorem Calls.looksUpOnce {callee : Invocation} {depth : Nat} {within : List (Story σ)}
    (h : Calls callee depth within) (hcaptures : crew.Captures turns)
    (hmoments : List.Forall₂ (crew.DoneAt turns member) moments (deedsAll within)) :
    crew.LooksUpOnce turns member callee within := by
  cases h with
  | undefined h =>
    cases hmoments with
    | cons hfound hnil => exact .nothing hfound
  | tooDeep hfinds =>
    cases hmoments with
    | cons hfound hnil => exact .nothing hfound
  | found hfinds ended inside =>
    cases hmoments with
    | cons hfound hrest =>
      exact .found hfound hfinds (hcaptures.finds hfound hfinds) ended inside

/-- Passages through trampolines that were captured before keep one snapshot. -/
theorem Passes.keepsSnapshot {owner : Handle} {covered : Implementation σ}
    {entered : Invocation} {within : List (Story σ)} {ended : Except Fault Outcome}
    (h : Passes owner covered entered within ended) {earlier : Nat}
    (hearlier : ∀ moment ∈ moments, earlier < moment)
    (hcaptured : (Implementation.trampoline owner covered).Captured
      (crew.history (turns.take earlier)))
    (hsorted : moments.Pairwise (· < ·))
    (hmoments : List.Forall₂ (crew.DoneAt turns member) moments (deedsAll within)) :
    crew.KeepsSnapshot turns member owner covered entered within ended := by
  obtain ⟨⟨installing, hinstalling, hinstalls⟩, -⟩ := hcaptured
  cases h with
  | bypassed henabled ended inside =>
    cases hmoments with
    | cons hentry hrest =>
      have hlt := hearlier _ (List.mem_cons_self ..)
      exact .bypassed (crew.history_take_mono turns (Nat.le_of_lt hlt) hinstalling) hinstalls
        hentry henabled ended inside
  | routed henabled snapshot hstages =>
    cases hmoments with
    | cons hentry hrest =>
      cases hrest with
      | cons hsnapshot hrest =>
        have hlt := hearlier _ (List.mem_cons_self ..)
        have hlater := (List.pairwise_cons.mp hsorted).1 _ (List.mem_cons_self ..)
        exact .routed (crew.history_take_mono turns (Nat.le_of_lt hlt) hinstalling) hinstalls
          hentry henabled hlater hsnapshot hstages hstages.isRecording

/-- **Every call looks up once, and every passage keeps one snapshot**, at whatever depth. -/
theorem Story.Orderly.isConsistent {depth : Nat} {story : Story σ} (h : story.Orderly depth)
    (hcaptures : crew.Captures turns) (hsorted : moments.Pairwise (· < ·))
    (hmoments : List.Forall₂ (crew.DoneAt turns member) moments story.deeds)
    (hstory : story.CapturedBefore crew turns moments) :
    ∀ part ∈ story.parts, part.IsConsistent crew turns member := by
  induction h generalizing moments with
  | deed depth d => exact List.forall_mem_singleton.mpr trivial
  | @body depth role program entered ended within does steps inside ih =>
    refine List.forall_mem_cons.mpr ⟨trivial, fun part hpart => ?_⟩
    obtain ⟨story, hmem, hpart⟩ := mem_partsAll_iff.mp hpart
    obtain ⟨chosen, hchosen, hdone⟩ :=
      forall₂_exists_sublist hmoments (deeds_sublist_deedsAll hmem)
    refine ih story hmem (hsorted.sublist hchosen) hdone ?_ part hpart
    exact story.capturedBefore_of_isPassage_eq_false (steps story hmem).isPassage_eq_false
  | @call depth callee within calls inside ih =>
    refine List.forall_mem_cons.mpr ⟨calls.looksUpOnce hcaptures hmoments, fun part hpart => ?_⟩
    obtain ⟨story, hmem, hpart⟩ := mem_partsAll_iff.mp hpart
    cases calls with
    | undefined h =>
      obtain rfl := List.mem_singleton.mp hmem
      obtain rfl := List.mem_singleton.mp hpart
      trivial
    | tooDeep hfinds =>
      obtain rfl := List.mem_singleton.mp hmem
      obtain rfl := List.mem_singleton.mp hpart
      trivial
    | @found depth d implementation hfinds ended ran =>
      rcases List.mem_pair.mp hmem with rfl | rfl
      · obtain rfl := List.mem_singleton.mp hpart
        trivial
      · -- all that the implementation does comes after the look-up
        cases hmoments with
        | @cons moment _ later _ hfound hrest =>
          obtain ⟨hlater, hsorted⟩ := List.pairwise_cons.mp hsorted
          have hdone : List.Forall₂ (crew.DoneAt turns member) later
              (implementation.told callee ended ran).deeds := by
            simpa [deedsAll] using hrest
          exact ih _ hmem hsorted hdone
            ((hcaptures.finds hfound hfinds).told hlater callee ended ran) part hpart
  | @passage depth owner covered entered ended within passes inside ih =>
    obtain ⟨earlier, hearlier, hcaptured⟩ := hstory
    refine List.forall_mem_cons.mpr
      ⟨passes.keepsSnapshot hearlier hcaptured hsorted hmoments, fun part hpart => ?_⟩
    obtain ⟨story, hmem, hpart⟩ := mem_partsAll_iff.mp hpart
    obtain ⟨chosen, hchosen, hdone⟩ :=
      forall₂_exists_sublist hmoments (deeds_sublist_deedsAll hmem)
    refine ih story hmem (hsorted.sublist hchosen) hdone ?_ part hpart
    rcases passes.eq_told_or story hmem with hnot | ⟨call, ended', inside', rfl⟩
    · exact story.capturedBefore_of_isPassage_eq_false hnot
    · exact hcaptured.2.told (fun later hlater => hearlier later (hchosen.subset hlater)) ..

end Consistent

/-! ### Programs side by side -/

/-- **A call in flight works on one consistent snapshot.** Let any number of programs run side by
side on a system that starts with nothing, taking turns in any order, and let them do to the
system whatever they like, in the middle of calls too. Every program comes to its end if it is
given enough further turns; and for each one that has, there is a story of what it did. In every
such story:

* each call looks its implementation up once, at one moment, and what it finds there is what
  runs;
* each passage through a trampoline looks once whether the interceptor is enabled, and at most
  once, and later, at its hooks. From there on the stages are those of just these hooks and of
  what is covered, which is the implementation that stood in the slot when the trampoline was
  installed, before the call;
* whatever is looked at is the system as all turns before that moment have left it, so the changes
  that a call sees are just those made before it looks. -/
theorem snapshot_of_history (clock : Clock) (memory : σ) (programs : List (Nat × Program σ))
    (turns : List Nat) (member depth : Nat) (p : Program σ)
    (hp : programs[member]? = some (depth, p)) :
    let crew := Crew.ofPrograms clock memory programs
    (∃ count result,
        (crew.follow (turns ++ List.replicate count member)).ended? member = some result) ∧
      ∀ result, (crew.follow turns).ended? member = some result →
        (∃ story, p.IsTold depth (crew.doings member turns) story) ∧
          ∀ story, p.IsTold depth (crew.doings member turns) story →
            (∀ callee within, .call callee within ∈ story.parts →
              crew.LooksUpOnce turns member callee within) ∧
            ∀ owner covered entered ended within,
              .passage owner covered entered ended within ∈ story.parts →
                crew.KeepsSnapshot turns member owner covered entered within ended := by
  intro crew
  refine ⟨?_, fun result hended => ⟨Crew.exists_isTold hp hended, fun story htold => ?_⟩⟩
  · have hlength : crew.threads.length = programs.length := List.length_map _
    have hlt : member < programs.length := (List.getElem?_eq_some_iff.mp hp).1
    exact crew.exists_ended turns (hlength ▸ hlt)
  · have hcaptures : crew.Captures turns := fun moment =>
      History.Captures.follow clock memory _ (turns.take moment)
    obtain ⟨moments, hsorted, hmoments⟩ := crew.exists_moments member turns
    rw [← htold.deeds_eq] at hmoments
    obtain ⟨ended, within, rfl⟩ := htold.whole
    have hparts := htold.orderly.isConsistent hcaptures hsorted hmoments trivial
    exact ⟨fun callee within hmem => hparts _ hmem,
      fun owner covered entered ended within hmem => hparts _ hmem⟩

namespace Gate

/-- An operation that tells whether a gate is open. -/
def key : Key :=
  .ofType "Gate" "isOpen"

/-- Has the gate closed, says that it is open by a hook, and asks. -/
def visit : Program Unit :=
  .request (.define key) (fun _ => .done (.bool false)) fun _ =>
    .request (.create key) Empty.elim fun handle =>
      .request (.setHook handle .replace) (fun _ => .done (.bool true)) fun _ =>
        .request (.install handle) Empty.elim fun _ => .callThen ⟨.ofType, key, []⟩ .done

/-- Gives the interceptor up and forgets all operations. -/
def demolish : Program Unit :=
  .request (.drop ⟨0, key⟩) Empty.elim fun _ => .request .reset Empty.elim fun _ => .done .null

/-- Both of them on one system. -/
def crew : Crew Unit (Except Failure Value) :=
  .ofPrograms (fun _ => .atEpoch) () [(1, visit), (1, demolish)]

/-- The gate is demolished when the call has just taken the hooks. -/
def turns : List Nat :=
  List.replicate 7 0 ++ [1, 1] ++ List.replicate 3 0

/-- The call says what the hook says, though there is no such operation any more. -/
theorem snapshot_of_visit :
    (crew.follow (turns.take 9)).system.table.lookup key = .error (.targetNotFound key) ∧
      (crew.follow turns).ended? 0 = some (.ok (.ok (.bool true))) ∧
      ∃ story, visit.IsTold 1 (crew.doings 0 turns) story ∧
        ∀ owner covered entered ended within,
          .passage owner covered entered ended within ∈ story.parts →
            crew.KeepsSnapshot turns 0 owner covered entered within ended := by
  have hended : (crew.follow turns).ended? 0 = some (.ok (.ok (.bool true))) := rfl
  obtain ⟨-, hstories⟩ := snapshot_of_history (fun _ => .atEpoch) ()
    [(1, visit), (1, demolish)] turns 0 1 visit rfl
  obtain ⟨⟨story, htold⟩, hconsistent⟩ := hstories _ hended
  exact ⟨rfl, hended, story, htold, (hconsistent story htold).2⟩

end Gate

end Interception
