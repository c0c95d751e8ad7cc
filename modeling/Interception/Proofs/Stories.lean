import Interception.Proofs.Agreement
import Interception.Proofs.Doings

/-!
# Stories

The doings of a thread are a flat list: which of them belong to one call, and which to the
calls inside of it, does not show. A `Story` puts together what belongs together.

| node | what it stands for | what is inside |
|---|---|---|
| `Story.deed` | a single deed | |
| `Story.body` | a body that ran | its own deeds, and the calls it made |
| `Story.call` | a call | the look-up, and the implementation that was found |
| `Story.passage` | the way through a trampoline | the stages, each with the bodies that ran |

What a passage may look like is laid down by `Passes`: one look at whether the interceptor
is enabled, at most one look at its hooks, and from there on just what these hooks and the
covered implementation say (`Stages`), whatever else happens to the system. A call looks its
implementation up once (`Calls`). A story in which all nodes are as they should be is
*orderly* (`Story.Orderly`).

Every thread that runs a program and has ended has an orderly story
(`Program.exists_isTold`), whatever others did in between. The proof follows the definition of
`Program.run` and of what it is made of: bodies, stages, trampolines, and then the depth
to which calls nest.
-/

namespace Interception

variable {σ α : Type}

/-! ### Stories and what is in them -/

/-- What a body runs as. -/
inductive Role where
  /-- As a program from outside. -/
  | program
  /-- As what a call runs. -/
  | implementation
  /-- As a hook before the operation. -/
  | before
  /-- As a hook instead of it. -/
  | replace
  /-- As a hook after it, with the record of the call. -/
  | after (record : Record)

/-- **What a thread did**, with what belongs together put together. -/
inductive Story (σ : Type) where
  /-- A deed. -/
  | deed (d : Deed σ)
  /-- A body that ran on a call, with how it ended. -/
  | body (role : Role) (program : Program σ) (call : Invocation) (ended : Except Fault Outcome)
      (within : List (Story σ))
  /-- A call. -/
  | call (callee : Invocation) (within : List (Story σ))
  /-- The way of a call through the trampoline of an interceptor, with how it ended. -/
  | passage (owner : Handle) (covered : Implementation σ) (call : Invocation)
      (ended : Except Fault Outcome) (within : List (Story σ))

namespace Story

mutual

/-- What was done in a story, in order. -/
def deeds : Story σ → List (Deed σ)
  | .deed d => [d]
  | .body _ _ _ _ within | .call _ within | .passage _ _ _ _ within => deedsAll within

/-- What was done in several stories, one after the other. -/
def deedsAll : List (Story σ) → List (Deed σ)
  | [] => []
  | story :: rest => story.deeds ++ deedsAll rest

end

mutual

/-- **A story and everything inside of it**, from the outside to the inside and in order. -/
def parts : Story σ → List (Story σ)
  | .deed d => [.deed d]
  | .body role program entered ended within =>
    .body role program entered ended within :: partsAll within
  | .call callee within => .call callee within :: partsAll within
  | .passage owner covered entered ended within =>
    .passage owner covered entered ended within :: partsAll within

/-- Several stories and everything inside of them. -/
def partsAll : List (Story σ) → List (Story σ)
  | [] => []
  | story :: rest => story.parts ++ partsAll rest

end

theorem deedsAll_eq_flatMap (stories : List (Story σ)) :
    deedsAll stories = stories.flatMap deeds := by
  induction stories with
  | nil => rfl
  | cons story rest ih => rw [deedsAll, List.flatMap_cons, ih]

theorem deedsAll_append (stories rest : List (Story σ)) :
    deedsAll (stories ++ rest) = deedsAll stories ++ deedsAll rest := by
  simp only [deedsAll_eq_flatMap, List.flatMap_append]

theorem partsAll_eq_flatMap (stories : List (Story σ)) :
    partsAll stories = stories.flatMap parts := by
  induction stories with
  | nil => rfl
  | cons story rest ih => rw [partsAll, List.flatMap_cons, ih]

theorem mem_partsAll_iff {part : Story σ} {stories : List (Story σ)} :
    part ∈ partsAll stories ↔ ∃ story ∈ stories, part ∈ story.parts := by
  rw [partsAll_eq_flatMap, List.mem_flatMap]

theorem deeds_sublist_deedsAll {story : Story σ} {stories : List (Story σ)}
    (h : story ∈ stories) : story.deeds.Sublist (deedsAll stories) := by
  obtain ⟨before, after, rfl⟩ := List.append_of_mem h
  rw [deedsAll_append]
  exact (List.sublist_append_left _ _).trans (List.sublist_append_right _ _)

end Story

/-! ### Stages -/

/-- The story of an implementation that ran on a call. -/
def Implementation.told (call : Invocation) (ended : Except Fault Outcome)
    (within : List (Story σ)) : Implementation σ → Story σ
  | .plain body => .body .implementation body call ended within
  | .trampoline owner covered => .passage owner covered call ended within

/-- What a stage hands on, if it ended well. -/
def Outcome.success? : Except Fault Outcome → Option (Value × Invocation)
  | .ok ⟨.ok value, call⟩ => some (value, call)
  | _ => none

/-- The outcome with the value of the segment in place of that of the after stage. -/
def Outcome.withValue (value : Value) (outcome : Outcome) : Outcome :=
  { outcome with result := outcome.result.map fun _ => value }

/-- The outcome of an after-hook: whatever it does to the call is lost. -/
def Outcome.ofAfter (owner : Handle) (call : Invocation) (outcome : Outcome) : Outcome :=
  { outcome.ofHook owner .after with call }

section Stages

variable (owner : Handle) (hooks : Hooks σ)

/-- **The before stage.** -/
inductive BeforeStage (call : Invocation) : List (Story σ) → Except Fault Outcome → Prop
  /-- There is no hook. -/
  | skipped (h : hooks.before = none) : BeforeStage call [] (.ok ⟨.ok .null, call⟩)
  /-- The hook runs. -/
  | hook {body : Program σ} (h : hooks.before = some body) (ended : Except Fault Outcome)
      (within : List (Story σ)) :
      BeforeStage call [.body .before body call ended within]
        (ended.map (Outcome.ofHook owner .before))

/-- **The segment.** -/
inductive SegmentStage (covered : Implementation σ) (call : Invocation) :
    Story σ → Except Fault Outcome → Prop
  /-- The replace-hook runs. -/
  | hook {body : Program σ} (h : hooks.replace = some body) (ended : Except Fault Outcome)
      (within : List (Story σ)) :
      SegmentStage covered call (.body .replace body call ended within)
        (ended.map (Outcome.ofHook owner .replace))
  /-- There is no such hook, and what is covered runs. -/
  | covered (h : hooks.replace = none) (ended : Except Fault Outcome) (within : List (Story σ)) :
      SegmentStage covered call (covered.told call ended within) ended

/-- **The after stage**, with the record of the call. -/
inductive AfterStage (record : Record) (call : Invocation) :
    List (Story σ) → Except Fault Outcome → Prop
  /-- There is no hook. -/
  | skipped (h : hooks.after = none) : AfterStage record call [] (.ok ⟨.ok .null, call⟩)
  /-- The record goes to a collector. -/
  | collect {collector : CollectorId} (h : hooks.after = some (.collect collector))
      (s : System σ) :
      AfterStage record call [.deed ⟨s, .deliver collector record call.arguments⟩]
        (.ok ⟨.ok .null, call⟩)
  /-- The hook runs on the record. -/
  | hook {body : Record → Program σ} (h : hooks.after = some (.run body))
      (ended : Except Fault Outcome) (within : List (Story σ)) :
      AfterStage record call [.body (.after record) (body record) call ended within]
        (ended.map (Outcome.ofAfter owner call))

/-- **The stages of a call** that goes through hooks around a covered implementation. Each of
them may be the last. -/
inductive Stages (covered : Implementation σ) (call : Invocation) :
    List (Story σ) → Except Fault Outcome → Prop
  /-- The before stage did not end well, and nothing else runs. -/
  | stopped {before : List (Story σ)} {ended : Except Fault Outcome}
      (hbefore : BeforeStage owner hooks call before ended)
      (hended : Outcome.success? ended = none) : Stages covered call before ended
  /-- The segment did not end well, and there is no record. -/
  | failed {before : List (Story σ)} {segment : Story σ} {value : Value} {entered : Invocation}
      {ended : Except Fault Outcome} (start : System σ)
      (hbefore : BeforeStage owner hooks call before (.ok ⟨.ok value, entered⟩))
      (hsegment : SegmentStage owner hooks covered entered segment ended)
      (hended : Outcome.success? ended = none) :
      Stages covered call (before ++ [.deed ⟨start, .readClock⟩, segment]) ended
  /-- The segment ended well: there is a record, and the after stage follows. -/
  | recorded {before after : List (Story σ)} {segment : Story σ} {ignored value : Value}
      {entered left : Invocation} {ended : Except Fault Outcome} (start stop made : System σ)
      (hbefore : BeforeStage owner hooks call before (.ok ⟨.ok ignored, entered⟩))
      (hsegment : SegmentStage owner hooks covered entered segment (.ok ⟨.ok value, left⟩))
      (hafter : AfterStage owner hooks
        (made.record owner.key start.readClock.1 stop.readClock.1 hooks.replace.isSome).1 left
        after ended) :
      Stages covered call
        (before ++ [.deed ⟨start, .readClock⟩, segment, .deed ⟨stop, .readClock⟩,
          .deed ⟨made, .record owner.key start.readClock.1 stop.readClock.1
            hooks.replace.isSome⟩] ++ after)
        (ended.map (Outcome.withValue value))

end Stages

/-! ### Passages and calls -/

/-- **The way through the trampoline of an interceptor.** -/
inductive Passes (owner : Handle) (covered : Implementation σ) (call : Invocation) :
    List (Story σ) → Except Fault Outcome → Prop
  /-- The interceptor is not enabled, and what it covers runs. -/
  | bypassed {entry : System σ} (h : entry.enabled owner = false)
      (ended : Except Fault Outcome) (within : List (Story σ)) :
      Passes owner covered call [.deed ⟨entry, .enabled owner⟩, covered.told call ended within]
        ended
  /-- The interceptor is enabled, and the call goes through its hooks as they are found
  then. -/
  | routed {entry : System σ} (h : entry.enabled owner = true) (snapshot : System σ)
      {rest : List (Story σ)} {ended : Except Fault Outcome}
      (hstages : Stages owner (snapshot.hooks owner) covered call rest ended) :
      Passes owner covered call
        (.deed ⟨entry, .enabled owner⟩ :: .deed ⟨snapshot, .hooks owner⟩ :: rest) ended

/-- Whether a story is a passage. -/
def Story.isPassage : Story σ → Bool
  | .passage .. => true
  | _ => false

section Stages

variable {owner : Handle} {hooks : Hooks σ} {covered : Implementation σ} {call : Invocation}
  {stories : List (Story σ)} {ended : Except Fault Outcome}

theorem BeforeStage.isPassage_eq_false (h : BeforeStage owner hooks call stories ended) :
    ∀ story ∈ stories, story.isPassage = false := by
  cases h with
  | skipped h => exact fun story hmem => absurd hmem List.not_mem_nil
  | hook h ended within => exact List.forall_mem_singleton.mpr rfl

theorem AfterStage.isPassage_eq_false {record : Record}
    (h : AfterStage owner hooks record call stories ended) :
    ∀ story ∈ stories, story.isPassage = false := by
  cases h with
  | skipped h => exact fun story hmem => absurd hmem List.not_mem_nil
  | collect h s => exact List.forall_mem_singleton.mpr rfl
  | hook h ended within => exact List.forall_mem_singleton.mpr rfl

theorem SegmentStage.eq_told_or {story : Story σ}
    (h : SegmentStage owner hooks covered call story ended) :
    story.isPassage = false ∨ ∃ entered ended' inside,
      story = covered.told entered ended' inside := by
  cases h with
  | hook h ended within => exact .inl rfl
  | covered h ended within => exact .inr ⟨call, ended, within, rfl⟩

/-- **The only passage directly in a passage is that of what is covered.** -/
theorem Passes.eq_told_or (h : Passes owner covered call stories ended) :
    ∀ story ∈ stories, story.isPassage = false ∨ ∃ entered ended' inside,
      story = covered.told entered ended' inside := by
  cases h with
  | bypassed henabled ended within =>
    exact List.forall_mem_cons.mpr
      ⟨.inl rfl, List.forall_mem_singleton.mpr (.inr ⟨call, ended, within, rfl⟩)⟩
  | routed henabled snapshot hstages =>
    refine List.forall_mem_cons.mpr ⟨.inl rfl, List.forall_mem_cons.mpr ⟨.inl rfl, ?_⟩⟩
    cases hstages with
    | stopped hbefore hended => exact fun story hmem => .inl (hbefore.isPassage_eq_false story hmem)
    | failed start hbefore hsegment hended =>
      refine List.forall_mem_append.mpr
        ⟨fun story hmem => .inl (hbefore.isPassage_eq_false story hmem), ?_⟩
      exact List.forall_mem_cons.mpr
        ⟨.inl rfl, List.forall_mem_singleton.mpr hsegment.eq_told_or⟩
    | recorded start stop made hbefore hsegment hafter =>
      refine List.forall_mem_append.mpr ⟨List.forall_mem_append.mpr
        ⟨fun story hmem => .inl (hbefore.isPassage_eq_false story hmem), ?_⟩,
        fun story hmem => .inl (hafter.isPassage_eq_false story hmem)⟩
      exact List.forall_mem_cons.mpr ⟨.inl rfl, List.forall_mem_cons.mpr ⟨hsegment.eq_told_or,
        List.forall_mem_cons.mpr ⟨.inl rfl, List.forall_mem_singleton.mpr (.inl rfl)⟩⟩⟩

end Stages

/-- A deed that finds the implementation for a call: in the table, or among those that
somebody kept. -/
inductive Deed.Finds (callee : Invocation) : Deed σ → Implementation σ → Prop
  /-- It is looked up in the table. -/
  | lookup {s : System σ} {implementation : Implementation σ}
      (h : s.table.lookup callee.key = .ok implementation) :
      Finds callee ⟨s, .lookup callee.key⟩ implementation
  /-- It was kept. -/
  | kept (s : System σ) (number : KeptId) :
      Finds callee ⟨s, .kept number⟩ (s.keptImplementation number)

/-- **A call**, where calls may nest so deep. -/
inductive Calls (callee : Invocation) : Nat → List (Story σ) → Prop
  /-- The operation is not defined. -/
  | undefined {depth : Nat} {s : System σ} {error : CallError}
      (h : s.table.lookup callee.key = .error error) :
      Calls callee depth [.deed ⟨s, .lookup callee.key⟩]
  /-- Calls may not nest any deeper. -/
  | tooDeep {d : Deed σ} {implementation : Implementation σ} (h : d.Finds callee implementation) :
      Calls callee 0 [.deed d]
  /-- An implementation is found and runs. -/
  | found {depth : Nat} {d : Deed σ} {implementation : Implementation σ}
      (h : d.Finds callee implementation) (ended : Except Fault Outcome)
      (within : List (Story σ)) :
      Calls callee (depth + 1) [.deed d, implementation.told callee ended within]

/-- What bodies do by themselves. -/
inductive Action.IsOwn : Action σ → Prop
  | memory (change : σ → σ) : IsOwn (.memory change)
  | request (r : Request) (bodies : r.Body → Program σ) : IsOwn (.request r bodies)

namespace Story

/-- What stands directly in the story of a body: its own deeds, and calls. -/
inductive IsStep : Story σ → Prop
  | own {s : System σ} {action : Action σ} (h : action.IsOwn) : IsStep (.deed ⟨s, action⟩)
  | call (callee : Invocation) (within : List (Story σ)) : IsStep (.call callee within)

theorem IsStep.isPassage_eq_false {story : Story σ} (h : story.IsStep) :
    story.isPassage = false := by
  cases h with
  | own h => rfl
  | call callee within => rfl

/-- **A story in which everything is as it should be**, where calls may nest so deep. -/
inductive Orderly : Nat → Story σ → Prop
  /-- Single deeds are judged by where they stand. -/
  | deed (depth : Nat) (d : Deed σ) : Orderly depth (.deed d)
  /-- A body does what its program says. -/
  | body {depth : Nat} {role : Role} {program : Program σ} {call : Invocation}
      {ended : Except Fault Outcome} {within : List (Story σ)}
      (does : (program.run (runNested depth) call).Does (deedsAll within) ended)
      (steps : ∀ story ∈ within, story.IsStep)
      (inside : ∀ story ∈ within, story.Orderly depth) :
      Orderly depth (.body role program call ended within)
  /-- What a call runs may call others, but not as deep. -/
  | call {depth : Nat} {callee : Invocation} {within : List (Story σ)}
      (calls : Calls callee depth within)
      (inside : ∀ story ∈ within, story.Orderly (depth - 1)) :
      Orderly depth (.call callee within)
  /-- A passage goes through its stages. -/
  | passage {depth : Nat} {owner : Handle} {covered : Implementation σ} {call : Invocation}
      {ended : Except Fault Outcome} {within : List (Story σ)}
      (passes : Passes owner covered call within ended)
      (inside : ∀ story ∈ within, story.Orderly depth) :
      Orderly depth (.passage owner covered call ended within)

/-- Whatever is inside of an orderly story is orderly, and a part of what is told. -/
theorem Orderly.of_mem_parts {depth : Nat} {story part : Story σ} (h : story.Orderly depth)
    (hpart : part ∈ story.parts) :
    (∃ inner, part.Orderly inner) ∧ part.deeds.Sublist story.deeds := by
  -- what is inside of one of several stories is inside of what holds them
  have hwithin {within : List (Story σ)} (ih : ∀ story ∈ within, part ∈ story.parts →
      (∃ inner, part.Orderly inner) ∧ part.deeds.Sublist story.deeds)
      (hmem : part ∈ partsAll within) :
      (∃ inner, part.Orderly inner) ∧ part.deeds.Sublist (deedsAll within) := by
    obtain ⟨story, hstory, hmem⟩ := mem_partsAll_iff.mp hmem
    obtain ⟨horderly, hsublist⟩ := ih story hstory hmem
    exact ⟨horderly, hsublist.trans (deeds_sublist_deedsAll hstory)⟩
  induction h with
  | deed depth d =>
    obtain rfl := List.mem_singleton.mp hpart
    exact ⟨⟨depth, .deed depth d⟩, .refl _⟩
  | body does steps inside ih =>
    rcases List.mem_cons.mp hpart with rfl | hmem
    · exact ⟨⟨_, .body does steps inside⟩, .refl _⟩
    · exact hwithin ih hmem
  | call calls inside ih =>
    rcases List.mem_cons.mp hpart with rfl | hmem
    · exact ⟨⟨_, .call calls inside⟩, .refl _⟩
    · exact hwithin ih hmem
  | passage passes inside ih =>
    rcases List.mem_cons.mp hpart with rfl | hmem
    · exact ⟨⟨_, .passage passes inside⟩, .refl _⟩
    · exact hwithin ih hmem

end Story

/-- **A story of what a program did** that was run from outside. -/
structure Program.IsTold (p : Program σ) (depth : Nat) (deeds : List (Deed σ))
    (story : Story σ) : Prop where
  /-- It is the story of the program. -/
  whole : ∃ ended within, story = .body .program p .idle ended within
  /-- Everything in it is as it should be. -/
  orderly : story.Orderly depth
  /-- It tells just what was done. -/
  deeds_eq : story.deeds = deeds

/-! ### Every thread has a story -/

/-- **What was done can be told**, by orderly stories of which something holds. -/
def HasStories (depth : Nat) (deeds : List (Deed σ)) (fits : List (Story σ) → Prop) : Prop :=
  ∃ stories, Story.deedsAll stories = deeds ∧ (∀ story ∈ stories, story.Orderly depth) ∧
    fits stories

namespace HasStories

variable {depth : Nat} {deeds rest : List (Deed σ)} {fits fits' : List (Story σ) → Prop}

theorem nil (h : fits []) : HasStories depth ([] : List (Deed σ)) fits :=
  ⟨[], rfl, by simp, h⟩

theorem singleton {story : Story σ} (h : story.Orderly depth) (hfits : fits [story]) :
    HasStories depth story.deeds fits :=
  ⟨[story], List.append_nil _, by simpa using h, hfits⟩

theorem append (h : HasStories depth deeds fits)
    (hrest : ∀ first, fits first → HasStories depth rest fun stories => fits' (first ++ stories)) :
    HasStories depth (deeds ++ rest) fits' := by
  obtain ⟨first, rfl, horderly, hfits⟩ := h
  obtain ⟨stories, rfl, horderly', hfits'⟩ := hrest first hfits
  refine ⟨first ++ stories, Story.deedsAll_append first stories, fun story hmem => ?_, hfits'⟩
  exact (List.mem_append.mp hmem).elim (horderly story) (horderly' story)

/-- A story is told first, and then the rest. -/
theorem cons {story : Story σ} (h : story.Orderly depth)
    (hrest : HasStories depth rest fun stories => fits (story :: stories)) :
    HasStories depth (story.deeds ++ rest) fits := by
  obtain ⟨stories, rfl, horderly, hfits⟩ := hrest
  exact ⟨story :: stories, rfl, List.forall_mem_cons.mpr ⟨h, horderly⟩, hfits⟩

/-- A deed comes first, and then the rest. -/
theorem cons_deed (d : Deed σ)
    (hrest : HasStories depth rest fun stories => fits (.deed d :: stories)) :
    HasStories depth (d :: rest) fits :=
  cons (.deed depth d) hrest

theorem mono (h : HasStories depth deeds fits)
    (hfits : ∀ stories, fits stories → fits' stories) : HasStories depth deeds fits' := by
  obtain ⟨stories, hdeeds, horderly, hstories⟩ := h
  exact ⟨stories, hdeeds, horderly, hfits stories hstories⟩

end HasStories

/-- **Calls can be told**: what is done from the moment on at which an implementation is found
until it has ended. -/
def CallsTold (σ : Type) (depth : Nat) : Prop :=
  ∀ {callee : Invocation} {d : Deed σ} {implementation : Implementation σ}
    {deeds : List (Deed σ)} {ended : Except Fault Outcome}, d.Finds callee implementation →
    (runNested depth implementation callee).Does deeds ended →
    ∃ within, Story.deedsAll within = d :: deeds ∧ (Story.call callee within).Orderly depth

section Bodies

variable {depth : Nat} (hcalls : CallsTold σ depth) {deeds : List (Deed σ)}
  {ended : Except Fault Outcome}

include hcalls

/-- A call in a body, and what the body goes on with. -/
theorem hasSteps_call {callee : Invocation} {d : Deed σ} {implementation : Implementation σ}
    {next : Outcome → Thread σ Outcome} (hfinds : d.Finds callee implementation)
    (h : ((runNested depth implementation callee).bind next).Does deeds ended)
    (hnext : ∀ outcome rest, (next outcome).Does rest ended →
      HasStories depth rest fun stories => ∀ story ∈ stories, story.IsStep) :
    HasStories depth (d :: deeds) fun stories => ∀ story ∈ stories, story.IsStep := by
  rcases h.of_bind with ⟨outcome, first, rest, hfirst, hrest, rfl⟩ | ⟨fault, hfault, rfl⟩
  · obtain ⟨within, hdeeds, horderly⟩ := hcalls hfinds hfirst
    have hstory : HasStories depth ((Story.call callee within).deeds ++ rest)
        fun stories => ∀ story ∈ stories, story.IsStep :=
      .cons horderly <| (hnext outcome rest hrest).mono fun stories hsteps =>
        List.forall_mem_cons.mpr ⟨.call callee within, hsteps⟩
    rwa [Story.deeds, hdeeds] at hstory
  · obtain ⟨within, hdeeds, horderly⟩ := hcalls hfinds hfault
    have hstory : HasStories depth (Story.call callee within).deeds
        fun stories => ∀ story ∈ stories, story.IsStep :=
      .singleton horderly (by simpa using .call callee within)
    rwa [Story.deeds, hdeeds] at hstory

/-- **What a body does is its own deeds and calls.** -/
theorem hasSteps_body (program : Program σ) {call : Invocation}
    (h : (program.run (runNested depth) call).Does deeds ended) :
    HasStories depth deeds fun stories => ∀ story ∈ stories, story.IsStep := by
  induction program generalizing call deeds with
  | done value =>
    cases h
    exact .nil (by simp)
  | fail failure =>
    cases h
    exact .nil (by simp)
  | abort fault =>
    cases h
    exact .nil (by simp)
  | inspect next ih => exact ih call h
  | set index value next ih => exact ih _ h
  | memory change next ih =>
    cases h with
    | act s h =>
      exact .cons_deed _ ((ih _ h).mono fun stories hsteps =>
        List.forall_mem_cons.mpr ⟨.own (.memory change), hsteps⟩)
  | request r bodies next _ ih =>
    cases h with
    | act s h =>
      exact .cons_deed _ ((ih _ h).mono fun stories hsteps =>
        List.forall_mem_cons.mpr ⟨.own (.request r bodies), hsteps⟩)
  | call callee next ih =>
    cases h with
    | act s h =>
      simp only [Action.perform] at h
      cases hl : s.table.lookup callee.key with
      | error error =>
        rw [hl] at h
        -- nothing is found: the call is over with the look-up
        have hstory : (Story.call callee [.deed ⟨s, .lookup callee.key⟩]).Orderly depth :=
          .call (.undefined hl) fun story hmem => by
            obtain rfl := List.mem_singleton.mp hmem
            exact .deed _ _
        exact .cons hstory ((ih _ h).mono fun stories hsteps =>
          List.forall_mem_cons.mpr ⟨.call _ _, hsteps⟩)
      | ok implementation =>
        rw [hl] at h
        rw [Thread.bind_map] at h
        exact hasSteps_call hcalls (.lookup hl) h fun outcome rest hrest => ih _ hrest
  | callKept number callee next ih =>
    cases h with
    | act s h =>
      exact hasSteps_call hcalls (.kept s number) h fun outcome rest hrest => ih _ _ hrest

/-- **A body has a story.** -/
theorem exists_body {program : Program σ} {call : Invocation}
    (h : (program.run (runNested depth) call).Does deeds ended) :
    ∃ within, Story.deedsAll within = deeds ∧
      ∀ role, (Story.body role program call ended within).Orderly depth := by
  obtain ⟨within, rfl, horderly, hsteps⟩ := hasSteps_body hcalls program h
  exact ⟨within, rfl, fun role => .body h hsteps horderly⟩

/-! ### Stages -/

/-- A hook that runs as a stage. -/
theorem hasStories_hook {program : Program σ} {call : Invocation} {f : Outcome → Outcome}
    (role : Role) {fits : List (Story σ) → Except Fault Outcome → Prop}
    (h : ((program.run (runNested depth) call).map f).Does deeds ended)
    (hfits : ∀ ended within, fits [.body role program call ended within] (ended.map f)) :
    HasStories depth deeds fun stories => fits stories ended := by
  obtain ⟨before, hbefore, rfl⟩ := h.of_map
  obtain ⟨within, rfl, horderly⟩ := exists_body hcalls hbefore
  exact .singleton (horderly role) (hfits before within)

theorem hasStories_before {owner : Handle} {hooks : Hooks σ} {call : Invocation}
    (h : (runBefore (runNested depth) owner hooks call).Does deeds ended) :
    HasStories depth deeds fun stories => BeforeStage owner hooks call stories ended := by
  rw [runBefore] at h
  split at h
  · next body hbody => exact hasStories_hook hcalls .before h fun ended within => .hook hbody ..
  · next hnone =>
    cases h
    exact .nil (.skipped hnone)

theorem hasStories_after {owner : Handle} {hooks : Hooks σ} {record : Record}
    {call : Invocation}
    (h : (runAfter (runNested depth) owner hooks record call).Does deeds ended) :
    HasStories depth deeds fun stories => AfterStage owner hooks record call stories ended := by
  rw [runAfter] at h
  split at h
  · next body hbody =>
    exact hasStories_hook hcalls (.after record) h fun ended within => .hook hbody ..
  · next collector hcollector =>
    cases h with
    | act s h =>
      cases h
      exact .cons_deed _ (.nil (.collect hcollector s))
  · next hnone =>
    cases h
    exact .nil (.skipped hnone)

/-- An implementation that has a story, whatever it is called on. -/
def IsTold (depth : Nat) (implementation : Implementation σ) : Prop :=
  ∀ {call : Invocation} {deeds : List (Deed σ)} {ended : Except Fault Outcome},
    (implementation.run (runNested depth) call).Does deeds ended →
    ∃ within, (implementation.told call ended within).deeds = deeds ∧
      (implementation.told call ended within).Orderly depth

theorem exists_segment {owner : Handle} {hooks : Hooks σ} {covered : Implementation σ}
    {call : Invocation} (hcovered : IsTold depth covered)
    (h : (runSegment (runNested depth) owner hooks (covered.run (runNested depth)) call).Does
      deeds ended) :
    ∃ story : Story σ, story.deeds = deeds ∧ story.Orderly depth ∧
      SegmentStage owner hooks covered call story ended := by
  rw [runSegment] at h
  split at h
  · next body hbody =>
    obtain ⟨before, hbefore, rfl⟩ := h.of_map
    obtain ⟨within, rfl, horderly⟩ := exists_body hcalls hbefore
    exact ⟨.body .replace body call before within, rfl, horderly .replace, .hook hbody ..⟩
  · next hnone =>
    obtain ⟨within, rfl, horderly⟩ := hcovered h
    exact ⟨_, rfl, horderly, .covered hnone ..⟩

/-- What follows a segment that ended well: the record and the after stage. -/
theorem hasStories_recorded {owner : Handle} {hooks : Hooks σ} {record : Record}
    {value : Value} {left : Invocation}
    (h : ((runAfter (runNested depth) owner hooks record left).bind fun outcome =>
      outcome.andThen fun _ call => .done ⟨.ok value, call⟩).Does deeds ended) :
    HasStories depth deeds fun stories =>
      ∃ before, AfterStage owner hooks record left stories before ∧
        ended = before.map (Outcome.withValue value) := by
  rcases h.of_bind with ⟨outcome, first, rest, hfirst, hrest, rfl⟩ | ⟨fault, hfault, rfl⟩
  · have hended : rest = [] ∧ ended = .ok (outcome.withValue value) := by
      rw [Outcome.andThen] at hrest
      split at hrest
      · next value' hvalue =>
        cases hrest
        exact ⟨rfl, by rw [Outcome.withValue, hvalue]; rfl⟩
      · next failure hfailure =>
        cases hrest
        exact ⟨rfl, by rw [Outcome.withValue, hfailure]; rfl⟩
    obtain ⟨rfl, rfl⟩ := hended
    rw [List.append_nil]
    exact (hasStories_after hcalls hfirst).mono fun stories hafter => ⟨_, hafter, rfl⟩
  · exact (hasStories_after hcalls hfault).mono fun stories hafter => ⟨_, hafter, rfl⟩

/-- What follows a before stage that ended well: the segment, and what follows it. -/
theorem hasStories_segment {owner : Handle} {hooks : Hooks σ} {covered : Implementation σ}
    {call entered : Invocation} {before : List (Story σ)} {ignored : Value} {start : System σ}
    (hcovered : IsTold depth covered)
    (hbefore : BeforeStage owner hooks call before (.ok ⟨.ok ignored, entered⟩))
    (h : ((runSegment (runNested depth) owner hooks (covered.run (runNested depth)) entered).bind
      fun outcome => outcome.andThen fun value call =>
        .act .readClock fun stop =>
          .act (.record owner.key start.readClock.1 stop hooks.replace.isSome) fun record =>
            (runAfter (runNested depth) owner hooks record call).bind fun outcome =>
              outcome.andThen fun _ call => .done ⟨.ok value, call⟩).Does deeds ended) :
    HasStories depth deeds fun stories =>
      Stages owner hooks covered call (before ++ .deed ⟨start, .readClock⟩ :: stories) ended := by
  rcases h.of_bind with ⟨⟨result, left⟩, first, rest, hfirst, hrest, rfl⟩ | ⟨fault, hfault, rfl⟩
  · obtain ⟨segment, rfl, horderly, hsegment⟩ := exists_segment hcalls hcovered hfirst
    cases result with
    | error failure =>
      cases hrest
      exact .cons horderly (.nil (.failed start hbefore hsegment rfl))
    | ok value =>
      cases hrest with
      | act stop hrest =>
        cases hrest with
        | act made hrest =>
          refine .cons horderly (.cons_deed _ (.cons_deed _ ?_))
          refine (hasStories_recorded hcalls hrest).mono ?_
          rintro stories ⟨ended', hafter, rfl⟩
          have hstages := Stages.recorded start stop made hbefore hsegment hafter
          rw [List.append_assoc] at hstages
          exact hstages
  · obtain ⟨segment, rfl, horderly, hsegment⟩ := exists_segment hcalls hcovered hfault
    exact .singleton horderly (.failed start hbefore hsegment rfl)

/-- **The stages of a call have stories.** -/
theorem hasStories_stages {owner : Handle} {hooks : Hooks σ} {covered : Implementation σ}
    {call : Invocation} (hcovered : IsTold depth covered)
    (h : (stages (runNested depth) owner hooks (covered.run (runNested depth)) call).Does
      deeds ended) :
    HasStories depth deeds fun stories => Stages owner hooks covered call stories ended := by
  rw [stages] at h
  rcases h.of_bind with ⟨⟨result, entered⟩, first, rest, hfirst, hrest, rfl⟩ | ⟨fault, hfault, rfl⟩
  · refine (hasStories_before hcalls hfirst).append fun before hbefore => ?_
    cases result with
    | error failure =>
      cases hrest
      exact .nil ((List.append_nil before).symm ▸ .stopped hbefore rfl)
    | ok ignored =>
      cases hrest with
      | act start hrest => exact .cons_deed _ (hasStories_segment hcalls hcovered hbefore hrest)
  · exact (hasStories_before hcalls hfault).mono fun stories hbefore => .stopped hbefore rfl

/-! ### Implementations and calls -/

/-- **An implementation has a story**, through however many trampolines. -/
theorem isTold (implementation : Implementation σ) : IsTold depth implementation := by
  induction implementation with
  | plain body =>
    intro call deeds ended h
    obtain ⟨within, rfl, horderly⟩ := exists_body hcalls h
    exact ⟨within, rfl, horderly .implementation⟩
  | trampoline owner covered ih =>
    intro call deeds ended h
    cases h with
    | act entry h =>
      simp only [Action.perform] at h
      cases henabled : entry.enabled owner with
      | false =>
        rw [henabled] at h
        obtain ⟨within, rfl, horderly⟩ := ih h
        refine ⟨[.deed ⟨entry, .enabled owner⟩, covered.told call ended within], ?_,
          .passage (.bypassed henabled ended within) ?_⟩
        · simp [Implementation.told, Story.deeds, Story.deedsAll]
        · simpa using ⟨.deed depth _, horderly⟩
      | true =>
        rw [henabled] at h
        cases h with
        | act snapshot h =>
          obtain ⟨rest, rfl, horderly, hstages⟩ := hasStories_stages hcalls ih h
          refine ⟨.deed ⟨entry, .enabled owner⟩ :: .deed ⟨snapshot, .hooks owner⟩ :: rest, rfl,
            .passage (.routed henabled snapshot hstages) ?_⟩
          exact List.forall_mem_cons.mpr
            ⟨.deed depth _, List.forall_mem_cons.mpr ⟨.deed depth _, horderly⟩⟩

end Bodies

/-- **Calls can be told**, however deep they nest. -/
theorem callsTold (depth : Nat) : CallsTold σ depth := by
  induction depth with
  | zero =>
    intro callee d implementation deeds ended hfinds h
    cases h
    refine ⟨[.deed d], rfl, .call (.tooDeep hfinds) ?_⟩
    simpa using .deed _ d
  | succ depth ih =>
    intro callee d implementation deeds ended hfinds h
    obtain ⟨within, rfl, horderly⟩ := isTold ih implementation h
    refine ⟨[.deed d, implementation.told callee ended within], ?_,
      .call (.found hfinds ended within) ?_⟩
    · simp [Story.deeds, Story.deedsAll]
    · simpa using ⟨.deed depth d, horderly⟩

/-- **Every program that was run from outside has a story**, whatever others did in between. -/
theorem Program.exists_isTold {p : Program σ} {depth : Nat} {deeds : List (Deed σ)}
    {result : Except Fault (Except Failure Value)} (h : (p.thread depth).Does deeds result) :
    ∃ story, p.IsTold depth deeds story := by
  obtain ⟨ended, hended, rfl⟩ := h.of_map
  obtain ⟨within, rfl, horderly⟩ := exists_body (callsTold depth) hended
  exact ⟨.body .program p .idle ended within, ⟨ended, within, rfl⟩, horderly .program, rfl⟩

/-! ### Programs side by side -/

namespace Crew

/-- **Several programs**, each run from outside with its own limit to how deep calls nest, on a
system with nothing in it. -/
def ofPrograms (clock : Clock) (memory : σ) (programs : List (Nat × Program σ)) :
    Crew σ (Except Failure Value) :=
  ⟨programs.map fun entry => entry.2.thread entry.1, .start clock memory⟩

/-- Each of them that has ended has a story. -/
theorem exists_isTold {clock : Clock} {memory : σ} {programs : List (Nat × Program σ)}
    {turns : List Nat} {member depth : Nat} {p : Program σ}
    {result : Except Fault (Except Failure Value)} (hp : programs[member]? = some (depth, p))
    (hended : ((ofPrograms clock memory programs).follow turns).ended? member = some result) :
    ∃ story, p.IsTold depth ((ofPrograms clock memory programs).doings member turns) story := by
  have hthread : (ofPrograms clock memory programs).threads[member]? = some (p.thread depth) := by
    rw [ofPrograms, List.getElem?_map, hp]
    rfl
  exact Program.exists_isTold (does_of_ended? hthread turns hended)

end Crew

end Interception
