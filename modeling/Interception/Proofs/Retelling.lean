import Interception.Proofs.Stories

/-!
# Stories tell what can be done

Whatever a thread does has an orderly story (`Program.exists_isTold`). Here is the way back: what
an orderly story tells, the thread can do. This needs an argument for passages only, because a
body comes into a story together with what it did. A passage is put together from its stages, and
so is what it does (`Stages.does`, `Implementation.does_of_told`).

Whoever knows of a stage only from a story can therefore reason about it as about a thread.

| part of a story | what does it |
|---|---|
| the before stage | `BeforeStage.does` |
| the segment | `SegmentStage.does` |
| the after stage | `AfterStage.does` |
| a body or a passage | `Implementation.does_of_told` |
-/

namespace Interception

variable {σ α β : Type}

/-! ### Threads one after the other -/

namespace Thread.Does

variable {t : Thread σ α} {first rest : List (Deed σ)}

/-- A thread does its part, and then what follows it does the rest. -/
theorem bind {f : α → Thread σ β} {result : α} {ended : Except Fault β}
    (h : t.Does first (.ok result)) (hrest : (f result).Does rest ended) :
    (t.bind f).Does (first ++ rest) ended := by
  induction t generalizing first with
  | done result' =>
    cases h
    exact hrest
  | aborted fault => cases h
  | act action next ih =>
    cases h with
    | act s h => exact .act s (ih _ h)

/-- After a fault nothing follows. -/
theorem bind_of_fault {f : α → Thread σ β} {fault : Fault} (h : t.Does first (.error fault)) :
    (t.bind f).Does first (.error fault) := by
  induction t generalizing first with
  | done result => cases h
  | aborted fault' =>
    cases h
    exact .aborted fault
  | act action next ih =>
    cases h with
    | act s h => exact .act s (ih _ h)

theorem map {f : α → β} {ended : Except Fault α} (h : t.Does first ended) :
    (t.map f).Does first (ended.map f) := by
  cases ended with
  | error fault => exact h.bind_of_fault
  | ok result =>
    have hdone : (t.map f).Does (first ++ []) (.ok (f result)) := h.bind (.done (f result))
    rwa [List.append_nil] at hdone

/-- After an outcome that is no success nothing follows. -/
theorem andThen_of_stopped {t : Thread σ Outcome} {next : Value → Invocation → Thread σ Outcome}
    {ended : Except Fault Outcome} (h : t.Does first ended)
    (hended : Outcome.success? ended = none) :
    (t.bind fun outcome => outcome.andThen next).Does first ended := by
  rcases ended with fault | ⟨failure | value, call⟩
  · exact h.bind_of_fault
  · have hstopped : (t.bind fun outcome => outcome.andThen next).Does (first ++ [])
        (.ok ⟨.error failure, call⟩) := h.bind (.done (⟨.error failure, call⟩ : Outcome))
    rwa [List.append_nil] at hstopped
  · cases hended

/-- After a success, what follows does the rest. -/
theorem andThen {t : Thread σ Outcome} {next : Value → Invocation → Thread σ Outcome}
    {value : Value} {call : Invocation} {ended : Except Fault Outcome}
    (h : t.Does first (.ok ⟨.ok value, call⟩)) (hrest : (next value call).Does rest ended) :
    (t.bind fun outcome => outcome.andThen next).Does (first ++ rest) ended :=
  h.bind hrest

/-- A stage whose value does not matter does the same if another value is put in its place. -/
theorem withValue {t : Thread σ Outcome} {ended : Except Fault Outcome} (h : t.Does first ended)
    (value : Value) :
    (t.bind fun outcome => outcome.andThen fun _ call => .done ⟨.ok value, call⟩).Does first
      (ended.map (Outcome.withValue value)) := by
  rcases ended with fault | ⟨failure | ignored, call⟩
  · exact h.andThen_of_stopped rfl
  · exact h.andThen_of_stopped rfl
  · have hdone : (t.bind fun outcome => outcome.andThen fun _ call => .done ⟨.ok value, call⟩).Does
        (first ++ []) (.ok ⟨.ok value, call⟩) := h.andThen (.done _)
    rwa [List.append_nil] at hdone

end Thread.Does

/-! ### Stages -/

section Stages

variable {depth : Nat} {owner : Handle} {hooks : Hooks σ} {covered : Implementation σ}
  {call : Invocation} {ended : Except Fault Outcome}

/-- A hook in a story does what its thread does. -/
theorem Story.Orderly.does_hook {role : Role} {body : Program σ} {within : List (Story σ)}
    (h : (Story.body role body call ended within).Orderly depth) (f : Outcome → Outcome) :
    ((body.run (runNested depth) call).map f).Does
      (Story.deedsAll [.body role body call ended within]) (ended.map f) := by
  cases h with
  | body does steps inside =>
    rw [Story.deedsAll, Story.deedsAll, Story.deeds, List.append_nil]
    exact does.map

theorem BeforeStage.does {stories : List (Story σ)}
    (h : BeforeStage owner hooks call stories ended)
    (horderly : ∀ story ∈ stories, story.Orderly depth) :
    (runBefore (runNested depth) owner hooks call).Does (Story.deedsAll stories) ended := by
  cases h with
  | skipped hnone =>
    rw [runBefore, hnone]
    exact .done _
  | hook hbody ended within =>
    rw [runBefore, hbody]
    exact (horderly _ (List.mem_singleton_self _)).does_hook _

theorem AfterStage.does {record : Record} {stories : List (Story σ)}
    (h : AfterStage owner hooks record call stories ended)
    (horderly : ∀ story ∈ stories, story.Orderly depth) :
    (runAfter (runNested depth) owner hooks record call).Does (Story.deedsAll stories) ended := by
  cases h with
  | skipped hnone =>
    rw [runAfter, hnone]
    exact .done _
  | collect hcollect s =>
    rw [runAfter, hcollect]
    exact .act s (.done _)
  | hook hbody ended within =>
    rw [runAfter, hbody]
    exact (horderly _ (List.mem_singleton_self _)).does_hook _

/-- An implementation that does what is told of it, whatever it is called on. -/
def DoesTold (depth : Nat) (implementation : Implementation σ) : Prop :=
  ∀ {call : Invocation} {ended : Except Fault Outcome} {within : List (Story σ)},
    (implementation.told call ended within).Orderly depth →
      (implementation.run (runNested depth) call).Does
        (implementation.told call ended within).deeds ended

variable (hcovered : DoesTold depth covered)

include hcovered

theorem SegmentStage.does {story : Story σ}
    (h : SegmentStage owner hooks covered call story ended) (horderly : story.Orderly depth) :
    (runSegment (runNested depth) owner hooks (covered.run (runNested depth)) call).Does
      story.deeds ended := by
  cases h with
  | hook hbody ended within =>
    rw [runSegment, hbody]
    have hhook := horderly.does_hook (Outcome.ofHook owner .replace)
    rwa [Story.deedsAll, Story.deedsAll, List.append_nil] at hhook
  | covered hnone ended within =>
    rw [runSegment, hnone]
    exact hcovered horderly

/-- **The stages of a call do what is told of them.** -/
theorem Stages.does {stories : List (Story σ)} (h : Stages owner hooks covered call stories ended)
    (horderly : ∀ story ∈ stories, story.Orderly depth) :
    (stages (runNested depth) owner hooks (covered.run (runNested depth)) call).Does
      (Story.deedsAll stories) ended := by
  rw [stages]
  cases h with
  | stopped hbefore hended => exact (hbefore.does horderly).andThen_of_stopped hended
  | @failed before segment value entered ended start hbefore hsegment hended =>
    obtain ⟨hfirst, hlater⟩ := List.forall_mem_append.mp horderly
    obtain ⟨-, hsegment'⟩ := List.forall_mem_cons.mp hlater
    have hdoes := hsegment.does hcovered (hsegment' segment (List.mem_singleton_self _))
    rw [Story.deedsAll_append]
    refine (hbefore.does hfirst).andThen (.act start ?_)
    rw [Story.deedsAll, Story.deedsAll, List.append_nil]
    exact hdoes.andThen_of_stopped hended
  | @recorded before after segment ignored value entered left ended start stop made hbefore
      hsegment hafter =>
    obtain ⟨hfirst, hlater⟩ := List.forall_mem_append.mp horderly
    obtain ⟨hfirst, hmiddle⟩ := List.forall_mem_append.mp hfirst
    have hdoes := hsegment.does hcovered (hmiddle segment (by simp))
    have hend := (hafter.does hlater).withValue value
    rw [Story.deedsAll_append, Story.deedsAll_append, List.append_assoc]
    simp only [Story.deedsAll, Story.deeds, List.append_nil, List.append_assoc, List.cons_append,
      List.nil_append]
    refine (hbefore.does hfirst).andThen (.act start (hdoes.bind ?_))
    exact .act stop (.act made hend)

end Stages

/-! ### Implementations -/

/-- **An implementation does what is told of it**, through however many trampolines. -/
theorem Implementation.does_of_told {depth : Nat} (implementation : Implementation σ) :
    DoesTold depth implementation := by
  induction implementation with
  | plain body =>
    intro call ended within h
    cases h with
    | body does steps inside => exact does
  | trampoline owner covered ih =>
    intro call ended within h
    cases h with
    | passage passes inside =>
      cases passes with
      | bypassed henabled ended within =>
        have htold := ih (inside _ (List.mem_cons_of_mem _ (List.mem_singleton_self _)))
        simp only [told, Story.deeds, Story.deedsAll, List.append_nil]
        refine .act _ ?_
        simp only [Action.perform, henabled]
        exact htold
      | routed henabled snapshot hstages =>
        have htold := hstages.does ih fun story hmem =>
          inside story (List.mem_cons_of_mem _ (List.mem_cons_of_mem _ hmem))
        refine .act _ ?_
        simp only [Action.perform, henabled]
        exact .act snapshot htold

end Interception
