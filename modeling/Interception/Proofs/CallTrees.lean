import Interception.Proofs.Evaluation

/-!
# What a run leaves behind

The call trees of a run are not only a record of what ran: they explain how each call ended.
A call ends with the failure of one of its stages, or else with a value; and a stage fails
because its body does, or because it is a hook whose body does (`Label.failure?`). A tree in
which all calls are explained in this way is *sound* (`CallTree.Sound`).

Unless a fault ends it, a run leaves sound trees behind (`System.trees_evaluate`). This is
proved of each piece of a run in turn, with what else has to be known of its trees
(`Run.Yields`).

| piece of a run | what fits its trees |
|---|---|
| a stage, or several of them | at most one failed, and the result is its failure (`Blames`) |
| a call | it answers what its stages say (`Answers`) |
| a body | anything |
-/

namespace Interception

variable {σ α β : Type}

/-! ### Stages and answers -/

/-- What a failed node hands to whatever it belongs to. -/
def Label.failure? : Label → Option Failure
  | .call _ (.ok (.error error)) => some (.raised error)
  | .implementation _ (.ok (.error failure)) => some failure
  | .hook key slot _ (.ok (.error failure)) => some (.raised (.hookFailed key slot failure))
  | _ => none

namespace CallTree

/-- What a tree hands to whatever it belongs to, if it failed. -/
def failure? : CallTree → Option Failure
  | .node label _ => label.failure?

/-- What some trees hand on, in order. -/
def failures (trees : List CallTree) : List Failure :=
  trees.filterMap failure?

end CallTree

/-- **Trees of stages that fit a result**: no stage failed, or just one with the failure of
the result. -/
def Blames (stages : List CallTree) (result : Except Failure Value) : Prop :=
  CallTree.failures stages =
    match result with
    | .ok _ => []
    | .error failure => [failure]

/-- After stages that did not fail, the next ones decide. -/
theorem Blames.append {stages rest : List CallTree} {value : Value}
    {result : Except Failure Value} (h : Blames stages (.ok value)) (hrest : Blames rest result) :
    Blames (stages ++ rest) result := by
  have hnone : CallTree.failures stages = [] := h
  unfold Blames CallTree.failures at hrest ⊢
  rw [List.filterMap_append, hrest]
  exact congrArg (· ++ _) hnone

theorem Blames.append_nil {stages : List CallTree} {result : Except Failure Value}
    (h : Blames stages result) : Blames (stages ++ []) result := by
  rw [List.append_nil]
  exact h

/-- **What a call answers**, given the stages that ran for it. -/
inductive Answers (callee : Invocation) : List CallTree → Except CallError Value → Prop
  /-- The operation is not defined, and nothing ran. -/
  | undefined : Answers callee [] (.error (.targetNotFound callee.key))
  /-- No stage failed. -/
  | succeeded {stages : List CallTree} (value : Value) (h : CallTree.failures stages = []) :
      Answers callee stages (.ok value)
  /-- One stage failed. -/
  | failed {stages : List CallTree} {failure : Failure}
      (h : CallTree.failures stages = [failure]) :
      Answers callee stages (.error failure.recover)

theorem Blames.answers {stages : List CallTree} {outcome : Outcome}
    (h : Blames stages outcome.result) (callee : Invocation) :
    Answers callee stages outcome.answer := by
  obtain ⟨failure | value, call⟩ := outcome
  · exact .failed h
  · exact .succeeded value h

/-- **Every call in the tree answers what its stages say.** -/
inductive CallTree.Sound : CallTree → Prop
  | node {label : Label} {within : List CallTree}
      (hanswer : ∀ callee answer, label = .call callee (.ok answer) →
        Answers callee within answer)
      (hwithin : ∀ tree ∈ within, tree.Sound) : Sound (.node label within)

/-! ### The trees of a run -/

/-- **What a run leaves behind**, unless a fault ends it: sound trees that fit its result. -/
def Run.Yields (run : Run σ α) (fits : List CallTree → α → Prop) : Prop :=
  ∀ s result, (run s).result = .ok result →
    (∀ tree ∈ (run s).trees, tree.Sound) ∧ fits (run s).trees result

namespace Run.Yields

theorem pure {fits : List CallTree → α → Prop} {result : α} (h : fits [] result) :
    (Pure.pure result : Run σ α).Yields fits := by
  intro s result' hs
  obtain rfl := Except.ok.inj hs
  exact ⟨fun tree htree => absurd htree List.not_mem_nil, h⟩

theorem fault {fits : List CallTree → α → Prop} (fault : Fault) :
    (Run.fault fault : Run σ α).Yields fits := by
  intro s result hs
  cases hs

theorem mono {run : Run σ α} {fits fits' : List CallTree → α → Prop} (h : run.Yields fits)
    (hfits : ∀ trees result, fits trees result → fits' trees result) : run.Yields fits' :=
  fun s result hs => ⟨(h s result hs).1, hfits _ _ (h s result hs).2⟩

theorem bind {run : Run σ α} {next : α → Run σ β} {fits : List CallTree → α → Prop}
    {fits' : List CallTree → β → Prop} (h : run.Yields fits)
    (hnext : ∀ result trees, fits trees result →
      (next result).Yields fun rest answer => fits' (trees ++ rest) answer) :
    (run >>= next).Yields fits' := by
  intro s answer hs
  have hrun := h s
  change (Run.bind run next s).result = .ok answer at hs
  show (∀ tree ∈ (Run.bind run next s).trees, tree.Sound) ∧
    fits' (Run.bind run next s).trees answer
  rw [Run.bind] at hs ⊢
  generalize run s = ran at hrun hs ⊢
  obtain ⟨fault | result, trees, s'⟩ := ran
  -- a fault in the first run would have ended both
  · cases hs
  · obtain ⟨htrees, hfits⟩ := hrun result rfl
    obtain ⟨hrest, hfits'⟩ := hnext result trees hfits s' answer hs
    refine ⟨fun tree htree => ?_, hfits'⟩
    rcases List.mem_append.mp htree with hmem | hmem
    · exact htrees tree hmem
    · exact hrest tree hmem

/-- Changing the system, or looking at it, leaves no trees. -/
theorem act_bind {change : System σ → α × System σ} {next : α → Run σ β}
    {fits : List CallTree → β → Prop} (hnext : ∀ answer, (next answer).Yields fits) :
    (Run.act change >>= next).Yields fits :=
  fun _ answer hs => hnext _ _ answer hs

/-- A run under a node leaves that node, which has to be sound if it is a call. -/
theorem under {run : Run σ α} {fits : List CallTree → α → Prop} (h : run.Yields fits)
    {label : Except Fault α → Label}
    (hlabel : ∀ within result, fits within result → ∀ callee answer,
      label (.ok result) = .call callee (.ok answer) → Answers callee within answer) :
    (run.under label).Yields fun trees result =>
      ∃ within, fits within result ∧ trees = [.node (label (.ok result)) within] := by
  intro s result hs
  change (run s).result = .ok result at hs
  obtain ⟨htrees, hfits⟩ := h s result hs
  show (∀ tree ∈ [CallTree.node (label (run s).result) (run s).trees], tree.Sound) ∧ _
  rw [hs]
  refine ⟨fun tree htree => ?_, (run s).trees, hfits, ?_⟩
  · obtain rfl := List.mem_singleton.mp htree
    exact .node (hlabel _ _ hfits) htrees
  · show [CallTree.node (label (run s).result) (run s).trees] = _
    rw [hs]

end Run.Yields

/-- The trees of a stage fit the result that it ends with. -/
def Stage (run : Run σ Outcome) : Prop :=
  run.Yields fun trees outcome => Blames trees outcome.result

/-- A way to run bodies that leaves sound trees. -/
def BodiesSound (run : BodyRun σ) : Prop :=
  ∀ body call, (run body call).Yields fun _ _ => True

section Stages

variable {run : BodyRun σ} (h : BodiesSound run)

include h

theorem stage_hook (key : Key) (slot : HookSlot) (body : Program σ) (call : Invocation) :
    Stage (evaluateHook run key slot body call) := by
  refine ((h body call).under fun _ _ _ _ _ he => by cases he).bind ?_
  rintro outcome _ ⟨within, -, rfl⟩
  refine .pure ?_
  obtain ⟨failure | value, call'⟩ := outcome
  · rfl
  · rfl

theorem stage_before (key : Key) (hooks : Hooks σ) (call : Invocation) :
    Stage (evaluateBefore run key hooks call) := by
  rw [evaluateBefore]
  rcases hooks.before with _ | body
  · exact .pure rfl
  · exact stage_hook h key .before body call

theorem stage_segment (key : Key) (hooks : Hooks σ) {base : Invocation → Run σ Outcome}
    (hbase : ∀ call, Stage (base call)) (call : Invocation) :
    Stage (evaluateSegment run key hooks base call) := by
  rw [evaluateSegment]
  rcases hooks.replace with _ | body
  · exact hbase call
  · exact stage_hook h key .replace body call

theorem yields_after (key : Key) (hooks : Hooks σ) (record : Record) (call : Invocation) :
    (evaluateAfter run key hooks record call).Yields Blames := by
  rw [evaluateAfter]
  rcases hooks.after with _ | (body | collector)
  · exact .pure rfl
  · refine (stage_hook h key .after (body record) call).bind fun outcome trees hblames => ?_
    exact .pure hblames.append_nil
  · exact .act_bind fun _ => .pure rfl

/-- **A call through hooks is a stage** if the base is: whichever of its stages fails first
is the one that fails it. -/
theorem stage_hooked (key : Key) (hooks : Hooks σ) {base : Invocation → Run σ Outcome}
    (hbase : ∀ call, Stage (base call)) (call : Invocation) :
    Stage (hooked run key hooks base call) := by
  rw [hooked]
  refine (stage_before h key hooks call).bind fun before trees hbefore => ?_
  -- a stage that fails is the last one, and those before it did not fail
  rcases before with ⟨failure | value, call⟩
  · exact .pure hbefore.append_nil
  refine .act_bind fun start => ?_
  refine (stage_segment h key hooks hbase call).bind fun segment trees' hsegment => ?_
  rcases segment with ⟨failure | value, call⟩
  · exact .pure (hbefore.append hsegment.append_nil)
  refine .act_bind fun stop => .act_bind fun record => ?_
  refine (yields_after h key hooks record call).bind fun result trees'' hafter => ?_
  have hall := hbefore.append (hsegment.append hafter.append_nil)
  rcases result with failure | _
  · exact .pure hall
  · exact .pure hall

theorem stage_routed (owner : Handle) (key : Key) {base : Invocation → Run σ Outcome}
    (hbase : ∀ call, Stage (base call)) (call : Invocation) :
    Stage (routed run owner key base call) := by
  refine .act_bind fun enabled => ?_
  rcases enabled with _ | _
  · exact hbase call
  · exact .act_bind fun hooks => stage_hooked h key hooks hbase call

/-- **An implementation is a stage**, through however many trampolines. -/
theorem stage_implementation (implementation : Implementation σ) (call : Invocation) :
    Stage (implementation.evaluate run call) := by
  induction implementation generalizing call with
  | plain body =>
    refine ((h body call).under fun _ _ _ _ _ he => by cases he).mono ?_
    rintro _ outcome ⟨within, -, rfl⟩
    obtain ⟨failure | value, call'⟩ := outcome
    · rfl
    · rfl
  | trampoline owner covered ih => exact stage_routed h owner owner.key ih call

end Stages

/-- **A call from anywhere leaves one node**, and it answers what its stages say. -/
theorem yields_call {run? : Option (BodyRun σ)} (h : ∀ run ∈ run?, BodiesSound run)
    (callee : Invocation) :
    (evaluateCall run? callee).Yields fun trees answer =>
      ∃ within, Answers callee within answer ∧
        trees = [.node (.call callee (.ok answer)) within] := by
  refine @Run.Yields.under σ _ _ (Answers callee) ?_ (.call callee) ?_
  · refine .act_bind fun base? => ?_
    rcases base? with _ | base
    · exact .pure .undefined
    rcases run? with _ | run
    · exact .fault _
    have hrun : BodiesSound run := h run rfl
    refine .act_bind fun owner? => ?_
    rcases owner? with _ | owner
    · refine (stage_implementation hrun base callee).bind fun outcome trees hblames => ?_
      exact .pure (hblames.append_nil.answers callee)
    · refine (stage_routed hrun owner callee.key (stage_implementation hrun base) callee).bind
        fun outcome trees hblames => ?_
      exact .pure (hblames.append_nil.answers callee)
  · rintro within answer hanswer _ _ he
    cases he
    exact hanswer

theorem stage_kept {run? : Option (BodyRun σ)} (h : ∀ run ∈ run?, BodiesSound run)
    (implementation : Implementation σ) (call : Invocation) :
    Stage (evaluateKept run? implementation call) := by
  rcases run? with _ | run
  · exact .fault _
  · exact stage_implementation (h run rfl) implementation call

/-- **Bodies leave sound trees**, if the calls they make do. -/
theorem bodiesSound_evaluate {run? : Option (BodyRun σ)} (h : ∀ run ∈ run?, BodiesSound run) :
    BodiesSound (Program.evaluate run?) := by
  intro body
  induction body with
  | done value => exact fun call => .pure trivial
  | fail failure => exact fun call => .pure trivial
  | abort fault => exact fun call => .fault fault
  | inspect next ih => exact fun call => ih call call
  | set index value next ih => exact fun call => ih _ _
  | memory change next ih => exact fun call => .act_bind fun old => ih old call
  | request r bodies next _ ih => exact fun call => .act_bind fun answer => ih answer call
  | call callee next ih =>
    exact fun call => (yields_call h callee).bind fun answer _ _ => ih answer call
  | callKept number callee next ih =>
    intro call
    refine .act_bind fun implementation => ?_
    exact (stage_kept h implementation callee).bind fun outcome _ _ => ih _ outcome.call call

/-- **What a call from outside leaves behind**: one node, which answers what its stages say. -/
theorem System.trees_evaluate {s : System σ} {depth : Nat} {callee : Invocation}
    {answer : Except CallError Value} (h : (s.evaluate depth callee).result = .ok answer) :
    ∃ within, (s.evaluate depth callee).trees = [.node (.call callee (.ok answer)) within] ∧
      (CallTree.node (.call callee (.ok answer)) within).Sound := by
  obtain ⟨hsound, within, -, htrees⟩ :=
    yields_call (bodyRun?_induction (fun _ => bodiesSound_evaluate) depth) callee s answer h
  exact ⟨within, htrees, hsound _ (htrees ▸ List.mem_singleton_self _)⟩

end Interception
