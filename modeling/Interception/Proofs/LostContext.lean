import Interception.Proofs.ErrorPath

/-!
# What an implementation's error loses

An implementation ends with a failure, and the caller gets a call error. What the two show
of themselves – the text, and below it the texts of the causes – need not be the same.
`Failure.recover` looks for a call error first, under whatever context, and if it finds one,
that is what the caller gets; the context stays behind.

| the failure is | the caller sees |
|---|---|
| a message, under any context | all of it |
| the error of a call, as it is | all of it |
| the error of a call, under context | only that error |

So what the implementation showed is what is lost followed by what the caller sees
(`Failure.shown_eq`), and something is lost just if there is context around the error of a
call (`Failure.lost_eq_nil_iff`). The main statement, `Interception.error_of_implementation`,
says this of every call that goes on inside of a call from outside, however deep.
-/

namespace Interception

variable {σ α : Type}

/-! ### What is shown and what is lost -/

/-- What a call error shows: its text, and below it those of its causes. -/
def CallError.shown (error : CallError) : List String :=
  error.text :: error.chain

namespace Failure

/-- What a failure shows: its text, and below it those of its causes. -/
def shown (failure : Failure) : List String :=
  failure.text :: failure.chain

/-- The contexts that were added to a failure, outermost first. -/
def contexts : Failure → List String
  | .context text inner => text :: inner.contexts
  | .message _ | .raised _ => []

/-- **What is lost of a failure** at the boundary of an implementation: all context that
stands around the error of a call. -/
def lost (failure : Failure) : List String :=
  if failure.callError?.isSome then failure.contexts else []

/-- Under the contexts of a failure there is the call error that it carries. -/
theorem shown_eq_of_callError? : {failure : Failure} → {error : CallError} →
    failure.callError? = some error → failure.shown = failure.contexts ++ error.shown
  | message _, _, h => by cases h
  | context text inner, _, h => by
    have hcarried : inner.callError? = some _ := h
    exact congrArg (text :: ·) (shown_eq_of_callError? hcarried)
  | raised _, _, h => by
    obtain rfl := Option.some.inj h
    rfl

/-- **What an implementation shows is what is lost and then what its caller sees.** -/
theorem shown_eq (failure : Failure) : failure.shown = failure.lost ++ failure.recover.shown := by
  cases h : failure.callError? with
  | none =>
    have hrecover : failure.recover = .operationFailed failure := by rw [recover, h]; rfl
    rw [lost, h, hrecover]
    rfl
  | some error =>
    rw [lost, h, recover_eq_of_callError? h]
    exact shown_eq_of_callError? h

/-- **Something is lost just if there is context around the error of a call.** -/
theorem lost_eq_nil_iff {failure : Failure} :
    failure.lost = [] ↔ failure.callError? = none ∨ ∃ error, failure = .raised error := by
  cases failure with
  | message text => simp [lost, callError?]
  | raised error => simp [lost, contexts]
  | context text inner => simp [lost, contexts]

/-- The caller sees the same text and the same causes just if nothing is lost. -/
theorem recover_shows_iff {failure : Failure} :
    (failure.recover.text = failure.text ∧ failure.recover.chain = failure.chain) ↔
      failure.lost = [] := by
  have hshown : failure.recover.shown = failure.shown ↔ failure.lost = [] := by
    rw [shown_eq]
    exact ⟨fun h => List.self_eq_append_left.mp h, fun h => by rw [h]; rfl⟩
  rw [← hshown, shown, CallError.shown, List.cons.injEq]

end Failure

/-! ### Calls inside of calls -/

/-- **A tree inside of another one**, at any depth. -/
inductive CallTree.Inside : CallTree → CallTree → Prop
  /-- A tree is inside of itself. -/
  | self (tree : CallTree) : Inside tree tree
  /-- What is inside of one that stands in a tree is inside of the tree. -/
  | within {label : Label} {part tree : CallTree} {trees : List CallTree} (hmem : tree ∈ trees)
      (h : part.Inside tree) : Inside part (.node label trees)

/-- Whatever is inside of a sound tree is sound. -/
theorem CallTree.Sound.of_inside {part tree : CallTree} (h : part.Inside tree)
    (hsound : tree.Sound) : part.Sound := by
  induction h with
  | self tree => exact hsound
  | within hmem _ ih =>
    cases hsound with
    | node _ hwithin => exact ih (hwithin _ hmem)

/-- In a sound tree, a call whose implementation fails answers what is recovered of the
failure. -/
theorem CallTree.Sound.answer_of_failedBody {callee entered : Invocation}
    {answer : Except CallError Value} {failure : Failure} {within inner : List CallTree}
    (h : (CallTree.node (.call callee (.ok answer)) within).Sound)
    (hmem : failedBody none entered failure inner ∈ within) :
    answer = .error failure.recover := by
  have hfailed : failure ∈ failures within := List.mem_filterMap.mpr ⟨_, hmem, rfl⟩
  cases h with
  | node hanswer _ =>
    cases hanswer callee answer rfl with
    | undefined => cases hmem
    | succeeded value hnone =>
      rw [hnone] at hfailed
      cases hfailed
    | failed hone =>
      rw [hone, List.mem_singleton] at hfailed
      rw [hfailed]

/-- **What a caller sees of an implementation's error.** At every moment of every course of
events that starts with nothing, take a call from outside that is answered, and any call
inside of it, itself included, at any depth and through whatever hooks. If the
implementation that this call ran ended with a failure, then the call answers an error, and

* what the implementation showed – the text and the chain of its failure – is what is lost
  of it, followed by what the error shows;
* the error has the same text and the same chain just if the failure carries no call error,
  or is one without context. -/
theorem error_of_implementation (clock : Clock) (memory : σ) (threads : List (Thread σ α))
    (turns : List Nat) (depth : Nat) (callee : Invocation) (answer : Except CallError Value) :
    let crew : Crew σ α := ⟨threads, .start clock memory⟩
    let s := (crew.follow turns).system
    (s.invoke depth callee).1 = .ok answer →
      ∃ whole, (s.evaluate depth callee).trees = [.node (.call callee (.ok answer)) whole] ∧
        ∀ called given within, (CallTree.node (.call called (.ok given)) within).Inside
            (.node (.call callee (.ok answer)) whole) →
          ∀ entered failure inner, CallTree.failedBody none entered failure inner ∈ within →
            ∃ error, given = .error error ∧
              failure.shown = failure.lost ++ error.shown ∧
              ((error.text = failure.text ∧ error.chain = failure.chain) ↔
                failure.callError? = none ∨ ∃ passed, failure = .raised passed) := by
  intro crew s hinvoke
  have haccounts : History.Accounts (crew.history turns) s := .follow clock memory threads turns
  rw [s.invoke_eq_of_sound depth callee haccounts.sound] at hinvoke
  obtain ⟨whole, htrees, hsound⟩ := System.trees_evaluate hinvoke
  refine ⟨whole, htrees, fun called given within hinside entered failure inner hmem => ?_⟩
  refine ⟨failure.recover, (hsound.of_inside hinside).answer_of_failedBody hmem,
    failure.shown_eq, ?_⟩
  rw [Failure.recover_shows_iff, Failure.lost_eq_nil_iff]

namespace Post

/-- The operations of a type that sends letters. -/
def key (operation : String) : Key :=
  .ofType "Post" operation

/-- The call that sends a letter. -/
def send : Invocation :=
  ⟨.ofType, key "send", []⟩

/-- What sending a letter fails with. -/
def undelivered : Failure :=
  .context "letter 7" (.raised (.operationFailed (.message "no address")))

/-- Defines an operation that fails, and one that calls it and says which letter it was. -/
def setup : Program Unit :=
  Calculator.defineThen (key "deliver") (.fail (.message "no address")) <|
    Calculator.defineThen (key "send")
      ((Program.callThen ⟨.ofType, key "deliver", []⟩ .done).attempt fun
        | .ok value => .done value
        | .error failure => .fail (.context "letter 7" failure)) <|
      .done .null

/-- The system when both are defined. -/
def system : System Unit :=
  (Crew.follow ⟨[setup.thread 1], .start (fun _ => .atEpoch) ()⟩ (List.replicate 2 0)).system

/-- What runs when a letter is sent. -/
theorem trees_of_send :
    (system.evaluate 2 send).trees =
      [.failed send (.operationFailed (.message "no address"))
        [.failedBody none send undelivered
          [.failed ⟨.ofType, key "deliver", []⟩ (.operationFailed (.message "no address"))
            [.failedBody none ⟨.ofType, key "deliver", []⟩ (.message "no address") []]]]] := rfl

/-- Which letter it was is lost, and everything below it is not. -/
theorem error_of_send :
    (system.invoke 2 send).1 = .ok (.error (.operationFailed (.message "no address"))) ∧
      ∃ error : CallError, (system.invoke 2 send).1 = .ok (.error error) ∧
        undelivered.shown = "letter 7" :: error.shown := by
  have hinvoke : (system.invoke 2 send).1 =
      .ok (.error (.operationFailed (.message "no address"))) := rfl
  obtain ⟨whole, htrees, htold⟩ := error_of_implementation _ _ [setup.thread 1]
    (List.replicate 2 0) 2 send _ hinvoke
  obtain rfl := (CallTree.node.inj (List.head_eq_of_cons_eq (trees_of_send.symm.trans htrees))).2
  obtain ⟨error, herror, hshown, -⟩ :=
    htold send _ _ (.self _) send undelivered _ (List.mem_singleton_self _)
  exact ⟨hinvoke, error, herror ▸ hinvoke, hshown⟩

/-- The caller does not see what the implementation ended with. -/
theorem send_alters_error :
    ∃ error within inner, (system.invoke 2 send).1 = .ok (.error error) ∧
      (system.evaluate 2 send).trees = [.failed send error within] ∧
      CallTree.failedBody none send undelivered inner ∈ within ∧
      ¬(error.text = undelivered.text ∧ error.chain = undelivered.chain) := by
  refine ⟨_, _, _, rfl, trees_of_send, List.mem_singleton_self _, ?_⟩
  rintro ⟨htext, -⟩
  exact absurd htext (by decide)

end Post

end Interception
