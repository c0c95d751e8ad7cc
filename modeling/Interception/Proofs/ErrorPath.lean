import Interception.Calculator
import Interception.Proofs.Agreement
import Interception.Proofs.CallTrees

/-!
# The way of an error

A call fails because one of its stages fails, and a stage fails because its body does. The
body has an error of its own, or it passes on that of a call it made, maybe under context.
So through the call tree of a failing call there is a way from where the error comes from to
the call itself (`CallTree.FailsAlong`), and on it the error crosses boundaries.

| what is crossed | what becomes of the error |
|---|---|
| context | it carries the same call error |
| the body of an implementation | the call error that it carries is found again |
| a trampoline | nothing |
| a hook | it is the cause of a new call error |

Through all of this the innermost text stays (`CallError.root`), only a hook leaves its name
on the error, and the outermost one has the last word (`CallError.CameAlong`). The main
statement is `Interception.error_of_invoke`.
-/

namespace Interception

variable {σ α : Type}

/-! ### The innermost text -/

/-- **The innermost text of a failure**: the last one of its text and its chain. -/
def Failure.root (failure : Failure) : String :=
  (failure.text :: failure.chain).getLast (List.cons_ne_nil _ _)

/-- **The innermost text of a call error**: the last one of its text and its chain. -/
def CallError.root (error : CallError) : String :=
  (error.text :: error.chain).getLast (List.cons_ne_nil _ _)

namespace Failure

@[simp] theorem root_message (text : String) : (message text).root = text := rfl

@[simp] theorem root_context (text : String) (inner : Failure) :
    (context text inner).root = inner.root := rfl

@[simp] theorem root_raised (error : CallError) : (raised error).root = error.root := rfl

end Failure

@[simp] theorem CallError.root_hookFailed (key : Key) (slot : HookSlot) (cause : Failure) :
    (hookFailed key slot cause).root = cause.root := rfl

@[simp] theorem CallError.root_operationFailed (cause : Failure) :
    (operationFailed cause).root = cause.root := rfl

namespace Failure

/-- The call error under the context of a failure has the same innermost text. -/
theorem root_eq_of_callError? : {failure : Failure} → {error : CallError} →
    failure.callError? = some error → failure.root = error.root
  | message _, _, h => by cases h
  | context text inner, _, h => by
    rw [root_context]
    exact root_eq_of_callError? h
  | raised _, _, h => by
    obtain rfl := Option.some.inj h
    rfl

theorem recover_eq_of_callError? {failure : Failure} {error : CallError}
    (h : failure.callError? = some error) : failure.recover = error := by
  rw [recover, h]
  rfl

/-- **The boundary of an implementation keeps the innermost text.** -/
@[simp] theorem root_recover (failure : Failure) : failure.recover.root = failure.root := by
  rw [recover]
  rcases h : failure.callError? with _ | error
  · rfl
  · exact (root_eq_of_callError? h).symm

end Failure

/-! ### The way of an error -/

/-- The node of a body: of an implementation, or else of a hook on an operation. -/
def Label.body (hook? : Option (Key × HookSlot)) (entered : Invocation)
    (result : Except Fault (Except Failure Value)) : Label :=
  match hook? with
  | none => .implementation entered result
  | some (key, slot) => .hook key slot entered result

namespace CallTree

/-- The node of a call that answers an error. -/
def failed (callee : Invocation) (error : CallError) (within : List CallTree) : CallTree :=
  .node (.call callee (.ok (.error error))) within

/-- The node of a body that fails. -/
def failedBody (hook? : Option (Key × HookSlot)) (entered : Invocation) (failure : Failure)
    (within : List CallTree) : CallTree :=
  .node (.body hook? entered (.ok (.error failure))) within

/-- **The way of an error** through a tree: the hooks that it crosses, outermost first, and
the failure that it comes from. -/
inductive FailsAlong : CallTree → List (Key × HookSlot) → Failure → Prop
  /-- An operation is called that is not defined. -/
  | undefined (callee : Invocation) :
      FailsAlong (failed callee (.targetNotFound callee.key) []) []
        (.raised (.targetNotFound callee.key))
  /-- A stage of a call fails. -/
  | stage {callee : Invocation} {error : CallError} {within : List CallTree} {stage : CallTree}
      {hooks : List (Key × HookSlot)} {origin : Failure} (hmem : stage ∈ within)
      (h : stage.FailsAlong hooks origin) : FailsAlong (failed callee error within) hooks origin
  /-- A body has an error of its own: none of the calls it made answered it. -/
  | own {hook? : Option (Key × HookSlot)} {entered : Invocation} {origin : Failure}
      {within : List CallTree}
      (h : ∀ callee error inner, origin.callError? = some error →
        failed callee error inner ∉ within) :
      FailsAlong (failedBody hook? entered origin within) hook?.toList origin
  /-- A body passes on what a call it made answered, under any context. -/
  | passed {hook? : Option (Key × HookSlot)} {entered callee : Invocation} {failure : Failure}
      {error : CallError} {within inner : List CallTree} {hooks : List (Key × HookSlot)}
      {origin : Failure} (herror : failure.callError? = some error)
      (hmem : failed callee error inner ∈ within)
      (h : (failed callee error inner).FailsAlong hooks origin) :
      FailsAlong (failedBody hook? entered failure within) (hook?.toList ++ hooks) origin

end CallTree

/-- **What a call error says of its way**: the innermost text is that of where it comes from,
and it names the outermost hook that it crossed. If it crossed none, it is what the boundary
of an implementation makes of where it comes from. -/
structure CallError.CameAlong (error : CallError) (hooks : List (Key × HookSlot))
    (origin : Failure) : Prop where
  /-- The innermost text stays. -/
  root_eq : error.root = origin.root
  /-- Without hooks, nothing else happens to it. -/
  eq_recover : hooks = [] → error = origin.recover
  /-- With hooks, the outermost one has the last word. -/
  eq_hookFailed : ∀ key slot rest, hooks = (key, slot) :: rest →
    ∃ cause, error = .hookFailed key slot cause

/-- What leaves a body has come the way of what the body failed with, and through the hook
that the body is, if it is one. -/
theorem CallError.CameAlong.body {failure origin : Failure} {hooks : List (Key × HookSlot)}
    (h : failure.recover.CameAlong hooks origin) (hook? : Option (Key × HookSlot))
    (entered : Invocation) (within : List CallTree) :
    ∃ handed, (CallTree.failedBody hook? entered failure within).failure? = some handed ∧
      handed.recover.CameAlong (hook?.toList ++ hooks) origin := by
  rcases hook? with _ | ⟨key, slot⟩
  · exact ⟨failure, rfl, h⟩
  · refine ⟨.raised (.hookFailed key slot failure), rfl, ?_, ?_, ?_⟩
    · rw [Failure.recover_raised, CallError.root_hookFailed, ← h.root_eq, Failure.root_recover]
    · intro hnil
      cases hnil
    · intro key' slot' rest hcons
      obtain ⟨⟨rfl, rfl⟩, -⟩ : (key = key' ∧ slot = slot') ∧ _ := by simpa using hcons
      exact ⟨failure, rfl⟩

/-- **In a sound tree, an error says what its way was.** -/
theorem CallTree.FailsAlong.cameAlong {tree : CallTree} {hooks : List (Key × HookSlot)}
    {origin : Failure} (h : tree.FailsAlong hooks origin) (hsound : tree.Sound) :
    ∃ failure, tree.failure? = some failure ∧ failure.recover.CameAlong hooks origin := by
  induction h with
  | undefined callee =>
    refine ⟨_, rfl, rfl, fun _ => rfl, ?_⟩
    intro key slot rest hcons
    cases hcons
  | @stage callee error within stage hooks origin hmem _ ih =>
    cases hsound with
    | node hanswer hwithin =>
      obtain ⟨failure, hfailure, hcame⟩ := ih (hwithin stage hmem)
      have hfailures : failure ∈ failures within := List.mem_filterMap.mpr ⟨stage, hmem, hfailure⟩
      refine ⟨.raised error, rfl, ?_⟩
      -- a stage did fail, so the answer is neither that of an undefined operation nor a value
      cases hanswer callee _ rfl with
      | undefined => cases hmem
      | failed hone =>
        rw [hone, List.mem_singleton] at hfailures
        exact hfailures ▸ hcame
  -- the way begins here: nothing has been crossed yet
  | @own hook? entered origin within _ =>
    have hcame : origin.recover.CameAlong [] origin :=
      ⟨origin.root_recover, fun _ => rfl, fun _ _ _ hcons => by cases hcons⟩
    have hbody := hcame.body hook? entered within
    rwa [List.append_nil] at hbody
  | @passed hook? entered callee failure error within inner hooks origin herror hmem _ ih =>
    cases hsound with
    | node _ hwithin =>
      obtain ⟨handed, hhanded, hcame⟩ := ih (hwithin _ hmem)
      obtain rfl : .raised error = handed := Option.some.inj hhanded
      rw [Failure.recover_raised, ← Failure.recover_eq_of_callError? herror] at hcame
      exact hcame.body hook? entered within

/-- A body that fails does so on some way, if the calls that it made do. -/
theorem CallTree.exists_failsAlong_body {within : List CallTree}
    (ih : ∀ tree ∈ within, ∀ failure, tree.failure? = some failure →
      ∃ hooks origin, tree.FailsAlong hooks origin)
    (hook? : Option (Key × HookSlot)) (entered : Invocation) (failure : Failure) :
    ∃ hooks origin, (failedBody hook? entered failure within).FailsAlong hooks origin := by
  by_cases hpassed : ∃ callee error inner,
      failure.callError? = some error ∧ failed callee error inner ∈ within
  · obtain ⟨callee, error, inner, herror, hmem⟩ := hpassed
    obtain ⟨hooks, origin, h⟩ := ih _ hmem _ rfl
    exact ⟨_, origin, .passed herror hmem h⟩
  -- no call that it made answered what it failed with
  · refine ⟨_, failure, .own fun callee error inner herror hmem => ?_⟩
    exact hpassed ⟨callee, error, inner, herror, hmem⟩

/-- **Every failure in a sound tree has a way.** -/
theorem CallTree.Sound.exists_failsAlong {tree : CallTree} (h : tree.Sound) :
    ∀ failure, tree.failure? = some failure →
      ∃ hooks origin, tree.FailsAlong hooks origin := by
  induction h with
  | @node label within hanswer _ ih =>
    intro failure hfailure
    rcases label with ⟨callee, fault | error | value⟩ | ⟨entered, fault | failure' | value⟩ |
      ⟨key, slot, entered, fault | failure' | value⟩
    -- only what ended with a failure has one to hand on
    case call.ok.error =>
      rcases hanswer callee _ rfl with _ | _ | @⟨_, failure', hone⟩
      · exact ⟨_, _, .undefined callee⟩
      · have hmem : failure' ∈ failures within := hone ▸ List.mem_singleton_self failure'
        obtain ⟨stage, hstage, hfailed⟩ := List.mem_filterMap.mp hmem
        obtain ⟨hooks, origin, hway⟩ := ih stage hstage failure' hfailed
        exact ⟨hooks, origin, .stage hstage hway⟩
    case implementation.ok.error => exact exists_failsAlong_body ih none entered failure'
    case hook.ok.error => exact exists_failsAlong_body ih (some (key, slot)) entered failure'
    all_goals cases hfailure

/-! ### Errors of calls from outside -/

/-- **An error tells where it comes from and which hook it passed last.** At every moment of
every course of events that starts with nothing, when a call from outside answers an error,
there is a way in its call tree along which the error came. And on every way along which it
can have come, however deep and through whatever bodies, hooks and contexts:

* the innermost text of the error is that of the failure that it comes from;
* the error is a hook failure just if the way crosses a hook, or if it begins with a body
  that has a hook failure from elsewhere;
* if the way crosses hooks, the error names the operation and the slot of the outermost one;
* if it crosses none, the error is the call error that the failure carries, and if it
  carries none, the error is the failure of an operation with just that failure as its cause. -/
theorem error_of_invoke (clock : Clock) (memory : σ) (threads : List (Thread σ α))
    (turns : List Nat) (depth : Nat) (callee : Invocation) (error : CallError) :
    let crew : Crew σ α := ⟨threads, .start clock memory⟩
    let s := (crew.follow turns).system
    (s.invoke depth callee).1 = .ok (.error error) →
      ∃ tree, (s.evaluate depth callee).trees = [tree] ∧
        (∃ hooks origin, tree.FailsAlong hooks origin) ∧
        ∀ hooks origin, tree.FailsAlong hooks origin →
          error.root = origin.root ∧
          (error.isHookFailure = true ↔ hooks ≠ [] ∨ origin.recover.isHookFailure = true) ∧
          (∀ key slot rest, hooks = (key, slot) :: rest →
            ∃ cause, error = .hookFailed key slot cause) ∧
          (hooks = [] → origin.callError? = some error ∨
            origin.callError? = none ∧ error = .operationFailed origin) := by
  intro crew s hinvoke
  have haccounts : History.Accounts (crew.history turns) s := .follow clock memory threads turns
  rw [s.invoke_eq_of_sound depth callee haccounts.sound] at hinvoke
  obtain ⟨within, htrees, hsound⟩ := System.trees_evaluate hinvoke
  refine ⟨.failed callee error within, htrees, hsound.exists_failsAlong _ rfl, ?_⟩
  intro hooks origin hway
  obtain ⟨failure, hfailure, hcame⟩ := hway.cameAlong hsound
  obtain rfl : .raised error = failure := Option.some.inj hfailure
  rw [Failure.recover_raised] at hcame
  refine ⟨hcame.root_eq, ?_, hcame.eq_hookFailed, fun hnil => ?_⟩
  · rcases hooks with _ | ⟨⟨key, slot⟩, rest⟩
    · rw [hcame.eq_recover rfl]
      simp
    · obtain ⟨cause, rfl⟩ := hcame.eq_hookFailed key slot rest rfl
      simp [CallError.isHookFailure]
  · have hrecover := hcame.eq_recover hnil
    rcases hcarried : origin.callError? with _ | carried
    · rw [Failure.recover, hcarried] at hrecover
      exact .inr ⟨rfl, hrecover⟩
    · rw [Failure.recover_eq_of_callError? hcarried] at hrecover
      exact .inl (hrecover ▸ rfl)

namespace Signal

/-- The operations of a type with three of them. -/
def key (operation : String) : Key :=
  .ofType "Signal" operation

/-- Defines an operation that fails, one that passes this on, and one with a hook that passes
it on once more, with a word of its own. -/
def setup : Program Unit :=
  Calculator.defineThen (key "receive") (.fail (.message "no signal")) <|
    Calculator.defineThen (key "decode") (.callThen ⟨.ofType, key "receive", []⟩ .done) <|
      Calculator.defineThen (key "display") (.done .null) <|
        .request (.create (key "display")) Empty.elim fun handle =>
          .request (.setHook handle .before)
            (fun _ => (Program.callThen ⟨.ofType, key "decode", []⟩ .done).attempt fun
              | .ok value => .done value
              | .error failure => .fail (.context "check" failure)) fun _ =>
            .request (.install handle) Empty.elim fun _ => .done .null

/-- The system when all of this is done. -/
def system : System Unit :=
  (Crew.follow ⟨[setup.thread 1], .start (fun _ => .atEpoch) ()⟩ (List.replicate 6 0)).system

/-- Two bodies and a hook away, the error still has the text that it began with. -/
theorem error_of_display :
    let error : CallError := .hookFailed (key "display") .before
      (.context "check" (.raised (.operationFailed (.message "no signal"))))
    (system.invoke 3 ⟨.ofType, key "display", []⟩).1 = .ok (.error error) ∧
      ∃ tree hooks origin, (system.evaluate 3 ⟨.ofType, key "display", []⟩).trees = [tree] ∧
        tree.FailsAlong hooks origin ∧ error.root = origin.root := by
  intro error
  have hinvoke : (system.invoke 3 ⟨.ofType, key "display", []⟩).1 = .ok (.error error) := rfl
  obtain ⟨tree, htrees, ⟨hooks, origin, hway⟩, htold⟩ :=
    error_of_invoke _ _ [setup.thread 1] (List.replicate 6 0) 3 _ error hinvoke
  exact ⟨hinvoke, tree, hooks, origin, htrees, hway, (htold hooks origin hway).1⟩

end Signal

end Interception
