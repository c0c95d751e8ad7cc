import Interception.Key

/-!
# What can go wrong in a call

Two kinds of error pass each other on the way out of nested calls.

* A `Failure` is what a body – an implementation or a hook – ends with. It is a
  message of its own, the error of a call the body made and passed on, or either
  of these under added context.
* A `CallError` is what a call through the table answers with.

At the boundary of an implementation a failure becomes a call error
(`Failure.recover`): a call error that the body passed on is found again, however
much context was put around it, and anything else is the operation's own failure.
The boundary of a hook does not look inside: `CallError.hookFailed` keeps the
whole failure as its cause.

Both kinds have a `text`, which is the error itself, and a `chain`, the texts of
its successive causes.
-/

namespace Interception

/-- The three places where an interceptor can act on a call. -/
inductive HookSlot where
  | before
  | replace
  | after
deriving DecidableEq, Repr, Inhabited

/-- The word for a hook slot in error texts. -/
def HookSlot.word : HookSlot → String
  | .before => "before"
  | .replace => "replace"
  | .after => "after"

mutual

/-- **What a body ends with when it fails.** -/
inductive Failure where
  /-- An error of the body's own. -/
  | message (text : String)
  /-- A failure under added context. -/
  | context (text : String) (inner : Failure)
  /-- The error of a call, passed on. -/
  | raised (error : CallError)

/-- **What a call through the table fails with.** -/
inductive CallError where
  /-- The interceptor already owns the operation. -/
  | alreadyInstalled (key : Key)
  /-- The operation is not defined. -/
  | targetNotFound (key : Key)
  /-- An interceptor owns the operation, and it is not the one asking. -/
  | targetAlreadyIntercepted (key : Key)
  /-- The operation is already defined. -/
  | duplicateOperation (key : Key)
  /-- A hook failed. -/
  | hookFailed (key : Key) (hook : HookSlot) (cause : Failure)
  /-- The implementation failed; text and causes are those of its failure. -/
  | operationFailed (cause : Failure)

end

instance : Inhabited Failure := ⟨.message ""⟩

instance : Inhabited CallError := ⟨.targetNotFound default⟩

mutual

/-- The text of a failure. -/
def Failure.text : Failure → String
  | .message text => text
  | .context text _ => text
  | .raised error => error.text

/-- The text of a call error. -/
def CallError.text : CallError → String
  | .alreadyInstalled key => "Interceptor for " ++ key.display ++ " is already installed"
  | .targetNotFound key => "Operation " ++ key.display ++ " not found"
  | .targetAlreadyIntercepted key =>
    "Operation " ++ key.display ++ " is already intercepted by another interceptor"
  | .duplicateOperation key => "Operation " ++ key.display ++ " is already defined"
  | .hookFailed key hook cause =>
    hook.word ++ " hook for " ++ key.display ++ " failed: " ++ cause.text
  | .operationFailed cause => cause.text

end

mutual

/-- The texts of the causes of a failure, outermost first. -/
def Failure.chain : Failure → List String
  | .message _ => []
  | .context _ inner => inner.text :: inner.chain
  | .raised error => error.chain

/-- The texts of the causes of a call error, outermost first. -/
def CallError.chain : CallError → List String
  | .hookFailed _ _ cause => cause.text :: cause.chain
  | .operationFailed cause => cause.chain
  | _ => []

end

/-- The call error that a failure passes on, under any context. -/
def Failure.callError? : Failure → Option CallError
  | .message _ => none
  | .context _ inner => inner.callError?
  | .raised error => some error

/-- **What a failure becomes at the boundary of an implementation.** -/
def Failure.recover (failure : Failure) : CallError :=
  failure.callError?.getD (.operationFailed failure)

/-- Whether a hook is to blame. -/
def CallError.isHookFailure : CallError → Bool
  | .hookFailed .. => true
  | _ => false

@[simp] theorem Failure.recover_raised (error : CallError) :
    (Failure.raised error).recover = error := rfl

@[simp] theorem Failure.recover_message (text : String) :
    (Failure.message text).recover = .operationFailed (.message text) := rfl

/-- Context around a call error does not survive the boundary. -/
theorem Failure.recover_context_of_callError {failure : Failure} {error : CallError}
    (text : String) (h : failure.callError? = some error) :
    (Failure.context text failure).recover = error := by
  simp [recover, callError?, h]

end Interception
