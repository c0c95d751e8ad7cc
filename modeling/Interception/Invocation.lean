import Interception.Key
import Interception.Value

/-!
# Calls in flight

An `Invocation` is one call: whom it is made on, which operation it is for, and
the arguments it currently carries. Whoever handles the call may overwrite
arguments, but the receiver, the operation and the number of arguments are those
the caller chose (`Invocation.length_arguments_set`).
-/

namespace Interception

/-- **The target of a call.** -/
inductive Receiver where
  /-- An instance with its state. -/
  | ofInstance (state : Value)
  /-- The type itself. -/
  | ofType
deriving DecidableEq, Repr, Inhabited

/-- The state of the instance, if the call is made on one. -/
def Receiver.state? : Receiver → Option Value
  | .ofInstance state => some state
  | .ofType => none

/-- **A call in flight.** -/
structure Invocation where
  /-- Whom the call is made on. -/
  receiver : Receiver
  /-- The operation called. -/
  key : Key
  /-- The arguments as they currently stand. -/
  arguments : List Value
deriving DecidableEq, Repr, Inhabited

namespace Invocation

/-- The name of the operation called. -/
def operation (call : Invocation) : String :=
  call.key.operation

/-- The argument at a position. -/
def argument? (call : Invocation) (index : Nat) : Option Value :=
  call.arguments[index]?

/-- The argument at a position as a signed 64-bit integer. -/
def int64? (call : Invocation) (index : Nat) : Option Int :=
  (call.argument? index).bind Value.int64?

/-- The argument at a position as a floating-point number. -/
def float? (call : Invocation) (index : Nat) : Option Binary64 :=
  (call.argument? index).bind Value.float?

/-- Overwrites the argument at a position. Out of range, nothing changes: the
number of arguments belongs to the shape of the call. -/
def set (call : Invocation) (index : Nat) (value : Value) : Invocation :=
  { call with arguments := call.arguments.set index value }

@[simp] theorem receiver_set (call : Invocation) (index : Nat) (value : Value) :
    (call.set index value).receiver = call.receiver := rfl

@[simp] theorem key_set (call : Invocation) (index : Nat) (value : Value) :
    (call.set index value).key = call.key := rfl

@[simp] theorem length_arguments_set (call : Invocation) (index : Nat) (value : Value) :
    (call.set index value).arguments.length = call.arguments.length := by
  simp [set]

/-- The position written holds the new value, and every other one what it held. -/
theorem argument?_set (call : Invocation) (i j : Nat) (value : Value) :
    (call.set i value).argument? j =
      if i = j then (call.argument? i).map fun _ => value else call.argument? j := by
  simp only [set, argument?, List.getElem?_set]
  by_cases hij : i = j
  · subst hij
    by_cases hi : i < call.arguments.length
    · simp [hi]
    · simp [hi]
  · simp [hij]

end Invocation

end Interception
