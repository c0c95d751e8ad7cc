import Interception.Routing

/-!
# Threads side by side

A `Crew` is several threads that work on one system. Its members take turns, one
action at a time (`Crew.step`), in any order: a list of numbers says whose turn is
next, and every list is a possible course of events (`Crew.follow`). A number
without a thread, or with one that has ended, is a turn in which nothing happens.

`Crew.finish` ends every thread, one after the other.
-/

namespace Interception

variable {σ α : Type}

/-- **Several threads on one system.** -/
structure Crew (σ α : Type) where
  /-- The threads. -/
  threads : List (Thread σ α)
  /-- What they work on. -/
  system : System σ

namespace Crew

/-- Lets one thread carry out its next action. -/
def step (crew : Crew σ α) (member : Nat) : Crew σ α :=
  match crew.threads[member]? with
  | some thread =>
    let (thread, system) := thread.step crew.system
    { threads := crew.threads.set member thread, system }
  | none => crew

/-- **Takes turns** as a list says. -/
def follow (crew : Crew σ α) (turns : List Nat) : Crew σ α :=
  turns.foldl step crew

/-- Whether every thread has ended. -/
def isIdle (crew : Crew σ α) : Bool :=
  crew.threads.all fun
    | .act .. => false
    | _ => true

/-- Runs the remaining threads to their ends, one after the other. -/
def finishFrom : List (Thread σ α) → System σ → List (Except Fault α) × System σ
  | [], s => ([], s)
  | thread :: rest, s =>
    let (result, s) := thread.run s
    let (results, s) := finishFrom rest s
    (result :: results, s)

/-- **Ends every thread**, one after the other, and yields their results in order. -/
def finish (crew : Crew σ α) : List (Except Fault α) × System σ :=
  finishFrom crew.threads crew.system

end Crew

end Interception
