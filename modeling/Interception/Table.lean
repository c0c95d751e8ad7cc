import Interception.Directory
import Interception.Program

/-!
# The dispatch table

Every call goes through a table that maps keys to implementations. An interceptor
that takes over an operation puts a *trampoline* into its slot and leaves the
implementation that was there, which it then covers, in the slot's capture; giving
the operation back puts the covered implementation in place again.

| operation | when it is refused |
|---|---|
| `Table.define` | the key is defined |
| `Table.exchange` | the key is not defined, or some interceptor owns it |
| `Table.intercept` | the key is not defined, or some interceptor owns it |
| `Table.restore?` | the interceptor does not own its key |

A refused operation answers without a table: there is nothing that it could have
changed.
-/

namespace Interception

variable {σ : Type}

/-- **What a call runs.** -/
inductive Implementation (σ : Type) where
  /-- A body. -/
  | plain (body : Program σ)
  /-- The way around another implementation through the hooks of the interceptor that
  covers it. -/
  | trampoline (owner : Handle) (covered : Implementation σ)

instance : Inhabited (Implementation σ) := ⟨.plain default⟩

/-- What an interceptor left aside when it took over an operation. -/
structure Capture (σ : Type) where
  /-- The interceptor. -/
  owner : Handle
  /-- The implementation to put back. -/
  covered : Implementation σ

/-- The place of one operation. -/
structure Slot (σ : Type) where
  /-- What a call runs now. -/
  implementation : Implementation σ
  /-- What an interceptor left aside, while one owns the operation. -/
  capture : Option (Capture σ)

namespace Slot

/-- The slot of an operation that no interceptor owns. -/
def free (implementation : Implementation σ) : Slot σ :=
  ⟨implementation, none⟩

/-- The interceptor that owns the operation. -/
def owner? (slot : Slot σ) : Option Handle :=
  slot.capture.map Capture.owner

/-- The slot with a trampoline around its implementation. -/
def interceptedBy (owner : Handle) (slot : Slot σ) : Slot σ :=
  ⟨.trampoline owner slot.implementation, some ⟨owner, slot.implementation⟩⟩

/-- The slot with its covered implementation put back, if there is one. -/
def restored (slot : Slot σ) : Slot σ :=
  match slot.capture with
  | some capture => free capture.covered
  | none => slot

end Slot

/-- **The table.** -/
abbrev Table (σ : Type) :=
  Directory Key (Slot σ)

namespace Table

/-- The interceptor that owns an operation. -/
def owner? (table : Table σ) (key : Key) : Option Handle :=
  (table.find? key).bind Slot.owner?

/-- The implementation that a call runs now. -/
def lookup (table : Table σ) (key : Key) : Except CallError (Implementation σ) :=
  match table.find? key with
  | some slot => .ok slot.implementation
  | none => .error (.targetNotFound key)

/-- **Defines an operation.** -/
def define (table : Table σ) (key : Key) (implementation : Implementation σ) :
    Except CallError (Table σ) :=
  match table.find? key with
  | some _ => .error (.duplicateOperation key)
  | none => .ok (table.put key (.free implementation))

/-- **Exchanges the implementation of an operation** and yields the old one. -/
def exchange (table : Table σ) (key : Key) (implementation : Implementation σ) :
    Except CallError (Implementation σ × Table σ) :=
  match table.find? key with
  | none => .error (.targetNotFound key)
  | some ⟨_, some _⟩ => .error (.targetAlreadyIntercepted key)
  | some ⟨old, none⟩ => .ok (old, table.put key (.free implementation))

/-- **Lets an interceptor take over its operation.** -/
def intercept (table : Table σ) (owner : Handle) : Except CallError (Table σ) :=
  match table.find? owner.key with
  | none => .error (.targetNotFound owner.key)
  | some slot =>
    match slot.owner? with
    | some other =>
      if other = owner then .error (.alreadyInstalled owner.key)
      else .error (.targetAlreadyIntercepted owner.key)
    | none => .ok (table.put owner.key (slot.interceptedBy owner))

/-- **Lets an interceptor give its operation back**, if it owns it. -/
def restore? (table : Table σ) (owner : Handle) : Option (Table σ) :=
  if table.owner? owner.key = some owner then
    some (table.adjust owner.key Slot.restored)
  else none

/-- Gives every operation back. -/
def restoreAll (table : Table σ) : Table σ :=
  table.mapEntries fun _ slot => slot.restored

/-- All defined operations, in the order of listings. -/
def operations (table : Table σ) : List Key :=
  table.keys.mergeSort Key.le

/-- All operations that an interceptor owns, in the order of listings. -/
def intercepted (table : Table σ) : List Key :=
  ((table.entries.filter fun entry => entry.2.capture.isSome).map Prod.fst).mergeSort Key.le

end Table

end Interception
