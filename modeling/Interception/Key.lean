/-!
# The identity of an operation

An operation belongs to a type, has a name, and is called either on an instance
of the type or on the type itself. These three together are its `Key`; two keys
that differ only in the level name different operations.

* `Key.display` – the name people read, `Type#operation` on the instance level
  and `Type.operation` on the type level.
* `Key.le` – the order of every listing: by display name, and by type name
  where two display names agree. `Key.eq_of_display_eq` says that the two
  together determine the key, which is why this order leaves no ties.
-/

namespace Interception

/-- **Level** of an operation: called on an instance of its type, or on the type. -/
inductive Level where
  | onInstance
  | onType
deriving DecidableEq, Repr, Inhabited

namespace Level

/-- The character between type and operation in a display name. -/
def separator : Level → Char
  | .onInstance => '#'
  | .onType => '.'

/-- The word that stands for a level in documents. -/
def word : Level → String
  | .onInstance => "instance"
  | .onType => "type"

/-- The level a word stands for; letter case matters. -/
def ofWord? (word : String) : Option Level :=
  if word = "instance" then some .onInstance
  else if word = "type" then some .onType
  else none

/-- Whether calls are made on instances. -/
def isInstance : Level → Bool
  | .onInstance => true
  | .onType => false

/-- The level of an operation, from whether it is called on instances. -/
def ofIsInstance (onInstance : Bool) : Level :=
  if onInstance then .onInstance else .onType

@[simp] theorem ofWord?_word (level : Level) : ofWord? level.word = some level := by
  cases level <;> rfl

@[simp] theorem ofIsInstance_isInstance (level : Level) :
    ofIsInstance level.isInstance = level := by
  cases level <;> rfl

end Level

/-- **Key** of an operation: its type, its name, and its level. -/
structure Key where
  /-- The type the operation belongs to. -/
  typeName : String
  /-- The name of the operation. -/
  operation : String
  /-- Whether it is called on instances or on the type. -/
  level : Level
deriving DecidableEq, Repr, Inhabited

namespace Key

/-- The key of an operation called on instances. -/
def ofInstance (typeName operation : String) : Key :=
  { typeName, operation, level := .onInstance }

/-- The key of an operation called on the type. -/
def ofType (typeName operation : String) : Key :=
  { typeName, operation, level := .onType }

/-- The name people read. -/
def display (key : Key) : String :=
  key.typeName ++ (String.singleton key.level.separator ++ key.operation)

/-- The order of listings: display name first, type name second. -/
def le (a b : Key) : Bool :=
  decide (a.display < b.display) ||
    (decide (a.display = b.display) && decide (a.typeName ≤ b.typeName))

/-- **Display name and type name together determine the key**: cut the type name
off the front of the display name, and what is left is the separator followed by
the operation. -/
theorem eq_of_display_eq {a b : Key} (hd : a.display = b.display)
    (ht : a.typeName = b.typeName) : a = b := by
  obtain ⟨ta, oa, la⟩ := a
  obtain ⟨tb, ob, lb⟩ := b
  simp only at ht
  subst ht
  have h := congrArg String.toList hd
  simp only [display, String.toList_append, String.toList_singleton, List.append_cancel_left_eq,
    List.cons_append, List.nil_append, List.cons.injEq] at h
  obtain ⟨hs, ho⟩ := h
  have hl : la = lb := by
    cases la <;> cases lb <;> first | rfl | (simp [Level.separator] at hs)
  have ho' : oa = ob := String.toList_inj.mp ho
  rw [hl, ho']

end Key

end Interception
