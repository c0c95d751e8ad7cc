import Interception.Binary64

/-!
# The values that calls pass around

Arguments, results and the state of an instance are values of the JSON data
model. Integers and floating-point numbers are kept apart: `5` and `5.0` are
different values, and an accessor for one kind decides for itself whether it
takes the other.

* `Value.int64?`, `Value.nat64?` – the integer of a value, if it has one in the
  signed or the unsigned 64-bit range. Floating-point numbers have none.
* `Value.float?` – the number of a value as a floating-point number, integers
  rounded to nearest.
* `Value.member?` – the member of an object with a given name.
-/

namespace Interception

/-- **A value** that a call receives, returns or carries as its receiver's state. -/
inductive Value where
  | null
  | bool (b : Bool)
  /-- A number written without point and exponent. -/
  | int (n : Int)
  /-- Any other number. -/
  | float (x : Binary64)
  | string (s : String)
  | array (items : List Value)
  /-- Members in the order in which they are written. -/
  | object (members : List (String × Value))
deriving Repr, Inhabited

namespace Value

/-! ### Accessors -/

/-- The value as a signed 64-bit integer. -/
def int64? : Value → Option Int
  | .int n => if IsInt64 n then some n else none
  | _ => none

/-- The value as an unsigned 64-bit integer. -/
def nat64? : Value → Option Nat
  | .int n => if IsNat64 n then some n.toNat else none
  | _ => none

/-- The value as a floating-point number. -/
def float? : Value → Option Binary64
  | .int n => some (.ofInt n)
  | .float x => some x
  | _ => none

/-- The value as a text. -/
def string? : Value → Option String
  | .string s => some s
  | _ => none

/-- The member of an object with the given name. -/
def member? (name : String) : Value → Option Value
  | .object members => members.lookup name
  | _ => none

/-! ### Equality is decidable -/

mutual

/-- Decides whether two values are the same. -/
def decEq : (a b : Value) → Decidable (a = b)
  | .null, .null => .isTrue rfl
  | .bool a, .bool b => decidable_of_iff (a = b) (by simp)
  | .int a, .int b => decidable_of_iff (a = b) (by simp)
  | .float a, .float b => decidable_of_iff (a = b) (by simp)
  | .string a, .string b => decidable_of_iff (a = b) (by simp)
  | .array a, .array b =>
    match decEqItems a b with
    | .isTrue h => .isTrue (by rw [h])
    | .isFalse h => .isFalse (by simpa using h)
  | .object a, .object b =>
    match decEqMembers a b with
    | .isTrue h => .isTrue (by rw [h])
    | .isFalse h => .isFalse (by simpa using h)
  | .null, .bool _ | .null, .int _ | .null, .float _ | .null, .string _ | .null, .array _
  | .null, .object _ | .bool _, .null | .bool _, .int _ | .bool _, .float _ | .bool _, .string _
  | .bool _, .array _ | .bool _, .object _ | .int _, .null | .int _, .bool _ | .int _, .float _
  | .int _, .string _ | .int _, .array _ | .int _, .object _ | .float _, .null
  | .float _, .bool _ | .float _, .int _ | .float _, .string _ | .float _, .array _
  | .float _, .object _ | .string _, .null | .string _, .bool _ | .string _, .int _
  | .string _, .float _ | .string _, .array _ | .string _, .object _ | .array _, .null
  | .array _, .bool _ | .array _, .int _ | .array _, .float _ | .array _, .string _
  | .array _, .object _ | .object _, .null | .object _, .bool _ | .object _, .int _
  | .object _, .float _ | .object _, .string _ | .object _, .array _ => .isFalse (by simp)

/-- Decides whether two lists of values are the same. -/
def decEqItems : (a b : List Value) → Decidable (a = b)
  | [], [] => .isTrue rfl
  | [], _ :: _ | _ :: _, [] => .isFalse (by simp)
  | x :: a, y :: b =>
    match decEq x y, decEqItems a b with
    | .isTrue h, .isTrue t => .isTrue (by rw [h, t])
    | .isFalse h, _ => .isFalse (by simp [h])
    | _, .isFalse t => .isFalse (by simp [t])

/-- Decides whether two lists of members are the same. -/
def decEqMembers : (a b : List (String × Value)) → Decidable (a = b)
  | [], [] => .isTrue rfl
  | [], _ :: _ | _ :: _, [] => .isFalse (by simp)
  | (m, x) :: a, (n, y) :: b =>
    match decEq x y, decEqMembers a b with
    | .isTrue h, .isTrue t =>
      if e : m = n then .isTrue (by rw [e, h, t]) else .isFalse (by simp [e])
    | .isFalse h, _ => .isFalse (by simp [h])
    | _, .isFalse t => .isFalse (by simp [t])

end

instance : DecidableEq Value :=
  decEq

end Value

end Interception
