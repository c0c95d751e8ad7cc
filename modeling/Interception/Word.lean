/-!
# Words of 64 bits

The ranges of machine integers that counters, times and documents keep to, and the
powers that floating-point numbers are made of.
-/

namespace Interception

/-- How many values a word of 64 bits has. -/
def wordSize : Nat :=
  18446744073709551616

/-- The integers of the signed 64-bit range. -/
def IsInt64 (n : Int) : Prop :=
  -9223372036854775808 ≤ n ∧ n ≤ 9223372036854775807

/-- The integers of the unsigned 64-bit range. -/
def IsNat64 (n : Int) : Prop :=
  0 ≤ n ∧ n ≤ 18446744073709551615

instance (n : Int) : Decidable (IsInt64 n) :=
  inferInstanceAs (Decidable (_ ∧ _))

instance (n : Int) : Decidable (IsNat64 n) :=
  inferInstanceAs (Decidable (_ ∧ _))

/-- A power of two. -/
def twoTo (n : Nat) : Nat :=
  Nat.pow 2 n

/-- A power of ten. -/
def tenTo (n : Nat) : Nat :=
  Nat.pow 10 n

/-- A natural number is below the size of a word just when it is in the unsigned
range. -/
theorem isNat64_iff_lt_wordSize (n : Nat) : IsNat64 n ↔ n < wordSize := by
  simp only [IsNat64, wordSize]
  omega

end Interception
