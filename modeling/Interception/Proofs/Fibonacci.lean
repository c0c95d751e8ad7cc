import Interception.Proofs.SettingUp
import Interception.Proofs.SettledResults
import Mathlib.Data.Nat.Fib.Basic

/-!
# Fibonacci numbers that fit a word

The sample operation `fibonacci` counts up a pair, of a Fibonacci number and the next one. The
second of the two runs ahead, and may leave the unsigned 64-bit range while the first is still in
it; its sum then stops at the greatest word.

Additions that stop at a limit come to the exact sum, cut off there at the end
(`Calculator.saturatingAdd_min`), because nothing in the sum is negative. So the pair is always that
of the exact numbers, each of them cut off (`Calculator.fibonacciPair_eq`), and what is answered is
exact as long as the number itself is in range. The last index for which it is comes from the growth
of the numbers (`Calculator.fib_le_maxNat64_iff`), and is the one that the operation checks for.
-/

namespace Interception

namespace Calculator

/-! ### The pair -/

/-- **Cutting off early is cutting off in the end.** -/
theorem saturatingAdd_min (a b : Nat) :
    saturatingAdd (min a maxNat64) (min b maxNat64) = min (a + b) maxNat64 := by
  unfold saturatingAdd
  omega

/-- **The pair** holds the exact numbers, each of them cut off at the limit. -/
theorem fibonacciPair_eq (n : Nat) :
    fibonacciPair n = (min (Nat.fib n) maxNat64, min (Nat.fib (n + 1)) maxNat64) := by
  induction n with
  | zero => rfl
  | succ n ih =>
    rw [fibonacciPair, ih]
    dsimp only
    rw [saturatingAdd_min, ← Nat.fib_add_two]

/-- **The last index that is answered** is the last one whose number is in range. Below it, numbers
are no greater than that one; above it, they are no smaller than the next. -/
theorem fib_le_maxNat64_iff (n : Nat) : Nat.fib n ≤ maxNat64 ↔ n ≤ maxFibonacci := by
  have hlast : Nat.fib maxFibonacci ≤ maxNat64 := by decide
  have hnext : maxNat64 < Nat.fib (maxFibonacci + 1) := by decide
  constructor
  · intro hfib
    by_contra hn
    have hmono := Nat.fib_mono (Nat.succ_le_of_lt (Nat.lt_of_not_le hn))
    exact absurd (hnext.trans_le hmono) (Nat.not_lt.mpr hfib)
  · intro hn
    exact (Nat.fib_mono hn).trans hlast

/-- In range, the first of the pair is exact. -/
theorem fibonacciPair_fst {n : Nat} (h : Nat.fib n ≤ maxNat64) :
    (fibonacciPair n).1 = Nat.fib n := by
  rw [fibonacciPair_eq]
  exact Nat.min_eq_left h

/-! ### The operation -/

/-- **What a call for a Fibonacci number answers with**, for the index that its first argument is,
if it is one. -/
def fibonacciResult : Option Nat → Except Failure Value
  | none => .error (.message "fibonacci expects a non-negative integer")
  | some n =>
    if Nat.fib n ≤ maxNat64 then .ok (.int (Nat.fib n))
    else .error (.message ("fibonacci(" ++ toString n ++ ") overflows u64"))

/-- Whatever the arguments are, the body ends at once. -/
theorem run_fibonacci_eq {σ : Type} (nested : Runner σ) (call : Invocation) :
    (fibonacci : Program σ).run nested call =
      .done ⟨fibonacciResult ((call.argument? 0).bind Value.nat64?), call⟩ := by
  rw [fibonacci, Program.run]
  cases (call.argument? 0).bind Value.nat64? with
  | none => rfl
  | some n =>
    dsimp only [fibonacciResult]
    by_cases hn : maxFibonacci < n
    · have hfib : ¬Nat.fib n ≤ maxNat64 := by
        rw [fib_le_maxNat64_iff]
        exact Nat.not_le.mpr hn
      rw [if_pos hn, if_neg hfib, Program.run]
    · have hfib : Nat.fib n ≤ maxNat64 := (fib_le_maxNat64_iff n).mpr (Nat.le_of_not_lt hn)
      rw [if_neg hn, if_pos hfib, fibonacciPair_fst hfib, Program.run]

/-- The index of a call is its first argument, if that is a natural number in range. -/
theorem argument_nat64?_eq_some_iff {call : Invocation} {n : Nat} :
    (call.argument? 0).bind Value.nat64? = some n ↔
      call.arguments[0]? = some (.int n) ∧ n < wordSize := by
  rw [Invocation.argument?, Option.bind_eq_some_iff]
  constructor
  · rintro ⟨value, hvalue, hn⟩
    cases value with
    | int i =>
      rw [Value.nat64?, Option.ite_none_right_eq_some, Option.some.injEq] at hn
      obtain ⟨hrange, rfl⟩ := hn
      have hi : (i.toNat : Int) = i := Int.toNat_of_nonneg hrange.1
      rw [hi, ← isNat64_iff_lt_wordSize, hi]
      exact ⟨hvalue, hrange⟩
    | _ => cases hn
  · rintro ⟨hvalue, hn⟩
    refine ⟨_, hvalue, ?_⟩
    rw [Value.nat64?, if_pos ((isNat64_iff_lt_wordSize n).mpr hn), Int.toNat_natCast]

/-- **A Fibonacci number is answered exactly where it fits.** Take any system in which the operation
comes down to its body: it stands in its slot, or behind an interceptor that only looks on. A call
with any arguments has an answer, and the answer is a value just when the first argument is an
unsigned 64-bit integer whose Fibonacci number is in the unsigned 64-bit range too. The value is
then that number, as the recurrence has it. So the addition that stops at the limit never shows, and
the bound on the index is the one that the numbers have. -/
theorem fibonacci_of_call {σ : Type} {s : System σ} (hs : s.ComesDownTo fibonacciKey fibonacci)
    (receiver : Receiver) (arguments : List Value) (depth : Nat) :
    (∃ answer, (s.invoke (depth + 1) ⟨receiver, fibonacciKey, arguments⟩).1 = .ok answer ∧
      ∀ value, answer = .ok value ↔
        ∃ n : Nat, arguments[0]? = some (.int n) ∧ n < wordSize ∧ Nat.fib n ≤ maxNat64 ∧
          value = .int (Nat.fib n)) ∧
      (∀ n, Nat.fib n ≤ maxNat64 → (fibonacciPair n).1 = Nat.fib n) ∧
      ∀ n, Nat.fib n ≤ maxNat64 ↔ n ≤ maxFibonacci := by
  have hends := endsWith_call ⟨receiver, fibonacciKey, arguments⟩ hs
    (fun nested => run_fibonacci_eq nested _) depth
  refine ⟨⟨_, (hends.run (.refl s)).1, fun value => ?_⟩, fun n => fibonacciPair_fst,
    fib_le_maxNat64_iff⟩
  have hindex := @argument_nat64?_eq_some_iff ⟨receiver, fibonacciKey, arguments⟩
  generalize (Invocation.argument? ⟨receiver, fibonacciKey, arguments⟩ 0).bind Value.nat64? = index
    at hindex
  constructor
  · intro hanswer
    cases index with
    | none => cases hanswer
    | some n =>
      obtain ⟨hargument, hn⟩ := hindex.mp rfl
      rw [fibonacciResult] at hanswer
      split at hanswer
      · next hfib => exact ⟨n, hargument, hn, hfib, (Except.ok.inj hanswer).symm⟩
      · cases hanswer
  · rintro ⟨n, hargument, hn, hfib, rfl⟩
    obtain rfl := hindex.mpr ⟨hargument, hn⟩
    rw [fibonacciResult, if_pos hfib]
    rfl

end Calculator

namespace Spiral

/-- A configuration that times one operation. -/
def config : Config :=
  { Config.standard with targets := [Calculator.fibonacciKey] }

/-- The sample type, with that operation timed. -/
def system : System Unit :=
  (((Calculator.defined (fun _ => .atEpoch) ()).createCollector 8 none true).2.timeTargets config
    0).2

/-- The last number in range is answered, and the next one is not. -/
theorem fibonacci_of_last :
    system.ComesDownTo Calculator.fibonacciKey Calculator.fibonacci ∧
      (system.invoke 1 ⟨.ofType, Calculator.fibonacciKey, [.int 93]⟩).1 =
        .ok (.ok (.int 12200160415121876738)) ∧
        ∃ error, (system.invoke 1 ⟨.ofType, Calculator.fibonacciKey, [.int 94]⟩).1 =
          .ok (.error error) := by
  have hs : system.ComesDownTo Calculator.fibonacciKey Calculator.fibonacci :=
    .inr ⟨⟨0, Calculator.fibonacciKey⟩, rfl, .inr ⟨rfl, rfl, .inr ⟨0, rfl⟩⟩⟩
  obtain ⟨⟨answer, hanswer, hvalue⟩, -⟩ := Calculator.fibonacci_of_call hs .ofType [.int 93] 0
  obtain ⟨⟨answer', hanswer', hvalue'⟩, -, hbound⟩ :=
    Calculator.fibonacci_of_call hs .ofType [.int 94] 0
  refine ⟨hs, ?_, ?_⟩
  · have hlast := (hvalue (.int 12200160415121876738)).mpr
      ⟨93, rfl, by decide, by decide, by decide⟩
    rw [hanswer, hlast]
  · cases answer' with
    | error error => exact ⟨error, hanswer'⟩
    | ok value =>
      obtain ⟨n, hargument, -, hfib, -⟩ := (hvalue' value).mp rfl
      have hn : (94 : Int) = n := by simpa using hargument
      obtain rfl : n = 94 := by omega
      exact absurd ((hbound 94).mp hfib) (by decide)

end Spiral

end Interception
