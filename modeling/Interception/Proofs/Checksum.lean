import Interception.Proofs.RunReport
import Interception.Proofs.SettledResults
import Mathlib.Order.Bounds.Basic

/-!
# What the workload adds up to

The workload adds up what the sample type computes, with a check at each addition. After some
iterations the sum is that of the numbers so far, which is an invariant of its rounds; and since the
sum grows, the first check that fails is at the first iteration whose sum is out of range
(`Calculator.Amounts`). Nothing else can fail before. What is computed is one more than the
iteration, and far below the sum by the time that the sum is large
(`Calculator.lt_maxInt64_of_sumUpTo_le`).

So the workload comes to the same whatever its calls go through, as long as interceptors only look
on (`Calculator.endsWith_workload`), which they do wherever the sample type is timed
(`Calculator.Prepared.offers`). The same holds of threads that run it side by side
(`Demonstration.endWith_takeAll`), whose results are added up with the same check.
-/

namespace Interception

namespace Calculator

/-! ### The sum -/

/-- The greatest signed 64-bit integer. -/
def maxInt64 : Nat :=
  9223372036854775807

theorem isInt64_natCast_iff (n : Nat) : IsInt64 n ↔ n ≤ maxInt64 := by
  unfold IsInt64 maxInt64
  omega

/-- **While the sum is in range**, the next number is well below the limit: the sum up to the limit
is not. -/
theorem lt_maxInt64_of_sumUpTo_le {n : Nat} (h : sumUpTo n ≤ maxInt64) : n < maxInt64 := by
  have hlimit : maxInt64 < sumUpTo maxInt64 := by decide
  by_contra hn
  exact absurd (hlimit.trans_le (sumUpTo_mono (Nat.le_of_not_lt hn))) (Nat.not_lt.mpr h)

/-- **What the workload comes to**: the sum, if it is in range, and otherwise the failure that names
the first iteration whose sum is not. -/
inductive Amounts (iterations : Nat) : Except Failure Value → Prop
  /-- The sum is in range. -/
  | sum (h : sumUpTo iterations ≤ maxInt64) : Amounts iterations (.ok (.int (sumUpTo iterations)))
  /-- It is not, and neither is the sum of some iteration before the last. -/
  | overflow (h : maxInt64 < sumUpTo iterations) {iteration : Nat}
      (hfirst : IsLeast {i | maxInt64 < sumUpTo (i + 1)} iteration) :
      Amounts iterations (.error (checksumOverflow iteration))

/-- The sum of an iteration is out of range, and the sum so far is not: then it is the first. -/
theorem isLeast_of_sumUpTo {iteration : Nat} (h : sumUpTo iteration ≤ maxInt64)
    (hnext : maxInt64 < sumUpTo (iteration + 1)) :
    IsLeast {i | maxInt64 < sumUpTo (i + 1)} iteration := by
  refine ⟨hnext, fun i hi => ?_⟩
  by_contra hlt
  have hmono := sumUpTo_mono (Nat.succ_le_of_lt (Nat.lt_of_not_le hlt))
  exact absurd (lt_of_lt_of_le hi hmono) (Nat.not_lt.mpr h)

/-! ### Systems with the operations -/

variable {σ : Type}

/-- **A system with the operations of the sample type**, whose interceptors on them only look on. -/
def Offers (s : System σ) : Prop :=
  ∀ key body, (key, body) ∈ bodies → s.ComesDownTo key body

/-- **A system on which the sample type is timed**: since the sample type was defined, targets of
configurations have been timed by collectors, interceptors have been enabled, disabled and given up,
and anything may have happened that leaves the table and the interceptors alone. -/
inductive Prepared : System σ → Prop
  | defined (clock : Clock) (memory : σ) : Prepared (defined clock memory)
  | same {s s' : System σ} (h : Prepared s) (hsame : s.SameSetting s') : Prepared s'
  | timeTargets {s : System σ} (h : Prepared s) (config : Config) (collector : CollectorId) :
      Prepared (s.timeTargets config collector).2
  | setEnabled {s : System σ} (h : Prepared s) (handle : Handle) (enabled : Bool) :
      Prepared (s.setEnabled handle enabled)
  | drop {s : System σ} (h : Prepared s) (handle : Handle) : Prepared (s.drop handle)

/-- The bodies of the sample type stay the bases of its operations, and nothing is done around them
but timing. -/
theorem Prepared.onlyTimes {s : System σ} (h : Prepared s) :
    s.OnlyTimes ∧ ∀ key, s.table.base? key = (table : Table σ).base? key := by
  induction h with
  | defined clock memory =>
    exact ⟨⟨Table.sound_of_unowned owner?_table, fun i hi => by cases hi⟩, fun key => rfl⟩
  | same _ hsame ih =>
    refine ⟨⟨?_, ?_⟩, ?_⟩
    · rw [hsame.table_eq]
      exact ih.1.sound
    · rw [hsame.interceptors_eq]
      exact ih.1.collects
    · rw [hsame.table_eq]
      exact ih.2
  | timeTargets _ config collector ih =>
    refine ⟨ih.1.timeTargets config collector, fun key => ?_⟩
    exact ((System.handover_timeEach config collector config.targets [] _).base?_eq key).trans
      (ih.2 key)
  | setEnabled _ handle enabled ih =>
    refine ⟨ih.1.setEnabled handle enabled, fun key => ?_⟩
    rw [System.table_setEnabled]
    exact ih.2 key
  | drop _ handle ih =>
    exact ⟨ih.1.drop handle, fun key =>
      ((System.handover_drop _ handle).base?_eq key).trans (ih.2 key)⟩

/-- **Wherever the sample type is timed**, its operations come down to its bodies. -/
theorem Prepared.offers {s : System σ} (h : Prepared s) : Offers s := by
  intro key body hbody
  refine h.onlyTimes.1.comesDownTo ?_
  rw [h.onlyTimes.2, Table.base?, find?_table]
  simp only [bodies, List.mem_cons, Prod.mk.injEq, List.not_mem_nil, or_false] at hbody
  rcases hbody with ⟨rfl, rfl⟩ | ⟨rfl, rfl⟩ | ⟨rfl, rfl⟩
  · rfl
  · rfl
  · rfl

/-! ### The rounds -/

/-- **The rounds that are left** come to the sum, or to the failure. The invariant is that the sum
so far is that of the numbers so far, and in range. -/
theorem endsWith_workloadFrom {setting : System σ} (hoffers : Offers setting)
    (depth iteration left : Nat) (hsum : sumUpTo iteration ≤ maxInt64) (current : Invocation) :
    ∃ result, Amounts (iteration + left) result ∧
      ((workloadFrom iteration (sumUpTo iteration) left).run (runNested (depth + 1))
        current).EndsWith setting ⟨result, current⟩ := by
  induction left generalizing iteration with
  | zero => exact ⟨_, .sum hsum, .done _⟩
  | succ left ih =>
    have hnumber : IsInt64 ((iteration : Int) + 1) :=
      (isInt64_natCast_iff (iteration + 1)).mpr (lt_maxInt64_of_sumUpTo_le hsum)
    have hcompute := endsWith_call ⟨sample, computeKey, [.int iteration]⟩
      (hoffers computeKey compute (by simp [bodies])) (fun nested => run_compute nested hnumber)
      depth
    have hvalue : (Value.int ((iteration : Int) + 1)).int64? = some ((iteration : Int) + 1) := by
      rw [Value.int64?, if_pos hnumber]
    have htotal : (sumUpTo iteration : Int) + (iteration + 1) = sumUpTo (iteration + 1) := by
      rw [sumUpTo_succ]
      push_cast
      rfl
    by_cases hnext : sumUpTo (iteration + 1) ≤ maxInt64
    -- the sum stays in range, and the other two operations are called
    · have hdescribe := endsWith_call ⟨sample, describeKey, []⟩
        (hoffers describeKey describe (by simp [bodies])) (fun nested => rfl) depth
      have hfibonacci := endsWith_call ⟨.ofType, fibonacciKey, [.int (iteration % 40 : Nat)]⟩
        (hoffers fibonacciKey fibonacci (by simp [bodies]))
        (fun nested => run_fibonacci nested iteration) depth
      obtain ⟨result, hamounts, hrest⟩ := ih (iteration + 1) hnext
      have hcount : iteration + 1 + left = iteration + (left + 1) := by omega
      refine ⟨result, hcount ▸ hamounts, hcompute.bind ?_⟩
      dsimp only [Except.mapError]
      rw [hvalue, Option.getD_some, htotal, if_pos ((isInt64_natCast_iff _).mpr hnext)]
      exact hdescribe.bind (hfibonacci.bind hrest)
    -- the sum leaves the range, and this is the end of it
    · have hover : maxInt64 < sumUpTo (iteration + (left + 1)) :=
        lt_of_lt_of_le (Nat.lt_of_not_le hnext) (sumUpTo_mono (by omega))
      refine ⟨_, .overflow hover (isLeast_of_sumUpTo hsum (Nat.lt_of_not_le hnext)),
        hcompute.bind ?_⟩
      dsimp only [Except.mapError]
      rw [hvalue, Option.getD_some, htotal,
        if_neg fun h => hnext ((isInt64_natCast_iff _).mp h)]
      exact .done _

/-- **The workload** comes to the sum, or to the failure. -/
theorem endsWith_workload {setting : System σ} (hoffers : Offers setting) (depth iterations : Nat) :
    ∃ result, Amounts iterations result ∧
      ((workload iterations : Program σ).thread (depth + 1)).EndsWith setting result := by
  obtain ⟨result, hamounts, hends⟩ :=
    endsWith_workloadFrom hoffers depth 0 iterations (Nat.zero_le _) .idle
  rw [Nat.zero_add] at hamounts
  exact ⟨result, hamounts, hends.map Outcome.result⟩

end Calculator

open Calculator

namespace Demonstration

/-! ### Threads side by side -/

/-- **A turn**, whether a thread's or the drain's, leaves all results what they are. -/
theorem endWith_take {setting : System Unit} {result : Except Failure Value} {run : Demonstration}
    (h : run.crew.EndWith setting result) (turn : Turn) :
    (run.take turn).crew.EndWith setting result := by
  cases turn with
  | work member => exact h.step member
  | drain =>
    rw [Demonstration.take]
    obtain ⟨-, hend⟩ | ⟨-, out, system, hout, hnext⟩ := run.drainOn_cases
    · rw [hend]
      exact ⟨h.threads, h.same⟩
    · have hsame := run.crew.system.sameSetting_drain run.collector 1
      rw [hout] at hsame
      obtain ⟨-, hnext⟩ | ⟨-, hend⟩ := hnext
      · rw [hnext]
        exact ⟨h.threads, h.same.trans hsame⟩
      · rw [hend]
        exact ⟨h.threads, h.same.trans hsame⟩

/-- **So do any number of turns**, in any order. -/
theorem endWith_takeAll {setting : System Unit} {result : Except Failure Value}
    {run : Demonstration} (h : run.crew.EndWith setting result) (turns : List Turn) :
    (run.takeAll turns).crew.EndWith setting result := by
  induction turns generalizing run with
  | nil => exact h
  | cons turn turns ih => exact ih (endWith_take h turn)

/-- **The sum of equal results** leaves the range at some thread if it is out of range in the end.
-/
theorem checksum_replicate_of_lt {value : Nat} (hvalue : value ≤ maxInt64) {count sum : Nat}
    (hsum : sum ≤ maxInt64) (hover : maxInt64 < sum + count * value) :
    checksum (List.replicate count (.ok (.ok (.int value)))) sum = .error .checksumOverflow := by
  induction count generalizing sum with
  | zero =>
    rw [Nat.zero_mul, Nat.add_zero] at hover
    exact absurd hsum (Nat.not_le.mpr hover)
  | succ count ih =>
    have hint : (Value.int value).int64? = some (value : Int) := by
      rw [Value.int64?, if_pos ((isInt64_natCast_iff value).mpr hvalue)]
    rw [List.replicate_succ, checksum, hint, Option.getD_some]
    by_cases hnext : sum + value ≤ maxInt64
    · rw [← Int.natCast_add, if_pos ((isInt64_natCast_iff _).mpr hnext)]
      refine ih hnext ?_
      rw [Nat.succ_mul] at hover
      omega
    · rw [← Int.natCast_add, if_neg fun h => hnext ((isInt64_natCast_iff _).mp h)]

/-- The outcome of a run has the sum of its threads, where there is one. -/
theorem conclude_of_checksum_ok {run : Demonstration} {sum : Int}
    (h : checksum run.crew.finish.1 0 = .ok sum) :
    ∃ outcome, run.conclude.1 = .ok outcome ∧ outcome.checksum = sum :=
  ⟨_, congrArg Prod.fst (conclude_eq_ok rfl h rfl rfl), rfl⟩

/-- Where there is none, the run fails for the same reason. -/
theorem conclude_of_checksum_error {run : Demonstration} {error : RunError}
    (h : checksum run.crew.finish.1 0 = .error error) : run.conclude.1 = .error error := by
  cases hfinish : run.crew.finish with
  | mk results s =>
    rw [hfinish] at h
    rw [conclude, hfinish]
    dsimp only at h ⊢
    rw [h]

end Demonstration

/-! ### Any number of iterations -/

/-- **The checksum is exact, or there is none.** Take a system with the operations of the sample
type, whose interceptors on them only look on: they are disabled, or hand records to some collector
at most. Such is any system on which the sample type is timed. The workload, with any number of
iterations, comes to the sum of the numbers up to it if that is a signed 64-bit integer; otherwise
it fails, and the failure names the first iteration whose sum is not. It has no other way to end.

Threads that run it side by side on such a system, while records are drained and in whatever order
turns are taken, come to that sum times their number if this is a signed 64-bit integer. Otherwise
the run fails: with the failure of the workload if one thread alone is out of range, and else
because the results add up to too much. -/
theorem checksum_of_workload (iterations : Nat) :
    (∀ {σ : Type} {s : System σ}, Prepared s → Offers s) ∧
      (∀ {σ : Type} {s : System σ}, Offers s → ∀ depth,
        (sumUpTo iterations ≤ maxInt64 →
          (s.execute (depth + 1) (workload iterations)).1 = .ok (.ok (.int (sumUpTo iterations)))) ∧
        (maxInt64 < sumUpTo iterations →
          ∃ iteration, IsLeast {i | maxInt64 < sumUpTo (i + 1)} iteration ∧
            (s.execute (depth + 1) (workload iterations)).1 =
              .ok (.error (checksumOverflow iteration)))) ∧
      ∀ (run : Demonstration) {threads depth : Nat}, Offers run.crew.system → 0 < threads →
        run.crew.threads = List.replicate threads ((workload iterations).thread (depth + 1)) →
        ∀ turns,
          (threads * sumUpTo iterations ≤ maxInt64 →
            ∃ outcome, (run.takeAll turns).conclude.1 = .ok outcome ∧
              outcome.checksum = (threads * sumUpTo iterations : Nat)) ∧
          (maxInt64 < threads * sumUpTo iterations →
            (sumUpTo iterations ≤ maxInt64 →
              (run.takeAll turns).conclude.1 = .error .checksumOverflow) ∧
            (maxInt64 < sumUpTo iterations →
              ∃ iteration, IsLeast {i | maxInt64 < sumUpTo (i + 1)} iteration ∧
                (run.takeAll turns).conclude.1 =
                  .error (.workload (checksumOverflow iteration)))) := by
  refine ⟨Prepared.offers, ?_, ?_⟩
  · intro σ s hoffers depth
    obtain ⟨result, hamounts, hends⟩ := endsWith_workload hoffers depth iterations
    have hresult := (hends.run (.refl s)).1
    rw [System.execute, hresult]
    cases hamounts with
    | sum h => exact ⟨fun _ => rfl, fun hover => absurd h (Nat.not_le.mpr hover)⟩
    | overflow h hfirst =>
      exact ⟨fun hsum => absurd hsum (Nat.not_le.mpr h), fun _ => ⟨_, hfirst, rfl⟩⟩
  · intro run threads depth hoffers hthreads hrun turns
    obtain ⟨result, hamounts, hends⟩ := endsWith_workload hoffers depth iterations
    have hstart : run.crew.EndWith run.crew.system result := by
      refine ⟨fun t ht => ?_, .refl _⟩
      rw [hrun] at ht
      rwa [List.eq_of_mem_replicate ht]
    have hlength : (run.takeAll turns).crew.threads.length = threads := by
      rw [(Demonstration.length_threads_takeAll run turns).1, hrun, List.length_replicate]
    have hfinish := (Demonstration.endWith_takeAll hstart turns).finish
    rw [hlength] at hfinish
    generalize run.takeAll turns = run' at hfinish
    cases hamounts with
    | sum h =>
      refine ⟨fun htotal => ?_, fun hover => ⟨fun _ => ?_, fun h' => absurd h (Nat.not_le.mpr h')⟩⟩
      -- each thread has the sum, and so has all of them together
      · refine Demonstration.conclude_of_checksum_ok ?_
        have hchecksum := Demonstration.checksum_replicate ((isInt64_natCast_iff _).mpr h) threads 0
        rw [Nat.zero_add, Int.natCast_zero] at hchecksum
        rw [hfinish]
        exact hchecksum ((isInt64_natCast_iff _).mpr htotal)
      -- each thread has the sum, but some addition of them fails
      · refine Demonstration.conclude_of_checksum_error ?_
        rw [hfinish]
        exact Demonstration.checksum_replicate_of_lt h (Nat.zero_le _) (by rwa [Nat.zero_add])
    | overflow h hfirst =>
      have hmore : sumUpTo iterations ≤ threads * sumUpTo iterations :=
        Nat.le_mul_of_pos_left _ hthreads
      refine ⟨fun htotal => absurd (hmore.trans htotal) (Nat.not_le.mpr h), fun _ =>
        ⟨fun hsum => absurd hsum (Nat.not_le.mpr h), fun _ => ⟨_, hfirst, ?_⟩⟩⟩
      -- the first thread that is looked at has failed
      refine Demonstration.conclude_of_checksum_error ?_
      obtain ⟨more, rfl⟩ := Nat.exists_eq_add_of_lt hthreads
      rw [hfinish, Nat.zero_add, List.replicate_succ, Demonstration.checksum]

namespace Marathon

/-- Two of the operations are timed by one collector. -/
def config : Config :=
  { Config.standard with targets := [computeKey, describeKey] }

/-- The third is timed by another one, with its interceptor disabled. -/
def otherConfig : Config :=
  { Config.standard with targets := [fibonacciKey], enabledByDefault := false }

/-- The sample type with both kinds of interceptors. -/
def system : System Unit :=
  let s := ((defined (fun _ => .atEpoch) ()).createCollector 8 none true).2
  let s := (s.createCollector 1 (some 0) false).2
  ((s.timeTargets config 0).2.timeTargets otherConfig 1).2

theorem prepared_system : Prepared system := by
  have hdefined : Prepared (defined (fun _ => .atEpoch) ()) := .defined _ _
  have hcollectors : Prepared ((((defined (fun _ => .atEpoch) ()).createCollector 8 none
      true).2.createCollector 1 (some 0) false).2) := hdefined.same ⟨rfl, rfl⟩
  exact (hcollectors.timeTargets config 0).timeTargets otherConfig 1

/-- Two threads that run the workload on it. -/
def run (iterations : Nat) : Demonstration :=
  { crew := { threads := List.replicate 2 ((workload iterations).thread 1), system }
    collector := 0
    handles := []
    keepRecords := false
    batch := #[]
    statistics := .empty
    records := #[] }

/-- The first iteration whose sum is out of range. -/
theorem isLeast_overflow : IsLeast {i | maxInt64 < sumUpTo (i + 1)} 4294967295 :=
  isLeast_of_sumUpTo (by decide) (by decide)

/-- Four iterations come to ten, and to twenty on two threads. One iteration before the sum leaves
the range, two threads come to too much; and one more is too much for a thread by itself. -/
theorem checksum_of_marathon :
    (system.execute 1 (workload 4)).1 = .ok (.ok (.int 10)) ∧
      (system.execute 1 (workload 4294967296)).1 = .ok (.error (checksumOverflow 4294967295)) ∧
      ∀ turns, (∃ outcome, ((run 4).takeAll turns).conclude.1 = .ok outcome ∧
          outcome.checksum = 20) ∧
        ((run 4294967295).takeAll turns).conclude.1 = .error .checksumOverflow := by
  have hoffers : Offers system := (checksum_of_workload 4).1 prepared_system
  refine ⟨((checksum_of_workload 4).2.1 hoffers 0).1 (by decide), ?_, fun turns => ⟨?_, ?_⟩⟩
  · obtain ⟨iteration, hfirst, hresult⟩ :=
      ((checksum_of_workload 4294967296).2.1 hoffers 0).2 (by decide)
    rw [hresult, hfirst.unique isLeast_overflow]
  · exact ((checksum_of_workload 4).2.2 (run 4) hoffers (by decide) rfl turns).1
      (by decide)
  · exact (((checksum_of_workload 4294967295).2.2 (run 4294967295) hoffers (by decide) rfl
      turns).2 (by decide)).1 (by decide)

end Marathon

end Interception
