import Interception.Calculator
import Interception.Proofs.Conservation

/-!
# What a thread still owes

A thread that runs the workload hands records to a collector as it goes along. When it does so
depends on whose turn it is, and what is in the records depends on the clock; but for which
operations records come, and in which order, is settled from the start. `Thread.Owes` says this
of a thread: as long as nobody touches the table and the interceptors, it hands in records for
these operations and then ends with this result, whatever else happens between its actions.

* What two threads in a row owe is what the one owes and then the other (`Thread.Owes.bind`).
* A call of an operation that is timed owes one record, and any other call none
  (`owes_call`).
* So one round of the workload owes a record for each operation that is timed, and all of it as
  many rounds as there are iterations (`Calculator.owes_workload`).

What has been handed in is in the books of the collector. One action of a thread moves at most one
record from what is owed to what has been handed in (`Thread.Owes.step`), and a thread that runs
to its end moves all of them (`Thread.Owes.run`).
-/

namespace Interception

variable {σ α β : Type}

/-! ### Actions that touch nothing but clock and numbers -/

/-- **Two systems with the same table and the same interceptors.** -/
structure System.SameSetting (s s' : System σ) : Prop where
  /-- The table is the same. -/
  table_eq : s'.table = s.table
  /-- So are the interceptors. -/
  interceptors_eq : s'.interceptors = s.interceptors

/-- Whether an action looks something up, reads the clock or makes a record. -/
def Action.isPassing : Action σ → Bool
  | .lookup _ | .kept _ | .enabled _ | .hooks _ | .readClock | .record .. => true
  | .deliver .. | .memory _ | .request .. => false

/-- Such an action leaves table, interceptors and collectors as they are. -/
theorem Action.perform_of_isPassing {action : Action σ} (h : action.isPassing = true)
    (s : System σ) :
    s.SameSetting (action.perform s).2 ∧ (action.perform s).2.collectors = s.collectors := by
  cases action with
  | lookup key | kept number | enabled handle | hooks handle => exact ⟨⟨rfl, rfl⟩, rfl⟩
  | readClock => exact ⟨⟨rfl, rfl⟩, rfl⟩
  | record key start stop replaced => exact ⟨⟨rfl, rfl⟩, rfl⟩
  | deliver collector record arguments => cases h
  | memory change => cases h
  | request r bodies => cases h

/-! ### Owing -/

/-- **A thread that owes records** for some operations, in order, to a collector, and then ends
with a result. The setting is the table and the interceptors that it finds at each of its
actions. -/
inductive Thread.Owes (setting : System σ) (collector : CollectorId) :
    Thread σ α → List Key → α → Prop
  /-- It has ended, and owes nothing. -/
  | done (result : α) : Owes setting collector (.done result) [] result
  /-- It does something that hands nothing in. -/
  | pass {action : Action σ} {next : action.Answer → Thread σ α} {owed : List Key} {result : α}
      (hpassing : action.isPassing = true)
      (h : ∀ s, setting.SameSetting s →
        Owes setting collector (next (action.perform s).1) owed result) :
      Owes setting collector (.act action next) owed result
  /-- It hands a record in. -/
  | deliver (record : Record) (arguments : List Value) {next : Unit → Thread σ α}
      {owed : List Key} {result : α} (h : Owes setting collector (next ()) owed result) :
      Owes setting collector (.act (.deliver collector record arguments) next)
        (record.key :: owed) result

namespace Thread.Owes

variable {setting : System σ} {collector : CollectorId}

/-- **What a thread owes that goes on after another one.** -/
theorem bind {t : Thread σ α} {f : α → Thread σ β} {first rest : List Key} {a : α} {b : β}
    (h : t.Owes setting collector first a) (hrest : (f a).Owes setting collector rest b) :
    (t.bind f).Owes setting collector (first ++ rest) b := by
  induction h with
  | done result => exact hrest
  | pass hpassing _ ih => exact .pass hpassing fun s hs => ih s hs hrest
  | deliver record arguments _ ih => exact .deliver record arguments (ih hrest)

theorem map {t : Thread σ α} {owed : List Key} {a : α} (h : t.Owes setting collector owed a)
    (f : α → β) : (t.map f).Owes setting collector owed (f a) := by
  have hbind := h.bind (f := fun result => .done (f result)) (.done (f a))
  rwa [List.append_nil] at hbind

end Thread.Owes

/-! ### Calls -/

/-- **An operation that is served by a body**: the body stands in the slot, or an interceptor that
does nothing but collect has its trampoline around it. Calls are timed just if it does and is
enabled. -/
def System.Serves (s : System σ) (collector : CollectorId) (timed : Bool) (key : Key)
    (body : Program σ) : Prop :=
  (s.table.lookup key = .ok (.plain body) ∧ timed = false) ∨
    ∃ handle : Handle, handle.key = key ∧
      s.table.lookup key = .ok (.trampoline handle (.plain body)) ∧ s.enabled handle = timed ∧
        s.hooks handle = ⟨none, none, some (.collect collector)⟩

/-- To be served is a matter of table and interceptors alone. -/
theorem System.SameSetting.serves {s s' : System σ} (h : s.SameSetting s')
    {collector : CollectorId} {timed : Bool} {key : Key} {body : Program σ}
    (hs : s.Serves collector timed key body) : s'.Serves collector timed key body := by
  unfold System.Serves System.enabled System.hooks at hs ⊢
  rw [h.table_eq, h.interceptors_eq]
  exact hs

/-- **A call of an operation whose body succeeds at once** owes one record if it is timed, and
nothing otherwise; either way it answers with the value of the body. -/
theorem owes_call {setting : System σ} {collector : CollectorId} {timed : Bool}
    (callee : Invocation) {body : Program σ}
    (hserves : setting.Serves collector timed callee.key body) {value : Value}
    (hbody : ∀ nested : Runner σ, body.run nested callee = .done ⟨.ok value, callee⟩)
    (depth : Nat) :
    ((runNested (depth + 1) : Runner σ).call callee).Owes setting collector
      (if timed then [callee.key] else []) (.ok value) := by
  refine .pass rfl fun s hs => ?_
  rcases hs.serves hserves with ⟨hlookup, rfl⟩ | ⟨handle, hkey, hlookup, henabled, hhooks⟩
  -- the body stands in the slot
  · simp only [Action.perform, hlookup, runNested, Implementation.run, hbody]
    exact .done _
  -- a trampoline stands in the slot, and the body is behind it
  · simp only [Action.perform, hlookup, runNested, Implementation.run]
    refine .map (a := ⟨.ok value, callee⟩) ?_ Outcome.answer
    refine .pass rfl fun s' hs' => ?_
    have hsame : s'.interceptors = s.interceptors :=
      hs'.interceptors_eq.trans hs.interceptors_eq.symm
    have henabled' : s'.enabled handle = timed := by
      rw [System.enabled, hsame]
      exact henabled
    rw [Action.perform, henabled']
    cases timed with
    | false =>
      dsimp only
      rw [hbody]
      exact .done _
    | true =>
      refine .pass rfl fun s'' hs'' => ?_
      have hhooks' : s''.hooks handle = ⟨none, none, some (.collect collector)⟩ := by
        rw [System.hooks, hs''.interceptors_eq.trans hs.interceptors_eq.symm]
        exact hhooks
      rw [Action.perform, hhooks']
      -- two looks at the clock, the record, and its way to the collector
      refine .pass rfl fun s₁ _ => ?_
      simp only [runSegment, hbody]
      refine .pass rfl fun s₂ _ => .pass rfl fun s₃ _ => ?_
      rw [← hkey]
      exact .deliver _ _ (.done _)

/-! ### The workload -/

namespace Calculator

/-- The sum of the numbers up to a given one. -/
def sumUpTo (n : Nat) : Nat :=
  n * (n + 1) / 2

theorem sumUpTo_succ (n : Nat) : sumUpTo (n + 1) = sumUpTo n + (n + 1) := by
  have hmul : (n + 1) * (n + 1 + 1) = n * (n + 1) + (n + 1) * 2 := by
    rw [Nat.mul_succ (n + 1), Nat.succ_mul n (n + 1), Nat.mul_two]
    exact Nat.add_assoc ..
  rw [sumUpTo, sumUpTo, hmul, Nat.add_mul_div_right _ _ (by decide)]

theorem sumUpTo_mono {m n : Nat} (h : m ≤ n) : sumUpTo m ≤ sumUpTo n :=
  Nat.div_le_div_right (Nat.mul_le_mul h (Nat.succ_le_succ h))

/-- The operations of the sample type with their bodies. -/
def bodies : List (Key × Program σ) :=
  [(computeKey, compute), (describeKey, describe), (fibonacciKey, fibonacci)]

/-- **A system that serves the sample type**, and times some of its operations. -/
def ServedBy (setting : System σ) (collector : CollectorId) (timed : Key → Bool) : Prop :=
  ∀ key body, (key, body) ∈ bodies → setting.Serves collector (timed key) key body

/-- What one round of the workload owes: a record for each operation that is timed. -/
def round (timed : Key → Bool) : List Key :=
  operations.filter timed

theorem round_eq_append (timed : Key → Bool) :
    round timed =
      (if timed computeKey then [computeKey] else []) ++
        ((if timed describeKey then [describeKey] else []) ++
          if timed fibonacciKey then [fibonacciKey] else []) := by
  unfold round operations
  cases hc : timed computeKey <;> cases hd : timed describeKey <;>
    cases hf : timed fibonacciKey <;> simp [hc, hd, hf]

theorem run_compute (nested : Runner σ) {n : Nat} (h : IsInt64 (n + 1)) :
    (compute : Program σ).run nested ⟨sample, computeKey, [.int n]⟩ =
      .done ⟨.ok (.int (n + 1)), ⟨sample, computeKey, [.int n]⟩⟩ := by
  have hn : IsInt64 n := by
    unfold IsInt64 at h ⊢
    omega
  have harg : Invocation.int64? ⟨sample, computeKey, [.int n]⟩ 0 = some (n : Int) := by
    simp [Invocation.int64?, Invocation.argument?, Value.int64?, hn]
  rw [compute, Program.run, harg]
  dsimp only
  rw [if_pos h, Program.run]

theorem run_fibonacci (nested : Runner σ) (n : Nat) :
    (fibonacci : Program σ).run nested ⟨.ofType, fibonacciKey, [.int (n % 40 : Nat)]⟩ =
      .done ⟨.ok (.int (fibonacciPair (n % 40)).1),
        ⟨.ofType, fibonacciKey, [.int (n % 40 : Nat)]⟩⟩ := by
  have hlt : n % 40 < 40 := Nat.mod_lt _ (by decide)
  generalize n % 40 = m at hlt
  have hm : IsNat64 (m : Int) := by
    unfold IsNat64
    omega
  have harg : (Invocation.argument? ⟨.ofType, fibonacciKey, [.int m]⟩ 0).bind Value.nat64? =
      some m := by
    simp [Invocation.argument?, Value.nat64?, hm]
  rw [fibonacci, Program.run, harg]
  dsimp only
  have hle : ¬maxFibonacci < m := by
    unfold maxFibonacci
    omega
  rw [if_neg hle, Program.run]

variable {setting : System σ} {collector : CollectorId} {timed : Key → Bool}

/-- **The rounds that are left** of the workload. The sum stays in range because the sum at the
end is. -/
theorem owes_workloadFrom (hserved : ServedBy setting collector timed) (depth iteration left : Nat)
    (hsum : IsInt64 (sumUpTo (iteration + left))) (current : Invocation) :
    ((workloadFrom iteration (sumUpTo iteration) left).run (runNested (depth + 1)) current).Owes
      setting collector (List.replicate left (round timed)).flatten
        ⟨.ok (.int (sumUpTo (iteration + left))), current⟩ := by
  induction left generalizing iteration with
  | zero => exact .done _
  | succ left ih =>
    have hnext : iteration + 1 + left = iteration + (left + 1) := by omega
    have hmono : sumUpTo (iteration + 1) ≤ sumUpTo (iteration + (left + 1)) :=
      sumUpTo_mono (by omega)
    have hstep := sumUpTo_succ iteration
    have hone : IsInt64 ((iteration : Int) + 1) := by
      unfold IsInt64 at hsum ⊢
      omega
    have hsum' : IsInt64 ((sumUpTo iteration : Int) + (iteration + 1)) := by
      unfold IsInt64 at hsum ⊢
      omega
    have hcompute := owes_call ⟨sample, computeKey, [.int iteration]⟩
      (hserved computeKey compute (by simp [bodies])) (fun nested => run_compute nested hone) depth
    have hdescribe := owes_call ⟨sample, describeKey, []⟩
      (hserved describeKey describe (by simp [bodies])) (fun nested => rfl) depth
    have hfibonacci := owes_call ⟨.ofType, fibonacciKey, [.int (iteration % 40 : Nat)]⟩
      (hserved fibonacciKey fibonacci (by simp [bodies]))
      (fun nested => run_fibonacci nested iteration) depth
    have hrest := ih (iteration + 1) (hnext.symm ▸ hsum)
    rw [hnext] at hrest
    have hround : (List.replicate (left + 1) (round timed)).flatten =
        (if timed computeKey then [computeKey] else []) ++
          ((if timed describeKey then [describeKey] else []) ++
            ((if timed fibonacciKey then [fibonacciKey] else []) ++
              (List.replicate left (round timed)).flatten)) := by
      rw [List.replicate_succ, List.flatten_cons]
      conv => lhs; lhs; rw [round_eq_append]
      rw [List.append_assoc, List.append_assoc]
    rw [hround, workloadFrom]
    refine hcompute.bind ?_
    have hvalue : (Value.int ((iteration : Int) + 1)).int64? = some ((iteration : Int) + 1) := by
      rw [Value.int64?, if_pos hone]
    have htotal : (sumUpTo iteration : Int) + (iteration + 1) = sumUpTo (iteration + 1) := by
      rw [hstep]
      push_cast
      rfl
    dsimp only
    rw [hvalue, Option.getD_some, if_pos hsum', htotal]
    exact hdescribe.bind (hfibonacci.bind hrest)

/-- **The workload** owes as many rounds as it has iterations, and adds up what it computes. -/
theorem owes_workload (hserved : ServedBy setting collector timed) (depth : Nat) {iterations : Nat}
    (hsum : IsInt64 (sumUpTo iterations)) :
    ((workload iterations : Program σ).thread (depth + 1)).Owes setting collector
      (List.replicate iterations (round timed)).flatten (.ok (.int (sumUpTo iterations))) := by
  have hall := owes_workloadFrom hserved depth 0 iterations (by rwa [Nat.zero_add]) .idle
  rw [Nat.zero_add] at hall
  exact hall.map Outcome.result

end Calculator

end Interception
