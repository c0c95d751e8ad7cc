import Interception.Routing

/-!
# The sample type

`Calculator` is a type with three operations to try interception on: `compute`
adds one, `describe` names an instance, and `fibonacci`, called on the type, is a
little work to time.

* `Calculator.define` – defines the three operations.
* `Calculator.workload` – calls each of them a number of times and adds up what
  `compute` answers.
-/

namespace Interception

namespace Calculator

variable {σ : Type}

/-- The name of the type. -/
def typeName : String :=
  "Calculator"

/-- The key of the operation that adds one. -/
def computeKey : Key :=
  .ofInstance typeName "compute"

/-- The key of the operation that names an instance. -/
def describeKey : Key :=
  .ofInstance typeName "describe"

/-- The key of the operation for Fibonacci numbers. -/
def fibonacciKey : Key :=
  .ofType typeName "fibonacci"

/-- The operations of the type. -/
def operations : List Key :=
  [computeKey, describeKey, fibonacciKey]

/-! ### Bodies -/

/-- Adds one to its argument. -/
def compute : Program σ :=
  .inspect fun call =>
    match call.int64? 0 with
    | none => .fail (.message "compute expects an integer argument")
    | some x =>
      if IsInt64 (x + 1) then .done (.int (x + 1))
      else .fail (.message ("compute(" ++ toString x ++ ") overflows i64"))

/-- The name of an instance, if its state has one. -/
def nameOf (call : Invocation) : String :=
  ((call.receiver.state?.bind (Value.member? "name")).bind Value.string?).getD "anonymous"

/-- Names the instance it is called on. -/
def describe : Program σ :=
  .inspect fun call => .done (.string ("Calculator(" ++ nameOf call ++ ")"))

/-- The greatest unsigned 64-bit integer. -/
def maxNat64 : Nat :=
  wordSize - 1

/-- The sum, or the greatest 64-bit integer where the sum is beyond it. -/
def saturatingAdd (a b : Nat) : Nat :=
  min (a + b) maxNat64

/-- A Fibonacci number and the next one, which alone may have reached the limit. -/
def fibonacciPair : Nat → Nat × Nat
  | 0 => (0, 1)
  | n + 1 =>
    let (a, b) := fibonacciPair n
    (b, saturatingAdd a b)

/-- The last index whose Fibonacci number fits 64 bits. -/
def maxFibonacci : Nat :=
  93

/-- The Fibonacci number of its argument. -/
def fibonacci : Program σ :=
  .inspect fun call =>
    match (call.argument? 0).bind Value.nat64? with
    | none => .fail (.message "fibonacci expects a non-negative integer")
    | some n =>
      if maxFibonacci < n then .fail (.message ("fibonacci(" ++ toString n ++ ") overflows u64"))
      else .done (.int (fibonacciPair n).1)

/-! ### Definitions -/

/-- Defines an operation and goes on, or passes the error on. -/
def defineThen (key : Key) (body : Program σ) (next : Program σ) : Program σ :=
  .request (.define key) (fun _ => body) fun
    | .ok _ => next
    | .error error => .fail (.raised error)

/-- **Defines the operations of the type**, one after the other; the first one that
is already defined ends it. -/
def define : Program σ :=
  defineThen computeKey compute <| defineThen describeKey describe <|
    defineThen fibonacciKey fibonacci <| .done .null

/-! ### The workload -/

/-- The instance that the workload calls. -/
def sample : Receiver :=
  .ofInstance (.object [("name", .string "demo")])

/-- The failure of a workload whose sum leaves the signed 64-bit range. -/
def checksumOverflow (iteration : Nat) : Failure :=
  .message ("workload checksum overflows i64 after " ++ toString iteration ++ " iterations")

/-- The iterations of the workload that are left, from a given one on. -/
def workloadFrom (iteration : Nat) (checksum : Int) : (left : Nat) → Program σ
  | 0 => .done (.int checksum)
  | left + 1 =>
    .callThen ⟨sample, computeKey, [.int iteration]⟩ fun computed =>
      let checksum := checksum + computed.int64?.getD 0
      if IsInt64 checksum then
        .callThen ⟨sample, describeKey, []⟩ fun _ =>
          .callThen ⟨.ofType, fibonacciKey, [.int (iteration % 40 : Nat)]⟩ fun _ =>
            workloadFrom (iteration + 1) checksum left
      else .fail (checksumOverflow iteration)

/-- **The workload**: every operation once per iteration, and the sum of what
`compute` answers. -/
def workload (iterations : Nat) : Program σ :=
  workloadFrom 0 0 iterations

end Calculator

end Interception
