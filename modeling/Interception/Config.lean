import Interception.Key

/-!
# Configuration of timing

A `Config` says which operations to time and how: whether the interceptors start
enabled, how many records a collector holds, from when on a call is slow, and
whether arguments are kept.

* `Config.validate` – what is wrong with a configuration, if anything. A
  collector without room is reported before anything else; then the first target
  that has an empty name or repeats an earlier one.
* Readers for the two written forms are in `Interception.Config.Json` and
  `Interception.Config.Toml`. A field that is left out has the value that it has
  in `Config.standard`.
-/

namespace Interception

/-- **How operations are to be timed.** -/
structure Config where
  /-- Whether the interceptors start enabled. -/
  enabledByDefault : Bool
  /-- How many records a collector holds. -/
  collectorCapacity : Nat
  /-- From how many microseconds on a call is slow; zero for never. -/
  slowCallThreshold : Nat
  /-- Whether arguments are kept on records. -/
  captureArguments : Bool
  /-- The operations to time. -/
  targets : List Key
deriving DecidableEq, Repr

namespace Config

/-- What a configuration says where nothing else is asked for. -/
def standard : Config :=
  { enabledByDefault := true
    collectorCapacity := 8192
    slowCallThreshold := 100000
    captureArguments := false
    targets := [] }

/-- Every call in detail: more room, arguments kept, calls reported as slow early. -/
def strict : Config :=
  { standard with collectorCapacity := 65536, slowCallThreshold := 10000, captureArguments := true }

/-- As little as possible: less room and no reports of slow calls. -/
def permissive : Config :=
  { standard with collectorCapacity := 4096, slowCallThreshold := 0 }

instance : Inhabited Config := ⟨standard⟩

/-- Adds a target behind the others. -/
def withTarget (config : Config) (key : Key) : Config :=
  { config with targets := config.targets ++ [key] }

/-- From how many microseconds on a call is slow, if there is such a number. -/
def threshold? (config : Config) : Option Nat :=
  if config.slowCallThreshold = 0 then none else some config.slowCallThreshold

/-! ### What can be wrong -/

/-- What is wrong with a configuration. -/
inductive Offence where
  /-- The collector would have no room. -/
  | noCapacity
  /-- A target has an empty type name or an empty operation name. -/
  | emptyName (target : Key)
  /-- A target repeats an earlier one. -/
  | duplicate (target : Key)
deriving DecidableEq, Repr

/-- The text of an offence. -/
def Offence.text : Offence → String
  | .noCapacity => "collector_capacity must be > 0"
  | .emptyName target => "target " ++ target.display ++ " has an empty type or operation name"
  | .duplicate target => "duplicate target " ++ target.display

/-- The first offence among targets, where some came before them. -/
def targetOffence? : List Key → List Key → Option Offence
  | _, [] => none
  | before, target :: rest =>
    if target.typeName = "" ∨ target.operation = "" then some (.emptyName target)
    else if target ∈ before then some (.duplicate target)
    else targetOffence? (target :: before) rest

/-- **What is wrong with a configuration**, if anything. -/
def validate (config : Config) : Option Offence :=
  if config.collectorCapacity = 0 then some .noCapacity
  else targetOffence? [] config.targets

end Config

end Interception
