import Interception.Word

/-!
# The command line

The arguments of the demonstration program are options, each of which may be given
once; there are no other arguments. `Options.parse` reads them from left to right
and stops at the first thing that is not right, or that asks for a text instead of
a run.

* An option with a value takes it from the rest of its own argument – `--name=v`,
  `-nv`, `-n=v` – or else from the next argument, unless that looks like an option.
* Options without a value may stand together behind one dash, and one with a value
  may end such a group.
* A value that stands in an argument of its own is examined when the next option
  comes, or at the end. Until then an unknown argument takes precedence over
  whatever is wrong with it.
-/

namespace Interception

/-- How the outcome of a run is written. -/
inductive Format where
  | text
  | json
deriving DecidableEq, Repr, Inhabited

/-- **What the demonstration program is asked to do.** -/
structure Options where
  /-- How many iterations of the workload each thread runs. -/
  iterations : Nat
  /-- How many threads run it. -/
  threads : Nat
  /-- The configuration file, if there is one. -/
  config : Option String
  /-- How the outcome is written. -/
  format : Format
  /-- Whether every record is part of a report. -/
  records : Bool
  /-- Whether arguments are kept on records. -/
  captureArguments : Bool
  /-- Whether the interceptors start disabled. -/
  disable : Bool
  /-- Whether events are written too. -/
  debug : Bool
deriving DecidableEq, Repr

/-- **Why parsing stops.** -/
inductive Stop where
  /-- There is no such option, or the argument is none at all. -/
  | unknownArgument
  /-- A value is missing, or is none of those allowed. -/
  | invalidValue
  /-- A value is no number of the right range. -/
  | malformedValue
  /-- An option is given twice. -/
  | repeatedOption
  /-- A value is given to an option that takes none. -/
  | unexpectedValue
  /-- Help is asked for, in short or at length. -/
  | help (long : Bool)
  /-- The version is asked for. -/
  | version
deriving DecidableEq, Repr

/-- Whether what stops parsing was asked for, rather than a mistake. -/
def Stop.isRequest : Stop → Bool
  | .help _ | .version => true
  | _ => false

/-- An option. -/
inductive Switch where
  | iterations
  | threads
  | config
  | format
  | records
  | captureArguments
  | disable
  | debug
  | help
  | version
deriving DecidableEq, Repr

namespace Switch

/-- Every option. -/
def all : List Switch :=
  [.iterations, .threads, .config, .format, .records, .captureArguments, .disable, .debug, .help,
    .version]

/-- The name of an option behind two dashes. -/
def longName : Switch → String
  | .iterations => "iterations"
  | .threads => "threads"
  | .config => "config"
  | .format => "format"
  | .records => "records"
  | .captureArguments => "capture-args"
  | .disable => "disable"
  | .debug => "debug"
  | .help => "help"
  | .version => "version"

/-- The letter of an option behind one dash, if it has one. -/
def letter? : Switch → Option Char
  | .iterations => some 'n'
  | .threads => some 't'
  | .config => some 'c'
  | .help => some 'h'
  | .version => some 'V'
  | _ => none

/-- Whether an option has a value. -/
def takesValue : Switch → Bool
  | .iterations | .threads | .config | .format => true
  | _ => false

/-- The option with a name. -/
def ofLongName? (name : String) : Option Switch :=
  all.find? fun switch => switch.longName = name

/-- The option with a letter. -/
def ofLetter? (c : Char) : Option Switch :=
  all.find? fun switch => switch.letter? = some c

end Switch

namespace Options

/-- What is done when nothing is said. -/
def standard : Options :=
  { iterations := 1000, threads := 1, config := none, format := .text, records := false
    captureArguments := false, disable := false, debug := false }

instance : Inhabited Options := ⟨standard⟩

/-- A natural number of 64 bits in decimal notation; a plus sign may stand in
front. -/
def nat64? (s : String) : Option Nat :=
  let digits :=
    match s.toList with
    | '+' :: digits => digits
    | digits => digits
  if !digits.isEmpty && digits.all fun c => decide ('0' ≤ c ∧ c ≤ '9') then
    let n := digits.foldl (fun n c => 10 * n + (c.toNat - '0'.toNat)) 0
    if n < wordSize then some n else none
  else none

/-- The format with a name. -/
def format? (s : String) : Option Format :=
  if s = "text" then some .text else if s = "json" then some .json else none

/-- The options with one more taken into account, whose value is given if it has
one. -/
def apply (options : Options) (value : String) : Switch → Except Stop Options
  | .iterations =>
    match nat64? value with
    | some iterations => .ok { options with iterations }
    | none => .error .malformedValue
  | .threads =>
    match nat64? value with
    | some threads => .ok { options with threads }
    | none => .error .malformedValue
  | .config =>
    if value = "" then .error .invalidValue else .ok { options with config := some value }
  | .format =>
    match format? value with
    | some format => .ok { options with format }
    | none => .error .invalidValue
  | .records => .ok { options with records := true }
  | .captureArguments => .ok { options with captureArguments := true }
  | .disable => .ok { options with disable := true }
  | .debug => .ok { options with debug := true }
  | .help => .error (.help true)
  | .version => .error .version

/-! ### From left to right -/

/-- **What has been parsed so far.** -/
structure Progress where
  /-- The options as they stand. -/
  options : Options
  /-- Which of them were given. -/
  given : List Switch
  /-- An option whose value stands, or will stand, in an argument of its own, and
  that value once it is there. -/
  pending : Option (Switch × Option String)

namespace Progress

/-- Nothing parsed yet. -/
def start : Progress :=
  ⟨standard, [], none⟩

/-- Takes an option into account. -/
def give (p : Progress) (switch : Switch) (value : Option String) : Except Stop Progress :=
  if switch.takesValue && value.isNone then .error .invalidValue
  else if switch ∈ p.given then .error .repeatedOption
  else do
    let options ← p.options.apply (value.getD "") switch
    .ok { p with options, given := switch :: p.given }

/-- Takes the pending option into account, if there is one. -/
def settle (p : Progress) : Except Stop Progress :=
  match p.pending with
  | some (switch, value) => { p with pending := none }.give switch value
  | none => .ok p

/-- Takes an option into account whose value, if it has one, is known. -/
def settleAndGive (p : Progress) (switch : Switch) (value : Option String) :
    Except Stop Progress := do
  (← p.settle).give switch value

/-- Takes an option with a value into account; the value may have to come from the
next argument. -/
def settleAndAwait (p : Progress) (switch : Switch) (value : Option String) :
    Except Stop Progress :=
  match value with
  | some value => p.settleAndGive switch (some value)
  | none => do
    let p ← p.settle
    .ok { p with pending := some (switch, none) }

/-- An argument with two dashes in front: a name, and perhaps a value behind an
equals sign. -/
def long (p : Progress) (name : String) (value : Option String) : Except Stop Progress :=
  match Switch.ofLongName? name with
  | none => .error .unknownArgument
  | some switch =>
    if switch.takesValue then p.settleAndAwait switch value
    else if value.isSome then .error .unexpectedValue
    else p.settleAndGive switch none

/-- The value behind the letter of an option, if anything stands there. -/
def attached : List Char → Option String
  | [] => none
  | '=' :: rest => some (String.ofList rest)
  | rest => some (String.ofList rest)

/-- An argument with one dash in front: letters, the last of which may have a
value behind it. -/
def short (p : Progress) : List Char → Except Stop Progress
  | [] => .ok p
  | c :: rest =>
    match Switch.ofLetter? c with
    | none => .error .unknownArgument
    | some .help => do
      let _ ← p.settle
      .error (.help false)
    | some switch =>
      if switch.takesValue then p.settleAndAwait switch (attached rest)
      else do
        let p ← p.settleAndGive switch none
        p.short rest

/-- An argument that is no option: the value that is waited for, if one is. -/
def plain (p : Progress) (arg : String) : Except Stop Progress :=
  match p.pending with
  | some (switch, none) => .ok { p with pending := some (switch, some arg) }
  | _ => .error .unknownArgument

/-- Splits a text at its first equals sign. -/
def splitValue (cs : List Char) : String × Option String :=
  match cs.dropWhile (· ≠ '=') with
  | [] => (String.ofList cs, none)
  | _ :: value => (String.ofList (cs.takeWhile (· ≠ '=')), some (String.ofList value))

/-- One argument. -/
def argument (p : Progress) (arg : String) : Except Stop Progress :=
  match arg.toList with
  | '-' :: '-' :: cs =>
    let (name, value) := splitValue cs
    p.long name value
  | '-' :: c :: cs => p.short (c :: cs)
  | _ => p.plain arg

/-- The remaining arguments. Behind two dashes that stand alone, nothing is an
option any more, and so nothing may follow. -/
def arguments (p : Progress) : List String → Except Stop Progress
  | [] => p.settle
  | arg :: rest =>
    if arg = "--" then
      if rest.isEmpty then p.settle else .error .unknownArgument
    else do
      let p ← p.argument arg
      p.arguments rest

end Progress

/-- **The options that arguments spell**, or why there are none. -/
def parse (args : List String) : Except Stop Options :=
  (Progress.start.arguments args).map Progress.options

end Options

end Interception
