import Interception.CommandLine
import Interception.Report

/-!
# The texts of the command line

What the program prints when it is asked about itself.
-/

namespace Interception

namespace Stop

/-- The name of the program. -/
def programName : String :=
  "interpose"

/-- What the program is for, and how it is called. -/
def usage : String :=
  "Run the sample Calculator workload under method interception\n\n" ++
  "Usage: " ++ programName ++ " [OPTIONS]\n\n" ++
  "Options:\n"

/-- The help in short. -/
def shortHelp : String :=
  usage ++
  "  -n, --iterations <N>   Number of workload iterations per thread [default: 1000]\n" ++
  "  -t, --threads <N>      Number of threads calling through the interceptors concurrently " ++
  "[default: 1]\n" ++
  "  -c, --config <PATH>    Instrumentation config file (TOML); defaults time every " ++
  "Calculator operation\n" ++
  "      --format <FORMAT>  Output format [default: text] [possible values: text, json]\n" ++
  "      --records          Include every individual call record in JSON output\n" ++
  "      --capture-args     Keep each call's arguments on its record (shown with --records)\n" ++
  "      --disable          Install interceptors but leave them disabled (bypass path)\n" ++
  "      --debug            Enable debug tracing output to stderr\n" ++
  "  -h, --help             Print help (see more with '--help')\n" ++
  "  -V, --version          Print version\n"

/-- The help at length. -/
def longHelp : String :=
  usage ++
  "  -n, --iterations <N>\n" ++
  "          Number of workload iterations per thread\n" ++
  "          \n" ++
  "          [default: 1000]\n\n" ++
  "  -t, --threads <N>\n" ++
  "          Number of threads calling through the interceptors concurrently\n" ++
  "          \n" ++
  "          [default: 1]\n\n" ++
  "  -c, --config <PATH>\n" ++
  "          Instrumentation config file (TOML); defaults time every Calculator operation\n\n" ++
  "      --format <FORMAT>\n" ++
  "          Output format\n\n" ++
  "          Possible values:\n" ++
  "          - text: Human-readable table (default)\n" ++
  "          - json: JSON report for machine parsing\n" ++
  "          \n" ++
  "          [default: text]\n\n" ++
  "      --records\n" ++
  "          Include every individual call record in JSON output\n\n" ++
  "      --capture-args\n" ++
  "          Keep each call's arguments on its record (shown with --records)\n\n" ++
  "      --disable\n" ++
  "          Install interceptors but leave them disabled (bypass path)\n\n" ++
  "      --debug\n" ++
  "          Enable debug tracing output to stderr\n\n" ++
  "  -h, --help\n" ++
  "          Print help (see a summary with '-h')\n\n" ++
  "  -V, --version\n" ++
  "          Print version\n"

/-- The text that was asked for, if one was. -/
def requestedText? : Stop → Option String
  | .help false => some shortHelp
  | .help true => some longHelp
  | .version => some (programName ++ " " ++ Report.version ++ "\n")
  | _ => none

/-- What is wrong with the arguments. -/
def complaint : Stop → String
  | .unknownArgument => "error: unexpected argument"
  | .invalidValue => "error: missing or impossible value"
  | .malformedValue => "error: invalid value"
  | .repeatedOption => "error: option given more than once"
  | .unexpectedValue => "error: value for an option that takes none"
  | .help _ | .version => ""

/-- The exit code of a program that stops here. -/
def exitCode (stop : Stop) : Nat :=
  if stop.isRequest then 0 else 2

end Stop

end Interception
