/-
Running a command line.
-/
import UnitCheck.Command.Check
import UnitCheck.Command.Schema

namespace UnitCheck

/-- What a command line leaves: the exit status and what it writes. -/
structure Outcome where
  status : Nat
  output : String
  errors : String
deriving DecidableEq, Repr

/-- The name and version of the program. -/
def versionText : String := "unitlint 0.1.0\n"

/-- How the program is used. -/
def helpLines : List String :=
  ["A CLI tool that flags unrecognized directives in systemd unit files",
    "",
    "Usage: unitlint [OPTIONS] [COMMAND]",
    "",
    "Commands:",
    "  check   Check unit files for unrecognized directives (default command)",
    "  schema  List known section types and their directives",
    "  help    Print this message or the help of the given subcommand(s)",
    "",
    "Options:",
    "  -v, --verbose...  Enable verbose output (use -vv for debug output)",
    "  -h, --help        Print help",
    "  -V, --version     Print version"]

/-- What is left if no command is run. -/
def Halt.outcome : Halt → Outcome
  | .help => ⟨0, String.join (helpLines.map (· ++ "\n")), ""⟩
  | .version => ⟨0, versionText, ""⟩
  | .misuse problem =>
    ⟨2, "", "error: " ++ problem.message ++ "\n\nFor more information, try '--help'.\n"⟩

/-- Run a command. -/
def Command.run (session : Session) : Command → Logged Page
  | .check options => Check.run session options
  | .schema options => Schema.run session options

/-- What a run leaves: its page, or the report of a failure and nothing on the output. -/
def Logged.outcome (verbosity : Nat) (run : Logged Page) : Outcome :=
  let log := LogLine.render verbosity run.log
  match run.result with
  | .ok page => ⟨page.status, page.text, log⟩
  | .error failure => ⟨1, "", log ++ failure.report⟩

/-- Run a command line. -/
def Session.run (session : Session) (arguments : List (List Char)) : Outcome :=
  match Invocation.ofArguments session.configVariable 0 arguments with
  | .ok invocation => (invocation.command.run session).outcome invocation.verbosity
  | .error halt => halt.outcome

end UnitCheck
