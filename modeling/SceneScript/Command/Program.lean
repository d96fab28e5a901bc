import SceneScript.Command.Arguments
import SceneScript.Command.Log
import SceneScript.Config.Load

/-! # The program

A run of the command line tool: it reads its arguments, finds its settings, runs the command, and
ends with an exit status, an output and a log.
-/

namespace SceneScript

/-- What a run of the program comes to. -/
structure RunOutcome where
  exitCode : Nat
  output : String
  log : List LogLine
  deriving DecidableEq, Repr

namespace Program

/-- The name and the version of the program. -/
def versionText : String :=
  "slc 0.1.0\n"

/-- How the program is used. -/
def usageText : String :=
  "Usage: slc [OPTIONS] <COMMAND>\n\n" ++
  "Commands:\n" ++
  "  check <INPUT>  Parse and validate a scene file, then print its shapes\n" ++
  "  new <NAME>     Write a starter scene file for a new list\n\n" ++
  "Options:\n" ++
  "  -c, --config <CONFIG>        Path to a configuration file\n" ++
  "      --log-level <LOG_LEVEL>  Log level (off, error, warn, info, debug, trace)\n" ++
  "  -h, --help                   Print help\n" ++
  "  -V, --version                Print version\n"

/-- The outcome of a run that stops at its arguments. -/
def stopped : Stop → RunOutcome
  | .usageError => ⟨2, "", []⟩
  | .help => ⟨0, usageText, []⟩
  | .version => ⟨0, versionText, []⟩

/-- The log level in force, and the line about a name that means none. -/
def logLevel (name : Option Text) : LogLevel × List LogLine :=
  match name with
  | none => (.warn, [])
  | some name =>
    match LogLevel.ofName? name with
    | some level => (level, [])
    | none => (.warn, [.unknownLevel name])

/-- The outcome of a command that wrote an output, logged lines, and failed or not. -/
def finished (level : LogLevel) (start : List LogLine) (output : String) (warnings : List LogLine)
    (failure : Option Failure) : RunOutcome :=
  let warnings := if level.showsWarnings then warnings else []
  let failures := if level.showsErrors then (failure.map LogLine.failed).toList else []
  ⟨if failure.isSome then 1 else 0, output, start ++ warnings ++ failures⟩

variable {m : Type → Type} [Monad m] [FileAccess m]

/-- Runs a command under some settings: its output, its warnings and its failure. -/
def runCommand (config : Config) : Command → m (String × List LogLine × Option Failure)
  | .check request => do
    let outcome ← check request config
    return (outcome.output, outcome.logged.map (.warning request.input), outcome.failure)
  | .new request => do
    match ← create request with
    | .ok path => return ("Created " ++ String.ofList path ++ "\n", [], none)
    | .error failure => return ("", [], some failure)

/-- Runs the program, where `settings` is the user's directory of settings, if known. -/
def run (settings : Option Text) (arguments : List Text) : m RunOutcome := do
  match Arguments.read arguments with
  | .error stop => return stopped stop
  | .ok arguments =>
    let (level, start) := logLevel arguments.logLevel
    match ← Config.load arguments.config settings with
    | .error failure => return finished level start "" [] (some failure)
    | .ok config =>
      let (output, warnings, failure) ← runCommand config arguments.command
      return finished level start output warnings failure

end Program

end SceneScript
