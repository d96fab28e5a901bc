import SceneScript.Command.Failure

/-! # Log lines

What the tool says beside its result: a complaint about an unknown log level, warnings about the
checked file, and the failure of the command. The level decides which of them are shown.
-/

namespace SceneScript

/-- How much is logged. -/
inductive LogLevel where
  | off
  | error
  | warn
  | info
  | debug
  | trace
  deriving DecidableEq, Repr

namespace LogLevel

/-- The name of a level, in lower case. -/
def name : LogLevel → String
  | off => "off"
  | error => "error"
  | warn => "warn"
  | info => "info"
  | debug => "debug"
  | trace => "trace"

/-- The level of this name, in any mix of ASCII cases. -/
def ofName? (text : Text) : Option LogLevel :=
  [off, error, warn, info, debug, trace].find? fun level =>
    level.name.toList = text.map Char.toLower

/-- Whether failures are shown. -/
def showsErrors (level : LogLevel) : Bool :=
  level ≠ off

/-- Whether warnings are shown. -/
def showsWarnings (level : LogLevel) : Bool :=
  level ≠ off && level ≠ error

end LogLevel

/-- A line of the log. -/
inductive LogLine where
  | unknownLevel (name : Text)
  | warning (input : Text) (found : Diagnostic)
  | failed (failure : Failure)
  deriving DecidableEq, Repr

namespace LogLine

/-- A code in brackets, if there is one. -/
def bracketed (code : Option String) : String :=
  match code with
  | some code => " [" ++ code ++ "]"
  | none => ""

/-- The line as it is shown. -/
def text : LogLine → String
  | unknownLevel name => "Invalid log level: " ++ String.ofList name ++ ". Using 'warn' instead."
  | warning input found =>
    "WARN slc_cli: " ++ String.ofList input ++ ":" ++ toString found.position ++
      bracketed (found.code.map toString)
  | failed failure => "ERROR slc: Failed" ++ bracketed failure.code?

end LogLine

end SceneScript
