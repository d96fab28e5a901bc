import SceneScript.Diagnostic.Basic
import SceneScript.Files.Error

/-! # Failures of a command

A command fails because of a file, its configuration, an invalid scene text, or a file in the way.
Each failure has a message and, for display, a report with a code.
-/

namespace SceneScript

/-- What is wrong with a configuration. -/
inductive ConfigError where
  | missingFile (path : Text)
  | malformed
  deriving DecidableEq, Repr

/-- Why a command failed. -/
inductive Failure where
  | file (error : FileError)
  | config (error : ConfigError)
  /-- The scene text is invalid. -/
  | invalid (diagnostic : Diagnostic) (source : Text)
  /-- A file that was to be created exists. -/
  | alreadyExists (path : Text)
  deriving DecidableEq, Repr

/-- What is displayed about a failure. -/
structure FailureReport where
  display : String
  code : Option String
  severity : Option Severity
  help : Option String
  hasSource : Bool
  labels : Option (List Label)
  deriving DecidableEq, Repr

namespace Failure

/-- The failure in words. -/
def message : Failure → String
  | file error => "I/O error: " ++ error.message
  | config (.missingFile path) => "Missing configuration file: " ++ String.ofList path
  | config .malformed => "Failed to parse TOML configuration"
  | invalid diagnostic _ => diagnostic.headline
  | alreadyExists path => "File already exists: " ++ String.ofList path

/-- The code that the failure is displayed under, if it has one. -/
def code? : Failure → Option String
  | file _ => some "slc::io"
  | config _ => some "slc::config"
  | invalid diagnostic _ => diagnostic.code.map toString
  | alreadyExists _ => some "slc::exists"

/-- The failure as it is displayed: an invalid text with its labels, all else as a plain message. -/
def report (failure : Failure) : FailureReport :=
  match failure with
  | invalid diagnostic _ =>
    { display := diagnostic.message
      code := failure.code?
      severity := some diagnostic.severity
      help := diagnostic.help
      hasSource := true
      labels := if diagnostic.labels.isEmpty then none else some diagnostic.labels }
  | _ =>
    { display := failure.message
      code := failure.code?
      severity := none
      help := none
      hasSource := false
      labels := none }

end Failure

end SceneScript
