import SceneScript.Command.Failure
import SceneScript.Config.Basic
import SceneScript.Document.Build
import SceneScript.Files.Access
import SceneScript.Lint
import SceneScript.Report.Check
import SceneScript.Report.Summary

/-! # Checking a file

The verdict on a file is the outcome of its parse. How it is presented is decided apart from it: as
a summary with the warnings in the log, or as one JSON report.
-/

namespace SceneScript

/-- A file to check. A format overrides the configuration. -/
structure CheckRequest where
  input : Text
  format : Option OutputFormat
  noFileNameCheck : Bool
  deriving DecidableEq, Repr

/-- What a check writes and logs, and how it fails, if it does. -/
structure CheckOutcome where
  output : String
  logged : List Diagnostic
  failure : Option Failure
  deriving DecidableEq, Repr

namespace CheckRequest

/-- The file name that the list must match, if it must match one. -/
def enforcedName (request : CheckRequest) (config : Config) : Option Text :=
  if config.enforceFileName && !request.noFileNameCheck then some request.input else none

/-- The outcome for a file with this text. -/
def outcome (request : CheckRequest) (config : Config) (source : Text) : CheckOutcome :=
  let parsed := parse source (request.enforcedName config)
  let warnings := if config.lint then lint source else []
  let failure := match parsed with
    | .ok _ => none
    | .error diagnostic => some (Failure.invalid diagnostic source)
  match request.format.getD config.format with
  | .json =>
    { output := String.ofList (CheckReport.ofOutcome request.input parsed warnings).write
      logged := []
      failure := failure }
  | .text =>
    { output := match parsed with
        | .ok document => document.summary
        | .error _ => ""
      logged := warnings
      failure := failure }

end CheckRequest

/-- Checks a file. The report or the summary is taken by a writer that never fails, so the outcome
holds the whole output, and failures to write it are left out. -/
def check {m : Type → Type} [Monad m] [FileAccess m] (request : CheckRequest) (config : Config) :
    m CheckOutcome := do
  match ← FileAccess.readText request.input with
  | .ok source => return request.outcome config source
  | .error error => return ⟨"", [], some (.file error)⟩

end SceneScript
