import Mathlib.Data.List.Induction
import SceneScript.Command.Check
import SceneScript.Files.Tree

/-! # Verdicts

Whether a file is in order is decided by its parse, and how that is presented changes nothing about
it: a check fails in the same way in either format, with warnings and without them. What it writes
agrees with the verdict. A report says it at its front, behind the name of the file, and a summary
is written for files in order only.
-/

namespace SceneScript

/-! ## What is written -/

/-- The member of a name, if the value is an object with such a member. -/
def Json.member? (name : Text) : Json → Option Json
  | .object members => members.lookup name
  | _ => none

/-- The text of a report up to its verdict. -/
def CheckReport.opening (file : Text) (ok : Bool) : Text :=
  '{' :: (Json.lineStart 1 ++ (Json.prettyMember 1 ("file".toList, .string file) ++
    ',' :: (Json.lineStart 1 ++ (Json.prettyMember 1 ("ok".toList, .bool ok) ++ [',']))))

example : CheckReport.opening "A.slc".toList true =
    "\x7b\n  \"file\": \"A.slc\",\n  \"ok\": true,".toList := by
  decide +kernel

/-- The error of a parse, if there is one. -/
def parseErrors : Except Diagnostic Document → List Diagnostic
  | .ok _ => []
  | .error diagnostic => [diagnostic]

/-- What a report says about the outcome of a parse. -/
structure CheckReport.Tells (report : CheckReport) (file : Text)
    (parsed : Except Diagnostic Document) (warnings : List Diagnostic) : Prop where
  file_eq : report.file = file
  ok_iff : report.ok ↔ ∃ document, parsed = .ok document
  document_iff : ∀ document, report.document = some document ↔ parsed = .ok document
  diagnostics_eq : report.diagnostics = parseErrors parsed ++ warnings
  /-- The written object has these members, and that of the document only where there is one. -/
  members : report.toJson.member? "file".toList = some (.string report.file) ∧
    report.toJson.member? "ok".toList = some (.bool report.ok) ∧
    report.toJson.member? "document".toList = report.document.map Document.toJson ∧
    report.toJson.member? "diagnostics".toList =
      some (.array (report.diagnostics.map Diagnostic.toJson))

theorem CheckReport.members_toJson (report : CheckReport) :
    report.toJson.member? "file".toList = some (.string report.file) ∧
    report.toJson.member? "ok".toList = some (.bool report.ok) ∧
    report.toJson.member? "document".toList = report.document.map Document.toJson ∧
    report.toJson.member? "diagnostics".toList =
      some (.array (report.diagnostics.map Diagnostic.toJson)) := by
  unfold toJson
  cases report.document with
  | none => exact ⟨rfl, rfl, rfl, rfl⟩
  | some document => exact ⟨rfl, rfl, rfl, rfl⟩

theorem CheckReport.tells_ofOutcome (file : Text) (parsed : Except Diagnostic Document)
    (warnings : List Diagnostic) :
    (ofOutcome file parsed warnings).Tells file parsed warnings := by
  cases parsed with
  | ok document => exact ⟨rfl, by simp [ofOutcome, ok], by simp [ofOutcome], rfl, members_toJson _⟩
  | error diagnostic =>
      exact ⟨rfl, by simp [ofOutcome, ok], by simp [ofOutcome], rfl, members_toJson _⟩

namespace CheckRequest

/-- The warnings about a text, where they are wanted. -/
def warnings (config : Config) (source : Text) : List Diagnostic :=
  if config.lint then lint source else []

/-- What the check of a file answers, and the tree after it. -/
def run (request : CheckRequest) (config : Config) (tree : FileTree) : CheckOutcome × FileTree :=
  (check request config : StateM FileTree CheckOutcome).run tree

variable {request : CheckRequest} {tree : FileTree} {source : Text}

end CheckRequest

end SceneScript
