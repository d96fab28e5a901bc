import SceneScript.Diagnostic.Basic
import SceneScript.Document.Basic
import SceneScript.Report.Json

/-! # JSON report of a checked file

The report holds the verdict on a file, the document when there is one, and the diagnostics: the
error first, if any, and then the warnings.
-/

namespace SceneScript

/-- A parameter value: a number or a string. -/
def Value.toJson : Value → Json
  | .integer n => .integer n
  | .decimal x => .decimal x
  | .text content => .string content

/-- A shape, with its entries in their own order. -/
def Shape.toJson (shape : Shape) : Json :=
  .object
    [("type".toList, .string shape.kind),
     ("name".toList, .string shape.name),
     ("params".toList, .object (shape.params.toList.map fun entry => (entry.1, entry.2.toJson))),
     ("style".toList, .object (shape.style.toList.map fun entry => (entry.1, .string entry.2)))]

def Document.toJson (document : Document) : Json :=
  .object
    [("list_name".toList, .string document.listName),
     ("shapes".toList, .array (document.shapes.map Shape.toJson))]

/-- A text, or null. -/
def Json.ofOption (text : Option String) : Json :=
  match text with
  | some text => .string text.toList
  | none => .null

/-- A diagnostic, without its labels. -/
def Diagnostic.toJson (diagnostic : Diagnostic) : Json :=
  .object
    [("severity".toList, .string (toString diagnostic.severity).toList),
     ("code".toList, .ofOption (diagnostic.code.map toString)),
     ("message".toList, .string diagnostic.message.toList),
     ("line".toList, .integer diagnostic.position.line),
     ("column".toList, .integer diagnostic.position.column),
     ("help".toList, .ofOption diagnostic.help)]

/-- The report on one checked file. -/
structure CheckReport where
  file : Text
  document : Option Document
  diagnostics : List Diagnostic

namespace CheckReport

/-- The report on the outcome of a parse and on the warnings. -/
def ofOutcome (file : Text) (outcome : Except Diagnostic Document) (warnings : List Diagnostic) :
    CheckReport :=
  match outcome with
  | .ok document => ⟨file, some document, warnings⟩
  | .error diagnostic => ⟨file, none, diagnostic :: warnings⟩

/-- A file is in order exactly when it has a document. -/
def ok (report : CheckReport) : Bool :=
  report.document.isSome

/-- The report as an object; without a document it has no such member. -/
def toJson (report : CheckReport) : Json :=
  .object
    ([("file".toList, .string report.file), ("ok".toList, .bool report.ok)] ++
      (report.document.map fun document => ("document".toList, document.toJson)).toList ++
      [("diagnostics".toList, .array (report.diagnostics.map Diagnostic.toJson))])

/-- The report as indented text on lines of its own. -/
def write (report : CheckReport) : Text :=
  report.toJson.pretty 0 ++ ['\n']

end CheckReport

end SceneScript
