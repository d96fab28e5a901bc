import SceneScript.Document.Violation

/-! # What is said of a violation

Every rule has a code, and a violation is reported under the code of its rule, in words that name
what breaks the rule. The primary label marks the place of the problem, and the others mark the
headers that one has to look at as well.
-/

namespace SceneScript

namespace Diagnostic

/-- An error under the code that is written so. The primary label comes first and marks `place`; all
other labels mark `context`. -/
structure Cites (diagnostic : Diagnostic) (written : String) (place : Span) (context : List Span) :
    Prop where
  severity : diagnostic.severity = .error
  code : diagnostic.code.map toString = some written
  places : diagnostic.labels.map (fun label => (label.span, label.isPrimary)) =
    (place, true) :: context.map fun span => (span, false)

/-- The words of the diagnostic: its message, and the remarks of its labels in their order. -/
structure Says (diagnostic : Diagnostic) (message : String) (remarks : List String) : Prop where
  message : diagnostic.message = message
  remarks : diagnostic.labels.map (·.message) = remarks

/-- The diagnostic says which rule is broken, where, and how. -/
def Describes (diagnostic : Diagnostic) : Violation → Prop
  | .missingList =>
    diagnostic.Cites "E100" (.emptyAt 0) [] ∧
      diagnostic.Says "expected a 'Create List <Name>() \x7b' declaration"
        ["no list declaration in this file"]
  | .noShapes =>
    diagnostic.Cites "E101" (.emptyAt 0) [] ∧
      diagnostic.Says "no shapes found; each shape must be 'Create <Type> <Name>(params) \x7b \x7d'"
        ["the list is empty"]
  | .missingStyle header =>
    diagnostic.Cites "E102" (.emptyAt header.span.stop) [header.span] ∧
      diagnostic.Says
        ("missing 'Style \x7b ... \x7d' block after '" ++ String.ofList header.title.value ++ "'")
        ["expected a style block here", "shape declared here"]
  | .duplicateList header first =>
    diagnostic.Cites "E103" header.span [first.span] ∧
      diagnostic.Says ("duplicate List declaration '" ++ String.ofList header.name.value ++ "'")
        ["second list declared here", "first declared here"]
  | .lowercaseList header =>
    diagnostic.Cites "E200" header.span [] ∧
      diagnostic.Says ("list name '" ++ String.ofList header.name.value ++
        "' must start with an uppercase letter") ["list declared here"]
  | .fileNameMismatch header stem =>
    diagnostic.Cites "E201" header.span [] ∧
      diagnostic.Says ("list name '" ++ String.ofList header.name.value ++
        "' must match the file name '" ++ String.ofList stem ++ "'") ["list declared here"]
  | .missingName header =>
    diagnostic.Cites "E202" header.span [] ∧
      diagnostic.Says
        ("shape of type '" ++ String.ofList header.kind.value ++ "' is missing a name")
        ["shape declared here"]
  | .reservedName header name =>
    diagnostic.Cites "E203" header.span [] ∧
      diagnostic.Says ("shape name '" ++ String.ofList name ++ "' is reserved")
        ["shape declared here"]
  | .lowercaseName header name =>
    diagnostic.Cites "E204" header.span [] ∧
      diagnostic.Says
        ("shape name '" ++ String.ofList name ++ "' must start with an uppercase letter")
        ["shape declared here"]
  | .duplicateName header name first =>
    diagnostic.Cites "E205" header.span [first] ∧
      diagnostic.Says ("duplicate shape name '" ++ String.ofList name ++ "'")
        ["duplicate name", "first declared here"]
  | .malformedParameter piece =>
    diagnostic.Cites "E300" piece.span [] ∧
      diagnostic.Says
        ("invalid parameter '" ++ String.ofList piece.value ++ "', expected 'key:value'")
        ["expected 'key:value'"]
  | .invalidKey key =>
    diagnostic.Cites "E300" key.span [] ∧
      diagnostic.Says ("invalid parameter name '" ++ String.ofList key.value ++ "'")
        ["expected an identifier"]
  | .invalidValue key value =>
    diagnostic.Cites "E301" value.span [] ∧
      diagnostic.Says ("invalid value for parameter '" ++ String.ofList key ++ "': '" ++
        String.ofList value.value ++ "'") ["not a number or quoted string"]

end Diagnostic

/-- A violation is described by its diagnostic. -/
theorem Violation.describes (violation : Violation) : violation.diagnostic.Describes violation := by
  cases violation <;> exact ⟨⟨rfl, rfl, rfl⟩, rfl, rfl⟩

/-- Locating a diagnostic changes nothing of what it says. -/
theorem Diagnostic.Describes.locate {diagnostic : Diagnostic} {violation : Violation}
    (h : diagnostic.Describes violation) (table : LineTable) :
    (diagnostic.locate table).Describes violation := by
  cases violation <;> exact ⟨⟨h.1.severity, h.1.code, h.1.places⟩, h.2.message, h.2.remarks⟩

end SceneScript
