import SceneScript.Diagnostic.Basic
import SceneScript.Scan.Header
import SceneScript.Text.Uppercase

/-! # Violations

The reasons why a scene text has no document. A violation keeps what it is about, and its wording
is written here only: `Violation.diagnostic` gives the message, the labels and the hint.
-/

namespace SceneScript

/-- A broken rule, with the declarations or the text that break it. -/
inductive Violation where
  /-- There is no list header. -/
  | missingList
  /-- There is no shape header. -/
  | noShapes
  /-- No style block follows the shape header before the next header or the end. -/
  | missingStyle (header : ShapeHeader)
  /-- There is a list header after the first one. -/
  | duplicateList (header first : ListHeader)
  | lowercaseList (header : ListHeader)
  /-- The list is not called as the file is. -/
  | fileNameMismatch (header : ListHeader) (stem : Text)
  | missingName (header : ShapeHeader)
  | reservedName (header : ShapeHeader) (name : Text)
  | lowercaseName (header : ShapeHeader) (name : Text)
  /-- A shape with the same name was accepted before, at `first`. -/
  | duplicateName (header : ShapeHeader) (name : Text) (first : Span)
  /-- A piece between two commas has no colon, or nothing before it. -/
  | malformedParameter (piece : Spanned Text)
  | invalidKey (key : Spanned Text)
  | invalidValue (key : Text) (value : Spanned Text)
  deriving DecidableEq, Repr

namespace Violation

/-- The name with its first letter in upper case. -/
def capitalized : Text → Text
  | [] => []
  | c :: rest => uppercase c ++ rest

/-- The rule that is broken. -/
def code : Violation → Code
  | missingList => .missingList
  | noShapes => .noShapes
  | missingStyle _ => .missingStyle
  | duplicateList _ _ => .duplicateList
  | lowercaseList _ => .lowercaseList
  | fileNameMismatch _ _ => .fileNameMismatch
  | missingName _ => .missingName
  | reservedName _ _ => .reservedName
  | lowercaseName _ _ => .lowercaseName
  | duplicateName _ _ _ => .duplicateName
  | malformedParameter _ | invalidKey _ => .malformedParameter
  | invalidValue _ _ => .invalidValue

/-- What is wrong, in words. -/
def message : Violation → String
  | missingList => "expected a 'Create List <Name>() \x7b' declaration"
  | noShapes =>
    "no shapes found; each shape must be 'Create <Type> <Name>(params) \x7b \x7d'"
  | missingStyle header =>
    "missing 'Style \x7b ... \x7d' block after '" ++ String.ofList header.title.value ++ "'"
  | duplicateList header _ =>
    "duplicate List declaration '" ++ String.ofList header.name.value ++ "'"
  | lowercaseList header =>
    "list name '" ++ String.ofList header.name.value ++ "' must start with an uppercase letter"
  | fileNameMismatch header stem =>
    "list name '" ++ String.ofList header.name.value ++ "' must match the file name '" ++
      String.ofList stem ++ "'"
  | missingName header =>
    "shape of type '" ++ String.ofList header.kind.value ++ "' is missing a name"
  | reservedName _ name => "shape name '" ++ String.ofList name ++ "' is reserved"
  | lowercaseName _ name =>
    "shape name '" ++ String.ofList name ++ "' must start with an uppercase letter"
  | duplicateName _ name _ => "duplicate shape name '" ++ String.ofList name ++ "'"
  | malformedParameter piece =>
    "invalid parameter '" ++ String.ofList piece.value ++ "', expected 'key:value'"
  | invalidKey key => "invalid parameter name '" ++ String.ofList key.value ++ "'"
  | invalidValue key value =>
    "invalid value for parameter '" ++ String.ofList key ++ "': '" ++
      String.ofList value.value ++ "'"

/-- The places that the violation is about, the primary one first. -/
def labels : Violation → List Label
  | missingList => [⟨.emptyAt 0, "no list declaration in this file", true⟩]
  | noShapes => [⟨.emptyAt 0, "the list is empty", true⟩]
  | missingStyle header =>
    [⟨.emptyAt header.span.stop, "expected a style block here", true⟩,
     ⟨header.span, "shape declared here", false⟩]
  | duplicateList header first =>
    [⟨header.span, "second list declared here", true⟩, ⟨first.span, "first declared here", false⟩]
  | lowercaseList header | fileNameMismatch header _ =>
    [⟨header.span, "list declared here", true⟩]
  | missingName header | reservedName header _ | lowercaseName header _ =>
    [⟨header.span, "shape declared here", true⟩]
  | duplicateName header _ first =>
    [⟨header.span, "duplicate name", true⟩, ⟨first, "first declared here", false⟩]
  | malformedParameter piece => [⟨piece.span, "expected 'key:value'", true⟩]
  | invalidKey key => [⟨key.span, "expected an identifier", true⟩]
  | invalidValue _ value => [⟨value.span, "not a number or quoted string", true⟩]

/-- How to mend it. -/
def help : Violation → Option String
  | missingList => some "start the file with 'Create List <Name>() \x7b'"
  | noShapes =>
    some ("add a shape such as " ++
      "'Create Square Sq1(x:100, y:100) \x7b Style \x7b color:red; \x7d \x7d'")
  | missingStyle _ => some "add 'Style \x7b color:red; \x7d' inside the shape"
  | duplicateList _ _ => some "a file declares exactly one list"
  | lowercaseList header =>
    some ("rename the list to '" ++ String.ofList (capitalized header.name.value) ++ "'")
  | fileNameMismatch header stem =>
    some ("rename the list to '" ++ String.ofList stem ++ "' or save the file as '" ++
      String.ofList header.name.value ++ ".slc'")
  | missingName header =>
    some ("write 'Create " ++ String.ofList header.kind.value ++ " <Name>(...) \x7b'")
  | reservedName _ _ => some "'List' names the document and cannot name a shape"
  | lowercaseName _ name =>
    some ("rename the shape to '" ++ String.ofList (capitalized name) ++ "'")
  | duplicateName _ _ _ => some "shape names must be unique within a list"
  | malformedParameter _ => none
  | invalidKey _ =>
    some ("parameter names are letters, digits and underscores, like " ++
      "`x` or `stroke_width`")
  | invalidValue _ _ =>
    some ("use an integer like `100`, a decimal like `2.5`, " ++
      "or a quoted string like `\"text\"`")

/-- The violation as an error that is not yet located. -/
def diagnostic (violation : Violation) : Diagnostic :=
  { severity := .error
    code := some violation.code
    message := violation.message
    labels := violation.labels
    help := violation.help
    position := Position.start }

end Violation

end SceneScript
