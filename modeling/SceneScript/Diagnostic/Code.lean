/-! # Severities and codes

Every rule of the scene language has a code. Its letter and first digit give the family: structure,
naming, parameters, or the advisory checks of single lines.
-/

namespace SceneScript

/-- How serious a diagnostic is. -/
inductive Severity where
  /-- No document can be built. -/
  | error
  /-- The document may still be valid. -/
  | warning
  deriving DecidableEq, Repr

namespace Severity

/-- The word that a message starts with. -/
protected def toString : Severity → String
  | error => "error"
  | warning => "warning"

instance : ToString Severity :=
  ⟨Severity.toString⟩

end Severity

/-- The families of rules. -/
inductive Category where
  | structural
  | naming
  | parameter
  | lint
  deriving DecidableEq, Repr

namespace Category

/-- The family in words. -/
protected def toString : Category → String
  | structural => "structural error"
  | naming => "naming error"
  | parameter => "parameter error"
  | lint => "lint"

instance : ToString Category :=
  ⟨Category.toString⟩

end Category

/-- The rules that a diagnostic may report. -/
inductive Code where
  | missingList
  | noShapes
  | missingStyle
  | duplicateList
  | lowercaseList
  | fileNameMismatch
  | missingName
  | reservedName
  | lowercaseName
  | duplicateName
  | malformedParameter
  | invalidValue
  | createWithoutBrace
  | styleWithoutBrace
  | unknownInstruction
  deriving DecidableEq, Repr

namespace Code

/-- All codes, family by family. -/
def all : List Code :=
  [missingList, noShapes, missingStyle, duplicateList, lowercaseList, fileNameMismatch,
   missingName, reservedName, lowercaseName, duplicateName, malformedParameter, invalidValue,
   createWithoutBrace, styleWithoutBrace, unknownInstruction]

theorem mem_all (code : Code) : code ∈ all := by
  cases code <;> decide

/-- The code as it is written. -/
protected def toString : Code → String
  | missingList => "E100"
  | noShapes => "E101"
  | missingStyle => "E102"
  | duplicateList => "E103"
  | lowercaseList => "E200"
  | fileNameMismatch => "E201"
  | missingName => "E202"
  | reservedName => "E203"
  | lowercaseName => "E204"
  | duplicateName => "E205"
  | malformedParameter => "E300"
  | invalidValue => "E301"
  | createWithoutBrace => "W001"
  | styleWithoutBrace => "W002"
  | unknownInstruction => "W003"

instance : ToString Code :=
  ⟨Code.toString⟩

/-- The code that is written so. -/
def ofString? (text : String) : Option Code :=
  all.find? fun code => code.toString = text

/-- What the rule reports, in a few words. -/
def description : Code → String
  | missingList => "missing list declaration"
  | noShapes => "no shapes declared"
  | missingStyle => "missing style block"
  | duplicateList => "duplicate list declaration"
  | lowercaseList => "lowercase list name"
  | fileNameMismatch => "list name does not match file name"
  | missingName => "missing shape name"
  | reservedName => "reserved shape name"
  | lowercaseName => "lowercase shape name"
  | duplicateName => "duplicate shape name"
  | malformedParameter => "malformed parameter"
  | invalidValue => "invalid parameter value"
  | createWithoutBrace => "missing '\x7b' after Create"
  | styleWithoutBrace => "missing '\x7b' after Style"
  | unknownInstruction => "unknown instruction"

/-- The family that the rule belongs to. -/
def category : Code → Category
  | missingList | noShapes | missingStyle | duplicateList => .structural
  | lowercaseList | fileNameMismatch | missingName | reservedName | lowercaseName
  | duplicateName => .naming
  | malformedParameter | invalidValue => .parameter
  | createWithoutBrace | styleWithoutBrace | unknownInstruction => .lint

end Code

end SceneScript
