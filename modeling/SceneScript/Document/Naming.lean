import SceneScript.Document.Violation
import SceneScript.Path

/-! # Naming rules

The list is called as its file is, and shapes have distinct names. `Naming` remembers the shape
names that were accepted so far. The rules are tried in a fixed order, and the first broken one is
reported.
-/

namespace SceneScript

/-- The name that the list must have, if a file was named, and the accepted shape names with the
headers that took them. -/
structure Naming where
  stem : Option Text
  accepted : List (Text × Span)
  deriving DecidableEq, Repr

namespace Naming

/-- No names yet. -/
def ofFileName (fileName : Option Text) : Naming :=
  ⟨fileName.map Path.stem, []⟩

/-- Whether the name starts with one of `A` to `Z`. -/
def startsUppercase : Text → Bool
  | [] => false
  | c :: _ => 'A' ≤ c && c ≤ 'Z'

/-- Whether the name is `list` in any mix of ASCII cases. -/
def isReserved (name : Text) : Bool :=
  name.map Char.toLower = ['l', 'i', 's', 't']

/-- Checks the name of the list. -/
def checkList (naming : Naming) (header : ListHeader) : Except Violation Unit :=
  if !startsUppercase header.name.value then .error (.lowercaseList header)
  else
    match naming.stem with
    | none => .ok ()
    | some stem =>
      if stem = header.name.value then .ok () else .error (.fileNameMismatch header stem)

/-- Checks the name of a shape, and remembers it when every rule holds. -/
def acceptShape (naming : Naming) (header : ShapeHeader) : Except Violation Naming :=
  match header.name with
  | none => .error (.missingName header)
  | some name =>
    if isReserved name.value then .error (.reservedName header name.value)
    else if !startsUppercase name.value then .error (.lowercaseName header name.value)
    else
      match naming.accepted.lookup name.value with
      | some first => .error (.duplicateName header name.value first)
      | none => .ok { naming with accepted := (name.value, header.span) :: naming.accepted }

/-- The header of a declaration whose name is checked. -/
inductive Step where
  | list (header : ListHeader)
  | shape (header : ShapeHeader)
  deriving DecidableEq, Repr

/-- The outcome of one check, and what is remembered after it. A failed check leaves no trace. -/
def check (naming : Naming) : Step → Except Violation Unit × Naming
  | .list header => (naming.checkList header, naming)
  | .shape header =>
    match naming.acceptShape header with
    | .ok next => (.ok (), next)
    | .error violation => (.error violation, naming)

/-- The outcomes of a sequence of checks that goes on after failures. -/
def checkAll (naming : Naming) : List Step → List (Except Violation Unit)
  | [] => []
  | step :: steps =>
    let (outcome, next) := naming.check step
    outcome :: next.checkAll steps

end Naming

end SceneScript
