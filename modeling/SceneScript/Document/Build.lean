import SceneScript.Document.Basic
import SceneScript.Document.Naming
import SceneScript.Document.Parameters
import SceneScript.Document.Style
import SceneScript.Scan.Cursor

/-! # Building a document

One pass over the significant tokens, which stops at the first violation. The list header may stand
anywhere: shapes in front of it are held back, unchecked, until the list itself has been accepted.
-/

namespace SceneScript

/-- A shape header with the style block that was found for it. -/
structure Candidate where
  header : ShapeHeader
  block : Option StyleBlock
  deriving DecidableEq, Repr

/-- The names and the shapes accepted so far. -/
structure Draft where
  naming : Naming
  shapes : List Shape

namespace Draft

/-- Checks the candidate's name, its parameters and its style block, in this order, and adds its
shape at the end. -/
def add (draft : Draft) (candidate : Candidate) : Except Violation Draft :=
  match draft.naming.acceptShape candidate.header with
  | .error violation => .error violation
  | .ok naming =>
    match readParameters candidate.header.params with
    | .error violation => .error violation
    | .ok params =>
      match candidate.block with
      | none => .error (.missingStyle candidate.header)
      | some block =>
        let shape : Shape :=
          { kind := candidate.header.kind.value
            name := (candidate.header.name.map (·.value)).getD []
            params := params
            style := Style.read block.body.value }
        .ok { naming := naming, shapes := draft.shapes ++ [shape] }

/-- Adds candidates one after another. -/
def addAll (draft : Draft) : List Candidate → Except Violation Draft
  | [] => .ok draft
  | candidate :: rest =>
    match draft.add candidate with
    | .error violation => .error violation
    | .ok next => next.addAll rest

/-- Builds the shapes that are still ahead, after the header `list` has been accepted. -/
def finish (source : Text) (list : ListHeader) (draft : Draft) (tokens : Tokens) :
    Except Violation Document :=
  match _found : nextHeader source tokens with
  | none =>
    if draft.shapes.isEmpty then .error .noShapes else .ok ⟨list.name.value, draft.shapes⟩
  | some (.list header, _) => .error (.duplicateList header list)
  | some (.shape header, rest) =>
    match draft.add ⟨header, (findStyle source rest).1⟩ with
    | .error violation => .error violation
    | .ok next => finish source list next (findStyle source rest).2
termination_by tokens.length
decreasing_by exact Nat.lt_of_le_of_lt (length_findStyle source rest) (length_of_nextHeader _found)

/-- Looks for the list header, holding back the shapes in front of it. -/
def start (source : Text) (naming : Naming) (held : List Candidate) (tokens : Tokens) :
    Except Violation Document :=
  match found : nextHeader source tokens with
  | none => .error .missingList
  | some (.list header, rest) =>
    match naming.checkList header with
    | .error violation => .error violation
    | .ok () =>
      match addAll ⟨naming, []⟩ held with
      | .error violation => .error violation
      | .ok draft => finish source header draft rest
  | some (.shape header, rest) =>
    start source naming (held ++ [⟨header, (findStyle source rest).1⟩]) (findStyle source rest).2
termination_by tokens.length
decreasing_by exact Nat.lt_of_le_of_lt (length_findStyle source rest) (length_of_nextHeader found)

end Draft

/-- The document of a source, or the first violation. -/
def build (source : Text) (fileName : Option Text) : Except Violation Document :=
  Draft.start source (.ofFileName fileName) [] (significantTokens source)

/-- The document of a source, or the located diagnostic of the first violation. -/
def parse (source : Text) (fileName : Option Text) : Except Diagnostic Document :=
  match build source fileName with
  | .ok document => .ok document
  | .error violation => .error (violation.diagnostic.locate (.ofSource source))

end SceneScript
