import SceneScript.Diagnostic.Code
import SceneScript.Source.Position

/-! # Diagnostics

A diagnostic is built up from its message, and then located once against the source. Its position
is where its first primary label starts, or the start of the source when it has none.
-/

namespace SceneScript

/-- A remark on a span of the source. The primary one says where the problem is. -/
structure Label where
  span : Span
  message : String
  isPrimary : Bool
  deriving DecidableEq, Repr

/-- An error or a warning about a source. -/
structure Diagnostic where
  severity : Severity
  code : Option Code
  message : String
  labels : List Label
  help : Option String
  position : Position
  deriving DecidableEq, Repr

namespace Diagnostic

/-- A diagnostic with nothing but its message. -/
def ofMessage (severity : Severity) (message : String) : Diagnostic :=
  ⟨severity, none, message, [], none, Position.start⟩

/-- The diagnostic under a code. -/
def withCode (diagnostic : Diagnostic) (code : Code) : Diagnostic :=
  { diagnostic with code := some code }

/-- The diagnostic with one more label, which marks the problem. -/
def withPrimary (diagnostic : Diagnostic) (span : Span) (message : String) : Diagnostic :=
  { diagnostic with labels := diagnostic.labels ++ [⟨span, message, true⟩] }

/-- The diagnostic with one more label, which adds context. -/
def withSecondary (diagnostic : Diagnostic) (span : Span) (message : String) : Diagnostic :=
  { diagnostic with labels := diagnostic.labels ++ [⟨span, message, false⟩] }

/-- The diagnostic with a hint. -/
def withHelp (diagnostic : Diagnostic) (help : String) : Diagnostic :=
  { diagnostic with help := some help }

/-- The span of the first primary label. -/
def primarySpan? (diagnostic : Diagnostic) : Option Span :=
  (diagnostic.labels.find? (·.isPrimary)).map (·.span)

/-- The diagnostic with its line and column in a source. -/
def locate (diagnostic : Diagnostic) (table : LineTable) : Diagnostic :=
  { diagnostic with
    position := table.position ((diagnostic.primarySpan?.map (·.start)).getD 0) }

/-- The severity, the code if there is one, and the message. -/
def headline (diagnostic : Diagnostic) : String :=
  let code := match diagnostic.code with
    | some code => "[" ++ toString code ++ "]"
    | none => ""
  toString diagnostic.severity ++ code ++ ": " ++ diagnostic.message

end Diagnostic

end SceneScript
