import SceneScript.Entries
import SceneScript.Text.Blank

/-! # Style entries

A style body is cut at every semicolon into clauses, and a clause at its first colon. A clause
without a key or without a value is dropped, and values stay as they are written. Quotes have no
meaning here.
-/

namespace SceneScript.Style

/-- Whether the line is a comment: two slashes after white space. -/
def isCommentLine (line : Text) : Bool :=
  ['/', '/'].isPrefixOf (Text.trimStart line)

/-- The body without its comment lines. The first line goes on from the opening brace, so that it is
never a comment. -/
def dropCommentLines (body : Text) : Text :=
  match Text.splitAt '\n' body with
  | [] => []
  | first :: lines => Text.join '\n' (first :: lines.filter fun line => !isCommentLine line)

/-- The key and the value of a clause, if it has both. -/
def readClause? (clause : Text) : Option (Text × Text) :=
  match Text.cutAt ':' clause with
  | none => none
  | some (before, after) =>
    let key := Text.trim before
    let value := Text.trim after
    if key = [] ∨ value = [] then none else some (key, value)

/-- The entries of a style body. -/
def read (body : Text) : Entries Text :=
  .ofList ((Text.splitAt ';' (dropCommentLines body)).filterMap readClause?)

end SceneScript.Style
