import SceneScript.Document.Violation
import SceneScript.Entries
import SceneScript.Text.Blank
import SceneScript.Token.Lexer
import SceneScript.Value

/-! # Parameters of a shape

The text between the parentheses of a shape header is cut into pieces at its commas and comment
lines, a piece is cut into key and value at its first colon, and blank pieces are skipped. Since the
cuts are made at tokens, a quoted text keeps its commas and colons.
-/

namespace SceneScript

/-- A piece of parameter text: where it starts and stops, and its first colon. -/
structure Piece where
  start : Nat
  stop : Nat
  colon : Option Span
  deriving DecidableEq, Repr

/-- Whether pieces are cut at this token. -/
def Token.isSeparator : Token → Bool
  | .comma | .comment _ => true
  | _ => false

namespace Piece

/-- The pieces from `start` on, of which the tokens are given, in a text of `stop` bytes. The colon
is the first one since `start`, if there was one before these tokens. -/
def cut (stop start : Nat) (colon : Option Span) : Tokens → List Piece
  | [] => [⟨start, stop, colon⟩]
  | token :: rest =>
    if token.value.isSeparator then
      ⟨start, token.span.start, colon⟩ :: cut stop token.span.stop none rest
    else if token.value = .colon then cut stop start (colon <|> some token.span) rest
    else cut stop start colon rest

/-- The pieces of a parameter text. -/
def all (text : Text) : List Piece :=
  cut (Text.byteLength text) 0 none (tokenizeInline text)

/-- The text between two offsets without white space around it, and its place. -/
def trimmed (text : Text) (start stop : Nat) : Spanned Text :=
  let raw := Text.slice text start stop
  let value := Text.trim raw
  let first := start + Text.leadingBlank raw
  ⟨value, ⟨first, first + Text.byteLength value, Nat.le_add_right ..⟩⟩

/-- The key and the value of a piece, or none for a blank one. The places in a violation are moved
right by `base`. -/
def read (text : Text) (base : Nat) (piece : Piece) :
    Except Violation (Option (Text × Value)) :=
  let whole := trimmed text piece.start piece.stop
  if whole.value = [] then .ok none
  else
    match piece.colon with
    | none => .error (.malformedParameter (whole.shift base))
    | some colon =>
      let key := trimmed text piece.start colon.start
      let value := trimmed text colon.stop piece.stop
      if key.value = [] then .error (.malformedParameter (whole.shift base))
      else if !Text.isIdentifier key.value then .error (.invalidKey (key.shift base))
      else
        match Value.read? value.value with
        | some parsed => .ok (some (key.value, parsed))
        | none => .error (.invalidValue key.value (value.shift base))

/-- Reads pieces one after another, up to the first bad one. -/
def readAll (text : Text) (base : Nat) (entries : Entries Value) :
    List Piece → Except Violation (Entries Value)
  | [] => .ok entries
  | piece :: rest =>
    match piece.read text base with
    | .error violation => .error violation
    | .ok none => readAll text base entries rest
    | .ok (some (key, value)) => readAll text base (entries.insert key value) rest

end Piece

/-- The parameters in the text between the parentheses of a header. -/
def readParameters (raw : Spanned Text) : Except Violation (Entries Value) :=
  Piece.readAll raw.value raw.span.start .empty (Piece.all raw.value)

end SceneScript
