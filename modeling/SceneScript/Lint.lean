import SceneScript.Diagnostic.Basic
import SceneScript.Text.Blank
import SceneScript.Text.Identifier

/-! # Line lint

Every line is looked at on its own, and every finding is reported: a text that is being written is
rarely complete enough to be parsed. Blank lines and comment lines are skipped.
-/

namespace SceneScript

/-- Something odd about a line. -/
inductive Finding where
  /-- A `Create` line does not end with a brace; `last` is its last character. -/
  | createWithoutBrace (last : Span)
  /-- A `Style` line holds no brace; `last` is its last character. -/
  | styleWithoutBrace (last : Span)
  /-- The trimmed line is no instruction. -/
  | unknownInstruction (line : Spanned Text)
  deriving DecidableEq, Repr

/-- The finding as a warning that is not yet located. -/
def Finding.diagnostic : Finding → Diagnostic
  | .createWithoutBrace last =>
    ((Diagnostic.ofMessage .warning "expected '\x7b' at the end of a Create line").withCode
      .createWithoutBrace).withPrimary last "line should end with '\x7b'"
  | .styleWithoutBrace last =>
    ((Diagnostic.ofMessage .warning "missing '\x7b' after Style").withCode
      .styleWithoutBrace).withPrimary last "expected 'Style \x7b ... \x7d'"
  | .unknownInstruction line =>
    ((Diagnostic.ofMessage .warning
      ("unknown instruction: " ++ String.ofList line.value)).withCode
      .unknownInstruction).withPrimary line.span "not an SLC instruction"

namespace Lint

def createWord : Text := ['C', 'r', 'e', 'a', 't', 'e']

def styleWord : Text := ['S', 't', 'y', 'l', 'e']

/-- Whether the text starts with white space and then a word character. -/
def startsArgument (text : Text) : Bool :=
  text.head?.any isBlank && (Text.trimStart text).head?.any isWordChar

/-- Whether `Create` occurs with white space and a word character after it. -/
def hasCreateCommand : Text → Bool
  | [] => false
  | c :: rest =>
    (createWord.isPrefixOf (c :: rest) && startsArgument ((c :: rest).drop createWord.length)) ||
      hasCreateCommand rest

/-- Whether the trimmed line starts as an instruction does. -/
def startsInstruction (line : Text) : Bool :=
  createWord.isPrefixOf line || styleWord.isPrefixOf line ||
    line.head? = some '{' || line.head? = some '}'

/-- The place of the last character of a line that starts at `offset`. -/
def lastCharacter (line : Text) (offset : Nat) : Span :=
  let stop := offset + Text.byteLength line
  ⟨stop - (line.getLast?.map Char.utf8Size).getD 0, stop, Nat.sub_le ..⟩

/-- The findings about a line that starts at `start`. -/
def checkLine (start : Nat) (raw : Text) : List Finding :=
  let offset := start + Text.leadingBlank raw
  let line := Text.trim raw
  if line = [] ∨ ['/', '/'].isPrefixOf line then []
  else
    (if hasCreateCommand line ∧ line.getLast? ≠ some '{' then
      [.createWithoutBrace (lastCharacter line offset)] else []) ++
    (if styleWord.isPrefixOf line ∧ '{' ∉ line then
      [.styleWithoutBrace (lastCharacter line offset)] else []) ++
    (if !startsInstruction line ∧ ':' ∉ line ∧ line.getLast? ≠ some '}' then
      [.unknownInstruction
        ⟨line, ⟨offset, offset + Text.byteLength line, Nat.le_add_right ..⟩⟩] else [])

/-- The findings about lines of which the first starts at `start`. -/
def checkLines (start : Nat) : List Text → List Finding
  | [] => []
  | raw :: rest => checkLine start raw ++ checkLines (start + Text.byteLength raw + 1) rest

/-- The findings about a source. -/
def findings (source : Text) : List Finding :=
  checkLines 0 (Text.splitAt '\n' source)

end Lint

/-- The warnings about a source, in the order of its lines. -/
def lint (source : Text) : List Diagnostic :=
  let table := LineTable.ofSource source
  (Lint.findings source).map fun finding => finding.diagnostic.locate table

end SceneScript
