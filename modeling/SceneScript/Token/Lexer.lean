import SceneScript.Source.Span
import SceneScript.Text.Blank
import SceneScript.Text.Identifier
import SceneScript.Token.Basic

/-! # Splitting a text into tokens

`lexeme` reads the token at the front of a text that is not empty. Each form is tried in turn, and
the last one takes any single character, so that no character is ever skipped. A lexeme says how
many characters it takes after the first: a token is never empty, and the tokens lie end to end by
construction.
-/

namespace SceneScript

/-- A token at the front of a text, with the number of characters it takes after the first. -/
structure Lexeme where
  token : Token
  tail : Nat
  deriving DecidableEq, Repr

namespace Lexeme

/-- A comment runs from two slashes to the end of the line. -/
def comment? (c : Char) (rest : Text) : Option Lexeme :=
  match rest with
  | [] => none
  | d :: body =>
    if c = '/' ∧ d = '/' then
      let line := body.takeWhile (· ≠ '\n')
      some ⟨.comment line, line.length + 1⟩
    else
      none

/-- Whether `c` is a quote of either kind. -/
def isQuote (c : Char) : Bool :=
  c = '"' || c = '\''

/-- A quoted text ends at the next quote of the same kind on the line; nothing is escaped. -/
def quoted? (c : Char) (rest : Text) : Option Lexeme :=
  if isQuote c then
    let content := rest.takeWhile fun d => d ≠ c && d ≠ '\n'
    if (rest.drop content.length).head? = some c then
      some ⟨.quoted content, content.length + 1⟩
    else
      none
  else
    none

/-- The number of characters of `.digits` at the front of a text, zero when it is not there. -/
def fractionLength : Text → Nat
  | [] => 0
  | c :: rest =>
    let digits := (rest.takeWhile isDigit).length
    if c = '.' ∧ digits ≠ 0 then digits + 1 else 0

/-- The number of characters of a number at the front of a text: a minus sign or none, digits, and
a fraction when one follows. What a word character follows is no number. -/
def numberLength? (text : Text) : Option Nat :=
  let sign := if text.head? = some '-' then 1 else 0
  let whole := ((text.drop sign).takeWhile isDigit).length
  let length := sign + whole + fractionLength (text.drop (sign + whole))
  if whole = 0 then none
  else if (text.drop length).head?.any isWordChar then none
  else some length

/-- A number such as `7`, `-12` or `3.25`. -/
def number? (c : Char) (rest : Text) : Option Lexeme :=
  (numberLength? (c :: rest)).map fun length =>
    ⟨.number ((c :: rest).take length), length - 1⟩

/-- A word takes all word characters that follow. -/
def word? (c : Char) (rest : Text) : Option Lexeme :=
  if isWordStart c then
    let tail := rest.takeWhile isWordChar
    some ⟨.ofWord (c :: tail), tail.length⟩
  else
    none

/-- The token of a character that always stands for itself. -/
def punctuation? (c : Char) : Option Token :=
  if c = '(' then some .leftParen
  else if c = ')' then some .rightParen
  else if c = '{' then some .leftBrace
  else if c = '}' then some .rightBrace
  else if c = ':' then some .colon
  else if c = ';' then some .semicolon
  else if c = ',' then some .comma
  else none

/-- A newline, or white space up to the next newline. -/
def blank? (c : Char) (rest : Text) : Option Lexeme :=
  if c = '\n' then some ⟨.newline, 0⟩
  else if isBlank c then some ⟨.space, (rest.takeWhile fun d => isBlank d && d ≠ '\n').length⟩
  else none

/-- Whether `c` may stand in a run of free text. -/
def isRunChar (c : Char) : Bool :=
  !isBlank c && (punctuation? c).isNone && !isQuote c

/-- A run of free text. -/
def run? (c : Char) (rest : Text) : Option Lexeme :=
  if isRunChar c then
    let tail := rest.takeWhile isRunChar
    some ⟨.run (c :: tail), tail.length⟩
  else
    none

/-- A run of one character, whichever it is: a quote that opens nothing. -/
def stray? (text : Text) : Option Lexeme :=
  text.head?.map fun c => ⟨.run [c], 0⟩

/-- The first of the forms that stand at the front of `c :: rest`. A comment is sought only when
`lineStart` says that nothing but white space precedes it on its line. -/
def read? (lineStart : Bool) (c : Char) (rest : Text) : Option Lexeme :=
  (if lineStart then comment? c rest else none)
    <|> quoted? c rest
    <|> number? c rest
    <|> word? c rest
    <|> (punctuation? c).map (⟨·, 0⟩)
    <|> blank? c rest
    <|> run? c rest
    <|> stray? (c :: rest)

end Lexeme

/-- The token at the front of `c :: rest`. A character that no form takes would be skipped as free
text. -/
def lexeme (lineStart : Bool) (c : Char) (rest : Text) : Lexeme :=
  (Lexeme.read? lineStart c rest).getD ⟨.run [c], 0⟩

/-- Whether only white space precedes what follows this token on its line. -/
def Token.lineStartAfter (lineStart : Bool) : Token → Bool
  | .newline => true
  | .space => lineStart
  | _ => false

/-- The tokens of a text that begins at `offset`. -/
def lexFrom (lineStart : Bool) (offset : Nat) : Text → List (Spanned Token)
  | [] => []
  | c :: rest =>
    let found := lexeme lineStart c rest
    let stop := offset + Text.byteLength (c :: rest.take found.tail)
    ⟨found.token, ⟨offset, stop, Nat.le_add_right ..⟩⟩ ::
      lexFrom (found.token.lineStartAfter lineStart) stop (rest.drop found.tail)
termination_by text => text.length
decreasing_by simp only [List.length_drop, List.length_cons]; omega

/-- The tokens of a text. -/
def tokenize (source : Text) : List (Spanned Token) :=
  lexFrom true 0 source

/-- The tokens of a text that starts in the middle of a line, where two slashes open no comment. -/
def tokenizeInline (source : Text) : List (Spanned Token) :=
  lexFrom false 0 source

/-- The tokens that carry structure. -/
def significantTokens (source : Text) : List (Spanned Token) :=
  (tokenize source).filter fun token => !token.value.isTrivia

end SceneScript
