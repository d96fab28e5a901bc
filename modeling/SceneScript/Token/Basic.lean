import SceneScript.Text.Basic

/-! # Tokens

The words of the scene language. Scene texts are loosely structured, so there is a token for every
piece of text: what is no word, number, quoted text or punctuation is a run of free text.
-/

namespace SceneScript

/-- A piece of source text by its role. -/
inductive Token where
  /-- The keyword that opens a header. -/
  | create
  /-- The keyword that opens a style block. -/
  | style
  | identifier (name : Text)
  | number (literal : Text)
  /-- What stands between two equal quotes on one line. -/
  | quoted (content : Text)
  /-- Free text such as `#ff0000`, or a quote without a partner. -/
  | run (text : Text)
  | leftParen
  | rightParen
  | leftBrace
  | rightBrace
  | colon
  | semicolon
  | comma
  /-- A comment line, without its two slashes. -/
  | comment (body : Text)
  /-- White space other than a newline. -/
  | space
  | newline
  deriving DecidableEq, Repr

namespace Token

/-- Whether the token carries no structure: white space, newlines and comments. -/
def isTrivia : Token → Bool
  | space | newline | comment _ => true
  | _ => false

/-- The token as it is shown: a quoted text in double quotes, white space as one blank. -/
def shown : Token → Text
  | create => ['C', 'r', 'e', 'a', 't', 'e']
  | style => ['S', 't', 'y', 'l', 'e']
  | identifier text | number text | run text => text
  | quoted content => '"' :: (content ++ ['"'])
  | leftParen => ['(']
  | rightParen => [')']
  | leftBrace => ['{']
  | rightBrace => ['}']
  | colon => [':']
  | semicolon => [';']
  | comma => [',']
  | comment body => '/' :: '/' :: body
  | space => [' ']
  | newline => ['\n']

/-- The token of a word: one of the two keywords, or an identifier. -/
def ofWord (word : Text) : Token :=
  if word = ['C', 'r', 'e', 'a', 't', 'e'] then create
  else if word = ['S', 't', 'y', 'l', 'e'] then style
  else identifier word

end Token

end SceneScript
