import SceneScript.Scan.Header
import SceneScript.Token.Lexer

/-! # Scanning for headers and style blocks

A cursor is the list of significant tokens that are still ahead. It moves in two ways: to just past
the next header, and to just past the next style block unless a header comes first. Both skip what
they do not recognise, one token at a time, and neither moves back.
-/

namespace SceneScript

/-- The first header at or after the cursor, and the cursor just past it. -/
def nextHeader (source : Text) : Tokens → Option (Header × Tokens)
  | [] => none
  | token :: rest =>
    match Header.match? source (token :: rest) with
    | some found => some found
    | none => nextHeader source rest

/-- The first style block at or after the cursor, and the cursor just past it. When a header or the
end comes first there is no block, and the cursor stands in front of that header or at the end. -/
def findStyle (source : Text) : Tokens → Option StyleBlock × Tokens
  | [] => (none, [])
  | token :: rest =>
    if (Header.match? source (token :: rest)).isSome then (none, token :: rest)
    else
      match StyleBlock.match? source (token :: rest) with
      | some (block, after) => (some block, after)
      | none => findStyle source rest

/-- Finding a header moves the cursor on. -/
theorem length_of_nextHeader {source : Text} {tokens rest : Tokens} {header : Header}
    (h : nextHeader source tokens = some (header, rest)) : rest.length < tokens.length := by
  induction tokens with
  | nil => simp [nextHeader] at h
  | cons token more ih =>
    simp only [nextHeader] at h
    split at h
    next found hfound => exact Header.length_of_match? (hfound.trans h)
    next => exact Nat.lt_succ_of_lt (ih h)

/-- Looking for a style block never moves the cursor back. -/
theorem length_findStyle (source : Text) (tokens : Tokens) :
    (findStyle source tokens).2.length ≤ tokens.length := by
  induction tokens with
  | nil => simp [findStyle]
  | cons token more ih =>
    simp only [findStyle]
    split
    · simp
    · split
      next hfound => exact Nat.le_of_lt (StyleBlock.length_of_match? hfound)
      next => exact Nat.le_succ_of_le ih

/-- One move of a cursor. -/
inductive ScanStep where
  | header
  | style
  deriving DecidableEq, Repr

/-- The answer to one move. -/
inductive ScanAnswer where
  | header (found : Option Header)
  | style (found : Option StyleBlock)
  deriving DecidableEq, Repr

/-- The answer to a move, and where it leaves the cursor. -/
def ScanStep.take (source : Text) (tokens : Tokens) : ScanStep → ScanAnswer × Tokens
  | .header =>
    match nextHeader source tokens with
    | some (found, rest) => (.header (some found), rest)
    | none => (.header none, [])
  | .style =>
    let (block, rest) := findStyle source tokens
    (.style block, rest)

/-- The answers to a sequence of moves of one cursor. -/
def scanSteps (source : Text) : List ScanStep → Tokens → List ScanAnswer
  | [], _ => []
  | step :: steps, tokens =>
    let (answer, rest) := step.take source tokens
    answer :: scanSteps source steps rest

/-- The answers to a sequence of moves over the significant tokens of `source`. -/
def scan (source : Text) (steps : List ScanStep) : List ScanAnswer :=
  scanSteps source steps (significantTokens source)

end SceneScript
