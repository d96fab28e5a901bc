import SceneScript.Toml.Quoted

/-! # TOML documents

A document is a sequence of expressions, one a line: a pair of key and value, the header of a table,
or the header of an element of an array of tables. Reading it gives the members of its root table.
-/

namespace SceneScript.Toml

/-- The text after spaces and tabs. -/
def skipBlanks (text : Text) : Text :=
  text.dropWhile fun c => c = ' ' || c = '\t'

/-- The text after spaces, tabs, newlines and comments. -/
def skipVoid : Text → Text
  | [] => []
  | c :: rest =>
    if c = ' ' ∨ c = '\t' ∨ c = '\n' ∨ (c = '\r' ∧ rest.head? = some '\n') then skipVoid rest
    else if c = '#' then skipVoid (rest.dropWhile Quoted.isPlain)
    else c :: rest
termination_by text => text.length
decreasing_by
  · simp
  · have := (rest.dropWhile_sublist Quoted.isPlain).length_le
    simp only [List.length_cons]
    omega

/-! ## Keys -/

/-- Whether `c` may stand in a key without quotes. -/
def isKeyChar (c : Char) : Bool :=
  c.isAlphanum || c = '_' || c = '-'

/-- A key with quotes or without. -/
def readKey : Reader Text := fun text =>
  let key := text.takeWhile isKeyChar
  if key.isEmpty then Quoted.readOneLine text else some (key, text.drop key.length)

/-- Keys with dots between them, and blanks around the dots. -/
def readPath (text : Text) : Option (List Text × Text) :=
  match readKey (skipBlanks text) with
  | none => none
  | some (key, after) =>
    match skipBlanks after with
    | [] => some ([key], [])
    | c :: rest =>
      if c = '.' then
        if _h : rest.length < text.length then
          (readPath rest).map fun (keys, last) => (key :: keys, last)
        else none
      else some ([key], c :: rest)
termination_by text.length

/-! ## Values -/

/-- Items with commas between them, up to the closing character. A comma may follow the last one. -/
def readItems {α : Type} (item : Reader α) (close : Char) (text : Text) :
    Option (List α × Text) :=
  let start := skipVoid text
  if start.head? = some close then some ([], start.drop 1)
  else
    match item start with
    | none => none
    | some (value, after) =>
      match skipVoid after with
      | [] => none
      | c :: rest =>
        if c = close then some ([value], rest)
        else if c = ',' then
          if _h : rest.length < text.length then
            (readItems item close rest).map fun (values, last) => (value :: values, last)
          else none
        else none
termination_by text.length

/-- A key, an equals sign and a value, with what `skip` passes over on either side of the sign. -/
def readPair (skip : Text → Text) (value : Reader Value) :
    Reader (List Text × Value) := fun text => do
  let (path, rest) ← readPath text
  let rest ← Scalar.afterChar? '=' (skip rest)
  let (value, rest) ← value (skip rest)
  return ((path, value), rest)

/-- A value with at most `depth` brackets and braces around one another. Between braces a pair may
go on over several lines, but its key may not. -/
def readValue (depth : Nat) : Reader Value := fun text =>
  match text with
  | [] => none
  | c :: rest =>
    if c = '"' ∨ c = '\'' then (Quoted.read text).map fun (string, last) => (.string string, last)
    else if c = '[' then
      match depth with
      | 0 => none
      | depth + 1 =>
        (readItems (readValue depth) ']' rest).map fun (items, last) => (.array false items, last)
    else if c = '{' then
      match depth with
      | 0 => none
      | depth + 1 => do
        let (pairs, last) ← readItems (readPair skipVoid (readValue depth)) '}' rest
        let members ← Members.ofPairs pairs
        return (.table .inline members, last)
    else Scalar.read text

/-- How many brackets and braces may stand around one another. -/
def depthLimit : Nat := 80

/-! ## Expressions -/

/-- An expression of a document. -/
inductive Expression where
  | pair (path : List Text) (value : Value)
  | header (path : List Text)
  | element (path : List Text)

/-- An expression. -/
def readExpression : Reader Expression := fun text =>
  match text with
  | '[' :: '[' :: rest => do
    let (path, rest) ← readPath rest
    let rest ← Scalar.afterChar? ']' rest
    let rest ← Scalar.afterChar? ']' rest
    return (.element path, rest)
  | '[' :: rest => do
    let (path, rest) ← readPath rest
    let rest ← Scalar.afterChar? ']' rest
    return (.header path, rest)
  | _ => do
    let ((path, value), rest) ← readPair skipBlanks (readValue depthLimit) text
    return (.pair path value, rest)

/-- What follows the end of a line: blanks, a comment or none, and a newline or the end. -/
def afterLine? (text : Text) : Option Text :=
  let rest := match skipBlanks text with
    | '#' :: comment => comment.dropWhile Quoted.isPlain
    | rest => rest
  if rest.isEmpty then some [] else Quoted.afterNewline? rest

/-- The expressions of a document. -/
def readExpressions (text : Text) : Option (List Expression) :=
  let start := skipVoid text
  if start.isEmpty then some []
  else
    match readExpression start with
    | none => none
    | some (expression, after) =>
      match afterLine? after with
      | none => none
      | some rest =>
        if _h : rest.length < text.length then
          (readExpressions rest).map (expression :: ·)
        else none
termination_by text.length

/-- The root table so far, and the path of the table that pairs are added to. -/
structure Builder where
  root : Members
  here : List Text

/-- Adds what an expression says. -/
def Builder.add (builder : Builder) : Expression → Option Builder
  | .pair path value =>
    (Members.modify false (Members.addPair path value) builder.here builder.root).map
      fun root => { builder with root := root }
  | .header path => do
    let key ← path.getLast?
    let root ← Members.modify false (Members.addTable key) path.dropLast builder.root
    return ⟨root, path⟩
  | .element path => do
    let key ← path.getLast?
    let root ← Members.modify false (Members.addElement key) path.dropLast builder.root
    return ⟨root, path⟩

/-- The members of the root table of a document. A byte order mark in front of it is skipped. -/
def read (text : Text) : Option Members := do
  let text := if text.head? = some '\uFEFF' then text.drop 1 else text
  let expressions ← readExpressions text
  let builder ← expressions.foldlM Builder.add ⟨[], []⟩
  return builder.root

end SceneScript.Toml
