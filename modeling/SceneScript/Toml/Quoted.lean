import SceneScript.Toml.Scalar

/-! # Quoted strings

Strings in one or three quotes. Between double quotes a backslash starts an escape; between single
quotes every character stands for itself. Control characters other than the tab are refused.
-/

namespace SceneScript.Toml.Quoted

/-- Whether `c` may stand in a string or a comment as it is. -/
def isPlain (c : Char) : Bool :=
  c = '\t' || (0x20 ≤ c.toNat && c.toNat ≠ 0x7F)

/-- The character of this many hexadecimal digits. -/
def hexEscape? (count : Nat) (text : Text) : Option (Char × Nat) :=
  let digits := text.take count
  let n := digits.foldl (fun value c => 16 * value + Number.digitValue c) 0
  if digits.length = count ∧ digits.all (Number.isDigitOf 16) ∧ n.isValidChar then
    some (Char.ofNat n, count + 1)
  else
    none

/-- The character that an escape stands for, and how many characters it takes after the
backslash. -/
def escape? : Text → Option (Char × Nat)
  | [] => none
  | c :: rest =>
    if c = '"' ∨ c = '\\' then some (c, 1)
    else if c = 'b' then some ('\x08', 1)
    else if c = 't' then some ('\t', 1)
    else if c = 'n' then some ('\n', 1)
    else if c = 'f' then some ('\x0c', 1)
    else if c = 'r' then some ('\r', 1)
    else if c = 'e' then some ('\x1b', 1)
    else if c = 'x' then hexEscape? 2 rest
    else if c = 'u' then hexEscape? 4 rest
    else if c = 'U' then hexEscape? 8 rest
    else none

/-- What follows a newline. -/
def afterNewline? : Text → Option Text
  | '\n' :: rest => some rest
  | '\r' :: '\n' :: rest => some rest
  | _ => none

/-- The number of characters that are blanks or newlines at the front of a text. -/
def voidLength : Text → Nat
  | [] => 0
  | c :: rest =>
    if c = ' ' ∨ c = '\t' ∨ c = '\n' ∨ (c = '\r' ∧ rest.head? = some '\n') then voidLength rest + 1
    else 0

/-- The number of characters that a backslash at the end of a line swallows: the blanks and newlines
after it. -/
def lineEscape? (text : Text) : Option Nat :=
  if (afterNewline? (text.dropWhile fun c => c = ' ' || c = '\t')).isSome then
    some (voidLength text)
  else
    none

/-- The text with one more character in front of what was read. -/
def push (c : Char) (read : Option (Text × Text)) : Option (Text × Text) :=
  read.map fun (text, rest) => (c :: text, rest)

/-- What stands before the double quote that ends a string, and what follows it. -/
def basic : Text → Option (Text × Text)
  | [] => none
  | c :: rest =>
    if c = '"' then some ([], rest)
    else if c = '\\' then
      match escape? rest with
      | some (escaped, length) => push escaped (basic (rest.drop length))
      | none => none
    else if isPlain c then push c (basic rest)
    else none
termination_by text => text.length
decreasing_by all_goals simp only [List.length_drop, List.length_cons]; omega

/-- What stands before the single quote that ends a string, and what follows it. -/
def literal : Text → Option (Text × Text)
  | [] => none
  | c :: rest =>
    if c = '\'' then some ([], rest)
    else if isPlain c then push c (literal rest)
    else none

/-- The end of a string in three quotes: of the quotes in a row there, up to two more belong to the
string. -/
def closing? (quote : Char) (text : Text) : Option (Text × Text) :=
  let quotes := min (text.takeWhile (· = quote)).length 5
  if 3 ≤ quotes then some (List.replicate (quotes - 3) quote, text.drop quotes) else none

/-- What stands before the three quotes that end a string of several lines. -/
def lines (quote : Char) (escapes : Bool) : Text → Option (Text × Text)
  | [] => none
  | c :: rest =>
    match closing? quote (c :: rest) with
    | some ending => some ending
    | none =>
      if c = '\\' ∧ escapes then
        match lineEscape? rest with
        | some length => lines quote escapes (rest.drop length)
        | none =>
          match escape? rest with
          | some (escaped, length) => push escaped (lines quote escapes (rest.drop length))
          | none => none
      else if isPlain c || c = '\n' || (c = '\r' && rest.head? = some '\n') then
        push c (lines quote escapes rest)
      else none
termination_by text => text.length
decreasing_by all_goals simp only [List.length_drop, List.length_cons]; omega

/-- A string of any kind. A newline just after three opening quotes is left out. -/
def read : Reader Text := fun text =>
  match text with
  | '"' :: '"' :: '"' :: rest => lines '"' true ((afterNewline? rest).getD rest)
  | '\'' :: '\'' :: '\'' :: rest => lines '\'' false ((afterNewline? rest).getD rest)
  | _ =>
    match text with
    | '"' :: rest => basic rest
    | '\'' :: rest => literal rest
    | _ => none

/-- A string on one line. -/
def readOneLine : Reader Text := fun text =>
  match text with
  | '"' :: rest => basic rest
  | '\'' :: rest => literal rest
  | _ => none

end SceneScript.Toml.Quoted
