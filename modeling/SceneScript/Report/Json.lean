import SceneScript.Decimal.Layout

/-! # JSON

A JSON value and its indented text. Members keep their order, and numbers that are not whole are
doubles.
-/

namespace SceneScript

/-- A JSON value. -/
inductive Json where
  | null
  | bool (b : Bool)
  | integer (n : Int)
  | decimal (x : Float)
  | string (text : Text)
  | array (items : List Json)
  | object (members : List (Text × Json))

namespace Json

/-- A hexadecimal digit, in lower case. -/
def hexDigit (n : Nat) : Char :=
  Nat.digitChar n

/-- A character inside a string: quotes, backslashes and control characters are escaped, all else
stands for itself. -/
def escape (c : Char) : Text :=
  if c = '"' then ['\\', '"']
  else if c = '\\' then ['\\', '\\']
  else if c = '\x08' then ['\\', 'b']
  else if c = '\x0c' then ['\\', 'f']
  else if c = '\n' then ['\\', 'n']
  else if c = '\r' then ['\\', 'r']
  else if c = '\t' then ['\\', 't']
  else if c.toNat < 0x20 then
    ['\\', 'u', '0', '0', hexDigit (c.toNat / 16), hexDigit (c.toNat % 16)]
  else [c]

/-- A text in quotes. -/
def quote (text : Text) : Text :=
  '"' :: (text.flatMap escape ++ ['"'])

/-- The start of a line at some depth. -/
def lineStart (depth : Nat) : Text :=
  '\n' :: List.replicate (2 * depth) ' '

mutual

/-- The text of a value that starts at some depth: every item and member has a line of its own. -/
def pretty (depth : Nat) : Json → Text
  | null => ['n', 'u', 'l', 'l']
  | bool true => ['t', 'r', 'u', 'e']
  | bool false => ['f', 'a', 'l', 's', 'e']
  | integer n => Decimal.ofInt n
  | decimal x => Decimal.Layout.json.write x
  | string text => quote text
  | array items =>
    if items.isEmpty then ['[', ']']
    else '[' :: (prettyItems (depth + 1) true items ++ lineStart depth ++ [']'])
  | object members =>
    if members.isEmpty then ['{', '}']
    else '{' :: (prettyMembers (depth + 1) true members ++ lineStart depth ++ ['}'])

/-- The items of an array, with a comma before each but the first. -/
def prettyItems (depth : Nat) (first : Bool) : List Json → Text
  | [] => []
  | item :: rest =>
    (if first then [] else [',']) ++ lineStart depth ++ pretty depth item ++
      prettyItems depth false rest

/-- The members of an object, with a comma before each but the first. -/
def prettyMembers (depth : Nat) (first : Bool) : List (Text × Json) → Text
  | [] => []
  | member :: rest =>
    (if first then [] else [',']) ++ lineStart depth ++ prettyMember depth member ++
      prettyMembers depth false rest

/-- A member: its key, a colon and its value. -/
def prettyMember (depth : Nat) : Text × Json → Text
  | (key, value) => quote key ++ ':' :: ' ' :: pretty depth value

end

end Json

end SceneScript
