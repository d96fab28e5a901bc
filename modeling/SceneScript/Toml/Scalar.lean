import SceneScript.Toml.Value

/-! # Scalars without quotes

Booleans, numbers, dates and times. They go on up to the next blank, bracket, brace, comma, equals
sign or comment, and are told apart by their whole text.
-/

namespace SceneScript.Toml

/-- A reader takes a value from the front of a text and gives what follows it. -/
abbrev Reader (α : Type) := Text → Option (α × Text)

namespace Scalar

/-- Whether `c` ends a scalar without quotes. -/
def isDelimiter (c : Char) : Bool :=
  c = '=' || c = ',' || c = '[' || c = ']' || c = '{' || c = '}' || c = '#' ||
    c = ' ' || c = '\t' || c = '\r' || c = '\n'

/-- The scalar at the front of a text. -/
def scalarAt (text : Text) : Text :=
  text.takeWhile fun c => !isDelimiter c

/-! ## Dates and times -/

/-- A number of exactly `count` digits, of at most `limit`. -/
def fixedDigits? (count limit : Nat) : Reader Nat := fun text =>
  let digits := text.take count
  if digits.length = count ∧ digits.all isDigit ∧ Decimal.value digits ≤ limit then
    some (Decimal.value digits, text.drop count)
  else
    none

/-- What follows a certain character. -/
def afterChar? (c : Char) : Text → Option Text
  | [] => none
  | d :: rest => if d = c then some rest else none

/-- The number of days of a month. -/
def daysOfMonth (year month : Nat) : Nat :=
  if month = 2 then
    if year % 4 = 0 ∧ (year % 100 ≠ 0 ∨ year % 400 = 0) then 29 else 28
  else if month = 4 ∨ month = 6 ∨ month = 9 ∨ month = 11 then 30
  else 31

/-- What follows a date. -/
def afterDate? (text : Text) : Option Text := do
  let (year, rest) ← fixedDigits? 4 9999 text
  let rest ← afterChar? '-' rest
  let (month, rest) ← fixedDigits? 2 12 rest
  let rest ← afterChar? '-' rest
  let (day, rest) ← fixedDigits? 2 (daysOfMonth year month) rest
  if month = 0 ∨ day = 0 then none else some rest

/-- What follows a time of day. The seconds may be left out. -/
def afterTime? (text : Text) : Option Text := do
  let (_, rest) ← fixedDigits? 2 23 text
  let rest ← afterChar? ':' rest
  let (_, rest) ← fixedDigits? 2 59 rest
  match afterChar? ':' rest with
  | none => return rest
  | some rest => do
    let (_, rest) ← fixedDigits? 2 60 rest
    match afterChar? '.' rest with
    | none => return rest
    | some fraction =>
      if (fraction.head?.any isDigit) then return fraction.dropWhile isDigit else none

/-- What follows an offset from universal time. -/
def afterOffset? : Text → Option Text
  | [] => none
  | c :: rest =>
    if c = 'Z' ∨ c = 'z' then some rest
    else if c = '+' ∨ c = '-' then do
      let (_, rest) ← fixedDigits? 2 23 rest
      let rest ← afterChar? ':' rest
      let (_, rest) ← fixedDigits? 2 59 rest
      return rest
    else none

/-- Whether the text is a time of day, a date, or both, with an offset or without. -/
def isDateTime (text : Text) : Bool :=
  match afterDate? text with
  | none => afterTime? text = some []
  | some [] => true
  | some (separator :: rest) =>
    (separator = 'T' || separator = 't' || separator = ' ') &&
      match afterTime? rest with
      | none => false
      | some [] => true
      | some offset => afterOffset? offset = some []

/-! ## Reading -/

/-- The value that a scalar without quotes stands for. -/
def ofText? (text : Text) : Option Value :=
  if text = ['t', 'r', 'u', 'e'] then some (.boolean true)
  else if text = ['f', 'a', 'l', 's', 'e'] then some (.boolean false)
  else if Number.isLiteral text then some (.number text)
  else if isDateTime text then some (.dateTime text)
  else none

/-- A scalar without quotes. Between a date and a time there may be a blank. -/
def read : Reader Value := fun text =>
  let first := scalarAt text
  let rest := text.drop first.length
  let second := if afterDate? first = some [] ∧ rest.head? = some ' ' then
      scalarAt (rest.drop 1)
    else []
  if second.isEmpty then (ofText? first).map (·, rest)
  else (ofText? (first ++ ' ' :: second)).map (·, rest.drop (second.length + 1))

end Scalar

end SceneScript.Toml
