import SceneScript.Decimal.Binary64
import SceneScript.Decimal.Layout

/-! # Parameter values

A value is an integer of 64 bits, a decimal number with a point, or a quoted text. The three forms
exclude one another, so a text is read as at most one of them.
-/

namespace SceneScript

/-- The value of a parameter. -/
inductive Value where
  | integer (n : Int)
  | decimal (x : Float)
  | text (content : Text)
  deriving Repr

instance : Inhabited Value :=
  ⟨.integer 0⟩

namespace Value

/-- The integers of 64 bits. -/
def inRange (n : Int) : Bool :=
  -(twoTo 63 : Int) ≤ n && n < (twoTo 63 : Int)

/-- Reads `-?digits`; a number outside the range is no integer. -/
def readInteger? (text : Text) : Option Int :=
  let (negative, digits) := Decimal.cutSign text
  let n : Int := if negative then -(Decimal.value digits : Int) else Decimal.value digits
  if Decimal.isDigits digits && inRange n then some n else none

/-- Reads `-?digits.digits` as the nearest double. -/
def readDecimal? (text : Text) : Option Float :=
  let (negative, digits) := Decimal.cutSign text
  match Text.cutAt '.' digits with
  | some (whole, fraction) =>
    if Decimal.isDigits whole && Decimal.isDigits fraction then
      some (Binary64.ofRatio negative (Decimal.value (whole ++ fraction)) (tenTo fraction.length))
    else
      none
  | none => none

/-- Reads a text between two quotes of one kind that does not hold that quote. -/
def readQuoted? : Text → Option Text
  | [] => none
  | quote :: rest =>
    if quote = '"' ∨ quote = '\'' then
      match Text.cutAt quote rest with
      | some (content, []) => some content
      | _ => none
    else
      none

/-- Reads a whole text as a value. -/
def read? (text : Text) : Option Value :=
  (readDecimal? text).map decimal
    <|> (readInteger? text).map integer
    <|> (readQuoted? text).map Value.text

/-- The number, where the value is one. -/
def number? : Value → Option Float
  | integer n => some (Binary64.ofInt n)
  | decimal x => some x
  | text _ => none

/-- The content, where the value is a quoted text. -/
def content? : Value → Option Text
  | text content => some content
  | _ => none

/-- The value as it is shown: a text in double quotes, with nothing escaped. -/
def shown : Value → Text
  | integer n => Decimal.ofInt n
  | decimal x => Decimal.Layout.plain.write x
  | text content => '"' :: (content ++ ['"'])

end Value

end SceneScript
