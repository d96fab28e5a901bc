import SceneScript.Entries
import SceneScript.Text.Blank
import SceneScript.Value

/-! # Documents

A document is a named list of shapes in the order in which they are drawn. What a renderer asks of
a shape always has an answer: a missing or unusable entry has a conventional one.
-/

namespace SceneScript

/-- A drawable declaration with its parameters and its style. -/
structure Shape where
  kind : Text
  name : Text
  params : Entries Value
  style : Entries Text

namespace Shape

/-- The side of a shape whose style gives no usable one. -/
def defaultDimension : Nat := 50

/-- The colour of a shape whose style gives none. -/
def defaultColor : Text :=
  ['#', 'F', 'F', 'F', 'F', 'F', 'F']

/-- The coordinate under `key`; it is zero where there is no number. -/
def coordinate (shape : Shape) (key : Text) : Float :=
  ((shape.params.get? key).bind Value.number?).getD (Binary64.ofInt 0)

/-- Where the shape is drawn. -/
def origin (shape : Shape) : Float × Float :=
  (shape.coordinate ['x'], shape.coordinate ['y'])

/-- The colour that the shape is filled with. -/
def color (shape : Shape) : Text :=
  (shape.style.get? ['c', 'o', 'l', 'o', 'r']).getD defaultColor

/-- Reads a length: digits after an optional plus sign, below `2 ^ 32`. -/
def readDimension? (text : Text) : Option Nat :=
  let digits := if text.head? = some '+' then text.drop 1 else text
  if Decimal.isDigits digits && Decimal.value digits < twoTo 32 then some (Decimal.value digits)
  else none

/-- The length under `key`, or the default one. -/
def dimension (shape : Shape) (key : Text) : Nat :=
  ((shape.style.get? key).bind fun value => readDimension? (Text.trim value)).getD defaultDimension

def width (shape : Shape) : Nat :=
  shape.dimension ['w', 'i', 'd', 't', 'h']

def height (shape : Shape) : Nat :=
  shape.dimension ['h', 'e', 'i', 'g', 'h', 't']

end Shape

/-- A named list of shapes. -/
structure Document where
  listName : Text
  shapes : List Shape

namespace Document

/-- The first shape with this name. -/
def shape? (document : Document) (name : Text) : Option Shape :=
  document.shapes.find? fun shape => shape.name = name

end Document

end SceneScript
