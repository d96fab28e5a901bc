import SceneScript.Document.Basic

/-! # Text summary of a document -/

namespace SceneScript

/-- A double as it stands in a summary. -/
def plainNumber (x : Float) : String :=
  String.ofList (Decimal.Layout.plain.write x)

/-- A shape on one line: type, name, origin, colour and size. -/
def Shape.summary (shape : Shape) : String :=
  "  " ++ String.ofList shape.kind ++ " " ++ String.ofList shape.name ++
    " at (" ++ plainNumber shape.origin.1 ++ ", " ++ plainNumber shape.origin.2 ++ ")" ++
    " color=" ++ String.ofList shape.color ++
    " size=" ++ toString shape.width ++ "x" ++ toString shape.height ++ "\n"

/-- The name of the list and the number of its shapes, and a line for each shape. -/
def Document.summary (document : Document) : String :=
  let count := document.shapes.length
  String.ofList document.listName ++ ": " ++ toString count ++
    (if count = 1 then " shape\n" else " shapes\n") ++
    String.join (document.shapes.map Shape.summary)

end SceneScript
