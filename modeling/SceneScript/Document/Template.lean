import SceneScript.Text.Basic

/-! # Starter documents -/

namespace SceneScript

/-- The file name extension of scene texts. -/
def fileExtension : Text := ['s', 'l', 'c']

/-- A document to start from: a list of the given name with one shape. -/
def starterDocument (name : Text) : Text :=
  "Create List ".toList ++ name ++
    ("() \x7b\n\n    Create Square Sq1(x:100, y:100) \x7b\n" ++
      "        Style \x7b color:red; \x7d\n    \x7d\n\x7d\n").toList

end SceneScript
