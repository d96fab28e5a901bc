import SceneScript.Text.Basic

/-! # Paths

A path is written as one text, its components separated by slashes. Empty components and single
dots mean nothing.
-/

namespace SceneScript.Path

/-- The components that mean something, in order. -/
def components (path : Text) : List Text :=
  (Text.splitAt '/' path).filter fun component => component ≠ [] && component ≠ ['.']

/-- Whether the path starts at the root. -/
def isAbsolute (path : Text) : Bool :=
  path.head? = some '/'

/-- The last component, unless it points upwards. -/
def fileName? (path : Text) : Option Text :=
  (components path).getLast?.filter (· ≠ ['.', '.'])

/-- The name without what follows its last dot. A dot at its front belongs to the name. -/
def dropExtension (name : Text) : Text :=
  match Text.cutAt '.' name.reverse with
  | some (_, front) => if front = [] then name else front.reverse
  | none => name

/-- The name that a path gives to its file; a path without a file name stands for itself. -/
def stem (path : Text) : Text :=
  ((fileName? path).map dropExtension).getD path

/-- The path of `name` in `directory`. An absolute name stays as it is. -/
def join (directory name : Text) : Text :=
  if isAbsolute name ∨ directory = [] then name
  else if directory.getLast? = some '/' then directory ++ name
  else directory ++ '/' :: name

end SceneScript.Path
