import SceneScript.Files.Access
import SceneScript.Path

/-! # File trees

A file tree says what lies at every place, where a place is the list of names that leads to it from
the root. The operations answer as a disk does: every directory on the way must exist, a name has at
most 255 bytes, and an operation that fails leaves what it has already made. There are no links, and
nothing is protected.
-/

namespace SceneScript

/-- The names that lead from the root to a file or a directory. -/
abbrev Place := List Text

/-- A file with its bytes, or a directory. -/
inductive FileNode where
  | file (content : ByteArray)
  | directory

/-- What lies at which place, and the directory that relative paths start from. -/
structure FileTree where
  workingDirectory : Place
  nodes : List (Place × FileNode)

namespace FileTree

/-- What lies at a place; the root is a directory. -/
def node? (tree : FileTree) (place : Place) : Option FileNode :=
  if place = [] then some .directory else tree.nodes.lookup place

/-- The tree with one more node. -/
def add (tree : FileTree) (place : Place) (node : FileNode) : FileTree :=
  { tree with nodes := tree.nodes ++ [(place, node)] }

/-- The greatest number of bytes of a name. -/
def nameLimit : Nat := 255

/-- The greatest number of bytes of a path. -/
def pathLimit : Nat := 4095

/-- Goes from a place to a component below it. The place must be a directory, but nothing need lie
where the step ends. -/
def step (tree : FileTree) (place : Place) (component : Text) : Except FileError Place :=
  match tree.node? place with
  | none => .error .notFound
  | some (.file _) => .error .notDirectory
  | some .directory =>
    if component = [] ∨ component = ['.'] then .ok place
    else if component = ['.', '.'] then .ok place.dropLast
    else if nameLimit < Text.byteLength component then .error .nameTooLong
    else .ok (place ++ [component])

/-- Goes from a place along components. -/
def walk (tree : FileTree) (place : Place) : List Text → Except FileError Place
  | [] => .ok place
  | component :: rest =>
    match tree.step place component with
    | .ok next => tree.walk next rest
    | .error error => .error error

/-- The place that a path starts from: the root or the working directory. -/
def base (tree : FileTree) (path : Text) : Place :=
  if Path.isAbsolute path then [] else tree.workingDirectory

/-- Goes along components of a path that the system can take. -/
def follow (tree : FileTree) (path : Text) (components : List Text) : Except FileError Place :=
  if '\x00' ∈ path then .error .nulInPath
  else if path = [] then .error .notFound
  else if pathLimit < Text.byteLength path then .error .nameTooLong
  else tree.walk (tree.base path) components

/-- The place that a path leads to. -/
def resolve (tree : FileTree) (path : Text) : Except FileError Place :=
  tree.follow path (Text.splitAt '/' path)

/-- What lies where a path leads to. -/
def find (tree : FileTree) (path : Text) : Except FileError FileNode :=
  match tree.resolve path with
  | .error error => .error error
  | .ok place =>
    match tree.node? place with
    | some node => .ok node
    | none => .error .notFound

/-- Whether something lies where a path leads to. -/
def exists? (tree : FileTree) (path : Text) : Bool :=
  match tree.find path with
  | .ok _ => true
  | .error _ => false

/-- Whether a path leads to a directory. -/
def isDirectory (tree : FileTree) (path : Text) : Bool :=
  match tree.find path with
  | .ok .directory => true
  | _ => false

/-- The text of a file. -/
def readText (tree : FileTree) (path : Text) : Except FileError Text :=
  match tree.find path with
  | .error error => .error error
  | .ok .directory => .error .isDirectory
  | .ok (.file content) =>
    match String.fromUTF8? content with
    | some text => .ok text.toList
    | none => .error .invalidText

/-- The path without slashes at its end. -/
def dropTrailingSlashes (path : Text) : Text :=
  (path.reverse.dropWhile (· = '/')).reverse

/-- Makes one directory, in a directory that exists. Slashes at the end of its path do not ask for
anything below it. -/
def makeDirectory (tree : FileTree) (path : Text) : Except FileError FileTree :=
  match tree.follow path (Text.splitAt '/' (dropTrailingSlashes path)) with
  | .error error => .error error
  | .ok place =>
    match tree.node? place with
    | some _ => .error .alreadyExists
    | none => .ok (tree.add place .directory)

/-- Makes the first of these directories, after those above it, which follow in the list. A directory
that is there already is as good as a new one. -/
def makeAll (tree : FileTree) : List Text → Except FileError Unit × FileTree
  | [] => (.ok (), tree)
  | path :: above =>
    match tree.makeDirectory path with
    | .ok next => (.ok (), next)
    | .error .notFound =>
      match tree.makeAll above with
      | (.error error, next) => (.error error, next)
      | (.ok (), next) =>
        match next.makeDirectory path with
        | .ok last => (.ok (), last)
        | .error error =>
          (if error = .alreadyExists ∧ next.isDirectory path then .ok () else .error error, next)
    | .error error =>
      (if error = .alreadyExists ∧ tree.isDirectory path then .ok () else .error error, tree)

/-- The beginnings of a list that are neither empty nor the whole of it, the longest first. -/
def properBeginnings {α : Type} (items : List α) : List (List α) :=
  ((List.range items.length).drop 1).reverse.map items.take

/-- A path and the paths of the directories above it, the nearest first. -/
def withAncestors (path : Text) : List Text :=
  let root : Text := if Path.isAbsolute path then ['/'] else []
  path :: (properBeginnings (Path.components path)).map fun components =>
    root ++ Text.join '/' components

/-- Makes a directory and what is missing of the directories above it. -/
def makeDirectories (tree : FileTree) (path : Text) : Except FileError Unit × FileTree :=
  if path = [] ∨ path.all (· = '/') then (.ok (), tree) else tree.makeAll (withAncestors path)

/-- Writes a file where there was nothing. Making the file and writing its text are one step, and
nothing can fail between the two: an outcome with an empty or a half-written file does not arise. -/
def createFile (tree : FileTree) (path text : Text) : Except FileError Unit × FileTree :=
  match tree.resolve path with
  | .error error => (.error error, tree)
  | .ok place =>
    match tree.node? place with
    | some _ => (.error .alreadyExists, tree)
    | none => (.ok (), tree.add place (.file (String.ofList text).toUTF8))

instance : FileAccess (StateM FileTree) where
  exists? path := do return (← get).exists? path
  readText path := do return (← get).readText path
  makeDirectories path := modifyGet fun tree => tree.makeDirectories path
  createFile path text := modifyGet fun tree => tree.createFile path text

end FileTree

end SceneScript
