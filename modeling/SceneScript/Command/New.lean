import SceneScript.Command.Failure
import SceneScript.Document.Build
import SceneScript.Document.Template
import SceneScript.Files.Access

/-! # Creating a document

The starter text is parsed under the path that it would get before anything is written, so that a
bad name fails like any other naming error. An existing file is never overwritten.
-/

namespace SceneScript

/-- What is to be created: a list of this name, in a file of this name in a directory. -/
structure NewRequest where
  name : Text
  directory : Text
  deriving DecidableEq, Repr

namespace NewRequest

/-- The path of the new file. -/
def path (request : NewRequest) : Text :=
  Path.join request.directory (request.name ++ '.' :: fileExtension)

/-- The text of the new file, if it is valid under the path of the file. -/
def content (request : NewRequest) : Except Failure Text :=
  let text := starterDocument request.name
  match parse text (some request.path) with
  | .ok _ => .ok text
  | .error diagnostic => .error (.invalid diagnostic text)

end NewRequest

/-- Creates a document, and gives the path of its file. -/
def create {m : Type → Type} [Monad m] [FileAccess m] (request : NewRequest) :
    m (Except Failure Text) :=
  match request.content with
  | .error failure => return .error failure
  | .ok text => do
    match ← FileAccess.makeDirectories request.directory with
    | .error error => return .error (.file error)
    | .ok () =>
      match ← FileAccess.createFile request.path text with
      | .ok () => return .ok request.path
      | .error .alreadyExists => return .error (.alreadyExists request.path)
      | .error error => return .error (.file error)

end SceneScript
