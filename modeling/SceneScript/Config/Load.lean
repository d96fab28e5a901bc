import SceneScript.Command.Failure
import SceneScript.Config.Basic
import SceneScript.Files.Access
import SceneScript.Path
import SceneScript.Toml.Document

/-! # Finding the settings

A configuration file that is named must exist. Otherwise the file of the working directory is taken
if there is one, then that of the user, and else the defaults.
-/

namespace SceneScript.Config

variable {m : Type → Type} [Monad m] [FileAccess m]

/-- The configuration file of the working directory. -/
def localPath : Text :=
  "slc/config.toml".toList

/-- The configuration file in the user's directory of settings. -/
def userPath (settings : Text) : Text :=
  Path.join settings localPath

/-- The settings in a file. -/
def loadFile (path : Text) : m (Except Failure Config) := do
  if !(← FileAccess.exists? path) then return .error (.config (.missingFile path))
  match ← FileAccess.readText path with
  | .error error => return .error (.file error)
  | .ok text =>
    match (Toml.read text).bind ofMembers? with
    | some config => return .ok config
    | none => return .error (.config .malformed)

/-- The settings in force, where `settings` is the user's directory of settings, if known. -/
def load (explicit settings : Option Text) : m (Except Failure Config) := do
  match explicit with
  | some path => loadFile path
  | none =>
    if ← FileAccess.exists? localPath then loadFile localPath
    else
      match settings with
      | none => return .ok default
      | some settings =>
        if ← FileAccess.exists? (userPath settings) then loadFile (userPath settings)
        else return .ok default

end SceneScript.Config
