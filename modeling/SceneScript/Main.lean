import SceneScript.Command.Program

/-! # Command line

The program on the disk: file operations of the system, the log on standard error, and the exit
status of the run. -/

namespace SceneScript.Disk

/-- The cause of a system error. -/
def cause : IO.Error → FileError
  | .noFileOrDirectory _ _ _ => .notFound
  | .alreadyExists _ _ _ => .alreadyExists
  | .inappropriateType _ code description =>
    if code = 20 then .notDirectory else if code = 21 then .isDirectory else .other description
  | .invalidArgument _ code description =>
    if code = 36 then .nameTooLong else .other description
  | error => .other (toString error)

/-- Runs an action on a path that the system can take. -/
def attempt {α : Type} (path : Text) (action : IO α) : IO (Except FileError α) := do
  if '\x00' ∈ path then return .error .nulInPath
  try
    return .ok (← action)
  catch error =>
    return .error (cause error)

instance : FileAccess IO where
  exists? path := do
    match ← attempt path (IO.FS.realPath (String.ofList path)) with
    | .ok _ => return true
    | .error _ => return false
  readText path := do
    match ← attempt path (IO.FS.readBinFile (String.ofList path)) with
    | .error error => return .error error
    | .ok content =>
      match String.fromUTF8? content with
      | some text => return .ok text.toList
      | none => return .error .invalidText
  makeDirectories path := attempt path (IO.FS.createDirAll (String.ofList path))
  createFile path text :=
    attempt path (IO.FS.withFile (String.ofList path) .writeNew fun handle =>
      handle.putStr (String.ofList text))

/-- The user's directory of settings. -/
def settings? : IO (Option Text) := do
  match ← IO.getEnv "XDG_CONFIG_HOME", ← IO.getEnv "HOME" with
  | some directory, home =>
    if Path.isAbsolute directory.toList then return some directory.toList
    return home.map fun home => Path.join home.toList ".config".toList
  | none, home => return home.map fun home => Path.join home.toList ".config".toList

end SceneScript.Disk

/-- Runs the program on its arguments. -/
def main (arguments : List String) : IO UInt32 := do
  let outcome ← SceneScript.Program.run (← SceneScript.Disk.settings?)
    (arguments.map String.toList)
  IO.print outcome.output
  for line in outcome.log do
    IO.eprintln line.text
  return UInt32.ofNat outcome.exitCode
