import SceneScript.Files.Error
import SceneScript.Text.Basic

/-! # What the tool does with files

Four operations are all that checking and creating scenes need. They are given by a class, so that
the same program runs on the disk and on a `FileTree`.
-/

namespace SceneScript

/-- File operations as effects of `m`. -/
class FileAccess (m : Type → Type) where
  /-- Whether there is a file or a directory at a path. -/
  exists? : Text → m Bool
  /-- The text of a file. -/
  readText : Text → m (Except FileError Text)
  /-- Makes a directory and what is missing of the directories above it. -/
  makeDirectories : Text → m (Except FileError Unit)
  /-- Writes a file where there was nothing, all of its text or nothing. -/
  createFile : Text → Text → m (Except FileError Unit)

end SceneScript
