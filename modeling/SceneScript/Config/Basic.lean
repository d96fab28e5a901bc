import SceneScript.Toml.Value

/-! # Settings

The settings of the tool, and how they are found in a TOML document. A missing key leaves its
default, and a known key with a value of the wrong kind makes the whole document unusable. Unknown
keys have no effect, but their values must have a meaning. What stands in an array after the known
fields is not looked at.
-/

namespace SceneScript

/-- How the result of a check is written. -/
inductive OutputFormat where
  | text
  | json
  deriving DecidableEq, Repr

/-- The format of this name. -/
def OutputFormat.ofName? (name : Text) : Option OutputFormat :=
  if name = ['t', 'e', 'x', 't'] then some .text
  else if name = ['j', 's', 'o', 'n'] then some .json
  else none

/-- The settings of the tool. -/
structure Config where
  /-- Whether the list must be called as the file is. -/
  enforceFileName : Bool
  /-- Whether warnings are reported. -/
  lint : Bool
  format : OutputFormat
  deriving DecidableEq, Repr

namespace Config

/-- The settings where none are given. -/
def default : Config :=
  ⟨true, true, .text⟩

instance : Inhabited Config :=
  ⟨default⟩

open Toml (Value Members)

/-- Whether the values under other keys than the known ones have a meaning. -/
def restHasMeaning (known : List Text) (members : Members) : Bool :=
  members.all fun member => member.1 ∈ known || member.2.hasMeaning

/-- The values of the fields of a section, in their order, if it is one. A section may be a table
with the names of the fields, or an array with their values in order. A date has no fields. -/
def section? (names : List Text) : Value → Option (List (Option Value))
  | .table _ members =>
    if restHasMeaning names members then some (names.map fun name => members.lookup name) else none
  | .array _ items => some ((List.range names.length).map fun index => items[index]?)
  | .dateTime _ => some (names.map fun _ => none)
  | _ => none

/-- A switch, or its default where it is missing. -/
def readSwitch? (standard : Bool) : Option Value → Option Bool
  | none => some standard
  | some (.boolean b) => some b
  | some _ => none

/-- Whether a value is an array or a table without anything in it. -/
def isVoid : Value → Bool
  | .array _ items => items.isEmpty
  | .table _ members => members.isEmpty
  | _ => false

/-- A format, or the default one where it is missing: its name, or a table with the name as its only
key and nothing under it. -/
def readFormat? : Option Value → Option OutputFormat
  | none => some default.format
  | some (.string name) => OutputFormat.ofName? name
  | some (.table _ [(name, inner)]) => if isVoid inner then OutputFormat.ofName? name else none
  | some _ => none

/-- The settings in two sections, given by the values of their fields. -/
def ofSections? : List (Option Value) → List (Option Value) → Option Config
  | [enforceFileName, lint], [format] => do
    let enforceFileName ← readSwitch? default.enforceFileName enforceFileName
    let lint ← readSwitch? default.lint lint
    let format ← readFormat? format
    return ⟨enforceFileName, lint, format⟩
  | _, _ => none

/-- The section of a name, or one without fields where it is missing. -/
def sectionValue (name : Text) (members : Members) : Value :=
  (members.lookup name).getD (.table .implicit [])

/-- The settings in the root table of a document. -/
def ofMembers? (members : Members) : Option Config :=
  let check := "check".toList
  let output := "output".toList
  if restHasMeaning [check, output] members then do
    let checked ← section? ["enforce_filename".toList, "lint".toList] (sectionValue check members)
    let written ← section? ["format".toList] (sectionValue output members)
    ofSections? checked written
  else
    none

end Config

end SceneScript
