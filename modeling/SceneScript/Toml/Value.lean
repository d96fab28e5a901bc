import SceneScript.Toml.Number

/-! # TOML values

Values of a TOML document. A table remembers how it was written, since that decides what may still
be added to it. Numbers keep their literals, for no setting is a number.
-/

namespace SceneScript.Toml

/-- How a table was written. -/
inductive TableForm where
  /-- By its own header. -/
  | header
  /-- By the header of a table in it. -/
  | implicit
  /-- By a key with dots. -/
  | dotted
  /-- In braces; nothing is added to it later. -/
  | inline
  deriving DecidableEq, Repr

/-- A value of a TOML document. -/
inductive Value where
  | string (text : Text)
  | boolean (b : Bool)
  | number (literal : Text)
  | dateTime (literal : Text)
  /-- An array in brackets, or one whose tables have headers of their own. -/
  | array (ofHeaders : Bool) (items : List Value)
  | table (form : TableForm) (members : List (Text × Value))
  deriving Repr

mutual

/-- Whether every number in a value has a meaning. -/
def Value.hasMeaning : Value → Bool
  | .number literal => Number.hasMeaning literal
  | .array _ items => Value.itemsHaveMeaning items
  | .table _ members => Value.membersHaveMeaning members
  | .string _ | .boolean _ | .dateTime _ => true

/-- Whether every number in the items of an array has a meaning. -/
def Value.itemsHaveMeaning : List Value → Bool
  | [] => true
  | item :: rest => item.hasMeaning && Value.itemsHaveMeaning rest

/-- Whether every number in the members of a table has a meaning. -/
def Value.membersHaveMeaning : List (Text × Value) → Bool
  | [] => true
  | member :: rest => Value.memberHasMeaning member && Value.membersHaveMeaning rest

/-- Whether every number in a member of a table has a meaning. -/
def Value.memberHasMeaning : Text × Value → Bool
  | (_, value) => value.hasMeaning

end

/-- The members of a table, in the order of their keys' first appearance. -/
abbrev Members := List (Text × Value)

namespace Members

/-- The members with another value under a key that they have. -/
def replace (key : Text) (value : Value) (members : Members) : Members :=
  members.map fun member => if member.1 = key then (key, value) else member

/-- Changes the members of the table that a path leads to. Missing tables on the way are made: as
dotted ones for the path of a key, as implicit ones for that of a header. A path goes into the last
table of an array of tables, but never into a table in braces. The path of a key never goes into a
table that has a header, nor does it end at an array. Where it ends there is a dotted table from
then on, even if only headers had made it. -/
def modify (dotted : Bool) (change : Members → Option Members) :
    List Text → Members → Option Members
  | [], members => change members
  | key :: path, members =>
    match members.lookup key with
    | none =>
      let form := if dotted then TableForm.dotted else TableForm.implicit
      (modify dotted change path []).map fun inner => members ++ [(key, .table form inner)]
    | some (.table form inner) =>
      if form = .inline ∨ (dotted ∧ form = .header) then none
      else
        let form := if dotted ∧ path.isEmpty then .dotted else form
        (modify dotted change path inner).map fun changed =>
          replace key (.table form changed) members
    | some (.array true items) =>
      match items.getLast? with
      | some (.table form inner) =>
        if dotted ∧ path.isEmpty then none
        else
          (modify dotted change path inner).map fun changed =>
            replace key (.array true (items.dropLast ++ [.table form changed])) members
      | _ => none
    | some _ => none

/-- Adds a value under a new key. -/
def addValue (key : Text) (value : Value) (members : Members) : Option Members :=
  if (members.lookup key).isSome then none else some (members ++ [(key, value)])

/-- Adds a value under a path of keys. -/
def addPair (path : List Text) (value : Value) (members : Members) : Option Members :=
  match path.getLast? with
  | none => none
  | some key => modify true (addValue key value) path.dropLast members

/-- Adds a table with a header. A table that only other headers have made is completed. -/
def addTable (key : Text) (members : Members) : Option Members :=
  match members.lookup key with
  | none => some (members ++ [(key, .table .header [])])
  | some (.table .implicit inner) => some (replace key (.table .header inner) members)
  | some _ => none

/-- Adds a table to an array of tables. -/
def addElement (key : Text) (members : Members) : Option Members :=
  match members.lookup key with
  | none => some (members ++ [(key, .array true [.table .header []])])
  | some (.array true items) =>
    some (replace key (.array true (items ++ [.table .header []])) members)
  | some _ => none

/-- The members that a table in braces has when these pairs are written in it. -/
def ofPairs (pairs : List (List Text × Value)) : Option Members :=
  pairs.foldlM (fun members pair => addPair pair.1 pair.2 members) []

end Members

end SceneScript.Toml
