import SceneScript.Source.Span

/-! # Lines and columns

A position counts lines and columns from one, and columns in characters. A `LineTable` holds the
offset at which every line starts, so that a place is found by its line first.
-/

namespace SceneScript

/-- A place as a person reads it: a line and a character in it, both counted from one. -/
structure Position where
  line : Nat
  column : Nat
  line_pos : 0 < line := by omega
  column_pos : 0 < column := by omega
  deriving DecidableEq, Repr

namespace Position

/-- The position with these counts; a count of zero stands for one. -/
def ofCounts (line column : Nat) : Position :=
  ⟨max line 1, max column 1, by omega, by omega⟩

/-- The first character of a source. -/
def start : Position :=
  ⟨1, 1, by omega, by omega⟩

instance : Inhabited Position :=
  ⟨start⟩

/-- The order of reading: by line, then by column. -/
instance : LE Position :=
  ⟨fun a b => a.line < b.line ∨ a.line = b.line ∧ a.column ≤ b.column⟩

instance : LT Position :=
  ⟨fun a b => a.line < b.line ∨ a.line = b.line ∧ a.column < b.column⟩

instance (a b : Position) : Decidable (a ≤ b) :=
  inferInstanceAs (Decidable (a.line < b.line ∨ a.line = b.line ∧ a.column ≤ b.column))

instance (a b : Position) : Decidable (a < b) :=
  inferInstanceAs (Decidable (a.line < b.line ∨ a.line = b.line ∧ a.column < b.column))

/-- The positions in the order of reading. -/
def sort (positions : List Position) : List Position :=
  positions.mergeSort fun a b => a ≤ b

/-- The line and the column with a colon between them. -/
protected def toString (position : Position) : String :=
  toString position.line ++ ":" ++ toString position.column

instance : ToString Position :=
  ⟨Position.toString⟩

end Position

/-- The offsets just after the newlines of a text that starts at `offset`. -/
def Text.lineStarts (offset : Nat) : Text → List Nat
  | [] => []
  | c :: rest =>
    if c = '\n' then (offset + c.utf8Size) :: Text.lineStarts (offset + c.utf8Size) rest
    else Text.lineStarts (offset + c.utf8Size) rest

/-- A source with the offsets at which its lines start. -/
structure LineTable where
  source : Text
  starts : List Nat
  deriving DecidableEq, Repr

namespace LineTable

/-- The line table of a source; the first line starts at its beginning. -/
def ofSource (source : Text) : LineTable :=
  ⟨source, 0 :: Text.lineStarts 0 source⟩

/-- The number of lines; an empty source has one. -/
def lineCount (table : LineTable) : Nat :=
  table.starts.length

/-- The position of a byte offset. An offset beyond the end stands for the end, and one inside a
character for that character. -/
def position (table : LineTable) (offset : Nat) : Position :=
  let place := Text.floorOffset table.source offset
  let reached := table.starts.takeWhile (· ≤ place)
  let lineStart := reached.getLastD 0
  Position.ofCounts reached.length ((Text.slice table.source lineStart place).length + 1)

end LineTable

end SceneScript
