import Mathlib.Data.List.DropRight
import SceneScript.Proofs.Bytes
import SceneScript.Source.Position

/-! # Lines and columns by counting

A line table finds the line of an offset by the starts of lines at or before it. That is the same as
counting: the newlines in front of the offset, and the characters since the last of them.
-/

namespace SceneScript

namespace Text

/-- What stands behind the last newline. -/
def lastLine (text : Text) : Text :=
  text.rtakeWhile (· ≠ '\n')

/-- What stands in front of the last line, with the newline that ends it. -/
def earlierLines (text : Text) : Text :=
  text.rdropWhile (· ≠ '\n')

theorem earlierLines_append_lastLine (text : Text) : earlierLines text ++ lastLine text = text :=
  List.rdropWhile_append_rtakeWhile

/-! ## The starts of lines -/

theorem lineStarts_append (offset : Nat) (front back : Text) :
    lineStarts offset (front ++ back) =
      lineStarts offset front ++ lineStarts (offset + byteLength front) back := by
  induction front generalizing offset with
  | nil => rfl
  | cons c rest ih =>
      rw [List.cons_append, lineStarts, lineStarts, byteLength_cons, ih, ← Nat.add_assoc]
      split <;> rfl

/-- Lines start behind the first place of a text, and not behind its last. -/
theorem bounds_of_mem_lineStarts {offset start : Nat} {text : Text}
    (h : start ∈ lineStarts offset text) :
    offset < start ∧ start ≤ offset + byteLength text := by
  induction text generalizing offset with
  | nil => cases h
  | cons c rest ih =>
      have hsize := c.utf8Size_pos
      have hlater : start ∈ lineStarts (offset + c.utf8Size) rest →
          offset < start ∧ start ≤ offset + (c.utf8Size + byteLength rest) := by
        intro hmem
        have hbounds := ih hmem
        omega
      rw [lineStarts] at h
      rw [byteLength_cons]
      split at h
      next =>
        rcases List.mem_cons.mp h with rfl | hmem
        · omega
        · exact hlater hmem
      next => exact hlater h

theorem length_lineStarts (offset : Nat) (text : Text) :
    (lineStarts offset text).length = text.count '\n' := by
  induction text generalizing offset with
  | nil => rfl
  | cons c rest ih =>
      rw [lineStarts, List.count_cons]
      split
      next hnewline => rw [List.length_cons, ih, hnewline, if_pos (by decide)]
      next hnewline => rw [ih, if_neg (by simpa using hnewline), Nat.add_zero]

/-- The last line starts where the earlier ones end. -/
theorem getLastD_lineStarts (text : Text) :
    (0 :: lineStarts 0 text).getLastD 0 = byteLength (earlierLines text) := by
  induction text using List.reverseRecOn with
  | nil => rfl
  | append_singleton front c ih =>
      rw [lineStarts_append, lineStarts]
      by_cases hnewline : c = '\n'
      · subst hnewline
        rw [if_pos rfl, lineStarts, ← List.cons_append, List.getLastD_concat, earlierLines,
          List.rdropWhile_concat_neg _ _ _ (by simp), byteLength_append, Nat.zero_add]
        rfl
      · rw [if_neg hnewline, lineStarts, List.append_nil, ih, earlierLines, earlierLines,
          List.rdropWhile_concat_pos _ _ _ (by simpa using hnewline)]

end Text

/-- The position behind a text: one more line than the text has newlines, and one more column than
its last line has characters. -/
def Position.after (front : Text) : Position :=
  ⟨front.count '\n' + 1, (Text.lastLine front).length + 1, by omega, by omega⟩

theorem Position.ofCounts_succ (line column : Nat) :
    ofCounts (line + 1) (column + 1) = ⟨line + 1, column + 1, by omega, by omega⟩ := by
  simp [ofCounts]

namespace LineTable

/-- The start of the line that holds a place. -/
def lineStart (table : LineTable) (place : Nat) : Nat :=
  (table.starts.takeWhile (· ≤ place)).getLastD 0

/-- The lines that start at or before a place are those of the text in front of it. -/
theorem takeWhile_starts_ofSource (front back : Text) :
    (ofSource (front ++ back)).starts.takeWhile (· ≤ Text.byteLength front) =
      0 :: Text.lineStarts 0 front := by
  have hfront : ∀ start ∈ 0 :: Text.lineStarts 0 front,
      decide (start ≤ Text.byteLength front) = true := by
    intro start hmem
    rw [decide_eq_true_eq]
    rcases List.mem_cons.mp hmem with rfl | hmem
    · exact Nat.zero_le _
    · have hbounds := Text.bounds_of_mem_lineStarts hmem
      omega
  have hback : (Text.lineStarts (0 + Text.byteLength front) back).takeWhile
      (· ≤ Text.byteLength front) = [] := by
    rw [List.takeWhile_eq_nil_iff]
    intro hlength
    have hbounds := Text.bounds_of_mem_lineStarts (List.get_mem _ ⟨0, hlength⟩)
    simp only [decide_eq_true_eq]
    omega
  rw [ofSource, Text.lineStarts_append, ← List.cons_append,
    List.takeWhile_append_of_pos hfront, hback, List.append_nil]

theorem position_of_floorOffset (table : LineTable) {offset place : Nat}
    (h : Text.floorOffset table.source offset = place) :
    table.position offset = .ofCounts (table.starts.takeWhile (· ≤ place)).length
      ((Text.slice table.source (table.lineStart place) place).length + 1) := by
  subst h
  rfl

theorem lineStart_ofSource (front back : Text) :
    (ofSource (front ++ back)).lineStart (Text.byteLength front) =
      Text.byteLength (Text.earlierLines front) := by
  rw [lineStart, takeWhile_starts_ofSource, Text.getLastD_lineStarts]

/-- The position of an offset counts the newlines in front of it and the characters since the last
of them. -/
theorem position_byteLength (front back : Text) :
    (ofSource (front ++ back)).position (Text.byteLength front) = .after front := by
  have hplace : Text.floorOffset (front ++ back) (Text.byteLength front) =
      Text.byteLength front := by
    rw [Text.floorOffset, Text.takeBytes_byteLength]
  have hline : Text.slice (front ++ back) (Text.byteLength (Text.earlierLines front))
      (Text.byteLength front) = Text.lastLine front := by
    have hsplit := Text.earlierLines_append_lastLine front
    have hsource : front ++ back = Text.earlierLines front ++ (Text.lastLine front ++ back) := by
      rw [← List.append_assoc, hsplit]
    apply Text.slice_eq hsource rfl
    rw [← Text.byteLength_append, hsplit]
  rw [position_of_floorOffset _ hplace, lineStart_ofSource, takeWhile_starts_ofSource,
    List.length_cons, Text.length_lineStarts, ofSource, hline, Position.ofCounts_succ]
  rfl

end LineTable

end SceneScript
