import SceneScript.Proofs.Places
import SceneScript.Proofs.Positions

/-! # Positions are counts

A position is found by a line table, in which the starts of the lines stand in order. The place that
it stands for is the last cut of the text at or before the offset, and counting from the beginning
of the text up to that place gives the same line and the same column.
-/

namespace SceneScript

namespace Text

/-- The offset, clamped to the text, lies at the cut or inside the character behind it. -/
structure LowersTo (text : Text) (offset place : Nat) : Prop where
  isCut : text.IsCut place
  place_le : place ≤ min offset (byteLength text)
  greatest : ∀ cut, text.IsCut cut → cut ≤ min offset (byteLength text) → cut ≤ place

theorem byteLength_takeBytes_le (count : Nat) (text : Text) :
    byteLength (takeBytes count text) ≤ count := by
  induction text generalizing count with
  | nil => exact Nat.zero_le count
  | cons c rest ih =>
      rw [takeBytes]
      split
      next hsize =>
        have hrest := ih (count - c.utf8Size)
        rw [byteLength_cons]
        omega
      next => exact Nat.zero_le count

/-- Bytes are taken up to the last cut that they reach. -/
theorem lowersTo_takeBytes (text : Text) (offset : Nat) :
    text.LowersTo offset (byteLength (takeBytes offset text)) where
  isCut := ⟨_, _, (takeBytes_append_dropBytes offset text).symm, rfl⟩
  place_le := by
    have hcut : text.IsCut (byteLength (takeBytes offset text)) :=
      ⟨_, _, (takeBytes_append_dropBytes offset text).symm, rfl⟩
    exact Nat.le_min.mpr ⟨byteLength_takeBytes_le offset text, hcut.le_byteLength⟩
  greatest := by
    rintro cut ⟨front, back, rfl, rfl⟩ hle
    obtain ⟨count, rfl⟩ := Nat.exists_eq_add_of_le (Nat.le_min.mp hle).1
    rw [takeBytes_byteLength_add, byteLength_append]
    exact Nat.le_add_right _ _

/-! ## The order of the lines -/

theorem pairwise_lineStarts (offset : Nat) (text : Text) :
    (lineStarts offset text).Pairwise (· < ·) := by
  induction text generalizing offset with
  | nil => exact .nil
  | cons c rest ih =>
      rw [lineStarts]
      split
      next => exact List.pairwise_cons.mpr ⟨fun _ hmem => (bounds_of_mem_lineStarts hmem).1, ih _⟩
      next => exact ih _

theorem newline_not_mem_lastLine (text : Text) : '\n' ∉ lastLine text := by
  intro hmem
  simpa using List.mem_rtakeWhile_imp hmem

/-- Earlier lines end with a newline, if there are any. -/
theorem getLast?_earlierLines (text : Text) :
    earlierLines text = [] ∨ (earlierLines text).getLast? = some '\n' := by
  by_cases hnil : earlierLines text = []
  · exact .inl hnil
  · have hlast := List.rdropWhile_last_not (p := (· ≠ '\n')) text hnil
    exact .inr ((List.getLast?_eq_some_getLast hnil).trans (by simpa [earlierLines] using hlast))

end Text

namespace LineTable

/-- The first line starts at the beginning, and each line before the next. -/
theorem pairwise_starts_ofSource (source : Text) : (ofSource source).starts.Pairwise (· < ·) :=
  List.pairwise_cons.mpr
    ⟨fun _ hmem => (Text.bounds_of_mem_lineStarts hmem).1, Text.pairwise_lineStarts 0 source⟩

theorem starts_ofSource_append (front back : Text) :
    (ofSource (front ++ back)).starts =
      (0 :: Text.lineStarts 0 front) ++ Text.lineStarts (Text.byteLength front) back := by
  rw [ofSource, Text.lineStarts_append, Nat.zero_add, List.cons_append]

/-- A line starts at or before a cut exactly if its number is at most that of the newlines in front
of the cut. -/
theorem start_le_iff {front back : Text} {i start : Nat}
    (h : (ofSource (front ++ back)).starts[i]? = some start) :
    start ≤ Text.byteLength front ↔ i ≤ front.count '\n' := by
  have hlength : (0 :: Text.lineStarts 0 front).length = front.count '\n' + 1 := by
    rw [List.length_cons, Text.length_lineStarts]
  rw [starts_ofSource_append] at h
  by_cases hi : i < (0 :: Text.lineStarts 0 front).length
  · rw [List.getElem?_append_left hi] at h
    have hle : start ≤ Text.byteLength front := by
      rcases List.mem_cons.mp (List.mem_of_getElem? h) with rfl | hmem
      · exact Nat.zero_le _
      · have hbounds := Text.bounds_of_mem_lineStarts hmem
        omega
    exact ⟨fun _ => by omega, fun _ => hle⟩
  · rw [List.getElem?_append_right (Nat.le_of_not_lt hi)] at h
    have hbounds := Text.bounds_of_mem_lineStarts (List.mem_of_getElem? h)
    constructor <;> omega

/-- The line of a cut is in the table, and it starts behind the last newline in front of the cut. -/
theorem starts_getElem?_count (front back : Text) :
    (ofSource (front ++ back)).starts[front.count '\n']? =
      some (Text.byteLength (Text.earlierLines front)) := by
  have hlength : (0 :: Text.lineStarts 0 front).length = front.count '\n' + 1 := by
    rw [List.length_cons, Text.length_lineStarts]
  have hlast := Text.getLastD_lineStarts front
  rw [List.getLastD_eq_getLast?, List.getLast?_eq_getElem?, hlength, Nat.add_sub_cancel] at hlast
  rw [starts_ofSource_append, List.getElem?_append_left (by omega), ← hlast]
  rw [List.getElem?_eq_getElem (by omega), Option.getD_some]

/-- Among the starts of the lines, which stand in order, those up to a place are the first `line`
ones. The last of them is at hand, and no character is cut between it and the place. -/
structure Locates (table : LineTable) (line start place : Nat) : Prop where
  ordered : table.starts.Pairwise (· < ·)
  reached_iff : ∀ i start, table.starts[i]? = some start → (start ≤ place ↔ i < line)
  found : table.starts[line - 1]? = some start
  cuts : table.source.Cuts start place

theorem ofSource_locates (front back : Text) :
    (ofSource (front ++ back)).Locates (front.count '\n' + 1)
      (Text.byteLength (Text.earlierLines front)) (Text.byteLength front) where
  ordered := pairwise_starts_ofSource (front ++ back)
  reached_iff := by
    intro i start hstart
    rw [start_le_iff hstart]
    omega
  found := by rw [Nat.add_sub_cancel, starts_getElem?_count]
  cuts := by
    have hsplit := Text.earlierLines_append_lastLine front
    refine ⟨⟨Text.earlierLines front, Text.lastLine front ++ back, ?_, rfl⟩,
      ⟨front, back, rfl, rfl⟩, ?_⟩
    · rw [← List.append_assoc, hsplit]
      rfl
    · have hlength := congrArg Text.byteLength hsplit
      rw [Text.byteLength_append] at hlength
      omega

/-- An offset has the position of the place that it is lowered to. -/
theorem position_takeBytes (source : Text) (offset : Nat) :
    (ofSource source).position offset = .after (Text.takeBytes offset source) := by
  have hsplit := Text.takeBytes_append_dropBytes offset source
  have hplace : Text.floorOffset (ofSource source).source offset =
      Text.floorOffset (ofSource source).source
        (Text.byteLength (Text.takeBytes offset source)) := by
    have hfront := Text.takeBytes_byteLength (Text.takeBytes offset source)
      (Text.dropBytes offset source)
    rw [hsplit] at hfront
    rw [Text.floorOffset, Text.floorOffset, ofSource, hfront]
  rw [position_of_floorOffset _ hplace, ← position_of_floorOffset _ rfl]
  have hposition := position_byteLength (Text.takeBytes offset source)
    (Text.dropBytes offset source)
  rwa [hsplit] at hposition

/-- The position of an offset is what counting gives at the place that the offset is lowered to: one
more line than there are newlines in front of it, and one more column than there are characters
since the last of them. The table holds the start of that line. -/
theorem position_by_counting (source : Text) (offset : Nat) :
    ∃ earlier line back, source = earlier ++ (line ++ back) ∧
      source.LowersTo offset (Text.byteLength (earlier ++ line)) ∧
      (earlier = [] ∨ earlier.getLast? = some '\n') ∧ '\n' ∉ line ∧
      ((ofSource source).position offset).line = 1 + (earlier ++ line).count '\n' ∧
      ((ofSource source).position offset).column = 1 + line.length ∧
      (ofSource source).Locates ((ofSource source).position offset).line
        (Text.byteLength earlier) (Text.byteLength (earlier ++ line)) := by
  have hsource := Text.takeBytes_append_dropBytes offset source
  have hlowers := Text.lowersTo_takeBytes source offset
  rw [position_takeBytes]
  generalize Text.takeBytes offset source = front at hsource hlowers
  generalize Text.dropBytes offset source = back at hsource
  subst hsource
  have hlocates := ofSource_locates front back
  have hsplit := Text.earlierLines_append_lastLine front
  refine ⟨Text.earlierLines front, Text.lastLine front, back, ?_, ?_,
    Text.getLast?_earlierLines front, Text.newline_not_mem_lastLine front, ?_, ?_, ?_⟩
  · rw [← List.append_assoc, hsplit]
  · rwa [hsplit]
  · rw [hsplit]
    exact Nat.add_comm _ 1
  · exact Nat.add_comm _ 1
  · rw [hsplit]
    exact hlocates

-- The offsets stand before a newline, inside the last character and behind the end.
example : [2, 5, 9].map (ofSource ['é', '\n', 'a', 'К']).position =
    [.ofCounts 1 2, .ofCounts 2 2, .ofCounts 2 3] := by
  decide +kernel

end LineTable

end SceneScript
