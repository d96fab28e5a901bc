import SceneScript.Proofs.Counting
import SceneScript.Proofs.Labels

/-! # Positions rise with the place

A later place has a later line, or it has the same line and a later column. So a line and a column
name one place of a source, and what is put in the order of its positions is in the order of its
places.
-/

namespace SceneScript

/-! ## Lines of a text that goes on -/

namespace Text

theorem lastLine_append_of_not_mem {back : Text} (h : '\n' ∉ back) (front : Text) :
    lastLine (front ++ back) = lastLine front ++ back := by
  have hreverse : ∀ c ∈ back.reverse, (c ≠ '\n' : Bool) = true := by
    intro c hmem
    have hne : c ≠ '\n' := by
      rintro rfl
      exact h (List.mem_reverse.mp hmem)
    simpa using hne
  rw [lastLine, lastLine, List.rtakeWhile, List.rtakeWhile, List.reverse_append,
    List.takeWhile_append_of_pos hreverse, List.reverse_append, List.reverse_reverse]

end Text

/-! ## The order of positions -/

namespace Position

variable {a b : Position}

theorem le_of_lt (h : a < b) : a ≤ b := by
  change a.line < b.line ∨ a.line = b.line ∧ a.column < b.column at h
  change a.line < b.line ∨ a.line = b.line ∧ a.column ≤ b.column
  omega

theorem not_le_of_lt (h : b < a) : ¬ a ≤ b := by
  change b.line < a.line ∨ b.line = a.line ∧ b.column < a.column at h
  change ¬ (a.line < b.line ∨ a.line = b.line ∧ a.column ≤ b.column)
  omega

theorem le_refl (a : Position) : a ≤ a :=
  .inr ⟨rfl, Nat.le_refl _⟩

/-- Going on in a text leads to a later line, or to a later column of the same line. -/
theorem after_lt_after_append {middle : Text} (h : middle ≠ []) (front : Text) :
    after front < after (front ++ middle) := by
  change front.count '\n' + 1 < (front ++ middle).count '\n' + 1 ∨
    front.count '\n' + 1 = (front ++ middle).count '\n' + 1 ∧
      (Text.lastLine front).length + 1 < (Text.lastLine (front ++ middle)).length + 1
  rw [List.count_append]
  by_cases hmem : '\n' ∈ middle
  · have hcount := List.count_pos_iff.mpr hmem
    exact .inl (by omega)
  · have hcount := List.count_eq_zero.mpr hmem
    have hlength := List.length_pos_iff.mpr h
    rw [Text.lastLine_append_of_not_mem hmem, List.length_append]
    exact .inr (by omega)

theorem after_le_after_append (front middle : Text) : after front ≤ after (front ++ middle) := by
  by_cases h : middle = []
  · rw [h, List.append_nil]
    exact le_refl _
  · exact le_of_lt (after_lt_after_append h front)

end Position

/-! ## Places and their positions -/

namespace LineTable

variable {source : Text} {a b : Nat}

theorem position_lt_position (ha : source.IsCut a) (hb : source.IsCut b) (h : a < b) :
    (ofSource source).position a < (ofSource source).position b := by
  obtain ⟨front, middle, back, rfl, rfl, rfl⟩ :=
    (Text.Cuts.mk ha hb (Nat.le_of_lt h)).exists_middle
  have hmiddle : middle ≠ [] := by
    rintro rfl
    exact Nat.lt_irrefl _ h
  have hlater := position_byteLength (front ++ middle) back
  rw [List.append_assoc, Text.byteLength_append] at hlater
  rw [position_byteLength, hlater]
  exact Position.after_lt_after_append hmiddle front

theorem position_le_position (source : Text) (h : a ≤ b) :
    (ofSource source).position a ≤ (ofSource source).position b := by
  obtain ⟨middle, hmiddle⟩ := Text.takeBytes_prefix_of_le h source
  rw [position_takeBytes, position_takeBytes, ← hmiddle]
  exact Position.after_le_after_append _ middle

theorem position_le_position_iff (ha : source.IsCut a) (hb : source.IsCut b) :
    (ofSource source).position a ≤ (ofSource source).position b ↔ a ≤ b := by
  refine ⟨fun hle => ?_, position_le_position source⟩
  by_contra hlt
  exact Position.not_le_of_lt (position_lt_position hb ha (Nat.lt_of_not_le hlt)) hle

theorem position_injective (ha : source.IsCut a) (hb : source.IsCut b)
    (h : (ofSource source).position a = (ofSource source).position b) : a = b := by
  apply Nat.le_antisymm
  · exact (position_le_position_iff ha hb).mp (h ▸ Position.le_refl _)
  · exact (position_le_position_iff hb ha).mp (h ▸ Position.le_refl _)

/-- Sorting positions sorts the places that they belong to. -/
theorem sort_map_position {places : List Nat} (h : ∀ place ∈ places, source.IsCut place) :
    Position.sort (places.map (ofSource source).position) =
      (places.mergeSort (· ≤ ·)).map (ofSource source).position := by
  rw [Position.sort, List.map_mergeSort]
  intro a ha b hb
  exact (decide_eq_decide.mpr (position_le_position_iff (h a ha) (h b hb))).symm

end LineTable

/-! ## Sorted diagnostics -/

namespace Diagnostic

variable {source : Text}

/-- The place that the position of a diagnostic stands for. -/
def place (diagnostic : Diagnostic) : Nat :=
  (diagnostic.primarySpan?.map (·.start)).getD 0

/-- The diagnostic is a warning about the source or the error that it is rejected with. -/
def IsAbout (source : Text) (diagnostic : Diagnostic) : Prop :=
  diagnostic ∈ lint source ∨ ∃ fileName, parse source fileName = .error diagnostic

theorem IsAbout.anchored {diagnostic : Diagnostic} (h : diagnostic.IsAbout source) :
    diagnostic.Anchored source := by
  rcases h with hwarning | ⟨fileName, herror⟩
  · exact anchored_of_mem_lint hwarning
  · exact anchored_of_parse_eq_error herror

/-- A diagnostic about a source is reported at a cut, with the position of that cut. -/
theorem Anchored.position_place {diagnostic : Diagnostic} (h : diagnostic.Anchored source) :
    source.IsCut diagnostic.place ∧
      diagnostic.position = (LineTable.ofSource source).position diagnostic.place := by
  obtain ⟨primary, others, hlabels, hprimary, _⟩ := h.one_primary
  obtain ⟨label, hlabel, front, back, rfl, hstart, hposition⟩ := h.position
  obtain rfl : primary = label := by simpa [hlabels] using hlabel
  have hplace : diagnostic.place = Text.byteLength front := by
    rw [place, primarySpan?, hlabels, List.find?_cons_of_pos hprimary]
    exact hstart
  rw [hplace, hposition, LineTable.position_byteLength]
  exact ⟨⟨front, back, rfl, rfl⟩, rfl⟩

end Diagnostic

/-- Positions rise strictly with the places between characters, and they never fall. So two places
of a source have different positions, sorted positions belong to sorted places, and diagnostics about
one source stand in the order of their positions exactly if they stand in the order of their
places. -/
theorem positions_rise (source : Text) :
    (∀ a b, source.IsCut a → source.IsCut b → a < b →
      (LineTable.ofSource source).position a < (LineTable.ofSource source).position b) ∧
    (∀ a b, a ≤ b →
      (LineTable.ofSource source).position a ≤ (LineTable.ofSource source).position b) ∧
    (∀ a b, source.IsCut a → source.IsCut b →
      (LineTable.ofSource source).position a = (LineTable.ofSource source).position b → a = b) ∧
    (∀ places : List Nat, (∀ place ∈ places, source.IsCut place) →
      Position.sort (places.map (LineTable.ofSource source).position) =
        (places.mergeSort (· ≤ ·)).map (LineTable.ofSource source).position) ∧
    ∀ diagnostics : List Diagnostic, (∀ diagnostic ∈ diagnostics, diagnostic.IsAbout source) →
      (diagnostics.Pairwise (·.position ≤ ·.position) ↔
        diagnostics.Pairwise (·.place ≤ ·.place)) := by
  refine ⟨fun _ _ => LineTable.position_lt_position,
    fun _ _ => LineTable.position_le_position source,
    fun _ _ => LineTable.position_injective, fun _ => LineTable.sort_map_position, ?_⟩
  intro diagnostics habout
  apply List.Pairwise.iff_of_mem
  intro first second hfirst hsecond
  obtain ⟨hfirstCut, hfirstPosition⟩ := (habout first hfirst).anchored.position_place
  obtain ⟨hsecondCut, hsecondPosition⟩ := (habout second hsecond).anchored.position_place
  rw [hfirstPosition, hsecondPosition]
  exact LineTable.position_le_position_iff hfirstCut hsecondCut

end SceneScript
