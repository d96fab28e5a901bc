import SceneScript.Proofs.Insertion
import SceneScript.Proofs.PositionOrder

/-! # Lint line by line

The lint keeps nothing from one line to the next but the offset. So what it finds behind a newline
is what it finds in the text behind it alone, moved down by the lines in front of it and right by
their bytes.
-/

namespace SceneScript

/-! ## Findings at another place -/

/-- The finding at another place. -/
def Finding.relocate (place : Span → Span) : Finding → Finding
  | createWithoutBrace last => createWithoutBrace (place last)
  | styleWithoutBrace last => styleWithoutBrace (place last)
  | unknownInstruction line => unknownInstruction (line.relocate place)

namespace Lint

/-- The findings about a trimmed line that starts at `offset`. -/
def checkTrimmed (offset : Nat) (line : Text) : List Finding :=
  if line = [] ∨ ['/', '/'].isPrefixOf line then []
  else
    (if hasCreateCommand line ∧ line.getLast? ≠ some '{' then
      [.createWithoutBrace (lastCharacter line offset)] else []) ++
    (if styleWord.isPrefixOf line ∧ '{' ∉ line then
      [.styleWithoutBrace (lastCharacter line offset)] else []) ++
    (if !startsInstruction line ∧ ':' ∉ line ∧ line.getLast? ≠ some '}' then
      [.unknownInstruction ⟨line, .ofText offset line⟩] else [])

theorem checkLine_eq (start : Nat) (raw : Text) :
    checkLine start raw = checkTrimmed (start + Text.leadingBlank raw) (Text.trim raw) :=
  rfl

theorem checkTrimmed_relocate {place : Span → Span} {line : Text} {offset moved : Nat}
    (hline : .ofText moved line = place (.ofText offset line))
    (hlast : lastCharacter line moved = place (lastCharacter line offset)) :
    checkTrimmed moved line = (checkTrimmed offset line).map (Finding.relocate place) := by
  rw [checkTrimmed, checkTrimmed]
  split
  next => rfl
  next =>
    rw [List.map_append, List.map_append, hline, hlast]
    congr 1
    · congr 1
      · split <;> rfl
      · split <;> rfl
    · split <;> rfl

theorem lastCharacter_add (line : Text) (offset count : Nat) :
    lastCharacter line (offset + count) = (lastCharacter line offset).shift count := by
  have hsize := size_getLast?_le line
  simp only [lastCharacter, Span.shift, Span.mk.injEq]
  omega

theorem checkLine_add (start count : Nat) (raw : Text) :
    checkLine (start + count) raw =
      (checkLine start raw).map (Finding.relocate (·.shift count)) := by
  rw [checkLine_eq, checkLine_eq, Nat.add_right_comm]
  apply checkTrimmed_relocate
  · rw [Span.shift_ofText, Nat.add_comm]
  · exact lastCharacter_add _ _ _

theorem checkLines_add (start count : Nat) (lines : List Text) :
    checkLines (start + count) lines =
      (checkLines start lines).map (Finding.relocate (·.shift count)) := by
  induction lines generalizing start with
  | nil => rfl
  | cons raw rest ih =>
      have hnext : start + count + Text.byteLength raw + 1 =
          start + Text.byteLength raw + 1 + count := by omega
      rw [checkLines, checkLines, List.map_append, checkLine_add, hnext, ih]

/-- The offset is carried past all lines that were checked and the newlines behind them. -/
theorem checkLines_append {lines : List Text} (h : lines ≠ []) (start : Nat) (more : List Text) :
    checkLines start (lines ++ more) = checkLines start lines ++
      checkLines (start + Text.byteLength (Text.join '\n' lines) + 1) more := by
  induction lines generalizing start with
  | nil => exact absurd rfl h
  | cons raw rest ih =>
      rw [List.cons_append, checkLines, checkLines, List.append_assoc]
      cases rest with
      | nil => rfl
      | cons next others =>
          have hjoin : start + Text.byteLength (Text.join '\n' (raw :: next :: others)) =
              start + Text.byteLength raw + 1 +
                Text.byteLength (Text.join '\n' (next :: others)) := by
            rw [Text.join, Text.byteLength_append, ← Nat.add_assoc, Nat.add_assoc _ 1]
            rfl
          rw [ih (List.cons_ne_nil next others), hjoin]

theorem findings_append_newline (front back : Text) :
    findings (front ++ '\n' :: back) = findings front ++
      (findings back).map (Finding.relocate (·.shift (Text.byteLength front + 1))) := by
  have hfront := checkLines_append (Text.splitAt_ne_nil '\n' front) 0 (Text.splitAt '\n' back)
  rw [Text.join_splitAt, Nat.add_assoc, checkLines_add 0] at hfront
  rw [findings, Text.splitAt_append]
  exact hfront

end Lint

/-! ## Positions in a text that goes on -/

/-- The position as many lines further down. -/
def Position.down (lines : Nat) (position : Position) : Position :=
  ⟨position.line + lines, position.column, Nat.add_pos_left position.line_pos lines,
    position.column_pos⟩

theorem Text.lastLine_append_newline (front back : Text) :
    lastLine (front ++ '\n' :: back) = lastLine back := by
  have hreverse : (front ++ '\n' :: back).reverse = back.reverse ++ '\n' :: front.reverse := by
    simp
  rw [lastLine, lastLine, List.rtakeWhile, List.rtakeWhile, hreverse, List.takeWhile_append]
  split
  next hall =>
    rw [List.takeWhile_cons_of_neg (by simp), List.append_nil,
      (List.takeWhile_prefix _).eq_of_length hall]
  next => rfl

theorem Position.after_append_newline (front back : Text) :
    after (front ++ '\n' :: back) = (after back).down (front.count '\n' + 1) := by
  have hcount : (front ++ '\n' :: back).count '\n' = back.count '\n' + (front.count '\n' + 1) := by
    rw [List.count_append, List.count_cons_self, Nat.add_left_comm]
  simp only [after, down, Text.lastLine_append_newline, hcount, Nat.add_right_comm]

namespace LineTable

variable {text : Text} {place : Nat}

theorem position_append (h : text.IsCut place) (back : Text) :
    (ofSource (text ++ back)).position place = (ofSource text).position place := by
  obtain ⟨front, rest, rfl, rfl⟩ := h
  rw [List.append_assoc, position_byteLength, position_byteLength]

theorem position_append_newline (h : text.IsCut place) (front : Text) :
    (ofSource (front ++ '\n' :: text)).position (place + (Text.byteLength front + 1)) =
      ((ofSource text).position place).down (front.count '\n' + 1) := by
  obtain ⟨before, rest, rfl, rfl⟩ := h
  have hplace : Text.byteLength before + (Text.byteLength front + 1) =
      Text.byteLength (front ++ '\n' :: before) := by
    rw [Text.byteLength_append, Nat.add_comm, Nat.add_assoc]
    rfl
  have hsource : front ++ '\n' :: (before ++ rest) = (front ++ '\n' :: before) ++ rest := by simp
  rw [hplace, hsource, position_byteLength, position_byteLength, Position.after_append_newline]

end LineTable

/-! ## Warnings -/

/-- The label, moved right by `offset` bytes. -/
def Label.shift (label : Label) (offset : Nat) : Label :=
  { label with span := label.span.shift offset }

/-- The diagnostic of a text when that text stands behind `front` and a newline. -/
def Diagnostic.behind (front : Text) (diagnostic : Diagnostic) : Diagnostic :=
  { diagnostic with
    labels := diagnostic.labels.map (·.shift (Text.byteLength front + 1))
    position := diagnostic.position.down (front.count '\n' + 1) }

namespace Finding

theorem isCut_place_of_mem_findings {source : Text} {finding : Finding}
    (h : finding ∈ Lint.findings source) : source.IsCut finding.diagnostic.place :=
  (anchored_of_mem_lint (List.mem_map_of_mem h)).position_place.1

theorem locate_append {text : Text} {finding : Finding}
    (h : text.IsCut finding.diagnostic.place) (back : Text) :
    finding.diagnostic.locate (.ofSource (text ++ back)) =
      finding.diagnostic.locate (.ofSource text) :=
  congrArg (fun position => { finding.diagnostic with position })
    (LineTable.position_append h back)

theorem locate_relocate {text : Text} {finding : Finding}
    (h : text.IsCut finding.diagnostic.place) (front : Text) :
    (finding.relocate (·.shift (Text.byteLength front + 1))).diagnostic.locate
        (.ofSource (front ++ '\n' :: text)) =
      (finding.diagnostic.locate (.ofSource text)).behind front := by
  have hposition := LineTable.position_append_newline h front
  cases finding <;> exact congrArg (fun position => Diagnostic.mk _ _ _ _ _ position) hposition

end Finding

/-- The lint judges every line by itself. Where two texts are joined by a newline, the warnings are
those of the first text and then those of the second, with the same codes, messages and columns, on
lines that are moved down by the newlines in front of them and with labels that are moved right by
the bytes in front of them. -/
theorem lint_append_newline (front back : Text) :
    lint (front ++ '\n' :: back) = lint front ++ (lint back).map (·.behind front) := by
  have hfront : (Lint.findings front).map
        (fun finding => finding.diagnostic.locate (.ofSource (front ++ '\n' :: back))) =
      lint front :=
    List.map_congr_left fun finding hmem =>
      Finding.locate_append (Finding.isCut_place_of_mem_findings hmem) ('\n' :: back)
  have hback : ((Lint.findings back).map
        (Finding.relocate (·.shift (Text.byteLength front + 1)))).map
        (fun finding => finding.diagnostic.locate (.ofSource (front ++ '\n' :: back))) =
      (lint back).map (·.behind front) := by
    rw [List.map_map, lint, List.map_map]
    exact List.map_congr_left fun finding hmem =>
      Finding.locate_relocate (Finding.isCut_place_of_mem_findings hmem) front
  rw [lint, Lint.findings_append_newline, List.map_append, hfront, hback]

end SceneScript
