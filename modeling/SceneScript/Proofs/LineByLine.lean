import SceneScript.Proofs.Insertion

/-! # Tokens line by line

A newline ends every form, whatever is still open in front of it, and behind it nothing is left of
the line before. So a text has the tokens of its lines, each read as a text of its own and moved to
its place.
-/

namespace SceneScript

/-- The newline at an offset, which takes one byte. -/
def Token.newlineAt (offset : Nat) : Spanned Token :=
  ⟨.newline, ⟨offset, offset + 1, Nat.le_succ offset⟩⟩

/-- The text is empty or begins where a line ends. -/
def OpensWithNewline (text : Text) : Prop :=
  text = [] ∨ ∃ lines, text = '\n' :: lines

/-- A text has the same tokens wherever it begins, moved to that place. -/
theorem lexFrom_eq_map_shift (lineStart : Bool) (offset : Nat) (text : Text) :
    lexFrom lineStart offset text = (lexFrom lineStart 0 text).map (·.shift offset) := by
  rw [← lexFrom_shift, Nat.zero_add]

/-- What stands behind a newline is read as a text of its own, even if the text in front of it
begins in the middle of a line. -/
theorem lexFrom_append_newline_shift (lineStart : Bool) (front back : Text) :
    lexFrom lineStart 0 (front ++ '\n' :: back) =
      lexFrom lineStart 0 front ++ Token.newlineAt (Text.byteLength front) ::
        (tokenize back).map (·.shift (Text.byteLength front + 1)) := by
  rw [lexFrom_append_newline, lexFrom_eq_map_shift true, Token.newlineAt]
  simp only [Nat.zero_add]
  rfl

/-- A text that begins where a line ends is read from there as a text of its own: the newline comes
first, and it puts the reader at the start of a line in any case. -/
theorem lexFrom_append_of_opensWithNewline {back : Text} (h : OpensWithNewline back)
    (lineStart : Bool) (offset : Nat) (front : Text) :
    lexFrom lineStart offset (front ++ back) =
      lexFrom lineStart offset front ++
        lexFrom true (offset + Text.byteLength front) back := by
  rcases h with rfl | ⟨lines, rfl⟩
  · rw [lexFrom_nil, List.append_nil, List.append_nil]
  · have hfirst := lexFrom_append_newline true (offset + Text.byteLength front) [] lines
    rw [List.nil_append, lexFrom_nil, List.nil_append] at hfirst
    rw [lexFrom_append_newline, hfirst]
    rfl

/-- A newline cuts the tokens of a text in two: in front of it stand those of the text up to it, and
behind it those of the rest as a text of its own, moved past the newline. So with any other text on
a line, all other lines have the same tokens, and those behind it are moved by the change of its
length. -/
theorem tokenize_line_by_line (front back : Text) :
    tokenize (front ++ '\n' :: back) =
        tokenize front ++ Token.newlineAt (Text.byteLength front) ::
          (tokenize back).map (·.shift (Text.byteLength front + 1)) ∧
      tokenizeInline (front ++ '\n' :: back) =
        tokenizeInline front ++ Token.newlineAt (Text.byteLength front) ::
          (tokenize back).map (·.shift (Text.byteLength front + 1)) ∧
      ∀ earlier line later, EndsLine earlier → OpensWithNewline later →
        tokenize (earlier ++ (line ++ later)) =
          tokenize earlier ++ ((tokenize line).map (·.shift (Text.byteLength earlier)) ++
            (tokenize later).map
              (·.shift (Text.byteLength earlier + Text.byteLength line))) := by
  refine ⟨lexFrom_append_newline_shift true front back,
    lexFrom_append_newline_shift false front back, ?_⟩
  intro earlier line later hearlier hlater
  calc
    tokenize (earlier ++ (line ++ later))
    _ = tokenize earlier ++ lexFrom true (Text.byteLength earlier) (line ++ later) := by
      rw [tokenize, lexFrom_append_of_endsLine hearlier, Nat.zero_add]
      rfl
    _ = tokenize earlier ++ (lexFrom true (Text.byteLength earlier) line ++
          lexFrom true (Text.byteLength earlier + Text.byteLength line) later) := by
      rw [lexFrom_append_of_opensWithNewline hlater]
    _ = _ := by
      rw [lexFrom_eq_map_shift true (Text.byteLength earlier),
        lexFrom_eq_map_shift true (Text.byteLength earlier + Text.byteLength line)]
      rfl

/-- The quote and the slashes of the first line open nothing on the second. -/
example :
    (tokenizeInline ['/', '/', '\n', '/', '/', '\'']).map (·.value) =
      [.run ['/', '/'], .newline, .comment ['\'']] := by
  decide +kernel

end SceneScript
