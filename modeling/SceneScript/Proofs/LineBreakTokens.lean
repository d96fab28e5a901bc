import Mathlib.Data.List.Forall2
import SceneScript.Proofs.CommentLines
import SceneScript.Proofs.Insertion
import SceneScript.Proofs.LineBreaks

/-! # The tokens of a text with other line breaks

A carriage return at the end of a line is white space to every token but a comment, which takes it
as its last character. All other tokens stay as they are, at the places where their text has gone.
-/

namespace SceneScript

/-- Whether the token is more than white space. -/
def Token.isVisible : Token → Bool
  | .space | .newline => false
  | _ => true

/-- What becomes of a token of the text when carriage returns are added. -/
inductive Token.CrlfAlike (text : Text) : Spanned Token → Spanned Token → Prop where
  | same (token : Spanned Token) : CrlfAlike text token (token.relocate (Span.crlf text))
  | comment (front body back : Text) (line : '\n' ∉ body)
      (place : text = front ++ ('/' :: '/' :: body ++ '\n' :: back)) :
    CrlfAlike text ⟨.comment body, .ofText (Text.byteLength front) ('/' :: '/' :: body)⟩
      ⟨.comment (body ++ ['\r']),
        .ofText (Text.byteLength (Text.crlf front)) ('/' :: '/' :: body ++ ['\r'])⟩

/-! ## A carriage return at the end of a line -/

theorem exists_readsThrough_nil (lineStart : Bool) (text : Text) :
    ∃ after, ReadsThrough lineStart text [] after := by
  obtain ⟨front, back, after, rfl, hreads, _, hback⟩ :=
    exists_readsThrough (List.append_nil (lexFrom lineStart 0 text)).symm
  cases back with
  | nil =>
      rw [List.append_nil]
      exact ⟨after, hreads⟩
  | cons c rest =>
      rw [lexFrom_cons rfl] at hback
      cases hback

theorem structureTokens_append_return (lineStart : Bool) (offset : Nat) (line : Text) :
    structureTokens lineStart offset (line ++ ['\r']) =
      structureTokens lineStart offset line := by
  have hgap : IsSpacing ['\r'] := rfl
  obtain ⟨after, hreads⟩ := exists_readsThrough_nil lineStart line
  have htokens := hreads.structureTokens_spacing hgap offset
  have hnil : structureTokens after (offset + Text.byteLength line + Text.byteLength ['\r']) [] =
      [] := keptTokens_nil ..
  rwa [hnil, List.append_nil, List.append_nil] at htokens

/-- White space at the end of a line does not make it a comment. -/
theorem Style.isCommentLine_append_blank {gap : Text} (hgap : gap.all isBlank) (line : Text) :
    isCommentLine (line ++ gap) = isCommentLine line := by
  have hslash : '/' ∉ gap := Text.not_mem_of_all_isBlank hgap rfl
  rw [Bool.eq_iff_iff]
  refine ⟨fun h => ?_, fun h => isCommentLine_append h gap⟩
  cases gap with
  | nil => rwa [List.append_nil] at h
  | cons c rest =>
      rw [List.mem_cons, not_or] at hslash
      rcases isCommentLine_append_cons (Ne.symm hslash.1) h with hline | ⟨_, hrest⟩
      · exact hline
      · obtain ⟨blank, body, _, rfl⟩ := (isCommentLine_iff rest).mp hrest
        exact absurd (List.mem_append_right blank List.mem_cons_self) hslash.2

/-- Without a comment, all visible tokens carry structure. -/
theorem keptTokens_isVisible {lineStart : Bool} {offset : Nat} {text : Text}
    (hcomment : ∀ token ∈ lexFrom lineStart offset text, ¬ token.value.isComment) :
    keptTokens Token.isVisible lineStart offset text = structureTokens lineStart offset text := by
  apply List.filter_congr
  intro token hmem
  have hnone := hcomment token hmem
  cases hvalue : token.value <;> first | rfl | simp [hvalue, Token.isComment] at hnone

/-- A comment behind white space is the only visible token of its line. -/
theorem keptTokens_comment {blank body : Text} (hblank : IsSpacing blank) (hbody : '\n' ∉ body)
    (offset : Nat) :
    keptTokens Token.isVisible true offset (blank ++ '/' :: '/' :: body) =
      [⟨.comment body, .ofText (offset + Text.byteLength blank) ('/' :: '/' :: body)⟩] := by
  rw [keptTokens_spaces rfl hblank, keptTokens, lexFrom_comment hbody]
  rfl

section Line

variable {line : Text} (h : '\n' ∉ line)
include h

theorem not_mem_append_return : '\n' ∉ line ++ ['\r'] := by
  simpa using h

theorem keptTokens_append_return {lineStart : Bool} {offset : Nat}
    (hline : lineStart → Style.isCommentLine line = false) :
    keptTokens Token.isVisible lineStart offset (line ++ ['\r']) =
      keptTokens Token.isVisible lineStart offset line := by
  have hnone : ∀ text, '\n' ∉ text → (lineStart → Style.isCommentLine text = false) →
      ∀ token ∈ lexFrom lineStart offset text, ¬ token.value.isComment := by
    intro text htext hcomment
    cases lineStart with
    | false => exact fun token => isComment_of_mem_lexFrom_inline htext
    | true =>
        rcases line_cases htext offset with ⟨_, hall⟩ | ⟨_, _, _, _, hslashes, _⟩
        · exact hall
        · rw [hcomment rfl] at hslashes
          cases hslashes
  have hreturn : lineStart → Style.isCommentLine (line ++ ['\r']) = false := by
    intro hstart
    rw [Style.isCommentLine_append_blank rfl, hline hstart]
  rw [keptTokens_isVisible (hnone line h hline),
    keptTokens_isVisible (hnone _ (not_mem_append_return h) hreturn),
    structureTokens_append_return]

end Line

/-- In a line that stands behind a front, tokens are moved by the number of earlier lines. -/
theorem keptTokens_crlf_line {line : Text} (h : '\n' ∉ line) (front back : Text)
    (lineStart : Bool) :
    keptTokens Token.isVisible lineStart (Text.byteLength (Text.crlf front)) line =
      (keptTokens Token.isVisible lineStart (Text.byteLength front) line).map
        (·.relocate (Span.crlf (front ++ (line ++ back)))) := by
  rw [Text.byteLength_crlf, keptTokens, lexFrom_shift, List.filter_map, keptTokens]
  apply List.map_congr_left
  intro token hmem
  have hspan := span_of_mem_lexFrom (List.mem_filter.mp hmem).1
  rw [Spanned.shift, Spanned.relocate, Span.crlf_eq_shift h front back hspan.1 hspan.2]

theorem forall₂_crlfAlike_map (text : Text) (tokens : Tokens) :
    List.Forall₂ (Token.CrlfAlike text) tokens (tokens.map (·.relocate (Span.crlf text))) := by
  rw [List.forall₂_map_right_iff, List.forall₂_same]
  exact fun token _ => .same token

theorem exists_comment {line : Text} (h : '\n' ∉ line) (hcomment : Style.isCommentLine line) :
    ∃ blank body, line = blank ++ '/' :: '/' :: body ∧ IsSpacing blank ∧ '\n' ∉ body := by
  obtain ⟨blank, body, hblank, rfl⟩ := (Style.isCommentLine_iff line).mp hcomment
  simp only [List.mem_append, List.mem_cons, not_or] at h
  exact ⟨blank, body, rfl, .of_all_isBlank hblank h.1, h.2.2.2⟩

/-- The tokens of a line without and with the carriage return. -/
theorem keptTokens_line_alike {line : Text} (h : '\n' ∉ line) (front back : Text)
    (lineStart : Bool) :
    List.Forall₂ (Token.CrlfAlike (front ++ (line ++ '\n' :: back)))
      (keptTokens Token.isVisible lineStart (Text.byteLength front) line)
      (keptTokens Token.isVisible lineStart (Text.byteLength (Text.crlf front))
        (line ++ ['\r'])) := by
  by_cases hcomment : lineStart → Style.isCommentLine line = false
  · rw [keptTokens_append_return h hcomment, keptTokens_crlf_line h front ('\n' :: back)]
    exact forall₂_crlfAlike_map _ _
  · obtain ⟨rfl, hslashes⟩ := Classical.not_imp.mp hcomment
    obtain ⟨blank, body, rfl, hblank, hbody⟩ := exists_comment h (Bool.of_not_eq_false hslashes)
    have hlonger := not_mem_append_return hbody
    have hreturn : blank ++ '/' :: '/' :: body ++ ['\r'] =
        blank ++ '/' :: '/' :: (body ++ ['\r']) := by simp
    rw [hreturn, keptTokens_comment hblank hbody, keptTokens_comment hblank hlonger,
      ← Text.byteLength_append]
    have hfront : Text.byteLength (Text.crlf front) + Text.byteLength blank =
        Text.byteLength (Text.crlf (front ++ blank)) := by
      rw [Text.crlf_append, Text.crlf_of_not_mem hblank.newline_not_mem, Text.byteLength_append]
    rw [hfront]
    exact .cons (.comment (front ++ blank) body back hbody (by simp)) .nil

/-! ## All lines -/

/-- White space apart, the tokens of the text with carriage returns are those of the text. -/
theorem keptTokens_crlf_alike (front text : Text) (lineStart : Bool) :
    List.Forall₂ (Token.CrlfAlike (front ++ text))
      (keptTokens Token.isVisible lineStart (Text.byteLength front) text)
      (keptTokens Token.isVisible lineStart (Text.byteLength (Text.crlf front))
        (Text.crlf text)) := by
  induction text using Text.line_induction generalizing front lineStart with
  | last line hline =>
      have hmoved := keptTokens_crlf_line hline front [] lineStart
      rw [List.append_nil] at hmoved
      rw [Text.crlf_of_not_mem hline, hmoved]
      exact forall₂_crlfAlike_map _ _
  | line line rest hline ih =>
      have hline' := keptTokens_line_alike hline front rest lineStart
      have hrest := ih (front ++ (line ++ ['\n'])) true
      have hsource : front ++ (line ++ ['\n']) ++ rest = front ++ (line ++ '\n' :: rest) := by
        simp
      rw [hsource, Text.byteLength_append_line, Text.byteLength_crlf_append_line hline] at hrest
      rw [Text.crlf_line hline, List.append_cons line '\r', keptTokens_append_newline rfl,
        keptTokens_append_newline rfl]
      exact List.rel_append hline' hrest

/-- Without comments, the tokens are the same. -/
theorem filter_isTrivia_of_alike {text : Text} {tokens moved : Tokens}
    (h : List.Forall₂ (Token.CrlfAlike text) tokens moved) :
    (moved.filter fun token => !token.value.isTrivia) =
      (tokens.filter fun token => !token.value.isTrivia).map (·.relocate (Span.crlf text)) := by
  induction h with
  | nil => rfl
  | @cons token _ _ _ halike _ ih =>
      cases halike with
      | same =>
          by_cases htrivia : token.value.isTrivia
          · rw [List.filter_cons_of_neg (by simp [Spanned.relocate, htrivia]),
              List.filter_cons_of_neg (by simp [htrivia]), ih]
          · rw [List.filter_cons_of_pos (by simp [Spanned.relocate, htrivia]),
              List.filter_cons_of_pos (by simp [htrivia]), ih, List.map_cons]
      | comment front body back line place => exact ih

theorem structureTokens_eq_filter (lineStart : Bool) (offset : Nat) (text : Text) :
    structureTokens lineStart offset text =
      (keptTokens Token.isVisible lineStart offset text).filter
        fun token => !token.value.isTrivia := by
  rw [structureTokens, keptTokens, keptTokens, List.filter_filter]
  apply List.filter_congr
  intro token _
  cases token.value <;> rfl

/-- The tokens that carry structure go with their text. -/
theorem significantTokens_crlf (source : Text) :
    significantTokens (Text.crlf source) =
      (significantTokens source).map (·.relocate (Span.crlf source)) := by
  have halike := keptTokens_crlf_alike [] source true
  rw [significantTokens_eq, significantTokens_eq, structureTokens_eq_filter,
    structureTokens_eq_filter]
  exact filter_isTrivia_of_alike halike

end SceneScript
