import SceneScript.Document.Style
import SceneScript.Lint
import SceneScript.Proofs.Cutting
import SceneScript.Proofs.Enclosed

/-! # Comment lines

Comment lines are recognised three times: when a source is split into tokens, when the lines of a
style body are filtered, and when single lines are linted. The tokens of a line depend on that line
alone, so all three agree, also in a style body, which begins and ends in the middle of a line.
-/

namespace SceneScript

/-! ## Lines and their places -/

/-- Lines with their places, of which the first begins at `offset`. -/
def placeLines (offset : Nat) : List Text → List (Spanned Text)
  | [] => []
  | line :: rest =>
    ⟨line, .ofText offset line⟩ :: placeLines (offset + Text.byteLength line + 1) rest

/-- The lines of a text that begins at `offset`. -/
def linesFrom (offset : Nat) (text : Text) : List (Spanned Text) :=
  placeLines offset (Text.splitAt '\n' text)

section Lines

variable {offset : Nat} {lines : List Text} {line : Spanned Text}

theorem map_value_placeLines (offset : Nat) (lines : List Text) :
    (placeLines offset lines).map (·.value) = lines := by
  induction lines generalizing offset with
  | nil => rfl
  | cons line rest ih => rw [placeLines, List.map_cons, ih]

theorem value_mem_of_mem_placeLines (h : line ∈ placeLines offset lines) : line.value ∈ lines := by
  rw [← map_value_placeLines offset lines]
  exact List.mem_map_of_mem h

theorem not_mem_of_mem_linesFrom {text : Text} (h : line ∈ linesFrom offset text) :
    '\n' ∉ line.value :=
  Text.not_mem_of_mem_splitAt (value_mem_of_mem_placeLines h)

theorem span_of_mem_placeLines (h : line ∈ placeLines offset lines) :
    offset ≤ line.span.start ∧ line.span = .ofText line.span.start line.value := by
  induction lines generalizing offset with
  | nil => cases h
  | cons first rest ih =>
      rcases List.mem_cons.mp h with rfl | hmem
      · exact ⟨Nat.le_refl offset, rfl⟩
      · obtain ⟨hstart, hspan⟩ := ih hmem
        exact ⟨by omega, hspan⟩

theorem pairwise_placeLines (offset : Nat) (lines : List Text) :
    (placeLines offset lines).Pairwise fun a b => a.span.stop < b.span.start := by
  induction lines generalizing offset with
  | nil => exact .nil
  | cons first rest ih =>
      refine List.pairwise_cons.mpr ⟨?_, ih _⟩
      intro line hmem
      exact (span_of_mem_placeLines hmem).1

end Lines

/-! ## The tokens of a line -/

section Tokens

variable {lineStart : Bool} {offset : Nat} {first : Text} {rest : List Text}

theorem between_append_newline (start stop : Nat) (lineStart : Bool) (offset : Nat)
    (front back : Text) (hstop : stop ≤ offset + Text.byteLength front) :
    Tokens.between start stop (lexFrom lineStart offset (front ++ '\n' :: back)) =
      Tokens.between start stop (lexFrom lineStart offset front) := by
  have hlater : Tokens.between start stop (⟨.newline, ⟨offset + Text.byteLength front,
      offset + Text.byteLength front + 1, Nat.le_succ _⟩⟩ ::
        lexFrom true (offset + Text.byteLength front + 1) back) = [] := by
    apply Tokens.between_eq_nil
    intro token hmem
    rcases List.mem_cons.mp hmem with rfl | hmem
    · simp only
      omega
    · have hspan := span_of_mem_lexFrom hmem
      have hpos := nonempty_of_mem_lexFrom hmem
      omega
  rw [lexFrom_append_newline, Tokens.between_append, hlater, List.append_nil]

theorem between_newline_append (start stop : Nat) (lineStart : Bool) (offset : Nat)
    (front back : Text) (hstart : offset + Text.byteLength front < start) :
    Tokens.between start stop (lexFrom lineStart offset (front ++ '\n' :: back)) =
      Tokens.between start stop (lexFrom true (offset + Text.byteLength front + 1) back) := by
  have hearlier : Tokens.between start stop (lexFrom lineStart offset front ++
      [⟨.newline, ⟨offset + Text.byteLength front,
        offset + Text.byteLength front + 1, Nat.le_succ _⟩⟩]) = [] := by
    apply Tokens.between_eq_nil
    intro token hmem
    rcases List.mem_append.mp hmem with hmem | hmem
    · have hspan := span_of_mem_lexFrom hmem
      have hpos := nonempty_of_mem_lexFrom hmem
      omega
    · rw [List.mem_singleton.mp hmem]
      simp only
      omega
  rw [lexFrom_append_newline, List.append_cons, Tokens.between_append, hearlier, List.nil_append]

theorem between_lexFrom (lineStart : Bool) (offset : Nat) (text : Text) :
    Tokens.between offset (offset + Text.byteLength text) (lexFrom lineStart offset text) =
      lexFrom lineStart offset text :=
  Tokens.between_eq_self fun _ hmem => span_of_mem_lexFrom hmem

/-- The tokens that lie in the first line are those of that line alone. -/
theorem between_first_line (lineStart : Bool) (offset : Nat) (first : Text) (rest : List Text) :
    Tokens.between offset (offset + Text.byteLength first)
      (lexFrom lineStart offset (Text.join '\n' (first :: rest))) =
        lexFrom lineStart offset first := by
  cases rest with
  | nil => exact between_lexFrom lineStart offset first
  | cons next more =>
      rw [Text.join, between_append_newline _ _ _ _ _ _ (Nat.le_refl _), between_lexFrom]

/-- The tokens that lie in a later line are those of that line as a text of its own. -/
theorem between_later_line {line : Spanned Text}
    (h : line ∈ placeLines (offset + Text.byteLength first + 1) rest) :
    Tokens.between line.span.start line.span.stop
      (lexFrom lineStart offset (Text.join '\n' (first :: rest))) =
        lexFrom true line.span.start line.value := by
  induction rest generalizing lineStart offset first with
  | nil => cases h
  | cons next more ih =>
      have hstart := (span_of_mem_placeLines h).1
      rw [Text.join, between_newline_append _ _ _ _ _ _ hstart]
      rcases List.mem_cons.mp h with rfl | hmem
      · exact between_first_line true _ next more
      · exact ih hmem

/-- Every token but a newline lies in a line. -/
theorem mem_lexFrom_join {token : Spanned Token} (hnewline : token.value ≠ .newline) :
    token ∈ lexFrom lineStart offset (Text.join '\n' (first :: rest)) ↔
      token ∈ lexFrom lineStart offset first ∨
        ∃ line ∈ placeLines (offset + Text.byteLength first + 1) rest,
          token ∈ lexFrom true line.span.start line.value := by
  induction rest generalizing lineStart offset first with
  | nil => simp [Text.join, placeLines]
  | cons next more ih =>
      have hseparator : token ≠ ⟨.newline, ⟨offset + Text.byteLength first,
          offset + Text.byteLength first + 1, Nat.le_succ _⟩⟩ := by
        rintro rfl
        exact hnewline rfl
      rw [Text.join, lexFrom_append_newline, List.mem_append, List.mem_cons, ih, placeLines]
      simp only [hseparator, false_or, List.mem_cons, or_and_right, exists_or, exists_eq_left,
        Span.ofText]

end Tokens

/-! ## Comments in a line -/

/-- Whether the token is a comment. -/
def Token.isComment : Token → Bool
  | .comment _ => true
  | _ => false

/-- Whether a comment lies in the span. -/
def Tokens.hasCommentIn (tokens : Tokens) (span : Span) : Bool :=
  (Tokens.between span.start span.stop tokens).any fun token => token.value.isComment

/-- A comment is read at the start of a line only. -/
theorem comment?_of_isComment {lineStart : Bool} {c : Char} {rest : Text}
    (h : (lexeme lineStart c rest).token.isComment) :
    lineStart ∧ Lexeme.comment? c rest = some (lexeme lineStart c rest) := by
  have hspells := (lexeme_reads lineStart c rest).spells
  have hslash : c = '/' := by
    cases htoken : (lexeme lineStart c rest).token <;> rw [htoken] at h hspells <;>
      first | exact (List.cons.inj hspells.2).1 | cases h
  subst hslash
  have hnumber : Lexeme.number? '/' rest = none :=
    Lexeme.number?_eq_none (by decide) (by decide) rest
  rw [lexeme_of_isRunChar (by decide) (by decide), hnumber] at h ⊢
  cases lineStart with
  | false => cases h
  | true =>
      cases hcomment : Lexeme.comment? '/' rest with
      | some found => exact ⟨rfl, rfl⟩
      | none =>
          rw [hcomment] at h
          cases h

/-- In the middle of a line there is no comment before the next line. -/
theorem isComment_of_mem_lexFrom_inline {offset : Nat} {text : Text} (h : '\n' ∉ text)
    {token : Spanned Token} (hmem : token ∈ lexFrom false offset text) :
    ¬ token.value.isComment := by
  generalize hline : false = lineStart at hmem
  induction lineStart, offset, text using lexFrom_induction with
  | nil lineStart offset =>
      rw [lexFrom_nil] at hmem
      cases hmem
  | cons lineStart offset c rest found hfound ih =>
      subst hline
      rw [List.mem_cons, not_or] at h
      rw [lexFrom_cons hfound] at hmem
      rcases List.mem_cons.mp hmem with rfl | hmem
      · intro hcomment
        rw [← hfound] at hcomment
        cases (comment?_of_isComment hcomment).1
      · have hspells := hfound ▸ (lexeme_reads false c rest).spells
        have hnewline : found.token ≠ .newline := by
          intro htoken
          rw [htoken] at hspells
          exact h.1 (List.cons.inj hspells).1.symm
        have hafter : false = found.token.lineStartAfter false := by
          cases htoken : found.token <;> first | rfl | exact absurd htoken hnewline
        exact ih (fun hrest => h.2 (List.mem_of_mem_drop hrest)) hafter hmem

/-- White space is one token in front of what is not white space. -/
theorem readsThrough_spacing {blank core : Text} (hblank : IsSpacing blank)
    (hcore : ∀ c ∈ core.head?, isBlank c = false) (lineStart : Bool) :
    ReadsThrough lineStart blank core lineStart := by
  cases blank with
  | nil => exact .done lineStart core
  | cons c rest =>
      rw [IsSpacing, List.all_cons, Bool.and_eq_true, Bool.and_eq_true, decide_eq_true_eq] at hblank
      have htake : (rest ++ core).takeWhile (fun d => isBlank d && d ≠ '\n') = rest := by
        rw [List.takeWhile_append_of_pos (List.all_eq_true.mp hblank.2)]
        cases core with
        | nil => simp
        | cons d tail =>
            rw [List.takeWhile_cons_of_neg (by simp [hcore d rfl]), List.append_nil]
      have hfound := lexeme_space hblank.1.1 hblank.1.2 lineStart (rest ++ core)
      rw [htake] at hfound
      refine .token hfound (Nat.le_refl _) ?_
      rw [List.drop_length]
      exact .done lineStart core

theorem eq_space_of_mem_lexFrom {blank : Text} (h : IsSpacing blank) {lineStart : Bool}
    {offset : Nat} {token : Spanned Token} (hmem : token ∈ lexFrom lineStart offset blank) :
    token.value = .space := by
  cases blank with
  | nil =>
      rw [lexFrom_nil] at hmem
      cases hmem
  | cons c rest =>
      rw [IsSpacing, List.all_cons, Bool.and_eq_true, Bool.and_eq_true, decide_eq_true_eq] at h
      have hfound := lexeme_space h.1.1 h.1.2 lineStart rest
      rw [List.takeWhile_eq_self_iff.mpr (List.all_eq_true.mp h.2)] at hfound
      rw [lexFrom_cons hfound, List.drop_length, lexFrom_nil, List.mem_singleton] at hmem
      rw [hmem]

/-- When no comment stands first on a line, none follows. -/
theorem isComment_of_mem_lexFrom_cons {offset : Nat} {c : Char} {rest : Text}
    (hblank : isBlank c = false) (hcomment : Lexeme.comment? c rest = none) (h : '\n' ∉ rest)
    {token : Spanned Token} (hmem : token ∈ lexFrom true offset (c :: rest)) :
    ¬ token.value.isComment := by
  obtain ⟨found, hfound⟩ : ∃ found, lexeme true c rest = found := ⟨_, rfl⟩
  have hspells := hfound ▸ (lexeme_reads true c rest).spells
  have hafter : found.token.lineStartAfter true = false := by
    cases htoken : found.token <;> first | rfl | skip
    all_goals
      rw [htoken] at hspells
    · rw [Token.Spells, List.all_cons, hblank] at hspells
      cases hspells.2
    · rw [(List.cons.inj hspells).1] at hblank
      cases hblank
  rw [lexFrom_cons hfound] at hmem
  rcases List.mem_cons.mp hmem with rfl | hmem
  · intro htoken
    rw [← hfound] at htoken
    have hsome := (comment?_of_isComment htoken).2
    rw [hcomment] at hsome
    cases hsome
  · rw [hafter] at hmem
    exact isComment_of_mem_lexFrom_inline (fun hrest => h (List.mem_of_mem_drop hrest)) hmem

theorem isComment_of_mem_lexFrom_trimStart {line : Text}
    (hslashes : ¬ ∃ body, Text.trimStart line = '/' :: '/' :: body)
    (hline : '\n' ∉ Text.trimStart line) {offset : Nat} {token : Spanned Token}
    (hmem : token ∈ lexFrom true offset (Text.trimStart line)) : ¬ token.value.isComment := by
  have hnot := List.head?_dropWhile_not isBlank line
  rw [← Text.trimStart] at hnot
  cases hcore : Text.trimStart line with
  | nil =>
      rw [hcore, lexFrom_nil] at hmem
      cases hmem
  | cons c rest =>
      rw [hcore] at hslashes hline hmem hnot
      rw [List.mem_cons, not_or] at hline
      have hcomment : Lexeme.comment? c rest = none := by
        cases rest with
        | nil => rfl
        | cons d body =>
            rw [Lexeme.comment?, if_neg]
            rintro ⟨rfl, rfl⟩
            exact hslashes ⟨body, rfl⟩
      exact isComment_of_mem_lexFrom_cons hnot hcomment hline.2 hmem

/-- The tokens of a line are white space and the tokens of what is left after trimming. -/
theorem lexFrom_line {line : Text} (h : '\n' ∉ line) (offset : Nat) :
    (∀ token ∈ lexFrom true offset (line.takeWhile isBlank), token.value = .space) ∧
      lexFrom true offset line = lexFrom true offset (line.takeWhile isBlank) ++
        lexFrom true (offset + Text.leadingBlank line) (Text.trimStart line) := by
  have hspacing : IsSpacing (line.takeWhile isBlank) :=
    .of_all_isBlank List.all_takeWhile fun hmem => h (List.takeWhile_subset isBlank hmem)
  have hfirst : ∀ c ∈ (Text.trimStart line).head?, isBlank c = false := by
    intro c hmem
    have hnot := List.head?_dropWhile_not isBlank line
    rw [← Text.trimStart, Option.mem_def.mp hmem] at hnot
    exact hnot
  have htokens := (readsThrough_spacing hspacing hfirst true).lexFrom_append offset
  rw [Text.takeWhile_append_trimStart] at htokens
  exact ⟨fun token hmem => eq_space_of_mem_lexFrom hspacing hmem, htokens⟩

/-- The first two characters of a line after its leading white space decide whether it is a comment,
which then takes the rest of the line. -/
theorem line_cases {line : Text} (h : '\n' ∉ line) (offset : Nat) :
    (Style.isCommentLine line = false ∧
      ∀ token ∈ lexFrom true offset line, ¬ token.value.isComment) ∨
    ∃ blank body, line = blank ++ '/' :: '/' :: body ∧ blank.all isBlank ∧
      Style.isCommentLine line ∧ (∀ token ∈ lexFrom true offset blank, token.value = .space) ∧
      lexFrom true offset line = lexFrom true offset blank ++
        [⟨.comment body, .ofText (offset + Text.byteLength blank) ('/' :: '/' :: body)⟩] := by
  have hsplit := Text.takeWhile_append_trimStart line
  have hline : '\n' ∉ Text.trimStart line := by
    intro hmem
    exact h (hsplit ▸ List.mem_append_right _ hmem)
  obtain ⟨hspaces, htokens⟩ := lexFrom_line h offset
  by_cases hslashes : ∃ body, Text.trimStart line = '/' :: '/' :: body
  · obtain ⟨body, hbody⟩ := hslashes
    have hrest : '\n' ∉ body := by
      rw [hbody] at hline
      exact fun hmem => hline (List.mem_cons_of_mem _ (List.mem_cons_of_mem _ hmem))
    rw [hbody, lexFrom_comment hrest] at htokens
    refine .inr ⟨line.takeWhile isBlank, body, ?_, List.all_takeWhile, ?_, hspaces, htokens⟩
    · rw [← hbody, hsplit]
    · rw [Style.isCommentLine, hbody]
      rfl
  · refine .inl ⟨?_, ?_⟩
    · rw [Style.isCommentLine, Bool.eq_false_iff]
      intro hprefix
      obtain ⟨body, hbody⟩ := List.isPrefixOf_iff_prefix.mp hprefix
      exact hslashes ⟨body, hbody.symm⟩
    · intro token hmem
      rw [htokens] at hmem
      rcases List.mem_append.mp hmem with hspace | hmem
      · rw [hspaces token hspace]
        simp [Token.isComment]
      · exact isComment_of_mem_lexFrom_trimStart hslashes hline hmem

theorem any_isComment_line {line : Text} (h : '\n' ∉ line) (offset : Nat) :
    ((lexFrom true offset line).any fun token => token.value.isComment) =
      Style.isCommentLine line := by
  rcases line_cases h offset with ⟨hline, hnone⟩ | ⟨blank, body, _, _, hline, _, htokens⟩
  · rw [hline]
    exact List.any_eq_false.mpr hnone
  · rw [hline, htokens, List.any_append, Bool.or_eq_true]
    exact .inr rfl

/-! ## The text of a comment line -/

namespace Style

theorem isCommentLine_iff (line : Text) :
    isCommentLine line ↔
      ∃ blank body, blank.all isBlank ∧ line = blank ++ '/' :: '/' :: body := by
  constructor
  · intro hcomment
    obtain ⟨body, hbody⟩ := List.isPrefixOf_iff_prefix.mp hcomment
    have hsplit := Text.takeWhile_append_trimStart line
    rw [← hbody] at hsplit
    exact ⟨line.takeWhile isBlank, body, List.all_takeWhile, hsplit.symm⟩
  · rintro ⟨blank, body, hblank, rfl⟩
    rw [isCommentLine, Text.trimStart_append hblank]
    rfl

theorem isCommentLine_append {line : Text} (h : isCommentLine line) (more : Text) :
    isCommentLine (line ++ more) := by
  obtain ⟨blank, body, hblank, rfl⟩ := (isCommentLine_iff line).mp h
  exact (isCommentLine_iff _).mpr ⟨blank, body ++ more, hblank, by simp⟩

/-- The slashes of a comment stand together, so that a character between two texts leaves them on
one side of it. -/
theorem isCommentLine_append_cons {c : Char} (hc : c ≠ '/') {front back : Text}
    (h : isCommentLine (front ++ c :: back)) :
    isCommentLine front ∨ isBlank c ∧ isCommentLine back := by
  obtain ⟨blank, body, hblank, heq⟩ := (isCommentLine_iff _).mp h
  rcases List.append_eq_append_iff.mp heq with ⟨gap, hgap, hback⟩ | ⟨text, hfront, htext⟩
  · cases gap with
    | nil => exact absurd (List.cons.inj hback).1 hc
    | cons d gap =>
        obtain ⟨rfl, hrest⟩ := List.cons.inj hback
        rw [hgap, List.all_append, List.all_cons, Bool.and_eq_true, Bool.and_eq_true] at hblank
        exact .inr ⟨hblank.2.1, (isCommentLine_iff back).mpr ⟨gap, body, hblank.2.2, hrest⟩⟩
  · match text, htext with
    | [], htext => exact absurd (List.cons.inj htext).1.symm hc
    | [_], htext => exact absurd (List.cons.inj (List.cons.inj htext).2).1.symm hc
    | first :: second :: text, htext =>
        obtain ⟨rfl, hrest⟩ := List.cons.inj htext
        obtain ⟨rfl, _⟩ := List.cons.inj hrest
        exact .inl ((isCommentLine_iff front).mpr ⟨blank, text, hblank, hfront⟩)

end Style

/-! ## Comment lines of a source and of a style body -/

theorem exists_lines (text : Text) :
    ∃ first rest, Text.splitAt '\n' text = first :: rest ∧
      text = Text.join '\n' (first :: rest) := by
  cases hsplit : Text.splitAt '\n' text with
  | nil => exact absurd hsplit (Text.splitAt_ne_nil '\n' text)
  | cons first rest => exact ⟨first, rest, rfl, by rw [← hsplit, Text.join_splitAt]⟩

/-- On the lines after the first one, comments are found by the text of the line alone. -/
theorem hasCommentIn_later_line {lineStart : Bool} {offset : Nat} {first : Text} {rest : List Text}
    {line : Spanned Text} (h : line ∈ placeLines (offset + Text.byteLength first + 1) rest)
    (hline : '\n' ∉ line.value) :
    Tokens.hasCommentIn (lexFrom lineStart offset (Text.join '\n' (first :: rest))) line.span =
      Style.isCommentLine line.value := by
  rw [Tokens.hasCommentIn, between_later_line h, any_isComment_line hline]

theorem hasCommentIn_line {source : Text} {line : Spanned Text} (h : line ∈ linesFrom 0 source) :
    Tokens.hasCommentIn (tokenize source) line.span = Style.isCommentLine line.value := by
  have hline := not_mem_of_mem_linesFrom h
  obtain ⟨first, rest, hsplit, hsource⟩ := exists_lines source
  rw [linesFrom, hsplit] at h
  rw [tokenize, hsource]
  rcases List.mem_cons.mp h with rfl | hlater
  · simp only [Tokens.hasCommentIn, Span.ofText]
    rw [between_first_line, any_isComment_line hline]
  · exact hasCommentIn_later_line hlater hline

/-- A comment goes from the two slashes to the end of its line, behind white space alone. -/
theorem exists_line_of_comment {source : Text} {token : Spanned Token} {body : Text}
    (h : token ∈ tokenize source) (hvalue : token.value = .comment body) :
    ∃ line ∈ linesFrom 0 source, ∃ blank, line.value = blank ++ '/' :: '/' :: body ∧
      blank.all isBlank ∧ token.span.start = line.span.start + Text.byteLength blank ∧
        token.span.stop = line.span.stop := by
  obtain ⟨first, rest, hsplit, hsource⟩ := exists_lines source
  rw [tokenize, hsource] at h
  obtain ⟨line, hmem, htoken⟩ : ∃ line ∈ placeLines 0 (first :: rest),
      token ∈ lexFrom true line.span.start line.value := by
    rcases (mem_lexFrom_join (by simp [hvalue])).mp h with hfirst | ⟨line, hmem, hlater⟩
    · exact ⟨⟨first, .ofText 0 first⟩, List.mem_cons_self, hfirst⟩
    · exact ⟨line, List.mem_cons_of_mem _ hmem, hlater⟩
  rw [← hsplit] at hmem
  have hspan := (span_of_mem_placeLines hmem).2
  refine ⟨line, hmem, ?_⟩
  rcases line_cases (not_mem_of_mem_linesFrom hmem) line.span.start with
    ⟨_, hnone⟩ | ⟨blank, text, htext, hblank, _, hspaces, htokens⟩
  · have hcomment := hnone token htoken
    rw [hvalue] at hcomment
    exact absurd rfl hcomment
  · rw [htokens] at htoken
    rcases List.mem_append.mp htoken with hspace | hcomment
    · rw [hspaces token hspace] at hvalue
      cases hvalue
    · obtain rfl := List.mem_singleton.mp hcomment
      obtain rfl := Token.comment.inj hvalue
      refine ⟨blank, htext, hblank, rfl, ?_⟩
      rw [hspan, htext]
      simp only [Span.ofText, Text.byteLength_append, Nat.add_assoc]

theorem Tokens.between_between {start stop first last : Nat} (hfirst : start ≤ first)
    (hlast : last ≤ stop) (tokens : Tokens) :
    Tokens.between first last (Tokens.between start stop tokens) =
      Tokens.between first last tokens := by
  rw [between, between, List.filter_filter, between]
  apply List.filter_congr
  intro token _
  rw [Bool.eq_iff_iff]
  simp only [Bool.and_eq_true, decide_eq_true_eq]
  omega

theorem stop_le_of_mem_placeLines {offset : Nat} {first : Text} {rest : List Text}
    {line : Spanned Text} (h : line ∈ placeLines offset (first :: rest)) :
    line.span.stop ≤ offset + Text.byteLength (Text.join '\n' (first :: rest)) := by
  induction rest generalizing offset first with
  | nil =>
      rw [List.mem_singleton.mp h]
      exact Nat.le_refl _
  | cons next more ih =>
      have hjoin : Text.byteLength (Text.join '\n' (first :: next :: more)) =
          Text.byteLength first + (1 + Text.byteLength (Text.join '\n' (next :: more))) := by
        rw [Text.join, Text.byteLength_append]
        rfl
      rw [hjoin]
      rcases List.mem_cons.mp h with rfl | hlater
      · simp only [Span.ofText]
        omega
      · have hle := ih hlater
        omega

/-- Inside a style body, comments stand on the lines that the style reader drops. -/
theorem Encloses.hasCommentIn_line {source : Text} {opening closing : Spanned Token}
    {inner : Tokens} {enclosed : Spanned Text}
    (h : Encloses source opening closing inner enclosed) :
    ∃ first rest, linesFrom enclosed.span.start enclosed.value = first :: rest ∧
      Tokens.hasCommentIn (tokenize source) first.span = false ∧
      ∀ line ∈ rest,
        Tokens.hasCommentIn (tokenize source) line.span = Style.isCommentLine line.value := by
  obtain ⟨first, rest, hsplit, htext⟩ := exists_lines enclosed.value
  have hlines : linesFrom enclosed.span.start enclosed.value =
      ⟨first, .ofText enclosed.span.start first⟩ ::
        placeLines (enclosed.span.start + Text.byteLength first + 1) rest := by
    rw [linesFrom, hsplit]
    rfl
  have hinside : ∀ line ∈ linesFrom enclosed.span.start enclosed.value,
      Tokens.hasCommentIn (tokenize source) line.span =
        Tokens.hasCommentIn (lexFrom false enclosed.span.start enclosed.value) line.span := by
    intro line hmem
    rw [linesFrom, hsplit] at hmem
    have hstart := (span_of_mem_placeLines hmem).1
    have hstop := stop_le_of_mem_placeLines hmem
    rw [← htext, ← h.length] at hstop
    rw [h.inner_eq, ← h.between, Tokens.hasCommentIn, Tokens.hasCommentIn,
      Tokens.between_between hstart hstop]
  rw [hlines] at hinside ⊢
  refine ⟨_, _, rfl, ?_, ?_⟩
  · -- The first line goes on from the opening brace, where two slashes open no comment.
    have hnewline : '\n' ∉ first :=
      Text.not_mem_of_mem_splitAt (hsplit ▸ List.mem_cons_self)
    rw [hinside _ List.mem_cons_self, htext]
    simp only [Tokens.hasCommentIn, Span.ofText]
    rw [between_first_line]
    exact List.any_eq_false.mpr fun token hmem => isComment_of_mem_lexFrom_inline hnewline hmem
  · intro line hmem
    have hline : line ∈ linesFrom enclosed.span.start enclosed.value :=
      hlines ▸ List.mem_cons_of_mem _ hmem
    rw [hinside line (List.mem_cons_of_mem _ hmem), htext]
    exact hasCommentIn_later_line hmem (not_mem_of_mem_linesFrom hline)

/-- Dropping lines by what is known of their places leaves the text without comment lines. -/
theorem dropCommentLines_eq_join {offset : Nat} {body : Text} {first : Spanned Text}
    {rest : List (Spanned Text)} (hlines : linesFrom offset body = first :: rest)
    {dropped : Spanned Text → Bool} (hfirst : dropped first = false)
    (hrest : ∀ line ∈ rest, dropped line = Style.isCommentLine line.value) :
    Style.dropCommentLines body =
      Text.join '\n' (((linesFrom offset body).filter fun line => !dropped line).map
        (·.value)) := by
  have hvalues := map_value_placeLines offset (Text.splitAt '\n' body)
  rw [← linesFrom, hlines, List.map_cons] at hvalues
  have hkept : rest.filter (fun line => !dropped line) =
      rest.filter fun line => !Style.isCommentLine line.value := by
    apply List.filter_congr
    intro line hmem
    rw [hrest line hmem]
  rw [Style.dropCommentLines, ← hvalues, hlines, List.filter_cons_of_pos (by simp [hfirst]), hkept,
    List.map_cons]
  simp only [List.filter_map]
  rfl

/-! ## Comment lines and the lint -/

namespace Lint

theorem exists_line_of_mem_checkLines {start : Nat} {lines : List Text} {finding : Finding}
    (h : finding ∈ checkLines start lines) :
    ∃ line ∈ placeLines start lines, finding ∈ checkLine line.span.start line.value := by
  induction lines generalizing start with
  | nil => cases h
  | cons raw rest ih =>
      rw [checkLines, List.mem_append] at h
      rcases h with hfirst | hlater
      · exact ⟨⟨raw, .ofText start raw⟩, List.mem_cons_self, hfirst⟩
      · obtain ⟨line, hmem, hfinding⟩ := ih hlater
        exact ⟨line, List.mem_cons_of_mem _ hmem, hfinding⟩

theorem byteLength_trim_le (raw : Text) :
    Text.leadingBlank raw + Text.byteLength (Text.trim raw) ≤ Text.byteLength raw := by
  have hsplit := congrArg Text.byteLength (Text.takeWhile_append_trimStart raw)
  have htrim : Text.byteLength (Text.trim raw) ≤ Text.byteLength (Text.trimStart raw) := by
    obtain ⟨rest, hrest⟩ := Text.trim_prefix raw
    rw [← hrest, Text.byteLength_append]
    exact Nat.le_add_right _ _
  rw [Text.byteLength_append] at hsplit
  unfold Text.leadingBlank
  omega

theorem size_getLast?_le (line : Text) :
    (line.getLast?.map Char.utf8Size).getD 0 ≤ Text.byteLength line := by
  rcases List.eq_nil_or_concat line with rfl | ⟨front, last, rfl⟩
  · exact Nat.le_refl 0
  · rw [List.concat_eq_append, List.getLast?_append, Text.byteLength_append]
    exact Nat.le_add_left _ _

/-- What is found on a line is reported on that line. -/
theorem primarySpan?_of_mem_checkLine {start : Nat} {raw : Text} {finding : Finding}
    (h : finding ∈ checkLine start raw) (table : LineTable) :
    ∃ span, (finding.diagnostic.locate table).primarySpan? = some span ∧ start ≤ span.start ∧
      span.start ≤ start + Text.byteLength raw := by
  have htrim := byteLength_trim_le raw
  have hlast := size_getLast?_le (Text.trim raw)
  have hcharacter : start ≤
      (lastCharacter (Text.trim raw) (start + Text.leadingBlank raw)).start ∧
      (lastCharacter (Text.trim raw) (start + Text.leadingBlank raw)).start ≤
        start + Text.byteLength raw := by
    simp only [lastCharacter]
    omega
  simp only [checkLine, List.mem_ite_nil_left, List.mem_append, List.mem_ite_nil_right,
    List.mem_singleton] at h
  rcases h with ⟨_, (⟨_, rfl⟩ | ⟨_, rfl⟩) | ⟨_, rfl⟩⟩
  · exact ⟨_, rfl, hcharacter⟩
  · exact ⟨_, rfl, hcharacter⟩
  · exact ⟨_, rfl, Nat.le_add_right _ _, by simp only; omega⟩

theorem checkLine_of_isCommentLine {raw : Text} (h : Style.isCommentLine raw) (start : Nat) :
    checkLine start raw = [] := by
  obtain ⟨body, hbody⟩ := List.isPrefixOf_iff_prefix.mp h
  have htrim : Text.trim raw = ['/'] ++ '/' :: Text.trimEnd body := by
    have hslash : isBlank '/' = false := by decide
    rw [Text.trim, ← hbody]
    exact Text.trimEnd_append_cons hslash ['/'] body
  have hprefix : ['/', '/'].isPrefixOf (Text.trim raw) := by
    rw [htrim]
    rfl
  exact if_pos (.inr hprefix)

end Lint

/-- Nothing is reported on a comment line. -/
theorem exists_primarySpan?_of_mem_lint {source : Text} {line : Spanned Text}
    (hline : line ∈ linesFrom 0 source) (hcomment : Style.isCommentLine line.value)
    {warning : Diagnostic} (hwarning : warning ∈ lint source) :
    ∃ span, warning.primarySpan? = some span ∧
      ¬ (line.span.start ≤ span.start ∧ span.start ≤ line.span.stop) := by
  obtain ⟨finding, hfinding, rfl⟩ := List.mem_map.mp hwarning
  obtain ⟨other, hother, hfound⟩ := Lint.exists_line_of_mem_checkLines hfinding
  obtain ⟨span, hspan, hplace⟩ := Lint.primarySpan?_of_mem_checkLine hfound (.ofSource source)
  have hstop : other.span.stop = other.span.start + Text.byteLength other.value := by
    rw [(span_of_mem_placeLines hother).2]
    rfl
  refine ⟨span, hspan, ?_⟩
  rintro ⟨hstart, hle⟩
  -- Both lines hold the place, and no two lines share one.
  have hsame : other = line := by
    rw [linesFrom] at hline
    have hordered := List.pairwise_iff_getElem.mp
      (pairwise_placeLines 0 (Text.splitAt '\n' source))
    obtain ⟨i, hi, rfl⟩ := List.mem_iff_getElem.mp hother
    obtain ⟨j, hj, rfl⟩ := List.mem_iff_getElem.mp hline
    rcases Nat.lt_trichotomy i j with hlt | rfl | hlt
    · have hapart := hordered i j hi hj hlt
      omega
    · rfl
    · have hapart := hordered j i hj hi hlt
      omega
  rw [hsame, Lint.checkLine_of_isCommentLine hcomment] at hfound
  cases hfound

/-- All readers agree on comment lines. A source has a comment on a line exactly when two slashes
come first on it after white space; the comment is then the rest of the line, and no warning is
about that line. In the body of every style block that a scan finds, the lines that are dropped are
those on which the source has a comment, and the first line is never one of them. -/
theorem comment_lines_agree (source : Text) :
    (∀ line ∈ linesFrom 0 source,
      (∃ token ∈ tokenize source, token.value.isComment ∧ line.span.start ≤ token.span.start ∧
        token.span.stop ≤ line.span.stop) ↔ ['/', '/'] <+: Text.trimStart line.value) ∧
    (∀ token ∈ tokenize source, ∀ body, token.value = .comment body →
      ∃ line ∈ linesFrom 0 source, ∃ blank, line.value = blank ++ '/' :: '/' :: body ∧
        blank.all isBlank ∧ token.span.start = line.span.start + Text.byteLength blank ∧
          token.span.stop = line.span.stop) ∧
    (∀ line ∈ linesFrom 0 source, ['/', '/'] <+: Text.trimStart line.value →
      ∀ warning ∈ lint source, ∃ span, warning.primarySpan? = some span ∧
        ¬ (line.span.start ≤ span.start ∧ span.start ≤ line.span.stop)) ∧
    ∀ steps block, .style (some block) ∈ scan source steps →
      ∃ first rest, linesFrom block.body.span.start block.body.value = first :: rest ∧
        Tokens.hasCommentIn (tokenize source) first.span = false ∧
        (∀ line ∈ rest, Tokens.hasCommentIn (tokenize source) line.span =
          Style.isCommentLine line.value) ∧
        Style.dropCommentLines block.body.value =
          Text.join '\n' (((first :: rest).filter fun line =>
            !Tokens.hasCommentIn (tokenize source) line.span).map (·.value)) := by
  refine ⟨?_, ?_, ?_, ?_⟩
  · intro line hline
    rw [← List.isPrefixOf_iff_prefix, ← Style.isCommentLine, ← hasCommentIn_line hline,
      Tokens.hasCommentIn, List.any_eq_true]
    simp only [Tokens.between, List.mem_filter, Bool.and_eq_true, decide_eq_true_eq]
    constructor
    · rintro ⟨token, hmem, hcomment, hinside⟩
      exact ⟨token, ⟨hmem, hinside⟩, hcomment⟩
    · rintro ⟨token, ⟨hmem, hinside⟩, hcomment⟩
      exact ⟨token, hmem, hcomment, hinside⟩
  · intro token hmem body hvalue
    exact exists_line_of_comment hmem hvalue
  · intro line hline hcomment warning hwarning
    exact exists_primarySpan?_of_mem_lint hline (List.isPrefixOf_iff_prefix.mpr hcomment) hwarning
  · intro steps block hscan
    have hfound : Construct.style block ∈ (scan source steps).filterMap (·.found?) :=
      List.mem_filterMap.mpr ⟨_, hscan, rfl⟩
    obtain ⟨skipped, consumed, more, form, htokens⟩ := exists_form_of_mem_scan hfound
    obtain ⟨opening, closing, inner, _, _, hencloses, _⟩ :=
      StyleBlock.Form.encloses form htokens
    obtain ⟨first, rest, hlines, hfirst, hrest⟩ := hencloses.hasCommentIn_line
    refine ⟨first, rest, hlines, hfirst, hrest, ?_⟩
    rw [← hlines]
    exact dropCommentLines_eq_join hlines hfirst hrest

end SceneScript
