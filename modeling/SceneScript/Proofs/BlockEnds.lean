import SceneScript.Proofs.CommentLines

/-! # Where a style block ends

A style block ends at the first closing brace among the tokens. The entries are read from its text,
where quotes have no meaning, but among the tokens a quoted text hides the brace in it. So a block
can hold closing braces, although only between quotes and in comments.
-/

namespace SceneScript

/-- The token is a quoted text that holds the character. -/
def Token.Quotes (c : Char) (token : Token) : Prop :=
  ∃ content, token = .quoted content ∧ c ∈ content

theorem Token.Quotes.ne_newline {c : Char} {token : Token} (h : token.Quotes c) :
    token ≠ .newline := by
  obtain ⟨content, rfl, _⟩ := h
  simp

/-! ## Characters and the tokens that hold them -/

/-- Outside comments, a closing brace is a token of its own or quoted. -/
theorem Token.Spells.rightBrace_mem_iff {token : Token} {spelling : Text}
    (h : token.Spells spelling) (hbrace : token ≠ .rightBrace) (hcomment : ¬ token.isComment) :
    '}' ∈ spelling ↔ token.Quotes '}' := by
  have hplain : ∀ {text : Text}, (∀ c ∈ text, c ≠ '}') → (∀ content, token ≠ .quoted content) →
      text = spelling → ('}' ∈ spelling ↔ token.Quotes '}') := by
    rintro text htext hquoted rfl
    constructor
    · intro hmem
      exact absurd rfl (htext _ hmem)
    · rintro ⟨content, hvalue, _⟩
      exact absurd hvalue (hquoted content)
  cases token with
  | rightBrace => exact absurd rfl hbrace
  | comment body => exact absurd rfl hcomment
  | identifier name =>
      obtain ⟨rfl, hname, _⟩ := h
      refine hplain (fun c hmem => ?_) (by simp) rfl
      have hall := List.all_eq_true.mp (Text.all_isWordChar_of_isIdentifier hname).2
      exact ne_of_isWordChar (hall c hmem) (by decide)
  | number literal =>
      obtain ⟨rfl, hliteral⟩ := h
      refine hplain (fun c hmem => ?_) (by simp) rfl
      rcases hliteral.mem_cases hmem with rfl | rfl | hdigit
      · decide
      · decide
      · exact ne_of_isWordChar (isWordChar_of_isDigit hdigit) (by decide)
  | quoted content =>
      obtain ⟨quote, hquote, _, _, rfl⟩ := h
      have hne : '}' ≠ quote := by
        rintro rfl
        cases hquote
      simp [Token.Quotes, hne]
  | run free =>
      obtain ⟨rfl, hfree⟩ := h
      refine hplain (fun c hmem => ?_) (by simp) rfl
      rcases hfree with ⟨_, hall⟩ | ⟨quote, hquote, rfl⟩
      · rintro rfl
        exact absurd (List.all_eq_true.mp hall _ hmem) (by decide)
      · rintro rfl
        rw [← List.mem_singleton.mp hmem] at hquote
        cases hquote
  | space =>
      refine hplain (fun c hmem => ?_) (by simp) rfl
      have hblank := List.all_eq_true.mp h.2 c hmem
      rintro rfl
      cases hblank
  | _ =>
      have hmark : spelling = _ := h
      exact hplain (by simp [hmark]) (by simp) rfl

section Tokens

variable {lineStart : Bool} {offset : Nat} {text : Text}

/-- Every character of a text stands in the spelling of a token. -/
theorem exists_spelling_of_mem {c : Char} (h : c ∈ text) :
    ∃ token ∈ lexFrom lineStart offset text, ∃ spelling,
      token.value.Spells spelling ∧ c ∈ spelling := by
  induction lineStart, offset, text using lexFrom_induction with
  | nil lineStart offset => cases h
  | cons lineStart offset d rest found hfound ih =>
      have hspells := hfound ▸ (lexeme_reads lineStart d rest).spells
      rw [lexFrom_cons hfound]
      have hsplit : d :: rest = (d :: rest.take found.tail) ++ rest.drop found.tail := by
        rw [List.cons_append, List.take_append_drop]
      rw [hsplit, List.mem_append] at h
      rcases h with hfirst | hlater
      · exact ⟨_, List.mem_cons_self, _, hspells, hfirst⟩
      · obtain ⟨token, hmem, hspelling⟩ := ih hlater
        exact ⟨token, List.mem_cons_of_mem _ hmem, hspelling⟩

theorem mem_of_quotes {token : Spanned Token} (hmem : token ∈ lexFrom lineStart offset text)
    {c : Char} (h : token.value.Quotes c) : c ∈ text := by
  obtain ⟨content, hvalue, hc⟩ := h
  obtain ⟨earlier, later, hsplit⟩ := List.append_of_mem hmem
  obtain ⟨front, spelling, back, _, rfl, _, _, hspells, _, _⟩ := exists_spelling hsplit
  rw [hvalue] at hspells
  obtain ⟨quote, _, _, _, rfl⟩ := hspells
  simp [hc]

/-- Without a brace and a comment among the tokens, a text holds a closing brace only where a token
quotes it. -/
theorem rightBrace_mem_text_iff
    (hbrace : ∀ token ∈ lexFrom lineStart offset text, token.value ≠ .rightBrace)
    (hcomment : ∀ token ∈ lexFrom lineStart offset text, ¬ token.value.isComment) :
    '}' ∈ text ↔ ∃ token ∈ lexFrom lineStart offset text, token.value.Quotes '}' := by
  constructor
  · intro h
    obtain ⟨token, hmem, spelling, hspells, hspelling⟩ := exists_spelling_of_mem h
    exact ⟨token, hmem,
      (hspells.rightBrace_mem_iff (hbrace token hmem) (hcomment token hmem)).mp hspelling⟩
  · rintro ⟨token, hmem, hquotes⟩
    exact mem_of_quotes hmem hquotes

end Tokens

/-! ## Lines of a body -/

theorem Text.mem_join_iff {separator c : Char} (h : c ≠ separator) (pieces : List Text) :
    c ∈ join separator pieces ↔ ∃ piece ∈ pieces, c ∈ piece := by
  induction pieces with
  | nil => simp [join]
  | cons piece rest ih =>
      cases rest with
      | nil => simp [join]
      | cons next more => simp [join, h, ih]

/-- A comment line quotes nothing, and any other line holds a closing brace only where one is
quoted. -/
theorem kept_line_iff {line : Text} (h : '\n' ∉ line) {offset : Nat}
    (hbrace : ∀ token ∈ lexFrom true offset line, token.value ≠ .rightBrace) :
    (Style.isCommentLine line = false ∧ '}' ∈ line) ↔
      ∃ token ∈ lexFrom true offset line, token.value.Quotes '}' := by
  rcases line_cases h offset with ⟨hline, hnone⟩ | ⟨blank, body, _, _, hline, hspaces, htokens⟩
  · rw [← rightBrace_mem_text_iff hbrace hnone]
    simp [hline]
  · constructor
    · rintro ⟨hkept, _⟩
      rw [hline] at hkept
      cases hkept
    · rintro ⟨token, hmem, content, hvalue, _⟩
      rw [htokens] at hmem
      rcases List.mem_append.mp hmem with hspace | hcomment
      · rw [hspaces token hspace] at hvalue
        cases hvalue
      · rw [List.mem_singleton.mp hcomment] at hvalue
        cases hvalue

theorem exists_quotes_join_iff {lineStart : Bool} {offset : Nat} {first : Text} {rest : List Text}
    {c : Char} :
    (∃ token ∈ lexFrom lineStart offset (Text.join '\n' (first :: rest)), token.value.Quotes c) ↔
      (∃ token ∈ lexFrom lineStart offset first, token.value.Quotes c) ∨
        ∃ line ∈ placeLines (offset + Text.byteLength first + 1) rest,
          ∃ token ∈ lexFrom true line.span.start line.value, token.value.Quotes c := by
  constructor
  · rintro ⟨token, hmem, hquotes⟩
    rcases (mem_lexFrom_join hquotes.ne_newline).mp hmem with hfirst | ⟨line, hline, hlater⟩
    · exact .inl ⟨token, hfirst, hquotes⟩
    · exact .inr ⟨line, hline, token, hlater, hquotes⟩
  · rintro (⟨token, hfirst, hquotes⟩ | ⟨line, hline, token, hlater, hquotes⟩)
    · exact ⟨token, (mem_lexFrom_join hquotes.ne_newline).mpr (.inl hfirst), hquotes⟩
    · exact ⟨token, (mem_lexFrom_join hquotes.ne_newline).mpr (.inr ⟨line, hline, hlater⟩),
        hquotes⟩

/-- In a body without a closing brace among its tokens, the lines that are no comments hold a
closing brace only where a token quotes it. -/
theorem rightBrace_mem_dropCommentLines_iff {offset : Nat} {body : Text}
    (hbrace : ∀ token ∈ lexFrom false offset body, token.value ≠ .rightBrace) :
    '}' ∈ Style.dropCommentLines body ↔
      ∃ token ∈ lexFrom false offset body, token.value.Quotes '}' := by
  obtain ⟨first, rest, hsplit, hbody⟩ := exists_lines body
  have hnewline : ∀ line ∈ first :: rest, '\n' ∉ line := by
    rw [← hsplit]
    exact fun line hline => Text.not_mem_of_mem_splitAt hline
  have hlines : ∀ token : Spanned Token, token.value = .rightBrace →
      token ∉ lexFrom false offset first ∧
        ∀ line ∈ placeLines (offset + Text.byteLength first + 1) rest,
          token ∉ lexFrom true line.span.start line.value := by
    intro token hvalue
    have hnone := fun hmem => hbrace token hmem hvalue
    rw [hbody, mem_lexFrom_join (by simp [hvalue])] at hnone
    exact ⟨fun hmem => hnone (.inl hmem), fun line hline hmem => hnone (.inr ⟨line, hline, hmem⟩)⟩
  -- The first line goes on from the opening brace and is never a comment.
  have hfirst : '}' ∈ first ↔ ∃ token ∈ lexFrom false offset first, token.value.Quotes '}' :=
    rightBrace_mem_text_iff (fun token hmem hvalue => (hlines token hvalue).1 hmem)
      fun token hmem => isComment_of_mem_lexFrom_inline (hnewline first List.mem_cons_self) hmem
  have hlater : ∀ line ∈ placeLines (offset + Text.byteLength first + 1) rest,
      ((Style.isCommentLine line.value = false ∧ '}' ∈ line.value) ↔
        ∃ token ∈ lexFrom true line.span.start line.value, token.value.Quotes '}') := by
    intro line hline
    have hvalue := List.mem_cons_of_mem first (value_mem_of_mem_placeLines hline)
    exact kept_line_iff (hnewline _ hvalue)
      fun token hmem hbrace => (hlines token hbrace).2 line hline hmem
  have hkept : (∃ line ∈ rest.filter fun line => !Style.isCommentLine line, '}' ∈ line) ↔
      ∃ line ∈ placeLines (offset + Text.byteLength first + 1) rest,
        Style.isCommentLine line.value = false ∧ '}' ∈ line.value := by
    have hvalues := map_value_placeLines (offset + Text.byteLength first + 1) rest
    generalize placeLines (offset + Text.byteLength first + 1) rest = placed at hvalues
    subst hvalues
    simp [and_assoc]
  rw [Style.dropCommentLines, hsplit, Text.mem_join_iff (by decide), hbody, exists_quotes_join_iff]
  simp only [List.mem_cons, or_and_right, exists_or, exists_eq_left, hkept, hfirst]
  exact or_congr Iff.rfl (exists_congr fun line => and_congr_right fun hline => hlater line hline)

/-- A style block that a scan finds holds closing braces outside comment lines exactly where a token
of the source quotes them. -/
theorem rightBrace_mem_body_iff {source : Text} {steps : List ScanStep} {block : StyleBlock}
    (h : .style (some block) ∈ scan source steps) :
    '}' ∈ Style.dropCommentLines block.body.value ↔
      ∃ token ∈ Tokens.between block.body.span.start block.body.span.stop (tokenize source),
        ∃ content, token.value = .quoted content ∧ '}' ∈ content := by
  have hfound : Construct.style block ∈ (scan source steps).filterMap (·.found?) :=
    List.mem_filterMap.mpr ⟨_, h, rfl⟩
  obtain ⟨skipped, consumed, more, form, htokens⟩ := exists_form_of_mem_scan hfound
  obtain ⟨opening, closing, inner, _, _, hencloses, hbrace⟩ := StyleBlock.Form.encloses form htokens
  rw [← hencloses.inner_eq] at hbrace
  rw [rightBrace_mem_dropCommentLines_iff hbrace, hencloses.between, ← hencloses.inner_eq]
  rfl

/-- Two shapes on one line, with an apostrophe in the style of each. -/
def apostrophes : Text :=
  ("Create List Foo() \x7b\nCreate Square A(x:1) \x7b Style \x7b label:it's; \x7d \x7d " ++
    "Create Square B(x:2) \x7b Style \x7b label:it's; \x7d \x7d\n\x7d").toList

/-- The first block of the two runs to the end of the second. -/
theorem rightBrace_mem_body_apostrophes :
    .style (some ⟨Spanned.slice apostrophes 50 110⟩) ∈ scan apostrophes [.header, .header, .style] ∧
      ∃ token ∈ Tokens.between 50 110 (tokenize apostrophes),
        ∃ content, token.value = .quoted content ∧ '}' ∈ content := by
  have h : .style (some ⟨Spanned.slice apostrophes 50 110⟩) ∈
      scan apostrophes [.header, .header, .style] := by
    decide +kernel
  exact ⟨h, (rightBrace_mem_body_iff h).mp (by decide +kernel)⟩

/-- A style block need not end at the first closing brace, and then it hides a whole shape. -/
theorem quote_hides_shape :
    (¬ ∀ (source : Text) (steps : List ScanStep) (block : StyleBlock),
      .style (some block) ∈ scan source steps →
        '}' ∉ Style.dropCommentLines block.body.value) ∧
      ((parse apostrophes none).toOption.map fun document =>
        document.shapes.map fun shape => shape.name) = some [['A']] := by
  refine ⟨fun h => ?_, by decide +kernel⟩
  exact h apostrophes [.header, .header, .style] ⟨Spanned.slice apostrophes 50 110⟩
    (by decide +kernel) (by decide +kernel)

end SceneScript
