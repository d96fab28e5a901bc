import SceneScript.Proofs.CommentLines
import SceneScript.Proofs.Relocation

/-! # Layout does not matter

White space at a token boundary, blank lines and comment lines can be inserted without a change of
the outcome: the tokens that carry structure only move, so the same declarations are found, and what
is cut out of the source is the same text, or a style body with one comment line more.
-/

namespace SceneScript

/-! ## Edits -/

/-- The place stands neither in the span nor at one of its ends. -/
def StandsOutside (point : Nat) (span : Span) : Prop :=
  point < span.start ∨ span.stop < point

instance (point : Nat) (span : Span) : Decidable (StandsOutside point span) :=
  inferInstanceAs (Decidable (point < span.start ∨ span.stop < point))

/-- The place stands between the parentheses of no shape header. -/
def OutsideParameters (source : Text) (point : Nat) : Prop :=
  ∀ candidate ∈ candidates (declarations source), StandsOutside point candidate.header.params.span

/-- The place stands in the body of no style block. -/
def OutsideStyles (source : Text) (point : Nat) : Prop :=
  ∀ candidate ∈ candidates (declarations source), ∀ block ∈ candidate.block,
    StandsOutside point block.body.span

instance (source : Text) (point : Nat) : Decidable (OutsideParameters source point) :=
  inferInstanceAs (Decidable (∀ candidate ∈ candidates (declarations source),
    StandsOutside point candidate.header.params.span))

instance (source : Text) (point : Nat) : Decidable (OutsideStyles source point) :=
  inferInstanceAs (Decidable (∀ candidate ∈ candidates (declarations source),
    ∀ block ∈ candidate.block, StandsOutside point block.body.span))

/-- An insertion that changes the layout of a source and nothing else. -/
inductive LayoutEdit : Text → Text → Prop where
  | spacing {front gap back : Text}
      (boundary : IsBoundary (front ++ back) (Text.byteLength front)) (blank : IsSpacing gap)
      (params : OutsideParameters (front ++ back) (Text.byteLength front))
      (styles : OutsideStyles (front ++ back) (Text.byteLength front)) :
    LayoutEdit (front ++ back) (front ++ (gap ++ back))
  | blankLine {front gap back : Text} (line : EndsLine front) (blank : IsSpacing gap)
      (params : OutsideParameters (front ++ back) (Text.byteLength front))
      (styles : OutsideStyles (front ++ back) (Text.byteLength front)) :
    LayoutEdit (front ++ back) (front ++ ((gap ++ ['\n']) ++ back))
  | commentLine {front gap body back : Text} (line : EndsLine front) (blank : IsSpacing gap)
      (comment : '\n' ∉ body)
      (params : OutsideParameters (front ++ back) (Text.byteLength front)) :
    LayoutEdit (front ++ back) (front ++ (((gap ++ '/' :: '/' :: body) ++ ['\n']) ++ back))

/-! ## Comment lines of a style body -/

/-- A comment line among the later lines of a style body makes no difference. -/
theorem Style.dropCommentLines_insert {line : Text} (hline : '\n' ∉ line)
    (hcomment : isCommentLine line) (front back : Text) :
    dropCommentLines (front ++ '\n' :: (line ++ '\n' :: back)) =
      dropCommentLines (front ++ '\n' :: back) := by
  obtain ⟨first, rest, hsplit, _⟩ := exists_lines front
  rw [dropCommentLines, dropCommentLines, Text.splitAt_append, Text.splitAt_append_cons hline,
    Text.splitAt_append, hsplit]
  have hdrop : (line :: Text.splitAt '\n' back).filter (fun line => !isCommentLine line) =
      (Text.splitAt '\n' back).filter fun line => !isCommentLine line :=
    List.filter_cons_of_neg (by simp [hcomment])
  simp only [List.cons_append, List.filter_append, hdrop]

/-! ## What an insertion keeps -/

section Kept

variable {front inserted back : Text} {a b : Spanned Text}

theorem CutAlike.bounds {place : Span → Span} {source other : Text}
    (h : CutAlike place source other (significantTokens source) a b) :
    ∃ opening ∈ significantTokens source, ∃ closing ∈ significantTokens source,
      opening.span.start < opening.span.stop ∧ opening.span.stop ≤ closing.span.start ∧
        closing.span.start < closing.span.stop ∧
        a = Spanned.slice source opening.span.stop closing.span.start ∧
        b = Spanned.slice other (place opening.span).stop (place closing.span).start := by
  obtain ⟨opening, closing, order⟩ := h
  obtain ⟨hpairwise, hnonempty⟩ := (significantTokens_inOrder source).of_sublist order
  refine ⟨opening, order.subset List.mem_cons_self, closing, order.subset (by simp),
    hnonempty opening List.mem_cons_self, ?_, hnonempty closing (by simp), rfl, rfl⟩
  exact (List.pairwise_cons.mp hpairwise).1 closing List.mem_cons_self

/-- What is cut out on one side of the insertion is the same text. -/
theorem Inserts.value_eq (h : Inserts front inserted back)
    (hcut : CutAlike (Span.movedFrom (Text.byteLength front) (Text.byteLength inserted))
      (front ++ back) (front ++ (inserted ++ back)) (significantTokens (front ++ back)) a b)
    (houtside : StandsOutside (Text.byteLength front) a.span) : a.value = b.value := by
  obtain ⟨opening, hopening, closing, hclosing, hpos, hle, hlast, rfl, rfl⟩ := hcut.bounds
  have hopening := h.apart opening hopening
  have hclosing := h.apart closing hclosing
  simp only [StandsOutside, Spanned.slice, Span.between] at houtside ⊢
  rw [Nat.max_eq_right hle] at houtside
  rcases houtside with hafter | hbefore
  · rw [Span.movedFrom, if_neg (by omega), Span.movedFrom, if_neg (by omega)]
    exact (Text.slice_insert (Nat.le_of_lt hafter) inserted back _).symm
  · rw [Span.movedFrom, if_pos (by omega), Span.movedFrom, if_pos (by omega),
      Text.slice_append_of_le (Nat.le_of_lt hbefore),
      Text.slice_append_of_le (Nat.le_of_lt hbefore)]

/-- A token in front of the start of a line ends in front of a newline. -/
theorem exists_append_of_stop_le (hfront : EndsLine front) {token : Spanned Token}
    (hmem : token ∈ significantTokens (front ++ back))
    (hstop : token.span.stop ≤ Text.byteLength front) :
    ∃ before within, front = before ++ (within ++ ['\n']) ∧
      Text.byteLength before = token.span.stop := by
  rw [significantTokens_eq, structureTokens_append_of_endsLine hfront, List.mem_append] at hmem
  rcases hmem with hearlier | hlater
  · rcases hfront with rfl | ⟨lines, rfl⟩
    · rw [structureTokens, keptTokens_nil] at hearlier
      cases hearlier
    · rw [structureTokens_append_newline] at hearlier
      obtain ⟨earlier, later, htokens⟩ := List.append_of_mem (List.mem_filter.mp hearlier).1
      obtain ⟨skipped, spelling, within, _, rfl, _, _, _, hspan, _⟩ := exists_spelling htokens
      refine ⟨skipped ++ spelling, within, ?_, ?_⟩
      · simp only [List.append_assoc]
      · rw [hspan, Text.byteLength_append, Nat.zero_add]
        rfl
  · have hspan := span_of_mem_structureTokens hlater
    omega

/-- What is cut out around a line that was inserted holds this line behind a newline. -/
theorem Inserts.exists_around {line : Text} (hfront : EndsLine front)
    (h : Inserts front (line ++ ['\n']) back)
    (hcut : CutAlike (Span.movedFrom (Text.byteLength front) (Text.byteLength (line ++ ['\n'])))
      (front ++ back) (front ++ ((line ++ ['\n']) ++ back)) (significantTokens (front ++ back)) a b)
    (haround : ¬ StandsOutside (Text.byteLength front) a.span) :
    ∃ within later, a.value = within ++ '\n' :: later ∧
      b.value = within ++ '\n' :: (line ++ '\n' :: later) := by
  obtain ⟨opening, hmem, closing, hclosing, hpos, hle, hlast, rfl, rfl⟩ := hcut.bounds
  have hopening := h.apart opening hmem
  have hclosing := h.apart closing hclosing
  simp only [StandsOutside, Spanned.slice, Span.between] at haround ⊢
  rw [Nat.max_eq_right hle] at haround
  -- The opening token ends on an earlier line, so the cut takes in the newline before the place.
  obtain ⟨before, within, hsplit, hstop⟩ := exists_append_of_stop_le hfront hmem (by omega)
  have hlength : Text.byteLength front =
      Text.byteLength before + Text.byteLength (within ++ ['\n']) := by
    rw [hsplit, Text.byteLength_append]
  obtain ⟨count, hcount⟩ : ∃ count, closing.span.start = Text.byteLength front + count :=
    Nat.exists_eq_add_of_le (by omega)
  rw [Span.movedFrom, if_pos (by omega), Span.movedFrom, if_neg (by omega), ← hstop, hsplit]
  refine ⟨within, Text.takeBytes count back, ?_, ?_⟩
  · have hslice := Text.slice_append_append before (within ++ ['\n']) back
      (show closing.span.start = _ + (_ + count) by omega)
    simpa using hslice
  · have hslice := Text.slice_append_append before ((within ++ ['\n']) ++ (line ++ ['\n'])) back
      (show closing.span.start + Text.byteLength (line ++ ['\n']) = _ + (_ + count) by
        rw [Text.byteLength_append (within ++ ['\n'])]
        omega)
    simpa [Span.shift] using hslice

/-- A comment line changes no entry of the style body that it is inserted in. -/
theorem Inserts.read_eq {line : Text} (hfront : EndsLine front) (hline : '\n' ∉ line)
    (hcomment : Style.isCommentLine line) (h : Inserts front (line ++ ['\n']) back)
    (hcut : CutAlike (Span.movedFrom (Text.byteLength front) (Text.byteLength (line ++ ['\n'])))
      (front ++ back) (front ++ ((line ++ ['\n']) ++ back)) (significantTokens (front ++ back))
      a b) : Style.read a.value = Style.read b.value := by
  by_cases houtside : StandsOutside (Text.byteLength front) a.span
  · rw [h.value_eq hcut houtside]
  · obtain ⟨within, later, ha, hb⟩ := h.exists_around hfront hcut houtside
    rw [ha, hb, Style.read, Style.read, Style.dropCommentLines_insert hline hcomment]

end Kept

/-! ## The outcome -/

theorem Inserts.declarations_sameText {front inserted back : Text}
    (h : Inserts front inserted back)
    (hkept : ∀ candidate ∈ candidates (declarations (front ++ back)),
      candidate.KeptBy (Span.movedFrom (Text.byteLength front) (Text.byteLength inserted))
        (front ++ back) (front ++ (inserted ++ back)) (significantTokens (front ++ back))) :
    List.Forall₂ Declaration.SameText (declarations (front ++ back))
      (declarations (front ++ (inserted ++ back))) := by
  have hsame := declarationsFrom_relocate (Span.movedFrom_injective _ _) (.refl _) hkept
  rw [← h.tokens] at hsame
  exact hsame

theorem Inserts.declarations_of_outside {front inserted back : Text}
    (h : Inserts front inserted back)
    (params : OutsideParameters (front ++ back) (Text.byteLength front))
    (styles : OutsideStyles (front ++ back) (Text.byteLength front)) :
    List.Forall₂ Declaration.SameText (declarations (front ++ back))
      (declarations (front ++ (inserted ++ back))) := by
  apply h.declarations_sameText
  intro candidate hmem
  constructor
  · intro moved hcut
    exact h.value_eq hcut (params candidate hmem)
  · intro block hblock moved hcut
    rw [h.value_eq hcut (styles candidate hmem block hblock)]

theorem LayoutEdit.declarations_sameText {source edited : Text} (h : LayoutEdit source edited) :
    List.Forall₂ Declaration.SameText (declarations source) (declarations edited) := by
  cases h with
  | spacing boundary blank params styles =>
      exact (inserts_spacing boundary blank).declarations_of_outside params styles
  | blankLine line blank params styles =>
      exact (inserts_blankLine line blank _).declarations_of_outside params styles
  | @commentLine front gap body back line blank comment params =>
      have hinserts := inserts_commentLine line blank comment back
      apply hinserts.declarations_sameText
      intro candidate hmem
      constructor
      · intro moved hcut
        exact hinserts.value_eq hcut (params candidate hmem)
      · intro block _ moved hcut
        have hcomment : Style.isCommentLine (gap ++ '/' :: '/' :: body) :=
          (Style.isCommentLine_iff _).mpr ⟨gap, body, blank.all_isBlank, rfl⟩
        apply Inserts.read_eq line _ hcomment hinserts hcut
        simp only [List.mem_append, List.mem_cons, not_or]
        exact ⟨blank.newline_not_mem, by decide, by decide, comment⟩

/-- Layout does not matter: a source and the same source with more white space between its tokens,
with more blank lines or with more comment lines become the same document, or are rejected by the
same rule in the same words. -/
theorem parse_of_layoutEdit {source edited : Text} (h : LayoutEdit source edited)
    (fileName : Option Text) :
    (parse edited fileName).mapError Diagnostic.verdict =
      (parse source fileName).mapError Diagnostic.verdict := by
  have hsame := h.declarations_sameText
  exact (mapError_parse hsame fileName).symm

/-- A scene up to the entries of its style block. -/
def sceneFront : Text :=
  "Create List Board() \x7b\nCreate Sq A(x:1) \x7b\nStyle \x7b\n".toList

/-- The scene from the entries of its style block on. -/
def sceneBack : Text :=
  "color: red;\n\x7d\n\x7d\n\x7d".toList

/-- A comment that holds a header and a lone quote, between the braces of a style block. -/
theorem parse_of_layoutEdit_scene :
    let source := sceneFront ++ sceneBack
    let comment := ['\t'] ++ '/' :: '/' :: " Create Sq B() \x7b 'x".toList
    let edited := sceneFront ++ ((comment ++ ['\n']) ++ sceneBack)
    LayoutEdit source edited ∧ (parse source none).isOk ∧
      (parse edited none).mapError Diagnostic.verdict =
        (parse source none).mapError Diagnostic.verdict := by
  intro source comment edited
  have hline : EndsLine sceneFront :=
    .inr ⟨"Create List Board() \x7b\nCreate Sq A(x:1) \x7b\nStyle \x7b".toList, rfl⟩
  have hparams : OutsideParameters source (Text.byteLength sceneFront) := by decide +kernel
  have h : LayoutEdit source edited := .commentLine hline rfl (by decide) hparams
  exact ⟨h, by decide +kernel, parse_of_layoutEdit h none⟩

end SceneScript
