import SceneScript.Proofs.Cutting
import SceneScript.Proofs.Enclosed

/-! # Texts and the places where they stand

Offsets are counted in bytes, and not every offset lies between two characters. Those that a scan
works with do: they are the ends of tokens, or of text cut out between tokens and trimmed. So every
cut on the way gives the text that stands there.
-/

namespace SceneScript

namespace Text

/-- The offset lies between two characters, or at an end of the text. -/
def IsCut (text : Text) (offset : Nat) : Prop :=
  ∃ front back, text = front ++ back ∧ offset = byteLength front

/-- A piece of the text lies between the two offsets. -/
structure Cuts (text : Text) (start stop : Nat) : Prop where
  start_isCut : text.IsCut start
  stop_isCut : text.IsCut stop
  start_le_stop : start ≤ stop

theorem byteLength_eq_zero {text : Text} (h : byteLength text = 0) : text = [] := by
  cases text with
  | nil => rfl
  | cons c rest =>
      have hsize := c.utf8Size_pos
      rw [byteLength_cons] at h
      omega

/-- Two ways to cut a text at one place are the same. -/
theorem eq_of_append_eq {front back other rest : Text} (h : front ++ back = other ++ rest)
    (hlength : byteLength front = byteLength other) : front = other ∧ back = rest := by
  rcases List.append_eq_append_iff.mp h with ⟨middle, rfl, rfl⟩ | ⟨middle, rfl, rfl⟩
  all_goals
    have hmiddle : middle = [] := byteLength_eq_zero (by rw [byteLength_append] at hlength; omega)
    simp [hmiddle]

theorem isCut_zero (text : Text) : text.IsCut 0 :=
  ⟨[], text, rfl, rfl⟩

theorem isCut_byteLength (text : Text) : text.IsCut (byteLength text) :=
  ⟨text, [], (List.append_nil text).symm, rfl⟩

theorem IsCut.le_byteLength {text : Text} {offset : Nat} (h : text.IsCut offset) :
    offset ≤ byteLength text := by
  obtain ⟨front, back, rfl, rfl⟩ := h
  rw [byteLength_append]
  exact Nat.le_add_right _ _

/-- A piece of a text splits the text in three. -/
theorem Cuts.exists_middle {text : Text} {start stop : Nat} (h : text.Cuts start stop) :
    ∃ front middle back, text = front ++ (middle ++ back) ∧ start = byteLength front ∧
      stop = start + byteLength middle := by
  obtain ⟨⟨front, rest, htext, rfl⟩, ⟨longer, back, hlonger, rfl⟩, hle⟩ := h
  rcases List.append_eq_append_iff.mp (htext.symm.trans hlonger) with
    ⟨middle, rfl, rfl⟩ | ⟨middle, rfl, rfl⟩
  · exact ⟨front, middle, back, htext, rfl, byteLength_append front middle⟩
  · -- The later cut cannot lie in front of the earlier one.
    have hmiddle : middle = [] := byteLength_eq_zero (by rw [byteLength_append] at hle; omega)
    subst hmiddle
    exact ⟨longer, [], rest, by simpa using htext, by simp, by simp⟩

end Text

namespace Spanned

/-- The value is what stands in the source at its span. -/
def StandsIn (source : Text) (spanned : Spanned Text) : Prop :=
  ∃ front back, source = front ++ (spanned.value ++ back) ∧
    spanned.span = .ofText (Text.byteLength front) spanned.value

variable {source : Text}

theorem StandsIn.cuts {spanned : Spanned Text} (h : spanned.StandsIn source) :
    source.Cuts spanned.span.start spanned.span.stop := by
  obtain ⟨front, back, rfl, hspan⟩ := h
  rw [hspan]
  refine ⟨⟨front, spanned.value ++ back, rfl, rfl⟩,
    ⟨front ++ spanned.value, back, (List.append_assoc ..).symm, ?_⟩, Nat.le_add_right _ _⟩
  rw [Text.byteLength_append]
  rfl

theorem StandsIn.slice_eq {spanned : Spanned Text} (h : spanned.StandsIn source) :
    Text.slice source spanned.span.start spanned.span.stop = spanned.value := by
  obtain ⟨front, back, hsource, hspan⟩ := h
  rw [hspan]
  exact Text.slice_eq hsource rfl rfl

theorem slice_middle (front middle back : Text) :
    slice (front ++ (middle ++ back)) (Text.byteLength front)
        (Text.byteLength front + Text.byteLength middle) =
      ⟨middle, .ofText (Text.byteLength front) middle⟩ := by
  rw [slice, Text.slice_eq rfl rfl rfl]
  simp [Span.between, Span.ofText]

theorem standsIn_slice {start stop : Nat} (h : source.Cuts start stop) :
    (Spanned.slice source start stop).StandsIn source := by
  obtain ⟨front, middle, back, rfl, rfl, rfl⟩ := h.exists_middle
  rw [slice_middle]
  exact ⟨front, back, rfl, rfl⟩

/-- What stands in a text that stands in the source stands in the source. -/
theorem StandsIn.shift {inner outer : Spanned Text} (hinner : inner.StandsIn outer.value)
    (houter : outer.StandsIn source) : (inner.shift outer.span.start).StandsIn source := by
  obtain ⟨front, back, hvalue, hspan⟩ := hinner
  obtain ⟨before, after, hsource, houterSpan⟩ := houter
  refine ⟨before ++ front, back ++ after, ?_, ?_⟩
  · rw [hsource, hvalue]
    simp only [Spanned.shift, List.append_assoc]
  · rw [Spanned.shift, hspan, houterSpan, Text.byteLength_append]
    simp only [Span.shift, Span.ofText, Span.mk.injEq]
    omega

end Spanned

theorem Span.shift_ofText (offset start : Nat) (text : Text) :
    (ofText start text).shift offset = .ofText (offset + start) text := by
  simp only [shift, ofText, Span.mk.injEq]
  omega

/-- The text without white space at its ends, and its place in the text. -/
def Text.placedTrim (text : Text) : Spanned Text :=
  ⟨trim text, .ofText (leadingBlank text) (trim text)⟩

theorem Text.placedTrim_standsIn (text : Text) : text.placedTrim.StandsIn text := by
  obtain ⟨after, hafter⟩ := trim_prefix text
  refine ⟨text.takeWhile isBlank, after, ?_, rfl⟩
  rw [placedTrim, hafter, takeWhile_append_trimStart]

/-! ## Tokens -/

/-- A token stands where its spelling does. -/
theorem exists_standsIn_of_mem_lexFrom {lineStart : Bool} {text : Text} {token : Spanned Token}
    (h : token ∈ lexFrom lineStart 0 text) :
    ∃ spelling, token.value.Spells spelling ∧
      (⟨spelling, token.span⟩ : Spanned Text).StandsIn text := by
  obtain ⟨earlier, later, hsplit⟩ := List.append_of_mem h
  obtain ⟨front, spelling, back, _, htext, _, _, hspells, hspan, _⟩ := exists_spelling hsplit
  rw [Nat.zero_add] at hspan
  exact ⟨spelling, hspells, front, back, htext, hspan⟩

theorem cuts_of_mem_lexFrom {lineStart : Bool} {text : Text} {token : Spanned Token}
    (h : token ∈ lexFrom lineStart 0 text) : text.Cuts token.span.start token.span.stop := by
  obtain ⟨spelling, _, hstands⟩ := exists_standsIn_of_mem_lexFrom h
  exact hstands.cuts

/-! ## Text around and between two tokens -/

section Between

variable {source : Text} {first last : Spanned Token} {inner : Tokens}

theorem cuts_of_mem_significantTokens {token : Spanned Token}
    (h : token ∈ significantTokens source) :
    source.Cuts token.span.start token.span.stop :=
  cuts_of_mem_lexFrom (List.mem_filter.mp h).1

/-- Between two tokens there is a text. -/
theorem cuts_of_part (h : first :: (inner ++ [last]) <:+: significantTokens source) :
    source.Cuts first.span.stop last.span.start := by
  have hfirst := cuts_of_mem_significantTokens (h.subset List.mem_cons_self)
  have hlast : last ∈ significantTokens source := h.subset (by simp)
  have hordered := (significantTokens_inOrder source).pairwise.sublist h.sublist
  exact ⟨hfirst.stop_isCut, (cuts_of_mem_significantTokens hlast).start_isCut,
    (List.pairwise_cons.mp hordered).1 last (by simp)⟩

/-- The text from one token to another begins with the spelling of the first and ends with that of
the last. -/
theorem exists_standsIn_of_part (h : first :: (inner ++ [last]) <:+: significantTokens source) :
    ∃ opening middle closing, first.value.Spells opening ∧ last.value.Spells closing ∧
      (⟨opening ++ (middle ++ closing), first.span.union last.span⟩ :
        Spanned Text).StandsIn source := by
  have hlastMem : last ∈ significantTokens source := h.subset (by simp)
  obtain ⟨opening, hopening, front, rest, hsource, hfirst⟩ := exists_standsIn_of_mem_lexFrom
    (List.mem_filter.mp (h.subset List.mem_cons_self)).1
  obtain ⟨closing, hclosing, longer, back, hlonger, hlast⟩ :=
    exists_standsIn_of_mem_lexFrom (List.mem_filter.mp hlastMem).1
  obtain ⟨before, middle, after, hbetween, hstop, hstart⟩ := (cuts_of_part h).exists_middle
  rw [hfirst] at hstop hstart
  rw [hlast] at hstart
  simp only [Span.ofText] at hstop hstart
  simp only at hsource hlonger
  -- Both descriptions of the source are cut at the same two places.
  obtain ⟨rfl, hback⟩ := Text.eq_of_append_eq
    (hbetween.symm.trans (hsource.trans (List.append_assoc front opening rest).symm))
    (by rw [Text.byteLength_append, hstop])
  obtain ⟨_, rfl⟩ := Text.eq_of_append_eq
    ((List.append_assoc ..).trans (hbetween.symm.trans hlonger))
    (by rw [Text.byteLength_append, Text.byteLength_append, hstart])
  refine ⟨opening, middle, closing, hopening, hclosing, front, back, ?_, ?_⟩
  · rw [hbetween]
    simp only [List.append_assoc]
  · rw [hfirst, hlast]
    simp only [Span.union, Span.ofText, Span.mk.injEq, Text.byteLength_append]
    omega

end Between

/-! ## Headers and style blocks -/

/-- The text at the span goes from `Create` to an opening brace. -/
def MarksHeader (source : Text) (span : Span) : Prop :=
  ∃ text, (⟨text, span⟩ : Spanned Text).StandsIn source ∧
    ['C', 'r', 'e', 'a', 't', 'e'] <+: text ∧ ['{'] <:+ text

section Form

variable {source : Text} {consumed : Tokens} (h : consumed <:+: significantTokens source)
include h

theorem Header.Form.marksHeader {header : Header} (form : Header.Form source consumed header) :
    MarksHeader source (Construct.header header).span := by
  obtain ⟨first, inner, last, hconsumed, hspan⟩ :
      ∃ first inner last, consumed = ⟨.create, first⟩ :: (inner ++ [⟨.leftBrace, last⟩]) ∧
        (Construct.header header).span = first.union last := by
    cases form with
    | list form =>
        obtain ⟨first, keyword, opening, closing, last, name⟩ := form
        exact ⟨first, [_, _, _, _], last, rfl, rfl⟩
    | shape form =>
        obtain ⟨first, opening, closing, last, kind, name, inner, _, _⟩ := form
        refine ⟨first, ⟨.identifier kind.value, kind.span⟩ :: (nameTokens name ++
          ⟨.leftParen, opening⟩ :: (inner ++ [⟨.rightParen, closing⟩])), last, ?_, rfl⟩
        simp
  rw [hconsumed] at h
  obtain ⟨opening, middle, closing, rfl, rfl, hstands⟩ := exists_standsIn_of_part h
  refine ⟨_, hspan ▸ hstands, List.prefix_append _ _, ?_⟩
  rw [← List.append_assoc]
  exact List.suffix_append _ _

/-- The parameters stand between the parentheses. -/
theorem ShapeHeader.Form.params_standsIn {header : ShapeHeader}
    (form : ShapeHeader.Form source consumed header) : header.params.StandsIn source := by
  obtain ⟨first, opening, closing, last, kind, name, inner, _, _⟩ := form
  have hinside : ⟨.leftParen, opening⟩ :: (inner ++ [⟨.rightParen, closing⟩]) <:+:
      significantTokens source := by
    refine List.IsInfix.trans ⟨⟨.create, first⟩ :: ⟨.identifier kind.value, kind.span⟩ ::
      nameTokens name, [⟨.leftBrace, last⟩], ?_⟩ h
    simp
  exact Spanned.standsIn_slice (cuts_of_part hinside)

/-- The body of a style block stands between the braces. -/
theorem StyleBlock.Form.body_standsIn {block : StyleBlock}
    (form : StyleBlock.Form source consumed block) : block.body.StandsIn source := by
  obtain ⟨keyword, opening, closing, inner, _⟩ := form
  exact Spanned.standsIn_slice (cuts_of_part ((List.suffix_cons _ _).isInfix.trans h))

end Form

/-! ## Pieces of parameter text -/

namespace Piece

/-- The piece and the texts on both sides of its colon can be cut out of the text. -/
structure Fits (text : Text) (piece : Piece) : Prop where
  whole : text.Cuts piece.start piece.stop
  key : ∀ colon ∈ piece.colon, text.Cuts piece.start colon.start
  value : ∀ colon ∈ piece.colon, text.Cuts colon.stop piece.stop

/-- The colon stands behind the start of a piece and in front of the tokens. -/
structure ColonFits (text : Text) (start : Nat) (tokens : Tokens) (colon : Span) : Prop where
  key : text.Cuts start colon.start
  self : text.Cuts colon.start colon.stop
  ahead : ∀ token ∈ tokens, colon.stop ≤ token.span.start

theorem ColonFits.of_cons {text : Text} {start : Nat} {token : Spanned Token} {tokens : Tokens}
    {colon : Span} (h : ColonFits text start (token :: tokens) colon) :
    ColonFits text start tokens colon :=
  ⟨h.key, h.self, (List.forall_mem_cons.mp h.ahead).2⟩

/-- A piece may end at any cut behind its start and its colon. -/
theorem fits_of_colonFits {text : Text} {start stop : Nat} {colon : Option Span} {tokens : Tokens}
    (hpiece : text.Cuts start stop) (hcolon : ∀ span ∈ colon, ColonFits text start tokens span)
    (hstop : ∀ span ∈ colon, span.stop ≤ stop) : Fits text ⟨start, stop, colon⟩ where
  whole := hpiece
  key := fun span hspan => (hcolon span hspan).key
  value := fun span hspan =>
    ⟨(hcolon span hspan).self.stop_isCut, hpiece.stop_isCut, hstop span hspan⟩

theorem fits_of_mem_cut {text : Text} {start : Nat} {colon : Option Span} {tokens : Tokens}
    (hstart : text.IsCut start) (hcolon : ∀ span ∈ colon, ColonFits text start tokens span)
    (htokens : ∀ token ∈ tokens, start ≤ token.span.start ∧
      text.Cuts token.span.start token.span.stop)
    (hordered : tokens.Pairwise fun a b => a.span.stop ≤ b.span.start) :
    ∀ piece ∈ cut (Text.byteLength text) start colon tokens, piece.Fits text := by
  induction tokens generalizing start colon with
  | nil =>
      intro piece hmem
      obtain rfl := List.mem_singleton.mp hmem
      apply fits_of_colonFits ⟨hstart, Text.isCut_byteLength text, hstart.le_byteLength⟩ hcolon
      exact fun span hspan => (hcolon span hspan).self.stop_isCut.le_byteLength
  | cons token rest ih =>
      obtain ⟨⟨hle, htoken⟩, hlater⟩ := List.forall_mem_cons.mp htokens
      obtain ⟨hafter, hrest⟩ := List.pairwise_cons.mp hordered
      have hkept : ∀ span ∈ colon, ColonFits text start rest span :=
        fun span hspan => (hcolon span hspan).of_cons
      rw [cut]
      split
      next =>
        intro piece hmem
        rcases List.mem_cons.mp hmem with rfl | hmem
        · apply fits_of_colonFits ⟨hstart, htoken.start_isCut, hle⟩ hcolon
          exact fun span hspan => (hcolon span hspan).ahead token List.mem_cons_self
        · have hbehind : ∀ later ∈ rest, token.span.stop ≤ later.span.start ∧
              text.Cuts later.span.start later.span.stop :=
            fun later hlaterMem => ⟨hafter later hlaterMem, (hlater later hlaterMem).2⟩
          exact ih htoken.stop_isCut (by simp) hbehind hrest piece hmem
      next =>
        split
        next =>
          refine ih hstart ?_ hlater hrest
          -- The colon that counts is the one from before, or else this token.
          intro span hspan
          cases colon with
          | none =>
              obtain rfl := Option.some.inj hspan
              exact ⟨⟨hstart, htoken.start_isCut, hle⟩, htoken, hafter⟩
          | some first => exact hkept span hspan
        next => exact ih hstart hkept hlater hrest

/-- Parameter text is cut between characters only. -/
theorem fits_of_mem_all {text : Text} {piece : Piece} (h : piece ∈ all text) : piece.Fits text :=
  fits_of_mem_cut (Text.isCut_zero text) (by simp)
    (fun _ hmem => ⟨Nat.zero_le _, cuts_of_mem_lexFrom hmem⟩) (pairwise_lexFrom false 0 text)
    piece h

theorem trimmed_eq_shift (text : Text) (start stop : Nat) :
    trimmed text start stop = (Text.placedTrim (Text.slice text start stop)).shift
      (Spanned.slice text start stop).span.start := by
  rw [Spanned.shift, Text.placedTrim, Span.shift_ofText]
  rfl

/-- What is left after trimming stands where it is said to stand. -/
theorem trimmed_standsIn {text : Text} {start stop : Nat} (h : text.Cuts start stop) :
    (trimmed text start stop).StandsIn text := by
  rw [trimmed_eq_shift]
  exact (Text.placedTrim_standsIn _).shift (Spanned.standsIn_slice h)

end Piece

end SceneScript
