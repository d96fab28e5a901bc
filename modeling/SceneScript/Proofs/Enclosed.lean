import SceneScript.Document.Parameters
import SceneScript.Proofs.Boundaries
import SceneScript.Proofs.ScanRuns

/-! # Text between two marks

The text between the parentheses of a shape header and the text between the braces of a style block
are handed on as they are written and read once more. Since both ends of such a text are token
boundaries, the second reading meets the tokens that the scan met there.
-/

namespace SceneScript

/-- The tokens that lie between two offsets. -/
def Tokens.between (start stop : Nat) (tokens : Tokens) : Tokens :=
  tokens.filter fun token => start ≤ token.span.start && token.span.stop ≤ stop

/-- The tokens of the source around the text that two of its tokens enclose. -/
structure Encloses (source : Text) (opening closing : Spanned Token) (inner : Tokens)
    (enclosed : Spanned Text) : Prop where
  opening_mem : opening ∈ tokenize source
  closing_mem : closing ∈ tokenize source
  start : enclosed.span.start = opening.span.stop
  stop : enclosed.span.stop = closing.span.start
  length : enclosed.span.stop = enclosed.span.start + Text.byteLength enclosed.value
  /-- Read in the middle of a line, the text has the tokens that the source has there. -/
  inner_eq : lexFrom false enclosed.span.start enclosed.value = inner
  between : Tokens.between enclosed.span.start enclosed.span.stop (tokenize source) = inner

/-! ## Tokens between two tokens -/

section Enclosed

variable {source : Text} {earlier inner later : Tokens} {opening closing : Spanned Token}

theorem Tokens.between_append (start stop : Nat) (front back : Tokens) :
    Tokens.between start stop (front ++ back) =
      Tokens.between start stop front ++ Tokens.between start stop back :=
  List.filter_append front back

theorem Tokens.between_eq_nil {start stop : Nat} {tokens : Tokens}
    (h : ∀ token ∈ tokens, token.span.start < start ∨ stop < token.span.stop) :
    Tokens.between start stop tokens = [] := by
  apply List.filter_eq_nil_iff.mpr
  intro token hmem
  have houtside := h token hmem
  simp only [Bool.and_eq_true, decide_eq_true_eq]
  omega

theorem Tokens.between_eq_self {start stop : Nat} {tokens : Tokens}
    (h : ∀ token ∈ tokens, start ≤ token.span.start ∧ token.span.stop ≤ stop) :
    Tokens.between start stop tokens = tokens := by
  apply List.filter_eq_self.mpr
  intro token hmem
  rw [Bool.and_eq_true, decide_eq_true_eq, decide_eq_true_eq]
  exact h token hmem

/-- In a list in order, what stands in front of a token ends in front of it, and what stands behind
it starts behind it. -/
theorem Tokens.InOrder.around {front back : Tokens} {token : Spanned Token}
    (h : Tokens.InOrder (front ++ token :: back)) :
    (∀ other ∈ front, other.span.stop ≤ token.span.start) ∧
      token.span.start < token.span.stop ∧ ∀ other ∈ back, token.span.stop ≤ other.span.start := by
  obtain ⟨_, hback, hfront⟩ := List.pairwise_append.mp h.pairwise
  refine ⟨?_, ?_, (List.pairwise_cons.mp hback).1⟩
  · intro other hmem
    exact hfront other hmem token List.mem_cons_self
  · apply h.nonempty
    exact List.mem_append_right _ List.mem_cons_self

/-- In a list in order, the tokens between the ends of two tokens stand between these two. -/
theorem Tokens.InOrder.between_eq
    (h : Tokens.InOrder (earlier ++ opening :: (inner ++ closing :: later))) :
    Tokens.between opening.span.stop closing.span.start
      (earlier ++ opening :: (inner ++ closing :: later)) = inner := by
  have hassoc : earlier ++ opening :: (inner ++ closing :: later) =
      (earlier ++ opening :: inner) ++ closing :: later := by
    rw [List.append_assoc, List.cons_append]
  obtain ⟨hearlier, hopen, hafter⟩ := h.around
  obtain ⟨hbefore, hclose, hlater⟩ := Tokens.InOrder.around (hassoc ▸ h)
  have hfront :
      Tokens.between opening.span.stop closing.span.start (earlier ++ [opening]) = [] := by
    apply Tokens.between_eq_nil
    intro token hmem
    rcases List.mem_append.mp hmem with hmem | hmem
    · have hle := hearlier token hmem
      have hspan := token.span.start_le_stop
      omega
    · rw [List.mem_singleton.mp hmem]
      omega
  have hmiddle : Tokens.between opening.span.stop closing.span.start inner = inner := by
    apply Tokens.between_eq_self
    intro token hmem
    have hstart := hafter token (List.mem_append_left _ hmem)
    have hstop := hbefore token (List.mem_append_right _ (List.mem_cons_of_mem _ hmem))
    exact ⟨hstart, hstop⟩
  have hback : Tokens.between opening.span.stop closing.span.start (closing :: later) = [] := by
    apply Tokens.between_eq_nil
    intro token hmem
    rcases List.mem_cons.mp hmem with rfl | hmem
    · omega
    · have hle := hlater token hmem
      have hspan := token.span.start_le_stop
      omega
  rw [List.append_cons earlier, Tokens.between_append, hfront, Tokens.between_append, hmiddle,
    hback, List.nil_append, List.append_nil]

/-- Two tokens of which the first leaves the start of the line enclose the tokens of the text
between them. -/
theorem encloses_of_tokenize
    (h : tokenize source = earlier ++ opening :: (inner ++ closing :: later))
    (hopening : ∀ lineStart, opening.value.lineStartAfter lineStart = false) :
    Encloses source opening closing inner
      (Spanned.slice source opening.span.stop closing.span.start) := by
  obtain ⟨front, spelling, rest, before, rfl, _, _, _, hspan, hrest⟩ := exists_spelling h
  obtain ⟨body, back, after, rfl, _, hbody, hback⟩ := exists_readsThrough hrest
  have hstop : opening.span.stop = Text.byteLength (front ++ spelling) := by
    rw [hspan, Text.byteLength_append, Nat.zero_add]
    rfl
  have hclose : closing.span.start = opening.span.stop + Text.byteLength body := by
    cases back with
    | nil =>
        rw [lexFrom_nil] at hback
        cases hback
    | cons c tail =>
        rw [lexFrom_cons rfl] at hback
        rw [← (List.cons.inj hback).1]
  have hslice : Text.slice (front ++ (spelling ++ (body ++ back))) opening.span.stop
      closing.span.start = body :=
    Text.slice_eq (by rw [List.append_assoc]) hstop hclose
  have hbetween : max opening.span.stop closing.span.start = closing.span.start := by omega
  have hordered : Tokens.InOrder (tokenize (front ++ (spelling ++ (body ++ back)))) :=
    lexFrom_inOrder true 0 _
  rw [h] at hordered
  refine ⟨?_, ?_, rfl, hbetween, ?_, ?_, ?_⟩
  · rw [h]
    simp
  · rw [h]
    simp
  · rw [Spanned.slice, hslice]
    exact hbetween.trans hclose
  · rw [Spanned.slice, hslice, ← hbody, hopening]
    rfl
  · rw [h, Spanned.slice, Span.between]
    simp only [hbetween]
    exact hordered.between_eq

/-- What is cut out of the significant tokens is cut out of all tokens. -/
theorem exists_tokenize_of_significantTokens
    (h : significantTokens source = earlier ++ opening :: (inner ++ closing :: later)) :
    ∃ front middle back, tokenize source = front ++ opening :: (middle ++ closing :: back) ∧
      middle.filter (fun token => !token.value.isTrivia) = inner := by
  obtain ⟨front, rest, htokens, _, hrest⟩ := List.filter_eq_append_iff.mp h
  obtain ⟨skipped, rest, rfl, _, _, hrest⟩ := List.filter_eq_cons_iff.mp hrest
  obtain ⟨middle, rest, rfl, hmiddle, hrest⟩ := List.filter_eq_append_iff.mp hrest
  obtain ⟨more, back, rfl, hmore, _, _⟩ := List.filter_eq_cons_iff.mp hrest
  refine ⟨front ++ skipped, middle ++ more, back, ?_, ?_⟩
  · rw [htokens]
    simp only [List.append_assoc]
  · have htrivia : more.filter (fun token => !token.value.isTrivia) = [] :=
      List.filter_eq_nil_iff.mpr hmore
    rw [List.filter_append, hmiddle, htrivia, List.append_nil]

end Enclosed

/-! ## Parameters and style bodies -/

/-- The parentheses of a shape header enclose its parameters, and no token between them ends a
header. -/
theorem ShapeHeader.Form.encloses {source : Text} {skipped consumed rest : Tokens}
    {header : ShapeHeader} (form : ShapeHeader.Form source consumed header)
    (htokens : significantTokens source = skipped ++ (consumed ++ rest)) :
    ∃ opening closing inner, opening.value = .leftParen ∧ closing.value = .rightParen ∧
      Encloses source opening closing inner header.params ∧
        ∀ token ∈ inner, token.value.isParameterToken := by
  obtain ⟨first, opening, closing, last, kind, name, parameters, _, hparameters⟩ := form
  have hsplit : significantTokens source =
      (skipped ++ ⟨.create, first⟩ :: ⟨.identifier kind.value, kind.span⟩ :: nameTokens name) ++
        ⟨.leftParen, opening⟩ ::
          (parameters ++ ⟨.rightParen, closing⟩ :: (⟨.leftBrace, last⟩ :: rest)) := by
    rw [htokens]
    simp
  obtain ⟨earlier, inner, later, hall, hinner⟩ := exists_tokenize_of_significantTokens hsplit
  refine ⟨⟨.leftParen, opening⟩, ⟨.rightParen, closing⟩, inner, rfl, rfl,
    encloses_of_tokenize hall (fun _ => rfl), ?_⟩
  intro token hmem
  by_cases htrivia : token.value.isTrivia
  · cases hvalue : token.value <;> first | rfl | (rw [hvalue] at htrivia; cases htrivia)
  · apply hparameters
    rw [← hinner]
    exact List.mem_filter.mpr ⟨hmem, by simp [htrivia]⟩

/-- The braces of a style block enclose its body, and no token between them is a closing brace. -/
theorem StyleBlock.Form.encloses {source : Text} {skipped consumed rest : Tokens}
    {block : StyleBlock} (form : StyleBlock.Form source consumed block)
    (htokens : significantTokens source = skipped ++ (consumed ++ rest)) :
    ∃ opening closing inner, opening.value = .leftBrace ∧ closing.value = .rightBrace ∧
      Encloses source opening closing inner block.body ∧
        ∀ token ∈ inner, token.value ≠ .rightBrace := by
  obtain ⟨keyword, opening, closing, declared, hdeclared⟩ := form
  have hsplit : significantTokens source = (skipped ++ [⟨.style, keyword⟩]) ++
      ⟨.leftBrace, opening⟩ :: (declared ++ ⟨.rightBrace, closing⟩ :: rest) := by
    rw [htokens]
    simp
  obtain ⟨earlier, inner, later, hall, hinner⟩ := exists_tokenize_of_significantTokens hsplit
  refine ⟨⟨.leftBrace, opening⟩, ⟨.rightBrace, closing⟩, inner, rfl, rfl,
    encloses_of_tokenize hall (fun _ => rfl), ?_⟩
  intro token hmem hvalue
  refine hdeclared token ?_ hvalue
  rw [← hinner]
  exact List.mem_filter.mpr ⟨hmem, by simp [hvalue, Token.isTrivia]⟩

/-! ## The pieces of parameter text -/

namespace Piece

/-- The piece in a text that begins `offset` bytes later. -/
def shift (piece : Piece) (offset : Nat) : Piece :=
  ⟨piece.start + offset, piece.stop + offset, piece.colon.map (·.shift offset)⟩

theorem cut_map_shift (stop start offset : Nat) (colon : Option Span) (tokens : Tokens) :
    cut (stop + offset) (start + offset) (colon.map (·.shift offset))
        (tokens.map (·.shift offset)) =
      (cut stop start colon tokens).map (·.shift offset) := by
  induction tokens generalizing start colon with
  | nil => rfl
  | cons token rest ih =>
      rw [List.map_cons, cut, cut]
      by_cases hseparator : token.value.isSeparator
      · rw [if_pos hseparator, if_pos (show (token.shift offset).value.isSeparator from hseparator),
          List.map_cons, ← ih]
        rfl
      · rw [if_neg hseparator,
          if_neg (show ¬ (token.shift offset).value.isSeparator from hseparator)]
        by_cases hcolon : token.value = .colon
        · rw [if_pos hcolon, if_pos (show (token.shift offset).value = .colon from hcolon), ← ih]
          cases colon <;> rfl
        · rw [if_neg hcolon, if_neg (show ¬ (token.shift offset).value = .colon from hcolon), ih]

end Piece

/-- The parameter text of every shape header that a scan finds is read again as the source was read
there: its tokens, moved to their place, are all tokens of the source between the parentheses. So
the text holds no token that ends a header, and it is cut at the very commas, comment lines and
colons of the source. -/
theorem tokenizeInline_params {source : Text} {steps : List ScanStep} {header : ShapeHeader}
    (h : .header (some (.shape header)) ∈ scan source steps) :
    (∃ opening ∈ tokenize source, opening.value = .leftParen ∧
      opening.span.stop = header.params.span.start) ∧
    (∃ closing ∈ tokenize source, closing.value = .rightParen ∧
      closing.span.start = header.params.span.stop) ∧
    (tokenizeInline header.params.value).map (·.shift header.params.span.start) =
      Tokens.between header.params.span.start header.params.span.stop (tokenize source) ∧
    (∀ token ∈ tokenizeInline header.params.value, token.value.isParameterToken) ∧
    (Piece.all header.params.value).map (·.shift header.params.span.start) =
      Piece.cut header.params.span.stop header.params.span.start none
        (Tokens.between header.params.span.start header.params.span.stop (tokenize source)) := by
  have hfound : Construct.header (.shape header) ∈ (scan source steps).filterMap (·.found?) :=
    List.mem_filterMap.mpr ⟨_, h, rfl⟩
  obtain ⟨skipped, consumed, rest, form, htokens⟩ := exists_form_of_mem_scan hfound
  cases form with
  | shape form =>
      obtain ⟨opening, closing, inner, hopening, hclosing, hencloses, hparameter⟩ :=
        form.encloses htokens
      have hinner : (tokenizeInline header.params.value).map
          (·.shift header.params.span.start) = inner := by
        rw [tokenizeInline, ← lexFrom_shift, Nat.zero_add]
        exact hencloses.inner_eq
      refine ⟨⟨opening, hencloses.opening_mem, hopening, hencloses.start.symm⟩,
        ⟨closing, hencloses.closing_mem, hclosing, hencloses.stop.symm⟩, ?_, ?_, ?_⟩
      · exact hinner.trans hencloses.between.symm
      · intro token hmem
        apply hparameter (token.shift header.params.span.start)
        rw [← hinner]
        exact List.mem_map_of_mem hmem
      · have hcut := Piece.cut_map_shift (Text.byteLength header.params.value) 0
          header.params.span.start none (tokenizeInline header.params.value)
        rw [Nat.zero_add, Nat.add_comm, ← hencloses.length, hinner] at hcut
        rw [hencloses.between]
        exact hcut.symm

/-- A shape header with a parenthesis in a comment line and one in a quoted text. -/
def commentedHeader : Text :=
  "Create Sq A(x:1,\n// y)\nt:'a,(') \x7b".toList

theorem tokenizeInline_params_commentedHeader :
    let params : Spanned Text := ⟨"x:1,\n// y)\nt:'a,('".toList, ⟨12, 30, by decide⟩⟩
    let header : ShapeHeader :=
      ⟨⟨['S', 'q'], ⟨7, 9, by decide⟩⟩, some ⟨['A'], ⟨10, 11, by decide⟩⟩, params,
        ⟨0, 33, by decide⟩⟩
    .header (some (.shape header)) ∈ scan commentedHeader [.header] ∧
      (tokenizeInline params.value).map (·.shift 12) =
        Tokens.between 12 30 (tokenize commentedHeader) ∧
      (Piece.all params.value).map (·.shift 12) =
        Piece.cut 30 12 none (Tokens.between 12 30 (tokenize commentedHeader)) := by
  intro params header
  have h : .header (some (.shape header)) ∈ scan commentedHeader [.header] := by decide +kernel
  obtain ⟨_, _, htokens, _, hpieces⟩ := tokenizeInline_params h
  exact ⟨h, htokens, hpieces⟩

end SceneScript
