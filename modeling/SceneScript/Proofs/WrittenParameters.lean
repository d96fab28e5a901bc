import SceneScript.Document.Parameters
import SceneScript.Proofs.Literals
import SceneScript.Scan.Header

/-! # Parameters as they are written

A parameter is written as a key, a colon and a literal, with white space around each of them, and
parameters are joined by commas. Scanning skips them as a whole, since no literal ends a header, and
reading them gives back the keys with the values that were meant.
-/

namespace SceneScript

/-- A parameter as it is written, with the white space around its key and its value. -/
structure WrittenParameter where
  key : Text
  literal : Literal
  beforeKey : Text
  afterKey : Text
  beforeValue : Text
  afterValue : Text
  deriving DecidableEq, Repr

namespace WrittenParameter

/-- What stands in front of the colon. -/
def keyText (parameter : WrittenParameter) : Text :=
  parameter.beforeKey ++ (parameter.key ++ parameter.afterKey)

/-- What stands behind the colon. -/
def valueText (parameter : WrittenParameter) : Text :=
  parameter.beforeValue ++ (parameter.literal.text ++ parameter.afterValue)

/-- The written form. -/
def text (parameter : WrittenParameter) : Text :=
  parameter.keyText ++ ':' :: parameter.valueText

/-- The written form can be read. -/
structure Proper (parameter : WrittenParameter) : Prop where
  key : Text.isIdentifier parameter.key
  literal : parameter.literal.Proper
  beforeKey : IsSpacing parameter.beforeKey
  afterKey : IsSpacing parameter.afterKey
  beforeValue : IsSpacing parameter.beforeValue
  afterValue : IsSpacing parameter.afterValue

instance : DecidablePred Proper := fun parameter =>
  decidable_of_iff (Text.isIdentifier parameter.key ∧ parameter.literal.Proper ∧
      IsSpacing parameter.beforeKey ∧ IsSpacing parameter.afterKey ∧
      IsSpacing parameter.beforeValue ∧ IsSpacing parameter.afterValue)
    ⟨fun ⟨hkey, hliteral, hbeforeKey, hafterKey, hbeforeValue, hafterValue⟩ =>
      ⟨hkey, hliteral, hbeforeKey, hafterKey, hbeforeValue, hafterValue⟩,
    fun h => ⟨h.key, h.literal, h.beforeKey, h.afterKey, h.beforeValue, h.afterValue⟩⟩

/-- The span of the colon when the parameter begins at `offset`. -/
def colonSpan (parameter : WrittenParameter) (offset : Nat) : Span :=
  .ofText (offset + Text.byteLength parameter.keyText) [':']

/-- The tokens of the parameter when it begins at `offset`, without white space. -/
def tokens (parameter : WrittenParameter) (offset : Nat) : List (Spanned Token) :=
  [⟨Token.ofWord parameter.key,
      .ofText (offset + Text.byteLength parameter.beforeKey) parameter.key⟩,
    ⟨.colon, parameter.colonSpan offset⟩,
    ⟨parameter.literal.token,
      .ofText (offset + Text.byteLength parameter.keyText + 1 +
        Text.byteLength parameter.beforeValue) parameter.literal.text⟩]

/-- A written parameter has three tokens besides white space: key, colon and value. -/
theorem keptTokens_text {keep : Token → Bool} (hspace : keep .space = false)
    {parameter : WrittenParameter} (h : parameter.Proper) {more : Text}
    (hmore : OpensWithBreak more) (lineStart : Bool) (offset : Nat) :
    keptTokens keep lineStart offset (parameter.text ++ more) =
      (parameter.tokens offset).filter (fun token => keep token.value) ++
        keptTokens keep false (offset + Text.byteLength parameter.text) more := by
  have hcolon : OpensWithBreak ([':'] ++ (parameter.valueText ++ more)) :=
    opensWithBreak_cons (by decide) _
  have hkey := lexesAs_word h.key (hcolon.append h.afterKey.all_isBlank)
  have hmark : LexesAs [':'] .colon (parameter.valueText ++ more) := lexesAs_punctuation rfl _
  have hvalue := Literal.lexesAs h.literal (hmore.append h.afterValue.all_isBlank)
  have hsize : Text.byteLength parameter.text =
      Text.byteLength parameter.keyText + (1 + Text.byteLength parameter.valueText) :=
    Text.byteLength_append _ _
  calc
    keptTokens keep lineStart offset (parameter.text ++ more)
    _ = keptTokens keep lineStart offset
          (parameter.keyText ++ ([':'] ++ (parameter.valueText ++ more))) := by
      rw [text, List.append_assoc]
      rfl
    _ = (parameter.tokens offset).filter (fun token => keep token.value) ++
          keptTokens keep false (offset + Text.byteLength parameter.text) more := by
      rw [keyText, keptTokens_spaced hspace h.beforeKey hkey h.afterKey,
        keptTokens_of_lexesAs hmark, valueText,
        keptTokens_spaced hspace h.beforeValue hvalue h.afterValue, tokens, hsize,
        ← List.append_assoc, ← List.append_assoc, ← List.filter_append, ← List.filter_append,
        ← Nat.add_assoc, ← Nat.add_assoc]
      rfl

end WrittenParameter

/-! ## Cutting written parameters -/

/-- An identifier holds no white space. -/
theorem Text.trim_of_isIdentifier {key : Text} (h : Text.isIdentifier key) : trim key = key := by
  have hblank : ∀ c ∈ key, isBlank c = false := fun c hmem =>
    isBlank_of_isWordChar (List.all_eq_true.mp (Text.all_isWordChar_of_isIdentifier h).2 c hmem)
  exact trim_eq_self (fun c hc => hblank c (List.mem_of_mem_head? hc))
    fun c hc => hblank c (List.mem_of_mem_getLast? hc)

/-- Whether parameter text or a piece of it may be cut at the token. -/
def Token.isMark (token : Token) : Bool :=
  token.isSeparator || token = .colon

theorem Token.isMark_ofWord (word : Text) : (Token.ofWord word).isMark = false := by
  unfold Token.ofWord
  split
  next => rfl
  next => split <;> rfl

namespace Piece

theorem cut_colon (stop start : Nat) (span : Span) (tokens : Tokens) :
    cut stop start none (⟨.colon, span⟩ :: tokens) = cut stop start (some span) tokens :=
  rfl

theorem cut_comma (stop start : Nat) (colon : Option Span) (span : Span) (tokens : Tokens) :
    cut stop start colon (⟨.comma, span⟩ :: tokens) =
      ⟨start, span.start, colon⟩ :: cut stop span.stop none tokens :=
  rfl

/-- Only separators and colons have a say in how parameter text is cut. -/
theorem cut_filter (stop start : Nat) (colon : Option Span) (tokens : Tokens) :
    cut stop start colon (tokens.filter fun token => token.value.isMark) =
      cut stop start colon tokens := by
  induction tokens generalizing start colon with
  | nil => rfl
  | cons token rest ih =>
      by_cases hseparator : token.value.isSeparator
      · rw [List.filter_cons_of_pos (by simp [Token.isMark, hseparator]), cut, cut,
          if_pos hseparator, if_pos hseparator, ih]
      · by_cases hcolon : token.value = .colon
        · rw [List.filter_cons_of_pos (by simp [Token.isMark, hcolon]), cut, cut, if_neg hseparator,
            if_neg hseparator, if_pos hcolon, if_pos hcolon, ih]
        · rw [List.filter_cons_of_neg (by simp [Token.isMark, hseparator, hcolon]), cut,
            if_neg hseparator, if_neg hcolon, ih]

theorem all_eq (text : Text) :
    all text = cut (Text.byteLength text) 0 none (keptTokens Token.isMark false 0 text) :=
  (cut_filter _ _ _ _).symm

/-- What is read between two offsets is the text there without white space around it. -/
theorem trimmed_value {text front middle back : Text} (h : text = front ++ (middle ++ back))
    {start stop : Nat} (hstart : start = Text.byteLength front)
    (hstop : stop = start + Text.byteLength middle) :
    (trimmed text start stop).value = Text.trim middle :=
  congrArg Text.trim (Text.slice_eq h hstart hstop)

/-- A piece with an identifier in front of its colon is an entry if a value stands behind it, and
the value is at fault if not. -/
theorem read_keyed {text front keyText valueText back key : Text} {colon : Span} {stop : Nat}
    (htext : text = front ++ (keyText ++ ':' :: (valueText ++ back)))
    (hcolon : colon = .ofText (Text.byteLength front + Text.byteLength keyText) [':'])
    (hstop : stop = colon.stop + Text.byteLength valueText) (hkey : Text.isIdentifier key)
    (htrim : Text.trim keyText = key) (base : Nat) :
    read text base ⟨Text.byteLength front, stop, some colon⟩ =
      (Value.read? (Text.trim valueText)).elim
        (.error (.invalidValue key ((trimmed text colon.stop stop).shift base)))
        fun parsed => .ok (some (key, parsed)) := by
  have hne := (Text.all_isWordChar_of_isIdentifier hkey).1
  have hcolonStop : colon.stop = Text.byteLength (front ++ (keyText ++ [':'])) := by
    rw [hcolon, Text.byteLength_append, Text.byteLength_append, ← Nat.add_assoc]
    rfl
  have hwhole : (trimmed text (Text.byteLength front) stop).value ≠ [] := by
    have hpiece : text = front ++ ((keyText ++ ':' :: valueText) ++ back) := by
      rw [htext, List.append_assoc, List.cons_append]
    have hend : stop = Text.byteLength front + Text.byteLength (keyText ++ ':' :: valueText) := by
      rw [hstop, hcolonStop]
      simp only [Text.byteLength_append, Text.byteLength_cons, Text.byteLength_nil]
      omega
    rw [trimmed_value hpiece rfl hend]
    exact Text.trim_ne_nil (c := ':') (by simp) rfl
  have hkeyValue : (trimmed text (Text.byteLength front) colon.start).value = key := by
    rw [trimmed_value htext rfl (congrArg Span.start hcolon), htrim]
  have hvalue : (trimmed text colon.stop stop).value = Text.trim valueText := by
    have hsplit : text = (front ++ (keyText ++ [':'])) ++ (valueText ++ back) := by
      rw [htext]
      simp only [List.append_assoc, List.cons_append, List.nil_append]
    exact trimmed_value hsplit hcolonStop hstop
  simp only [read, hwhole, hkeyValue, hne, hkey, hvalue, if_false, Bool.not_true,
    Bool.false_eq_true]
  cases Value.read? (Text.trim valueText) <;> rfl

/-- A piece of white space is no entry. -/
theorem read_of_blank {text : Text} {piece : Piece}
    (h : (Text.slice text piece.start piece.stop).all isBlank) (base : Nat) :
    piece.read text base = .ok none :=
  if_pos ((Text.trim_eq_nil_iff _).mpr h)

end Piece

namespace WrittenParameter

theorem filter_isMark_tokens (parameter : WrittenParameter) (offset : Nat) :
    (parameter.tokens offset).filter (fun token => token.value.isMark) =
      [⟨.colon, parameter.colonSpan offset⟩] := by
  have hkey : (Token.ofWord parameter.key).isMark = false := Token.isMark_ofWord _
  have hvalue : parameter.literal.token.isMark = false := by
    cases parameter.literal <;> rfl
  have hcolon : Token.colon.isMark = true := rfl
  simp [tokens, hkey, hvalue, hcolon]

/-- The colon of a written parameter is found in it, and nothing in it cuts it. -/
theorem cut_text {parameter : WrittenParameter} (h : parameter.Proper) {more : Text}
    (hmore : OpensWithBreak more) (stop start : Nat) (lineStart : Bool) (offset : Nat) :
    Piece.cut stop start none
        (keptTokens Token.isMark lineStart offset (parameter.text ++ more)) =
      Piece.cut stop start (some (parameter.colonSpan offset))
        (keptTokens Token.isMark false (offset + Text.byteLength parameter.text) more) := by
  rw [keptTokens_text rfl h hmore, filter_isMark_tokens, List.singleton_append, Piece.cut_colon]

/-- Reading the piece of a written parameter gives its key and the value that was meant. -/
theorem read_text {parameter : WrittenParameter} (h : parameter.Proper) (front back : Text)
    (base : Nat) :
    Piece.read (front ++ (parameter.text ++ back)) base
        ⟨Text.byteLength front, Text.byteLength front + Text.byteLength parameter.text,
          some (parameter.colonSpan (Text.byteLength front))⟩ =
      .ok (some (parameter.key, parameter.literal.value)) := by
  have htext : front ++ (parameter.text ++ back) =
      front ++ (parameter.keyText ++ ':' :: (parameter.valueText ++ back)) := by
    rw [text, List.append_assoc, List.cons_append]
  have hstop : Text.byteLength front + Text.byteLength parameter.text =
      (parameter.colonSpan (Text.byteLength front)).stop +
        Text.byteLength parameter.valueText := by
    rw [text, colonSpan, Span.ofText]
    simp only [Text.byteLength_append, Text.byteLength_cons, Text.byteLength_nil]
    omega
  have hkey : Text.trim parameter.keyText = parameter.key :=
    Text.trim_append_append h.beforeKey.all_isBlank h.afterKey.all_isBlank
      (Text.trim_of_isIdentifier h.key)
  have hvalue : Text.trim parameter.valueText = parameter.literal.text :=
    Text.trim_append_append h.beforeValue.all_isBlank h.afterValue.all_isBlank
      (Literal.trim_text h.literal.readable)
  have hcolon : parameter.colonSpan (Text.byteLength front) =
      .ofText (Text.byteLength front + Text.byteLength parameter.keyText) [':'] := rfl
  rw [Piece.read_keyed htext hcolon hstop h.key hkey, hvalue,
    Literal.read?_text h.literal.readable]
  rfl

/-- The parameter with more white space behind it. -/
def followedBy (parameter : WrittenParameter) (gap : Text) : WrittenParameter :=
  { parameter with afterValue := parameter.afterValue ++ gap }

theorem text_followedBy (parameter : WrittenParameter) (gap : Text) :
    (parameter.followedBy gap).text = parameter.text ++ gap := by
  simp only [followedBy, text, keyText, valueText, List.append_assoc, List.cons_append]

theorem Proper.followedBy {parameter : WrittenParameter} (h : parameter.Proper) {gap : Text}
    (hgap : IsSpacing gap) : (parameter.followedBy gap).Proper :=
  { h with afterValue := h.afterValue.append hgap }

/-- The entry that is meant. -/
def entry (parameter : WrittenParameter) : Text × Value :=
  (parameter.key, parameter.literal.value)

end WrittenParameter

/-! ## Several parameters -/

/-- Written parameters joined by commas. -/
def parametersText (parameters : List WrittenParameter) : Text :=
  Text.join ',' (parameters.map WrittenParameter.text)

theorem parametersText_cons_cons (first next : WrittenParameter) (rest : List WrittenParameter) :
    parametersText (first :: next :: rest) =
      first.text ++ ([','] ++ parametersText (next :: rest)) :=
  rfl

/-- What may stand behind the last parameter: white space, with a comma in it or without. -/
inductive IsClosing : Text → Prop where
  | spacing {gap : Text} (gap_isSpacing : IsSpacing gap) : IsClosing gap
  | comma {before after : Text} (before_isSpacing : IsSpacing before)
      (after_isSpacing : IsSpacing after) : IsClosing (before ++ ',' :: after)

namespace Piece

section Read

variable {text front : Text} (base : Nat) (lineStart : Bool) (entries : Entries Value)

/-- A parameter at the end is written behind the entries before it. -/
theorem readAll_text {parameter : WrittenParameter} (h : parameter.Proper)
    (htext : text = front ++ parameter.text) :
    readAll text base entries (cut (Text.byteLength text) (Text.byteLength front) none
        (keptTokens Token.isMark lineStart (Text.byteLength front) parameter.text)) =
      .ok (entries.insert parameter.key parameter.literal.value) := by
  have hstop : Text.byteLength text = Text.byteLength front + Text.byteLength parameter.text := by
    rw [htext, Text.byteLength_append]
  have hcut := parameter.cut_text h opensWithBreak_nil (Text.byteLength text)
    (Text.byteLength front) lineStart (Text.byteLength front)
  have hread := parameter.read_text h front [] base
  rw [List.append_nil] at hcut hread
  rw [hcut, keptTokens_nil, cut, hstop, readAll, htext, hread]
  rfl

/-- A piece that ends at a comma is read, and reading goes on behind the comma. -/
theorem readAll_comma {piece more : Text} {colon : Option Span} {after : Bool}
    {entry : Option (Text × Value)}
    (hcut : cut (Text.byteLength text) (Text.byteLength front) none
        (keptTokens Token.isMark lineStart (Text.byteLength front) (piece ++ ([','] ++ more))) =
      cut (Text.byteLength text) (Text.byteLength front) colon
        (keptTokens Token.isMark after (Text.byteLength front + Text.byteLength piece)
          ([','] ++ more)))
    (hread : read text base ⟨Text.byteLength front,
      Text.byteLength front + Text.byteLength piece, colon⟩ = .ok entry) :
    readAll text base entries (cut (Text.byteLength text) (Text.byteLength front) none
        (keptTokens Token.isMark lineStart (Text.byteLength front) (piece ++ ([','] ++ more)))) =
      readAll text base (entry.elim entries fun pair => entries.insert pair.1 pair.2)
        (cut (Text.byteLength text) (Text.byteLength (front ++ (piece ++ [',']))) none
          (keptTokens Token.isMark false (Text.byteLength (front ++ (piece ++ [',']))) more)) := by
  have hcomma : LexesAs [','] .comma more := lexesAs_punctuation rfl _
  have hfront : Text.byteLength (front ++ (piece ++ [','])) =
      Text.byteLength front + Text.byteLength piece + Text.byteLength [','] := by
    rw [Text.byteLength_append, Text.byteLength_append, ← Nat.add_assoc]
  rw [hcut, keptTokens_of_lexesAs hcomma, List.filter_cons_of_pos rfl, List.filter_nil,
    List.singleton_append, cut_comma, readAll, hfront]
  simp only [Span.ofText, hread]
  cases entry <;> rfl

/-- A parameter with a comma behind it is written, and reading goes on behind the comma. -/
theorem readAll_text_comma {parameter : WrittenParameter} (h : parameter.Proper) {more : Text}
    (htext : text = front ++ (parameter.text ++ ([','] ++ more))) :
    readAll text base entries (cut (Text.byteLength text) (Text.byteLength front) none
        (keptTokens Token.isMark lineStart (Text.byteLength front)
          (parameter.text ++ ([','] ++ more)))) =
      readAll text base (entries.insert parameter.key parameter.literal.value)
        (cut (Text.byteLength text) (Text.byteLength (front ++ (parameter.text ++ [',']))) none
          (keptTokens Token.isMark false (Text.byteLength (front ++ (parameter.text ++ [','])))
            more)) := by
  have hbreak : OpensWithBreak ([','] ++ more) := opensWithBreak_cons (by decide) _
  have hread : read text base ⟨Text.byteLength front,
      Text.byteLength front + Text.byteLength parameter.text,
      some (parameter.colonSpan (Text.byteLength front))⟩ =
      .ok (some (parameter.key, parameter.literal.value)) := by
    rw [htext]
    exact parameter.read_text h front _ base
  exact readAll_comma base lineStart entries (parameter.cut_text h hbreak _ _ _ _) hread

/-- White space at the end is passed over. -/
theorem readAll_spacing {gap : Text} (hgap : IsSpacing gap) (htext : text = front ++ gap) :
    readAll text base entries (cut (Text.byteLength text) (Text.byteLength front) none
        (keptTokens Token.isMark lineStart (Text.byteLength front) gap)) = .ok entries := by
  have hkept : keptTokens Token.isMark lineStart (Text.byteLength front) (gap ++ []) = [] := by
    rw [keptTokens_spaces rfl hgap, keptTokens_nil]
  have hmiddle : text = front ++ (gap ++ []) := by rw [htext, List.append_nil]
  have hstop : Text.byteLength text = Text.byteLength front + Text.byteLength gap := by
    rw [htext, Text.byteLength_append]
  have hslice : Text.slice text (Text.byteLength front) (Text.byteLength text) = gap :=
    Text.slice_eq hmiddle rfl hstop
  rw [List.append_nil] at hkept
  rw [hkept, cut, readAll, read_of_blank (hslice ▸ hgap.all_isBlank)]
  rfl

/-- White space with a comma behind it is passed over. -/
theorem readAll_spacing_comma {gap : Text} (hgap : IsSpacing gap) {more : Text}
    (htext : text = front ++ (gap ++ ([','] ++ more))) :
    readAll text base entries (cut (Text.byteLength text) (Text.byteLength front) none
        (keptTokens Token.isMark lineStart (Text.byteLength front) (gap ++ ([','] ++ more)))) =
      readAll text base entries
        (cut (Text.byteLength text) (Text.byteLength (front ++ (gap ++ [',']))) none
          (keptTokens Token.isMark false (Text.byteLength (front ++ (gap ++ [',']))) more)) := by
  have hslice : Text.slice text (Text.byteLength front)
      (Text.byteLength front + Text.byteLength gap) = gap := Text.slice_eq htext rfl rfl
  have hread : read text base
      ⟨Text.byteLength front, Text.byteLength front + Text.byteLength gap, none⟩ = .ok none := by
    apply read_of_blank
    rw [hslice]
    exact hgap.all_isBlank
  exact readAll_comma base lineStart entries (congrArg _ (keptTokens_spaces rfl hgap _ _ _)) hread

end Read

/-- Reading goes on from parameter to parameter and writes their entries one after another. -/
theorem readAll_parametersText {first : WrittenParameter} {rest : List WrittenParameter}
    (h : ∀ parameter ∈ first :: rest, parameter.Proper) {text front closing : Text}
    (hclosing : IsClosing closing)
    (htext : text = front ++ (parametersText (first :: rest) ++ closing)) (base : Nat)
    (lineStart : Bool) (entries : Entries Value) :
    readAll text base entries (cut (Text.byteLength text) (Text.byteLength front) none
        (keptTokens Token.isMark lineStart (Text.byteLength front)
          (parametersText (first :: rest) ++ closing))) =
      .ok (((first :: rest).map WrittenParameter.entry).foldl
        (fun entries pair => entries.insert pair.1 pair.2) entries) := by
  obtain ⟨hfirst, hlater⟩ := List.forall_mem_cons.mp h
  -- The front grows by the parameters that have been read, and the entries with it.
  induction rest generalizing first front lineStart entries with
  | nil =>
      -- White space that closes the text belongs to the last parameter.
      cases hclosing with
      | spacing hgap =>
          have hlast : parametersText [first] ++ closing = (first.followedBy closing).text :=
            (first.text_followedBy closing).symm
          rw [hlast] at htext ⊢
          exact readAll_text base lineStart entries (hfirst.followedBy hgap) htext
      | @comma before after hbefore hafter =>
          have hlast : parametersText [first] ++ (before ++ ',' :: after) =
              (first.followedBy before).text ++ ([','] ++ after) := by
            rw [first.text_followedBy, List.append_assoc]
            rfl
          rw [hlast] at htext ⊢
          rw [readAll_text_comma base lineStart entries (hfirst.followedBy hbefore) htext]
          apply readAll_spacing _ _ _ hafter
          rw [htext]
          simp only [List.append_assoc]
  | cons next rest ih =>
      have hsplit : parametersText (first :: next :: rest) ++ closing =
          first.text ++ ([','] ++ (parametersText (next :: rest) ++ closing)) := by
        rw [parametersText_cons_cons]
        simp only [List.append_assoc]
      rw [hsplit] at htext ⊢
      have hnext : text = (front ++ (first.text ++ [','])) ++
          (parametersText (next :: rest) ++ closing) := by
        rw [htext]
        simp only [List.append_assoc]
      obtain ⟨hsecond, hrest⟩ := List.forall_mem_cons.mp hlater
      rw [readAll_text_comma base lineStart entries hfirst htext]
      exact ih hlater hnext false (entries.insert first.key first.literal.value) hsecond hrest

end Piece

/-- Reading written parameters gives their entries in order. -/
theorem readParameters_parametersText_append {parameters : List WrittenParameter}
    (h : ∀ parameter ∈ parameters, parameter.Proper) {closing : Text}
    (hclosing : IsClosing closing) (span : Span) :
    readParameters ⟨parametersText parameters ++ closing, span⟩ =
      .ok (.ofList (parameters.map WrittenParameter.entry)) := by
  rw [readParameters, Piece.all_eq]
  cases parameters with
  | nil =>
      cases hclosing with
      | spacing hgap =>
          exact Piece.readAll_spacing span.start false .empty hgap (List.nil_append _).symm
      | @comma before after hbefore hafter =>
          have htext : before ++ ',' :: after = [] ++ (before ++ ([','] ++ after)) := rfl
          refine (Piece.readAll_spacing_comma span.start false .empty hbefore htext).trans ?_
          apply Piece.readAll_spacing _ _ _ hafter
          rw [htext]
          simp only [List.append_assoc]
  | cons first rest =>
      exact Piece.readAll_parametersText h hclosing (List.nil_append _).symm span.start false .empty

theorem readParameters_parametersText {parameters : List WrittenParameter}
    (h : ∀ parameter ∈ parameters, parameter.Proper) (span : Span) :
    readParameters ⟨parametersText parameters, span⟩ =
      .ok (.ofList (parameters.map WrittenParameter.entry)) := by
  have hnothing : IsClosing [] := .spacing rfl
  have hread := readParameters_parametersText_append h hnothing span
  rwa [List.append_nil] at hread

/-- Parameters with different keys are read as exactly the entries that are meant, in the order in
which they are written and wherever they stand. -/
theorem readParameters_written {parameters : List WrittenParameter}
    (h : ∀ parameter ∈ parameters, parameter.Proper)
    (hkeys : (parameters.map WrittenParameter.key).Nodup) {closing : Text}
    (hclosing : IsClosing closing) (span : Span) :
    ∃ params, readParameters ⟨parametersText parameters ++ closing, span⟩ = .ok params ∧
      params.toList = parameters.map WrittenParameter.entry := by
  refine ⟨_, readParameters_parametersText_append h hclosing span, ?_⟩
  apply Entries.toList_foldl_insert
  change ((parameters.map WrittenParameter.entry).map Prod.fst).Nodup
  rw [List.map_map]
  exact hkeys

/-- Parameters whose quoted text looks like more of them, and whose keys look like keywords. -/
def brush : List WrittenParameter :=
  [⟨['w', 'i', 'd', 't', 'h'], .ofInt (-12), [], [], [' '], []⟩,
    ⟨['t', 'i', 'p'], .quoted '"' [' ', 'a', ',', ' ', 'b', ':', '\'', '/', '/', ')'],
      [' '], ['\t'], [], []⟩,
    ⟨['S', 't', 'y', 'l', 'e'], .decimal true ['0'] ['5', '0'], ['\r', ' '], [], [], [' ']⟩]

example : String.ofList (parametersText brush ++ [',', ' ']) =
    "width: -12, tip\t:\" a, b:'//)\",\r Style:-0.50 , " := by
  decide +kernel

theorem readParameters_written_brush :
    (∀ parameter ∈ brush, parameter.Proper) ∧ (brush.map WrittenParameter.key).Nodup ∧
      IsClosing [',', ' '] ∧
      ∃ params, readParameters ⟨parametersText brush ++ [',', ' '], .emptyAt 7⟩ = .ok params ∧
        params.toList = brush.map WrittenParameter.entry := by
  have hproper : ∀ parameter ∈ brush, parameter.Proper := by decide
  have hkeys : (brush.map WrittenParameter.key).Nodup := by decide
  have hbefore : IsSpacing [] := by decide
  have hafter : IsSpacing [' '] := by decide
  have hclosing : IsClosing [',', ' '] := .comma hbefore hafter
  exact ⟨hproper, hkeys, hclosing, readParameters_written hproper hkeys hclosing _⟩

/-- No token of a written parameter ends a header. -/
theorem WrittenParameter.isParameterToken_of_mem {parameter : WrittenParameter}
    (hkey : Token.ofWord parameter.key = .identifier parameter.key) {offset : Nat}
    {token : Spanned Token} (hmem : token ∈ parameter.tokens offset) :
    token.value.isParameterToken := by
  rw [tokens, hkey] at hmem
  simp only [List.mem_cons, List.not_mem_nil, or_false] at hmem
  rcases hmem with rfl | rfl | rfl
  · rfl
  · rfl
  · cases parameter.literal <;> rfl

/-- The tokens of written parameters may all stand in a header. -/
theorem keptTokens_parametersText (keep : Token → Bool) (hspace : keep .space = false)
    {parameters : List WrittenParameter} (h : ∀ parameter ∈ parameters, parameter.Proper)
    (hkeys : ∀ parameter ∈ parameters, Token.ofWord parameter.key = .identifier parameter.key)
    {more : Text} (hmore : OpensWithBreak more) (offset : Nat) :
    ∃ inner : Tokens, (∀ token ∈ inner, token.value.isParameterToken) ∧
      keptTokens keep false offset (parametersText parameters ++ more) =
        inner ++
          keptTokens keep false (offset + Text.byteLength (parametersText parameters)) more := by
  induction parameters generalizing offset with
  | nil => exact ⟨[], by simp, rfl⟩
  | cons first rest ih =>
      obtain ⟨hfirst, hlater⟩ := List.forall_mem_cons.mp h
      obtain ⟨hkey, hlaterKeys⟩ := List.forall_mem_cons.mp hkeys
      have htokens : ∀ token ∈ (first.tokens offset).filter fun token => keep token.value,
          token.value.isParameterToken := by
        intro token hmem
        exact first.isParameterToken_of_mem hkey (List.mem_filter.mp hmem).1
      cases rest with
      | nil =>
          have hparameters : parametersText [first] = first.text := rfl
          rw [hparameters]
          exact ⟨_, htokens, first.keptTokens_text hspace hfirst hmore false offset⟩
      | cons next rest =>
          have hcomma : LexesAs [','] .comma (parametersText (next :: rest) ++ more) :=
            lexesAs_punctuation rfl _
          have hbreak : OpensWithBreak ([','] ++ (parametersText (next :: rest) ++ more)) :=
            opensWithBreak_cons (by decide) _
          obtain ⟨inner, hinner, hrest⟩ := ih hlater hlaterKeys
            (offset + Text.byteLength first.text + 1)
          refine ⟨(first.tokens offset).filter (fun token => keep token.value) ++
            (([⟨.comma, .ofText (offset + Text.byteLength first.text) [',']⟩] : Tokens).filter
              (fun token => keep token.value) ++ inner), ?_, ?_⟩
          · intro token hmem
            rcases List.mem_append.mp hmem with hmem | hmem
            · exact htokens token hmem
            · rcases List.mem_append.mp hmem with hmem | hmem
              · rw [List.mem_singleton.mp (List.mem_filter.mp hmem).1]
                rfl
              · exact hinner token hmem
          · have hsize : Text.byteLength (parametersText (first :: next :: rest)) =
                Text.byteLength first.text + 1 +
                  Text.byteLength (parametersText (next :: rest)) := by
              rw [parametersText_cons_cons, Text.byteLength_append, Text.byteLength_append,
                ← Nat.add_assoc]
              rfl
            have hcommaSize : Text.byteLength [','] = 1 := rfl
            rw [parametersText_cons_cons, List.append_assoc, List.append_assoc,
              first.keptTokens_text hspace hfirst hbreak, keptTokens_of_lexesAs hcomma, hcommaSize,
              hrest, ← parametersText_cons_cons, hsize, ← Nat.add_assoc, ← Nat.add_assoc,
              List.append_assoc, List.append_assoc]

end SceneScript
