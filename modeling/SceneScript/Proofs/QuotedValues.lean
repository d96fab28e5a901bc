import SceneScript.Proofs.ParameterPieces
import SceneScript.Proofs.Places
import SceneScript.Proofs.ValueForms

/-! # Quoted values of parameters

Two grammars say what a quoted text is. A value may hold any character but its quote, while the
quoted text that a cut passes over ends on its line. So a quoted value on one line is never cut, and
in a value with a line break its commas and its comment lines are found as if no quote stood around
them.
-/

namespace SceneScript

/-- Where parameter text with these tokens is cut first. -/
def Tokens.firstCut? (tokens : Tokens) : Option Nat :=
  (tokens.find? fun token => token.value.isSeparator).map (·.span.start)

/-- A parameter with a quoted value and no white space. -/
def quotedParameter (key content : Text) (quote : Char) : Text :=
  key ++ ':' :: quote :: (content ++ [quote])

/-! ## Where a text is cut first -/

namespace Tokens

theorem firstCut?_cons (token : Spanned Token) (rest : Tokens) :
    firstCut? (token :: rest) =
      if token.value.isSeparator then some token.span.start else firstCut? rest := by
  rw [firstCut?, List.find?_cons]
  by_cases h : token.value.isSeparator
  · rw [h, if_pos rfl]
    rfl
  · rw [Bool.eq_false_of_not_eq_true h, if_neg Bool.false_ne_true]
    rfl

theorem firstCut?_map_shift (tokens : Tokens) (size : Nat) :
    firstCut? (tokens.map (·.shift size)) = (firstCut? tokens).map (· + size) := by
  induction tokens with
  | nil => rfl
  | cons token rest ih =>
      rw [List.map_cons, firstCut?_cons, firstCut?_cons, ih]
      by_cases h : token.value.isSeparator
      · rw [if_pos h, if_pos (by exact h)]
        rfl
      · rw [if_neg h, if_neg (by exact h)]

end Tokens

/-- The first place at which a text is cut is the end of a front of it. -/
theorem exists_front_of_firstCut? {lineStart : Bool} {offset place : Nat} {text : Text}
    (h : Tokens.firstCut? (lexFrom lineStart offset text) = some place) :
    ∃ front back, text = front ++ back ∧ place = offset + Text.byteLength front := by
  obtain ⟨token, hfind, rfl⟩ := Option.map_eq_some_iff.mp h
  obtain ⟨earlier, later, hsplit⟩ := List.append_of_mem (List.mem_of_find?_eq_some hfind)
  obtain ⟨front, spelling, back, _, htext, _, _, _, hspan, _⟩ := exists_spelling hsplit
  exact ⟨front, spelling ++ back, htext, congrArg Span.start hspan⟩

/-- The piece that the pass is in when it has met a colon ends at the next separator. -/
theorem Piece.cut_some (stop start : Nat) (colon : Span) (tokens : Tokens) :
    ∃ later, cut stop start (some colon) tokens =
        ⟨start, (Tokens.firstCut? tokens).getD stop, some colon⟩ :: later ∧
      (Tokens.firstCut? tokens = none → later = []) := by
  induction tokens with
  | nil => exact ⟨[], rfl, fun _ => rfl⟩
  | cons token rest ih =>
      rw [cut, Tokens.firstCut?_cons]
      by_cases h : token.value.isSeparator
      · rw [if_pos h, if_pos h]
        exact ⟨_, rfl, fun hnone => by cases hnone⟩
      · have hfirst : (some colon <|> some token.span) = some colon := rfl
        rw [if_neg h, if_neg h, hfirst, ite_self]
        exact ih

/-! ## A closing quote -/

section ClosingQuote

variable {quote c : Char} {content rest : Text}

/-- A quoted text that ends in front of another quote is read as it is without that quote. -/
theorem Lexeme.quoted?_append_quote (hc : c ≠ quote) :
    quoted? c (rest ++ [quote]) = quoted? c rest := by
  apply quoted?_of_append
  intro found hfound
  obtain ⟨_, content, more, hsplit, _, _, rfl⟩ := quoted?_eq_some hfound
  cases more with
  | nil =>
      have hlast := (List.append_inj' hsplit rfl).2
      exact absurd (List.cons.inj hlast).1.symm hc
  | cons d more =>
      have hlength := congrArg List.length hsplit
      simp only [List.length_append, List.length_cons, List.length_nil] at hlength
      show content.length + 1 ≤ rest.length
      omega

variable (hquote : Lexeme.isQuote quote)
include hquote

theorem utf8Size_of_isQuote : quote.utf8Size = 1 := by
  obtain rfl | rfl : quote = '"' ∨ quote = '\'' := by simpa [Lexeme.isQuote] using hquote
  · rfl
  · rfl

/-- A quote behind a text changes no token of the text but a comment. -/
theorem lexeme_append_quote {lineStart : Bool} (hc : c ≠ quote)
    (hcomment : lineStart → Lexeme.comment? c rest = none) :
    lexeme lineStart c (rest ++ [quote]) = lexeme lineStart c rest := by
  have hstop : Lexeme.isRunChar quote = false := by simp [Lexeme.isRunChar, hquote]
  apply lexeme_append_stop hstop (fun _ => .inr (isBlank_of_isQuote hquote))
    (Lexeme.quoted?_append_quote hc)
  intro hstart
  have hslash : quote ≠ '/' := Literal.ne_of_isQuote hquote rfl
  rw [hcomment hstart, Lexeme.comment?_append_of_ne hslash (hcomment hstart)]

/-- A text is cut first at the same place when a quote that it does not hold is written behind
it. -/
theorem firstCut?_append_quote (hclose : quote ∉ content) (lineStart : Bool) (offset : Nat) :
    Tokens.firstCut? (lexFrom lineStart offset (content ++ [quote])) =
      Tokens.firstCut? (lexFrom lineStart offset content) := by
  induction lineStart, offset, content using lexFrom_induction with
  | nil lineStart offset =>
      have hstray : lexeme lineStart quote [] = ⟨.run [quote], 0⟩ := by
        rw [lexeme_of_isQuote hquote]
        simp [Lexeme.quoted?]
      rw [List.nil_append, lexFrom_cons hstray, lexFrom_nil, List.drop_nil, lexFrom_nil]
      rfl
  | cons lineStart offset c rest found hfound ih =>
      rw [List.mem_cons, not_or] at hclose
      by_cases hcomment : lineStart → Lexeme.comment? c rest = none
      · -- The token is the same, and behind it the argument goes on.
        have hsame := lexeme_append_quote hquote (Ne.symm hclose.1) hcomment
        have htail := (hfound ▸ lexeme_reads lineStart c rest).tail_le
        rw [List.cons_append, lexFrom_cons (hsame.trans hfound), lexFrom_cons hfound,
          List.take_append_of_le_length htail, List.drop_append_of_le_length htail,
          Tokens.firstCut?_cons, Tokens.firstCut?_cons,
          ih fun hmem => hclose.2 (List.mem_of_mem_drop hmem)]
      · -- The quote belongs to the comment, which starts where it started before.
        obtain ⟨rfl, hsome⟩ := Classical.not_imp.mp hcomment
        obtain ⟨comment, hslashes⟩ := Option.ne_none_iff_exists'.mp hsome
        obtain ⟨rfl, body, rfl⟩ := Lexeme.slashes_of_comment? hslashes
        rw [List.cons_append, List.cons_append, lexFrom_cons (lexeme_slashes _),
          lexFrom_cons (lexeme_slashes _)]
        rfl

/-- A quoted text with a line break does not begin a quoted token. -/
theorem lexeme_quoted_of_newline (hclose : quote ∉ content) (hline : '\n' ∈ content)
    (lineStart : Bool) (more : Text) :
    lexeme lineStart quote (content ++ quote :: more) = ⟨.run [quote], 0⟩ := by
  rw [lexeme_of_isQuote hquote]
  cases hfound : Lexeme.quoted? quote (content ++ quote :: more) with
  | none => rfl
  | some found =>
      obtain ⟨_, front, back, hsplit, hfront, hlineFront, _⟩ := Lexeme.quoted?_eq_some hfound
      have hcut := Text.cutAt_append_cons hclose more
      rw [hsplit, Text.cutAt_append_cons hfront] at hcut
      obtain ⟨rfl, _⟩ := Prod.mk.inj (Option.some.inj hcut)
      exact absurd hline hlineFront

/-- A quoted value is cut nowhere when it stands on one line, and where its content is cut when it
does not. -/
theorem firstCut?_quoted (hclose : quote ∉ content) (offset : Nat) :
    Tokens.firstCut? (lexFrom false offset (quote :: (content ++ [quote]))) =
      if '\n' ∈ content then
        (Tokens.firstCut? (tokenizeInline content)).map (· + (offset + 1))
      else none := by
  split
  next hline =>
    have hsize : Text.byteLength [quote] = 1 := utf8Size_of_isQuote hquote
    have hstray := lexeme_quoted_of_newline hquote hclose hline false []
    have hinside : Tokens.firstCut? (lexFrom false (offset + Text.byteLength [quote])
        (content ++ [quote])) =
          (Tokens.firstCut? (tokenizeInline content)).map (· + (offset + 1)) := by
      rw [hsize, firstCut?_append_quote hquote hclose, ← Tokens.firstCut?_map_shift,
        tokenizeInline, ← lexFrom_shift, Nat.zero_add]
    rw [lexFrom_cons hstray, Tokens.firstCut?_cons]
    exact hinside
  next hline =>
    have hquoted := lexesAs_quoted hquote hclose hline [] false offset
    rw [List.append_nil, lexFrom_nil] at hquoted
    rw [hquoted]
    rfl

end ClosingQuote

/-! ## Reading a quoted value -/

section Reading

variable {key : Text} (hkey : Text.isIdentifier key)
include hkey

/-- Of a text that begins with a key and a colon, the first piece ends where the text behind the
colon is cut first. -/
theorem Piece.exists_all_keyed (value : Text) :
    ∃ later, all (key ++ ':' :: value) =
        ⟨0, (Tokens.firstCut? (lexFrom false (Text.byteLength key + 1) value)).getD
          (Text.byteLength (key ++ ':' :: value)), some (.ofText (Text.byteLength key) [':'])⟩ ::
            later ∧
      (Tokens.firstCut? (lexFrom false (Text.byteLength key + 1) value) = none → later = []) := by
  have hbreak : OpensWithBreak ([':'] ++ value) := opensWithBreak_cons (by decide) value
  have hcolon : LexesAs [':'] .colon value := lexesAs_punctuation rfl value
  have hword := Token.isMark_ofWord key
  have hmarks : keptTokens Token.isMark false 0 (key ++ ([':'] ++ value)) =
      ⟨.colon, .ofText (Text.byteLength key) [':']⟩ ::
        keptTokens Token.isMark false (Text.byteLength key + 1) value := by
    rw [keptTokens_of_lexesAs (lexesAs_word hkey hbreak), keptTokens_of_lexesAs hcolon,
      List.filter_cons_of_neg (by simp [hword]), Nat.zero_add]
    rfl
  have hall := Piece.all_eq (key ++ ([':'] ++ value))
  rw [hmarks, cut_colon, keptTokens, cut_filter] at hall
  rw [← List.singleton_append, hall]
  exact cut_some ..

/-- The first piece of such a text, when it ends behind `front`. -/
theorem Piece.read_first {front back : Text} (base : Nat) :
    read (key ++ ':' :: (front ++ back)) base
        ⟨0, Text.byteLength key + 1 + Text.byteLength front,
          some (.ofText (Text.byteLength key) [':'])⟩ =
      (Value.read? (Text.trim front)).elim
        (.error (.invalidValue key ((front.placedTrim.shift (Text.byteLength key + 1)).shift base)))
        fun parsed => .ok (some (key, parsed)) := by
  have hcolon : Span.ofText (Text.byteLength key) [':'] =
      .ofText (Text.byteLength [] + Text.byteLength key) [':'] := by
    rw [Text.byteLength_nil, Nat.zero_add]
  have hread := read_keyed (List.nil_append (key ++ ':' :: (front ++ back))).symm hcolon rfl hkey
    (Text.trim_of_isIdentifier hkey) base
  have hsplit : key ++ ':' :: (front ++ back) = (key ++ [':']) ++ (front ++ back) := by
    rw [List.append_assoc, List.singleton_append]
  have hstart : (Span.ofText (Text.byteLength key) [':']).stop = Text.byteLength (key ++ [':']) :=
    (Text.byteLength_append key [':']).symm
  rw [trimmed_eq_shift, Text.slice_eq hsplit hstart rfl] at hread
  exact hread

theorem readParameters_of_uncut {value : Text} {parsed : Value}
    (hcut : Tokens.firstCut? (lexFrom false (Text.byteLength key + 1) value) = none)
    (hvalue : Value.read? (Text.trim value) = some parsed) (span : Span) :
    readParameters ⟨key ++ ':' :: value, span⟩ = .ok (.ofList [(key, parsed)]) := by
  obtain ⟨later, hall, hlater⟩ := Piece.exists_all_keyed hkey value
  have hstop : Text.byteLength (key ++ ':' :: value) =
      Text.byteLength key + 1 + Text.byteLength value := by
    rw [List.append_cons, Text.byteLength_append, Text.byteLength_append]
    rfl
  have hread := @Piece.read_first key hkey value [] span.start
  rw [List.append_nil, hvalue] at hread
  rw [hcut, hlater hcut, Option.getD_none, hstop] at hall
  rw [readParameters, hall, Piece.readAll, hread]
  rfl

theorem readParameters_of_cut {front back : Text}
    (hcut : Tokens.firstCut? (lexFrom false (Text.byteLength key + 1) (front ++ back)) =
      some (Text.byteLength key + 1 + Text.byteLength front))
    (hvalue : Value.read? (Text.trim front) = none) (span : Span) :
    readParameters ⟨key ++ ':' :: (front ++ back), span⟩ =
      .error (.invalidValue key
        ((front.placedTrim.shift (Text.byteLength key + 1)).shift span.start)) := by
  obtain ⟨later, hall, _⟩ := Piece.exists_all_keyed hkey (front ++ back)
  have hread := @Piece.read_first key hkey front back span.start
  rw [hvalue] at hread
  rw [hcut, Option.getD_some] at hall
  rw [readParameters, hall, Piece.readAll, hread]
  rfl

end Reading

/-- A quoted text without its closing quote is no value. -/
theorem Value.read?_unclosed {quote : Char} {content : Text} (hquote : Lexeme.isQuote quote)
    (hclose : quote ∉ content) : read? (quote :: content) = none := by
  have hliteral : ¬ IsNumberLiteral (quote :: content) := by
    intro hliteral
    rcases hliteral.mem_cases List.mem_cons_self with rfl | rfl | hdigit
    · cases hquote
    · cases hquote
    · rw [Literal.isDigit_of_isQuote hquote] at hdigit
      cases hdigit
  rw [read?_eq_none_iff]
  rintro (⟨negative, digits⟩ | ⟨negative, whole, fraction⟩ | ⟨other, content'⟩) hreadable htext
  · exact hliteral (htext ▸ Literal.isNumberLiteral_integer hreadable.1 negative)
  · exact hliteral (htext ▸ Literal.isNumberLiteral_decimal hreadable.1 hreadable.2 negative)
  · obtain ⟨rfl, hcontent⟩ := List.cons.inj htext
    exact hclose (hcontent ▸ List.mem_append_right content' (List.mem_singleton_self quote))

theorem quotedToken_iff {quote : Char} {content : Text} (hquote : Lexeme.isQuote quote)
    (hclose : quote ∉ content) :
    (lexeme false quote (content ++ [quote])).token = .quoted content ↔ '\n' ∉ content := by
  constructor
  · intro htoken hline
    rw [lexeme_quoted_of_newline hquote hclose hline] at htoken
    cases htoken
  · intro hline
    rw [lexeme_of_isQuote hquote, Lexeme.quoted?_append_cons hquote hclose hline]
    rfl

/-- Every content without its quote makes a value, but only a content on one line makes a quoted
token. So a parameter with such a value is read as that value, unless a comma or a comment line is
found in a content with a line break: then the parameter ends there, and what stands in front of it
is no value. -/
theorem readParameters_quoted {key content : Text} {quote : Char} (hkey : Text.isIdentifier key)
    (hquote : Lexeme.isQuote quote) (hclose : quote ∉ content) (span : Span) :
    Value.read? (quote :: (content ++ [quote])) = some (.text content) ∧
    ((lexeme false quote (content ++ [quote])).token = .quoted content ↔ '\n' ∉ content) ∧
    ('\n' ∉ content ∨ Tokens.firstCut? (tokenizeInline content) = none →
      ∃ params, readParameters ⟨quotedParameter key content quote, span⟩ = .ok params ∧
        params.toList = [(key, .text content)]) ∧
    ∀ place ∈ Tokens.firstCut? (tokenizeInline content), '\n' ∈ content →
      ∃ front back, content = front ++ back ∧ place = Text.byteLength front ∧
        readParameters ⟨quotedParameter key content quote, span⟩ =
          .error (.invalidValue key ⟨quote :: Text.trimEnd front,
            .ofText (span.start + (Text.byteLength key + 1)) (quote :: Text.trimEnd front)⟩) := by
  have hkept := firstCut?_quoted hquote hclose (Text.byteLength key + 1)
  have hreadable : (Literal.quoted quote content).Readable := ⟨hquote, hclose⟩
  have hwhole : Value.read? (quote :: (content ++ [quote])) = some (.text content) :=
    Literal.read?_quoted hreadable
  refine ⟨hwhole, quotedToken_iff hquote hclose, ?_, ?_⟩
  · intro hshielded
    have huncut : Tokens.firstCut? (lexFrom false (Text.byteLength key + 1)
        (quote :: (content ++ [quote]))) = none := by
      rw [hkept]
      rcases hshielded with hline | hnone
      · exact if_neg hline
      · rw [hnone, Option.map_none, ite_self]
    have htrim : Text.trim (quote :: (content ++ [quote])) = quote :: (content ++ [quote]) :=
      Literal.trim_text hreadable
    have hvalue : Value.read? (Text.trim (quote :: (content ++ [quote]))) =
        some (.text content) := by
      rw [htrim, hwhole]
    exact ⟨_, readParameters_of_uncut hkey huncut hvalue span, rfl⟩
  · intro place hplace hline
    obtain ⟨front, back, rfl, hfront⟩ := exists_front_of_firstCut? hplace
    rw [Nat.zero_add] at hfront
    refine ⟨front, back, rfl, hfront, ?_⟩
    have hcut : Tokens.firstCut? (lexFrom false (Text.byteLength key + 1)
        ((quote :: front) ++ (back ++ [quote]))) =
          some (Text.byteLength key + 1 + Text.byteLength (quote :: front)) := by
      rw [List.cons_append, ← List.append_assoc, hkept, if_pos hline, hplace, hfront,
        Text.byteLength_cons, utf8Size_of_isQuote hquote, Option.map_some]
      congr 1
      omega
    have htrim := Text.trim_cons (isBlank_of_isQuote hquote) front
    have hvalue : Value.read? (Text.trim (quote :: front)) = none := by
      rw [htrim]
      exact Value.read?_unclosed hquote fun hmem =>
        hclose (List.mem_append_left back (Text.mem_of_mem_trimEnd hmem))
    have hplaced : Text.placedTrim (quote :: front) =
        ⟨quote :: Text.trimEnd front, .ofText 0 (quote :: Text.trimEnd front)⟩ := by
      rw [Text.placedTrim, htrim, Text.leadingBlank,
        List.takeWhile_cons_of_neg (by simp [isBlank_of_isQuote hquote]), Text.byteLength_nil]
    have hread := readParameters_of_cut hkey hcut hvalue span
    rw [hplaced, Spanned.shift, Spanned.shift, Span.shift_ofText, Span.shift_ofText, Nat.add_zero,
      List.cons_append, ← List.append_assoc] at hread
    exact hread

/-- A label of two lines with a comma at the start of the second one. -/
def twoLines : Text :=
  ['a', '\n', ',', 'b']

theorem readParameters_quoted_twoLines :
    let key : Text := ['l', 'a', 'b', 'e', 'l']
    Text.isIdentifier key ∧ Lexeme.isQuote '"' ∧ '"' ∉ twoLines ∧ '\n' ∈ twoLines ∧
      Tokens.firstCut? (tokenizeInline twoLines) = some 2 ∧
      ∃ front back, twoLines = front ++ back ∧ 2 = Text.byteLength front ∧
        readParameters ⟨quotedParameter key twoLines '"', .emptyAt 0⟩ =
          .error (.invalidValue key ⟨'"' :: Text.trimEnd front,
            .ofText (0 + (Text.byteLength key + 1)) ('"' :: Text.trimEnd front)⟩) := by
  intro key
  have hkey : Text.isIdentifier key := by decide
  have hquote : Lexeme.isQuote '"' := by decide
  have hclose : '"' ∉ twoLines := by decide
  have hline : '\n' ∈ twoLines := by decide
  have hcut : Tokens.firstCut? (tokenizeInline twoLines) = some 2 := by decide +kernel
  obtain ⟨_, _, _, herror⟩ := readParameters_quoted hkey hquote hclose (.emptyAt 0)
  exact ⟨hkey, hquote, hclose, hline, hcut, herror 2 hcut hline⟩

/-- A comma cuts some quoted values, although the values themselves could be read. -/
theorem comma_cuts_quoted :
    ¬ ∀ key content : Text, Text.isIdentifier key → '"' ∉ content →
      ∃ params, readParameters ⟨quotedParameter key content '"', .emptyAt 0⟩ = .ok params ∧
        params.toList = [(key, .text content)] := by
  intro hall
  have hkey : Text.isIdentifier ['l', 'a', 'b', 'e', 'l'] := by decide
  have hclose : '"' ∉ twoLines := by decide
  obtain ⟨params, hok, _⟩ := hall _ twoLines hkey hclose
  have herror : (readParameters
      ⟨quotedParameter ['l', 'a', 'b', 'e', 'l'] twoLines '"', .emptyAt 0⟩).isOk = false := by
    decide +kernel
  rw [hok] at herror
  cases herror

end SceneScript
