import SceneScript.Proofs.Lexing

/-! # Texts that are read as one token

A word, a number, a quoted text or a punctuation character is read as one token whatever stands
after it, as long as words and numbers are followed by a break or by nothing. White space between
such texts adds only tokens without structure.
-/

namespace SceneScript

/-- The text is empty or begins with a break. -/
def OpensWithBreak (text : Text) : Prop :=
  ∀ c ∈ text.head?, isBreak c

theorem opensWithBreak_nil : OpensWithBreak [] := by
  simp [OpensWithBreak]

theorem opensWithBreak_cons {c : Char} (h : isBreak c) (rest : Text) :
    OpensWithBreak (c :: rest) := by
  simpa [OpensWithBreak] using h

/-- White space in front of a text that opens with a break makes no difference. -/
theorem OpensWithBreak.append {gap more : Text} (hgap : gap.all isBlank)
    (hmore : OpensWithBreak more) : OpensWithBreak (gap ++ more) := by
  cases gap with
  | nil => exact hmore
  | cons c rest =>
      rw [List.all_cons, Bool.and_eq_true] at hgap
      exact opensWithBreak_cons (by simp [isBreak, hgap.1]) _

/-- The bytes of a text that begins at `offset`. -/
def Span.ofText (offset : Nat) (text : Text) : Span :=
  ⟨offset, offset + Text.byteLength text, Nat.le_add_right ..⟩

/-- In front of `more`, the text is read as the token. -/
def LexesAs (text : Text) (token : Token) (more : Text) : Prop :=
  ∀ lineStart offset, lexFrom lineStart offset (text ++ more) =
    ⟨token, .ofText offset text⟩ :: lexFrom false (offset + Text.byteLength text) more

/-- A lexeme that takes a whole text and carries structure. -/
theorem lexesAs_of_lexeme {c : Char} {tail more : Text} {token : Token}
    (h : ∀ lineStart, lexeme lineStart c (tail ++ more) = ⟨token, tail.length⟩)
    (htoken : token.isTrivia = false) : LexesAs (c :: tail) token more := by
  intro lineStart offset
  have hline : token.lineStartAfter lineStart = false := by
    cases token <;> first | rfl | cases htoken
  rw [List.cons_append, lexFrom_cons (h lineStart)]
  simp only [hline, List.take_left', List.drop_left']
  rfl

/-! ## Words, numbers, quoted texts and punctuation -/

/-- What does not begin with a break, a quote or a slash goes on up to the next break. -/
theorem lexeme_append {c : Char} {more : Text} (hblank : isBlank c = false)
    (hquote : Lexeme.isQuote c = false) (hslash : c ≠ '/') (hmore : OpensWithBreak more)
    (lineStart : Bool) (tail : Text) :
    lexeme lineStart c (tail ++ more) = lexeme lineStart c tail := by
  cases more with
  | nil => rw [List.append_nil]
  | cons d rest =>
      refine lexeme_append_break (hmore d rfl) ?_ ?_ ?_ tail rest
      · simp [hblank]
      · simp [hquote]
      · simp [hslash]

theorem isTrivia_ofWord (word : Text) : (Token.ofWord word).isTrivia = false := by
  unfold Token.ofWord
  split
  next => rfl
  next =>
    split <;> rfl

theorem lexesAs_word {word more : Text} (h : Text.isIdentifier word) (hmore : OpensWithBreak more) :
    LexesAs word (Token.ofWord word) more := by
  cases word with
  | nil => cases h
  | cons c tail =>
      rw [Text.isIdentifier, Bool.and_eq_true] at h
      obtain ⟨hstart, htail⟩ := h
      have hword := isWordChar_of_isWordStart hstart
      apply lexesAs_of_lexeme
      · intro lineStart
        have htake : tail.takeWhile isWordChar = tail :=
          List.takeWhile_eq_self_iff.mpr (List.all_eq_true.mp htail)
        rw [lexeme_append (isBlank_of_isWordChar hword) (isQuote_of_isWordChar hword)
          (ne_of_isWordChar hword (by decide)) hmore, lexeme_of_isWordStart hstart, htake]
      · exact isTrivia_ofWord (c :: tail)

/-- A number literal is a number in its whole length. -/
theorem numberLength?_of_isNumberLiteral {literal : Text} (h : IsNumberLiteral literal) :
    Lexeme.numberLength? literal = some literal.length := by
  obtain ⟨sign, whole, fraction, rfl, hsign, hwhole, hfraction⟩ := h
  rw [Decimal.isDigits, Bool.and_eq_true] at hwhole
  obtain ⟨hne, hdigits⟩ := hwhole
  have hsignLength : Lexeme.signLength (sign ++ (whole ++ fraction)) = sign.length := by
    rcases hsign with rfl | rfl
    · cases whole with
      | nil => cases hne
      | cons c rest =>
          have hminus : c ≠ '-' := by
            rintro rfl
            cases hdigits
          simp [Lexeme.signLength, hminus]
    · rfl
  have hstop : fraction.takeWhile isDigit = [] := by
    rcases hfraction with rfl | ⟨digits, rfl, _⟩
    · rfl
    · rfl
  have hwholeLength : Lexeme.wholeLength (sign ++ (whole ++ fraction)) = whole.length := by
    rw [Lexeme.wholeLength, hsignLength, List.drop_left,
      List.takeWhile_append_of_pos (List.all_eq_true.mp hdigits), hstop, List.append_nil]
  have hfractionLength : Lexeme.fractionLength fraction = fraction.length := by
    rcases hfraction with rfl | ⟨digits, rfl, hdigits⟩
    · rfl
    · rw [Decimal.isDigits, Bool.and_eq_true] at hdigits
      rw [Lexeme.fractionLength, List.takeWhile_eq_self_iff.mpr (List.all_eq_true.mp hdigits.2)]
      simpa using hdigits.1
  have hlength : Lexeme.literalLength (sign ++ (whole ++ fraction)) =
      (sign ++ (whole ++ fraction)).length := by
    rw [Lexeme.literalLength, hsignLength, hwholeLength, ← List.append_assoc, List.drop_left'
      List.length_append, hfractionLength, List.length_append, List.length_append]
  have hpositive : whole.length ≠ 0 := by
    simpa using hne
  rw [Lexeme.numberLength?_eq, hwholeLength, if_neg hpositive, hlength, List.drop_length]
  rfl

theorem lexesAs_numberLiteral {literal more : Text} (h : IsNumberLiteral literal)
    (hmore : OpensWithBreak more) : LexesAs literal (.number literal) more := by
  have hlength := numberLength?_of_isNumberLiteral h
  cases literal with
  | nil => cases hlength
  | cons c tail =>
      have hfirst : c = '-' ∨ isDigit c := by
        obtain ⟨sign, whole, fraction, hliteral, hsign, hwhole, _⟩ := h
        rcases hsign with rfl | rfl
        · cases whole with
          | nil => cases hwhole
          | cons d rest =>
              rw [Decimal.isDigits, List.all_cons, Bool.and_eq_true, Bool.and_eq_true] at hwhole
              exact .inr ((List.cons.inj hliteral).1 ▸ hwhole.2.1)
        · exact .inl (List.cons.inj hliteral).1
      obtain ⟨hblank, hquote, hslash⟩ :
          isBlank c = false ∧ Lexeme.isQuote c = false ∧ c ≠ '/' := by
        rcases hfirst with rfl | hdigit
        · decide
        · have hword := isWordChar_of_isDigit hdigit
          exact ⟨isBlank_of_isWordChar hword, isQuote_of_isWordChar hword,
            ne_of_isWordChar hword (by decide)⟩
      refine lexesAs_of_lexeme (fun lineStart => ?_) rfl
      rw [lexeme_append hblank hquote hslash hmore, lexeme_eq, Lexeme.comment?_eq_none hslash,
        Lexeme.quoted?_eq_none hquote, Lexeme.number?, hlength, Option.map_some, List.take_length,
        ite_self]
      rfl

/-- A quoted text needs no break after it, since its closing quote ends it. -/
theorem lexesAs_quoted {quote : Char} {content : Text} (hquote : Lexeme.isQuote quote)
    (hclose : quote ∉ content) (hline : '\n' ∉ content) (more : Text) :
    LexesAs (quote :: (content ++ [quote])) (.quoted content) more := by
  refine lexesAs_of_lexeme (fun lineStart => ?_) rfl
  rw [List.append_assoc, List.singleton_append, lexeme_of_isQuote hquote,
    Lexeme.quoted?_append_cons hquote hclose hline, Option.getD_some, List.length_append]
  rfl

theorem lexesAs_punctuation {c : Char} {token : Token} (h : Lexeme.punctuation? c = some token)
    (more : Text) : LexesAs [c] token more := by
  apply lexesAs_of_lexeme
  · intro lineStart
    rw [List.nil_append]
    exact lexeme_punctuation h lineStart more
  · have hmem := mem_of_punctuation? h
    simp only [List.mem_cons, List.not_mem_nil, or_false] at hmem
    rcases hmem with rfl | rfl | rfl | rfl | rfl | rfl | rfl <;> obtain rfl := Option.some.inj h <;>
      rfl

theorem takeWhile_append_of_line {body : Text} (h : '\n' ∉ body) (back : Text) :
    (body ++ back).takeWhile (· ≠ '\n') = body ++ back.takeWhile (· ≠ '\n') := by
  apply List.takeWhile_append_of_pos
  intro c hmem
  have hne : c ≠ '\n' := fun hc => h (hc ▸ hmem)
  exact decide_eq_true hne

theorem lexeme_slashes (rest : Text) :
    lexeme true '/' ('/' :: rest) =
      ⟨.comment (rest.takeWhile (· ≠ '\n')), (rest.takeWhile (· ≠ '\n')).length + 1⟩ := by
  rw [lexeme_eq, if_pos rfl, Lexeme.comment?, if_pos ⟨rfl, rfl⟩]
  rfl

/-- A comment takes the rest of its line. -/
theorem lexFrom_comment {body : Text} (h : '\n' ∉ body) (offset : Nat) :
    lexFrom true offset ('/' :: '/' :: body) =
      [⟨.comment body, .ofText offset ('/' :: '/' :: body)⟩] := by
  have htake := takeWhile_append_of_line h []
  rw [List.takeWhile_nil, List.append_nil] at htake
  have hfound : lexeme true '/' ('/' :: body) = ⟨.comment body, body.length + 1⟩ := by
    rw [lexeme_slashes, htake]
  rw [lexFrom_cons hfound, List.drop_eq_nil_of_le (by simp), lexFrom_nil,
    List.take_of_length_le (by simp)]
  rfl

/-! ## White space between tokens -/

/-- White space that holds no newline. -/
def IsSpacing (text : Text) : Prop :=
  text.all fun c => isBlank c && c ≠ '\n'

instance : DecidablePred IsSpacing :=
  fun text => inferInstanceAs (Decidable (text.all fun c => isBlank c && c ≠ '\n'))

theorem IsSpacing.all_isBlank {text : Text} (h : IsSpacing text) : text.all isBlank := by
  rw [IsSpacing, List.all_eq_true] at h
  rw [List.all_eq_true]
  intro c hmem
  exact ((Bool.and_eq_true _ _).mp (h c hmem)).1

theorem IsSpacing.newline_not_mem {text : Text} (h : IsSpacing text) : '\n' ∉ text := by
  intro hmem
  have hnewline := List.all_eq_true.mp h '\n' hmem
  cases hnewline

theorem IsSpacing.of_all_isBlank {text : Text} (h : text.all isBlank) (hline : '\n' ∉ text) :
    IsSpacing text := by
  rw [IsSpacing, List.all_eq_true]
  intro c hmem
  have hnewline : c ≠ '\n' := fun hc => hline (hc ▸ hmem)
  simp [List.all_eq_true.mp h c hmem, hnewline]

theorem IsSpacing.append {text more : Text} (h : IsSpacing text) (hmore : IsSpacing more) :
    IsSpacing (text ++ more) := by
  rw [IsSpacing, List.all_append, h, hmore, Bool.and_self]

/-- The tokens of a text that `keep` selects. -/
def keptTokens (keep : Token → Bool) (lineStart : Bool) (offset : Nat) (text : Text) :
    List (Spanned Token) :=
  (lexFrom lineStart offset text).filter fun token => keep token.value

section Kept

variable {keep : Token → Bool}

theorem keptTokens_nil (lineStart : Bool) (offset : Nat) :
    keptTokens keep lineStart offset [] = [] := by
  rw [keptTokens, lexFrom_nil, List.filter_nil]

theorem keptTokens_of_lexesAs {text more : Text} {token : Token} (h : LexesAs text token more)
    (lineStart : Bool) (offset : Nat) :
    keptTokens keep lineStart offset (text ++ more) =
      ([⟨token, .ofText offset text⟩] : List (Spanned Token)).filter
          (fun token => keep token.value) ++
        keptTokens keep false (offset + Text.byteLength text) more := by
  rw [keptTokens, h lineStart offset, ← List.singleton_append, List.filter_append, keptTokens]

/-- White space is one token up to the next newline. -/
theorem keptTokens_dropWhile (hspace : keep .space = false) {c : Char} (hblank : isBlank c)
    (hnewline : c ≠ '\n') (lineStart : Bool) (offset : Nat) (rest : Text) :
    keptTokens keep lineStart offset (c :: rest) =
      keptTokens keep lineStart
        (offset + Text.byteLength (c :: rest.takeWhile fun d => isBlank d && d ≠ '\n'))
        (rest.dropWhile fun d => isBlank d && d ≠ '\n') := by
  rw [keptTokens, lexFrom_cons (lexeme_space hblank hnewline lineStart rest),
    List.filter_cons_of_neg (by simp [hspace])]
  simp only [take_length_takeWhile, drop_length_takeWhile]
  rfl

/-- Skipping one character of white space leaves out no other token: the token of white space takes
the rest of it as well. -/
theorem keptTokens_cons_space (hspace : keep .space = false) {c : Char} (hblank : isBlank c)
    (hnewline : c ≠ '\n') (lineStart : Bool) (offset : Nat) (rest : Text) :
    keptTokens keep lineStart offset (c :: rest) =
      keptTokens keep lineStart (offset + c.utf8Size) rest := by
  -- Either the white space goes on, and both sides skip the rest of it, or it ends here.
  rw [keptTokens_dropWhile hspace hblank hnewline]
  cases rest with
  | nil => rfl
  | cons d tail =>
      by_cases hd : isBlank d ∧ d ≠ '\n'
      · rw [keptTokens_dropWhile hspace hd.1 hd.2]
        simp [hd, Nat.add_assoc]
      · simp [hd]

theorem keptTokens_cons_newline (hnewline : keep .newline = false) (lineStart : Bool) (offset : Nat)
    (rest : Text) :
    keptTokens keep lineStart offset ('\n' :: rest) = keptTokens keep true (offset + 1) rest := by
  rw [keptTokens, lexFrom_cons (lexeme_newline lineStart rest),
    List.filter_cons_of_neg (by simp [hnewline])]
  rfl

/-- The tokens of a line and those of the lines that follow it. -/
theorem keptTokens_append_newline (hnewline : keep .newline = false) (lineStart : Bool)
    (offset : Nat) (front back : Text) :
    keptTokens keep lineStart offset (front ++ '\n' :: back) =
      keptTokens keep lineStart offset front ++
        keptTokens keep true (offset + Text.byteLength front + 1) back := by
  rw [keptTokens, lexFrom_append_newline, List.filter_append,
    List.filter_cons_of_neg (by simp [hnewline]), keptTokens, keptTokens]

/-- White space within a line is skipped. -/
theorem keptTokens_spaces (hspace : keep .space = false) {gap : Text} (hgap : IsSpacing gap)
    (lineStart : Bool) (offset : Nat) (rest : Text) :
    keptTokens keep lineStart offset (gap ++ rest) =
      keptTokens keep lineStart (offset + Text.byteLength gap) rest := by
  induction gap generalizing offset with
  | nil => rfl
  | cons c tail ih =>
      rw [IsSpacing, List.all_cons, Bool.and_eq_true, Bool.and_eq_true, decide_eq_true_eq] at hgap
      rw [List.cons_append, keptTokens_cons_space hspace hgap.1.1 hgap.1.2, ih hgap.2,
        Text.byteLength_cons, Nat.add_assoc]

/-- White space over several lines is skipped. What follows stands at the start of a line when there
was a newline. -/
theorem keptTokens_gap (hspace : keep .space = false) (hnewline : keep .newline = false)
    {gap : Text} (hgap : gap.all isBlank) (lineStart : Bool) (offset : Nat) (rest : Text) :
    keptTokens keep lineStart offset (gap ++ rest) =
      keptTokens keep (lineStart || gap.contains '\n') (offset + Text.byteLength gap) rest := by
  induction gap generalizing lineStart offset with
  | nil => simp
  | cons c tail ih =>
      rw [List.all_cons, Bool.and_eq_true] at hgap
      by_cases hc : c = '\n'
      · subst hc
        have hsize : '\n'.utf8Size = 1 := rfl
        rw [List.cons_append, keptTokens_cons_newline hnewline, ih hgap.2, Text.byteLength_cons,
          hsize, Nat.add_assoc, List.contains_cons, beq_self_eq_true, Bool.true_or,
          Bool.or_true]
      · rw [List.cons_append, keptTokens_cons_space hspace hgap.1 hc, ih hgap.2,
          Text.byteLength_cons, Nat.add_assoc, List.contains_cons,
          beq_eq_false_iff_ne.mpr (Ne.symm hc), Bool.false_or]

/-- A token with spacing around it is the only token there that can be kept. -/
theorem keptTokens_spaced (hspace : keep .space = false) {before text after more : Text}
    {token : Token} (hbefore : IsSpacing before) (h : LexesAs text token (after ++ more))
    (hafter : IsSpacing after) (lineStart : Bool) (offset : Nat) :
    keptTokens keep lineStart offset (before ++ (text ++ after) ++ more) =
      ([⟨token, .ofText (offset + Text.byteLength before) text⟩] : List (Spanned Token)).filter
          (fun token => keep token.value) ++
        keptTokens keep false (offset + Text.byteLength (before ++ (text ++ after))) more := by
  rw [List.append_assoc, List.append_assoc, keptTokens_spaces hspace hbefore,
    keptTokens_of_lexesAs h, keptTokens_spaces hspace hafter, Text.byteLength_append,
    Text.byteLength_append, Nat.add_assoc, Nat.add_assoc]

end Kept

/-- The tokens that carry structure, in a text that begins at `offset`. -/
def structureTokens (lineStart : Bool) (offset : Nat) (text : Text) : List (Spanned Token) :=
  keptTokens (fun token => !token.isTrivia) lineStart offset text

theorem significantTokens_eq (source : Text) :
    significantTokens source = structureTokens true 0 source :=
  rfl

end SceneScript
