import SceneScript.Proofs.Cutting
import SceneScript.Proofs.Reading
import SceneScript.Value

/-! # Values as they are written

Integers, decimal numbers and quoted texts have a written form that is one token, has no white space
at its ends and is read as the value that was meant.
-/

namespace SceneScript

/-- A parameter value as it is written. -/
inductive Literal where
  | integer (negative : Bool) (digits : Text)
  | decimal (negative : Bool) (whole fraction : Text)
  | quoted (quote : Char) (content : Text)
  deriving DecidableEq, Repr

namespace Literal

/-- The minus sign of a negative number. -/
def sign (negative : Bool) : Text :=
  if negative then ['-'] else []

/-- The integer that digits spell behind a sign. -/
def integerValue (negative : Bool) (digits : Text) : Int :=
  if negative then -(Decimal.value digits : Int) else Decimal.value digits

/-- The written form. -/
def text : Literal → Text
  | integer negative digits => sign negative ++ digits
  | decimal negative whole fraction => sign negative ++ (whole ++ '.' :: fraction)
  | quoted quote content => quote :: (content ++ [quote])

/-- The value that is meant. -/
def value : Literal → Value
  | integer negative digits => .integer (integerValue negative digits)
  | decimal negative whole fraction =>
    .decimal (Binary64.ofRatio negative (Decimal.value (whole ++ fraction)) (tenTo fraction.length))
  | quoted _ content => .text content

/-- The written form can be read: numbers have digits, an integer has 64 bits, and a quoted text
stands on one line and does not hold its own quote. -/
def Proper : Literal → Prop
  | integer negative digits =>
    Decimal.isDigits digits ∧ Value.inRange (integerValue negative digits)
  | decimal _ whole fraction => Decimal.isDigits whole ∧ Decimal.isDigits fraction
  | quoted quote content => Lexeme.isQuote quote ∧ quote ∉ content ∧ '\n' ∉ content

instance : DecidablePred Proper := fun literal => by
  cases literal <;> exact instDecidableAnd

/-- The written form is a value when it stands alone: then a quoted text may go over lines. -/
def Readable : Literal → Prop
  | integer negative digits =>
    Decimal.isDigits digits ∧ Value.inRange (integerValue negative digits)
  | decimal _ whole fraction => Decimal.isDigits whole ∧ Decimal.isDigits fraction
  | quoted quote content => Lexeme.isQuote quote ∧ quote ∉ content

theorem Proper.readable {literal : Literal} (h : literal.Proper) : literal.Readable := by
  cases literal with
  | integer negative digits => exact h
  | decimal negative whole fraction => exact h
  | quoted quote content => exact ⟨h.1, h.2.1⟩

/-- An integer in its usual form. -/
def ofInt (n : Int) : Literal :=
  .integer (n < 0) (Decimal.ofNat n.natAbs)

/-- The token that the literal is read as. -/
def token : Literal → Token
  | integer negative digits => .number (sign negative ++ digits)
  | decimal negative whole fraction => .number (sign negative ++ (whole ++ '.' :: fraction))
  | quoted _ content => .quoted content

/-! ## Reading literals -/

theorem isNumberLiteral_integer {digits : Text} (h : Decimal.isDigits digits) (negative : Bool) :
    IsNumberLiteral (sign negative ++ digits) := by
  refine ⟨sign negative, digits, [], by rw [List.append_nil], ?_, h, .inl rfl⟩
  cases negative <;> simp [sign]

theorem isNumberLiteral_decimal {whole fraction : Text} (hwhole : Decimal.isDigits whole)
    (hfraction : Decimal.isDigits fraction) (negative : Bool) :
    IsNumberLiteral (sign negative ++ (whole ++ '.' :: fraction)) := by
  refine ⟨sign negative, whole, '.' :: fraction, rfl, ?_, hwhole, .inr ⟨fraction, rfl, hfraction⟩⟩
  cases negative <;> simp [sign]

/-- A literal is read as one token. -/
theorem lexesAs {literal : Literal} (h : literal.Proper) {more : Text}
    (hmore : OpensWithBreak more) : LexesAs literal.text literal.token more := by
  cases literal with
  | integer negative digits =>
      exact lexesAs_numberLiteral (isNumberLiteral_integer h.1 negative) hmore
  | decimal negative whole fraction =>
      exact lexesAs_numberLiteral (isNumberLiteral_decimal h.1 h.2 negative) hmore
  | quoted quote content => exact lexesAs_quoted h.1 h.2.1 h.2.2 more

theorem not_mem_of_isDigits {digits : Text} (h : Decimal.isDigits digits) {c : Char}
    (hc : isDigit c = false) : c ∉ digits := by
  intro hmem
  rw [Decimal.isDigits, Bool.and_eq_true] at h
  have hdigit := List.all_eq_true.mp h.2 c hmem
  rw [hc] at hdigit
  cases hdigit

/-- The sign is cut off what does not itself begin with one. -/
theorem cutSign_append {digits : Text} (h : digits.head? ≠ some '-') (negative : Bool) :
    Decimal.cutSign (sign negative ++ digits) = (negative, digits) := by
  cases negative with
  | true => rfl
  | false =>
      cases digits with
      | nil => rfl
      | cons c rest =>
          have hc : c ≠ '-' := by simpa using h
          simp [sign, Decimal.cutSign, hc]

theorem head?_ne_of_isDigits {digits : Text} (h : Decimal.isDigits digits) (more : Text) :
    (digits ++ more).head? ≠ some '-' := by
  have hminus := not_mem_of_isDigits h (c := '-') rfl
  cases digits with
  | nil => cases h
  | cons c rest =>
      rw [List.mem_cons, not_or] at hminus
      simpa using Ne.symm hminus.1

theorem ne_of_isQuote {quote c : Char} (h : Lexeme.isQuote quote)
    (hc : Lexeme.isQuote c = false) : quote ≠ c := by
  rintro rfl
  rw [h] at hc
  cases hc

theorem isDigit_of_isQuote {quote : Char} (h : Lexeme.isQuote quote) : isDigit quote = false := by
  cases hdigit : isDigit quote with
  | false => rfl
  | true =>
      have hquote := isQuote_of_isWordChar (isWordChar_of_isDigit hdigit)
      rw [h] at hquote
      cases hquote

theorem read?_integer {negative : Bool} {digits : Text}
    (h : (Literal.integer negative digits).Readable) :
    Value.read? (sign negative ++ digits) = some (.integer (integerValue negative digits)) := by
  obtain ⟨hdigits, hrange⟩ := h
  have hcut : Decimal.cutSign (sign negative ++ digits) = (negative, digits) := by
    have hhead := head?_ne_of_isDigits hdigits []
    rw [List.append_nil] at hhead
    exact cutSign_append hhead negative
  have hdecimal : Value.readDecimal? (sign negative ++ digits) = none := by
    rw [Value.readDecimal?, hcut]
    simp only [Text.cutAt_of_not_mem (not_mem_of_isDigits hdigits (c := '.') rfl)]
  have hinteger : Value.readInteger? (sign negative ++ digits) =
      some (integerValue negative digits) := by
    rw [Value.readInteger?, hcut]
    simp only [hdigits, Bool.true_and]
    exact if_pos hrange
  rw [Value.read?, hdecimal, hinteger]
  rfl

/-- What begins with a quote has no digits in front, so it is read as no number. -/
theorem read?_quoted {quote : Char} {content : Text}
    (h : (Literal.quoted quote content).Readable) :
    Value.read? (quote :: (content ++ [quote])) = some (.text content) := by
  obtain ⟨hquote, hclose⟩ := h
  have hdigit := isDigit_of_isQuote hquote
  have hcut : Decimal.cutSign (quote :: (content ++ [quote])) =
      (false, quote :: (content ++ [quote])) := by
    have hminus : quote ≠ '-' := ne_of_isQuote hquote rfl
    rw [Decimal.cutSign, if_neg hminus]
  have hdecimal : Value.readDecimal? (quote :: (content ++ [quote])) = none := by
    have hpoint : quote ≠ '.' := ne_of_isQuote hquote rfl
    rw [Value.readDecimal?, hcut]
    simp only [Text.cutAt, if_neg hpoint]
    cases Text.cutAt '.' (content ++ [quote]) with
    | none => rfl
    | some parts => simp [Decimal.isDigits, hdigit]
  have hinteger : Value.readInteger? (quote :: (content ++ [quote])) = none := by
    rw [Value.readInteger?, hcut]
    simp [Decimal.isDigits, hdigit]
  have hquoted : Value.readQuoted? (quote :: (content ++ [quote])) = some content := by
    have hkind : quote = '"' ∨ quote = '\'' := by
      simpa [Lexeme.isQuote] using hquote
    rw [Value.readQuoted?, if_pos hkind, Text.cutAt_append_cons hclose]
  rw [Value.read?, hdecimal, hinteger, hquoted]
  rfl

/-- A literal is read as the value that it means. -/
theorem read?_text {literal : Literal} (h : literal.Readable) :
    Value.read? literal.text = some literal.value := by
  cases literal with
  | integer negative digits => exact read?_integer h
  | decimal negative whole fraction =>
      obtain ⟨hwhole, hfraction⟩ := h
      have hcut := cutSign_append (head?_ne_of_isDigits hwhole ('.' :: fraction)) negative
      have hpoint := Text.cutAt_append_cons (not_mem_of_isDigits hwhole (c := '.') rfl) fraction
      rw [text, Value.read?, Value.readDecimal?, hcut]
      simp only [hpoint, hwhole, hfraction, Bool.and_self, if_true]
      rfl
  | quoted quote content => exact read?_quoted h

/-! ## The ends of a literal -/

theorem isBlank_of_mem_numberLiteral {literal : Text} (h : IsNumberLiteral literal) {c : Char}
    (hmem : c ∈ literal) : isBlank c = false := by
  rcases h.mem_cases hmem with rfl | rfl | hdigit
  · decide
  · decide
  · exact isBlank_of_isWordChar (isWordChar_of_isDigit hdigit)

/-- A literal has no white space at its ends. -/
theorem trim_text {literal : Literal} (h : literal.Readable) :
    Text.trim literal.text = literal.text := by
  have hliteral : ∀ {text : Text}, IsNumberLiteral text → Text.trim text = text := by
    intro text htext
    apply Text.trim_eq_self
    · exact fun c hc => isBlank_of_mem_numberLiteral htext (List.mem_of_mem_head? hc)
    · exact fun c hc => isBlank_of_mem_numberLiteral htext (List.mem_of_mem_getLast? hc)
  cases literal with
  | integer negative digits => exact hliteral (isNumberLiteral_integer h.1 negative)
  | decimal negative whole fraction => exact hliteral (isNumberLiteral_decimal h.1 h.2 negative)
  | quoted quote content =>
      have hblank : isBlank quote = false := isBlank_of_isQuote h.1
      apply Text.trim_eq_self
      · intro c hc
        rw [text, List.head?_cons, Option.mem_some_iff] at hc
        exact hc ▸ hblank
      · intro c hc
        rw [text, ← List.cons_append, List.getLast?_concat, Option.mem_some_iff] at hc
        exact hc ▸ hblank

/-! ## Integers in their usual form -/

theorem value_ofNat (n : Nat) : Decimal.value (Decimal.ofNat n) = n := by
  rw [Decimal.value, Decimal.valueFrom, Decimal.ofNat]
  exact Nat.ofDigitChars_eq_foldl.symm.trans Nat.ofDigitChars_ten_toDigits

theorem isDigits_ofNat (n : Nat) : Decimal.isDigits (Decimal.ofNat n) := by
  have hne : Decimal.ofNat n ≠ [] := Nat.toDigits_ne_nil
  have hall : (Decimal.ofNat n).all isDigit := by
    rw [List.all_eq_true]
    intro c hmem
    have hdigit := Nat.isDigit_of_mem_toDigits (by decide) (Nat.le_refl 10) hmem
    simpa [Char.isDigit, isDigit, Char.le_def] using hdigit
  simp [Decimal.isDigits, hne, hall]

/-- A whole number is written as it is printed. -/
theorem text_ofInt (n : Int) : (ofInt n).text = Decimal.ofInt n := by
  cases n with
  | ofNat n => simp [ofInt, text, sign, Decimal.ofInt]
  | negSucc n => simp [ofInt, text, sign, Decimal.ofInt, Int.negSucc_lt_zero]

theorem value_ofInt (n : Int) : (ofInt n).value = .integer n := by
  rw [ofInt, value, integerValue, value_ofNat]
  congr 1
  by_cases h : n < 0
  · simp only [h, decide_true, if_true]
    omega
  · simp only [h, decide_false, Bool.false_eq_true, if_false]
    omega

/-- Every integer of 64 bits can be written. -/
theorem proper_ofInt {n : Int} (h : Value.inRange n) : (ofInt n).Proper := by
  have hvalue := Value.integer.inj (value_ofInt n)
  rw [← hvalue] at h
  exact ⟨isDigits_ofNat n.natAbs, h⟩

end Literal

end SceneScript
