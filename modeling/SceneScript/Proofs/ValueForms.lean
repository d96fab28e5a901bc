import Mathlib.Algebra.Group.Int.Defs
import SceneScript.Proofs.Literals
import SceneScript.Proofs.Rounding

/-! # The forms of a value

A value is read from a whole text or not at all, and each kind of value has a form of its own. The
readers are tried in turn, but no text has two forms, so their order makes no difference: a text is
read as a value exactly if it is the written form of a literal of that value.
-/

namespace SceneScript

theorem Decimal.eq_of_cutSign {text digits : Text} {negative : Bool}
    (h : cutSign text = (negative, digits)) : text = Literal.sign negative ++ digits := by
  cases text with
  | nil =>
      obtain ⟨rfl, rfl⟩ := Prod.mk.inj h
      rfl
  | cons c rest =>
      rw [cutSign] at h
      split at h
      next hminus =>
        obtain ⟨rfl, rfl⟩ := Prod.mk.inj h
        rw [hminus]
        rfl
      next =>
        obtain ⟨rfl, rfl⟩ := Prod.mk.inj h
        rfl

namespace Value

theorem inRange_iff (n : Int) : inRange n ↔ -2 ^ 63 ≤ n ∧ n < 2 ^ 63 := by
  have htwo : (twoTo 63 : Int) = 2 ^ 63 := rfl
  rw [inRange, htwo, Bool.and_eq_true, decide_eq_true_eq, decide_eq_true_eq]

/-! ## What each reader takes -/

theorem readInteger?_eq_some {text : Text} {n : Int} (h : readInteger? text = some n) :
    ∃ negative digits, (Literal.integer negative digits).Readable ∧
      text = (Literal.integer negative digits).text ∧ n = Literal.integerValue negative digits := by
  cases hcut : Decimal.cutSign text with
  | mk negative digits =>
      rw [readInteger?, hcut] at h
      obtain ⟨hboth, hvalue⟩ := Option.ite_none_right_eq_some.mp h
      rw [Bool.and_eq_true] at hboth
      exact ⟨negative, digits, hboth, Decimal.eq_of_cutSign hcut, (Option.some.inj hvalue).symm⟩

theorem readDecimal?_eq_some {text : Text} {x : Float} (h : readDecimal? text = some x) :
    ∃ negative whole fraction, (Literal.decimal negative whole fraction).Readable ∧
      text = (Literal.decimal negative whole fraction).text ∧
      x = Binary64.ofRatio negative (Decimal.value (whole ++ fraction))
        (tenTo fraction.length) := by
  cases hcut : Decimal.cutSign text with
  | mk negative digits =>
      rw [readDecimal?, hcut] at h
      cases hpoint : Text.cutAt '.' digits with
      | none => simp [hpoint] at h
      | some parts =>
          obtain ⟨whole, fraction⟩ := parts
          simp only [hpoint] at h
          obtain ⟨hboth, hvalue⟩ := Option.ite_none_right_eq_some.mp h
          rw [Bool.and_eq_true] at hboth
          refine ⟨negative, whole, fraction, hboth, ?_, (Option.some.inj hvalue).symm⟩
          rw [Decimal.eq_of_cutSign hcut, (Text.eq_of_cutAt hpoint).1]
          rfl

theorem readQuoted?_eq_some {text content : Text} (h : readQuoted? text = some content) :
    ∃ quote, (Literal.quoted quote content).Readable ∧
      text = (Literal.quoted quote content).text := by
  cases text with
  | nil => cases h
  | cons quote rest =>
      rw [readQuoted?] at h
      obtain ⟨hquote, hcontent⟩ := Option.ite_none_right_eq_some.mp h
      split at hcontent
      next hcut =>
        obtain rfl := Option.some.inj hcontent
        obtain ⟨hrest, hclose⟩ := Text.eq_of_cutAt hcut
        refine ⟨quote, ⟨?_, hclose⟩, by rw [hrest]; rfl⟩
        simpa [Lexeme.isQuote] using hquote
      next => cases hcontent

/-! ## The literals of a text -/

/-- A text is read as a value if and only if it is the written form of a literal of that value. -/
theorem read?_eq_some_iff (text : Text) (value : Value) :
    read? text = some value ↔
      ∃ literal : Literal, literal.Readable ∧ text = literal.text ∧ value = literal.value := by
  constructor
  · intro h
    rw [read?] at h
    cases hdecimal : readDecimal? text with
    | some x =>
        obtain rfl : decimal x = value := by simpa [hdecimal] using h
        obtain ⟨negative, whole, fraction, hreadable, htext, rfl⟩ := readDecimal?_eq_some hdecimal
        exact ⟨.decimal negative whole fraction, hreadable, htext, rfl⟩
    | none =>
        cases hinteger : readInteger? text with
        | some n =>
            obtain rfl : integer n = value := by simpa [hdecimal, hinteger] using h
            obtain ⟨negative, digits, hreadable, htext, rfl⟩ := readInteger?_eq_some hinteger
            exact ⟨.integer negative digits, hreadable, htext, rfl⟩
        | none =>
            obtain ⟨content, hquoted, rfl⟩ : ∃ content, readQuoted? text = some content ∧
                Value.text content = value := by
              simpa [hdecimal, hinteger] using h
            obtain ⟨quote, hreadable, htext⟩ := readQuoted?_eq_some hquoted
            exact ⟨.quoted quote content, hreadable, htext, rfl⟩
  · rintro ⟨literal, hreadable, rfl, rfl⟩
    exact Literal.read?_text hreadable

theorem read?_eq_none_iff (text : Text) :
    read? text = none ↔ ∀ literal : Literal, literal.Readable → text ≠ literal.text := by
  rw [Option.eq_none_iff_forall_ne_some]
  constructor
  · intro h literal hreadable htext
    exact h literal.value ((read?_eq_some_iff _ _).mpr ⟨literal, hreadable, htext, rfl⟩)
  · intro h value hvalue
    obtain ⟨literal, hreadable, htext, _⟩ := (read?_eq_some_iff _ _).mp hvalue
    exact h literal hreadable htext

/-! ## The form of each kind of value -/

theorem read?_eq_integer_iff (text : Text) (n : Int) :
    read? text = some (.integer n) ↔
      ∃ negative digits, text = Literal.sign negative ++ digits ∧ Decimal.isDigits digits ∧
        n = Literal.integerValue negative digits ∧ -2 ^ 63 ≤ n ∧ n ≤ 2 ^ 63 - 1 := by
  rw [read?_eq_some_iff]
  constructor
  · rintro ⟨literal, hreadable, htext, hvalue⟩
    cases literal with
    | integer negative digits =>
        obtain rfl := integer.inj hvalue
        have hrange := (inRange_iff _).mp hreadable.2
        exact ⟨negative, digits, htext, hreadable.1, rfl, hrange.1, by omega⟩
    | decimal negative whole fraction => cases hvalue
    | quoted quote content => cases hvalue
  · rintro ⟨negative, digits, htext, hdigits, rfl, hlow, hhigh⟩
    have hrange := (inRange_iff _).mpr ⟨hlow, by omega⟩
    exact ⟨.integer negative digits, ⟨hdigits, hrange⟩, htext, rfl⟩

theorem read?_eq_decimal_iff (text : Text) (x : Float) :
    read? text = some (.decimal x) ↔
      ∃ negative whole fraction, text = Literal.sign negative ++ (whole ++ '.' :: fraction) ∧
        Decimal.isDigits whole ∧ Decimal.isDigits fraction ∧
        Binary64.RoundsTo negative
          ((Decimal.value (whole ++ fraction) : ℚ) / tenTo fraction.length) x := by
  rw [read?_eq_some_iff]
  constructor
  · rintro ⟨literal, hreadable, htext, hvalue⟩
    cases literal with
    | integer negative digits => cases hvalue
    | decimal negative whole fraction =>
        exact ⟨negative, whole, fraction, htext, hreadable.1, hreadable.2,
          (Binary64.eq_ofRatio_iff _ _ (tenTo_pos _) x).mp (decimal.inj hvalue)⟩
    | quoted quote content => cases hvalue
  · rintro ⟨negative, whole, fraction, htext, hwhole, hfraction, hrounds⟩
    obtain rfl := (Binary64.eq_ofRatio_iff _ _ (tenTo_pos _) x).mpr hrounds
    exact ⟨.decimal negative whole fraction, ⟨hwhole, hfraction⟩, htext, rfl⟩

theorem read?_eq_text_iff (text content : Text) :
    read? text = some (.text content) ↔
      ∃ quote, (quote = '"' ∨ quote = '\'') ∧ quote ∉ content ∧
        text = quote :: (content ++ [quote]) := by
  rw [read?_eq_some_iff]
  constructor
  · rintro ⟨literal, hreadable, htext, hvalue⟩
    cases literal with
    | integer negative digits => cases hvalue
    | decimal negative whole fraction => cases hvalue
    | quoted quote other =>
        obtain rfl := Value.text.inj hvalue
        exact ⟨quote, by simpa [Lexeme.isQuote] using hreadable.1, hreadable.2, htext⟩
  · rintro ⟨quote, hquote, hclose, htext⟩
    exact ⟨.quoted quote content, ⟨by simpa [Lexeme.isQuote] using hquote, hclose⟩, htext, rfl⟩

/-- A text is an integer, a decimal number or a quoted text by its form alone, and what has none of
the three forms is rejected. The value of a decimal number is the double nearest to it. Integers of
64 bits, and texts without a double quote, are read back from what they are shown as. -/
theorem read?_classifies (text : Text) :
    (∀ n, read? text = some (.integer n) ↔
      ∃ negative digits, text = Literal.sign negative ++ digits ∧ Decimal.isDigits digits ∧
        n = Literal.integerValue negative digits ∧ -2 ^ 63 ≤ n ∧ n ≤ 2 ^ 63 - 1) ∧
    (∀ x, read? text = some (.decimal x) ↔
      ∃ negative whole fraction, text = Literal.sign negative ++ (whole ++ '.' :: fraction) ∧
        Decimal.isDigits whole ∧ Decimal.isDigits fraction ∧
        Binary64.RoundsTo negative
          ((Decimal.value (whole ++ fraction) : ℚ) / tenTo fraction.length) x) ∧
    (∀ content, read? text = some (.text content) ↔
      ∃ quote, (quote = '"' ∨ quote = '\'') ∧ quote ∉ content ∧
        text = quote :: (content ++ [quote])) ∧
    (read? text = none ↔ ∀ literal : Literal, literal.Readable → text ≠ literal.text) ∧
    (∀ n, -2 ^ 63 ≤ n → n ≤ 2 ^ 63 - 1 →
      read? (Value.integer n).shown = some (.integer n)) ∧
    ∀ content, '"' ∉ content → read? (Value.text content).shown = some (.text content) := by
  refine ⟨read?_eq_integer_iff text, read?_eq_decimal_iff text, read?_eq_text_iff text,
    read?_eq_none_iff text, ?_, ?_⟩
  · intro n hlow hhigh
    have hproper := Literal.proper_ofInt ((inRange_iff n).mpr ⟨hlow, by omega⟩)
    have hread := Literal.read?_text hproper.readable
    rwa [Literal.text_ofInt, Literal.value_ofInt] at hread
  · intro content hquote
    exact Literal.read?_quoted ⟨rfl, hquote⟩

/-- A lone sign, a point with no digits on one side, a plus sign, more text behind, and the integers
next to those of 64 bits are no values. -/
example : ["-", "1.", ".5", "+1", "1e5", "1 ", "'a'b'", "9223372036854775808",
    "-9223372036854775809"].all fun text => (read? text.toList).isNone := by
  decide

end Value

end SceneScript
