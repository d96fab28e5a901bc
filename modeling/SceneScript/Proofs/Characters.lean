import SceneScript.Token.Lexer

/-! # How the character classes lie to one another

White space, punctuation and quotes are disjoint from the characters of words. So a break, which is
white space or punctuation, ends every word, every number and every run of free text.
-/

namespace SceneScript

namespace CodePoints

/-- All code points of the ranges. -/
def points (ranges : CodePoints) : List Nat :=
  ranges.flatMap fun range => List.range' range.1 (range.2 + 1 - range.1)

theorem mem_points_of_contains {ranges : CodePoints} {n : Nat} (h : ranges.contains n) :
    n ∈ ranges.points := by
  induction ranges with
  | nil => simp [contains] at h
  | cons range rest ih =>
      obtain ⟨first, last⟩ := range
      rw [points, List.flatMap_cons, List.mem_append, List.mem_range'_1]
      rw [contains] at h
      by_cases hfirst : n < first
      · simp [hfirst] at h
      · by_cases hlast : n ≤ last
        · exact .inl ⟨by omega, by simp only; omega⟩
        · exact .inr (ih (by simpa [hfirst, hlast] using h))

end CodePoints

/-- No white space character can stand in a word. -/
theorem isWordChar_eq_false_of_isBlank {c : Char} (h : isBlank c) : isWordChar c = false := by
  have hall : ∀ n ∈ blankRanges.points,
      (letterRanges.contains n || numeralRanges.contains n || n == 95) = false := by
    decide +kernel
  have hclass := hall c.toNat (CodePoints.mem_points_of_contains h)
  simp only [Bool.or_eq_false_iff, beq_eq_false_iff_ne] at hclass
  obtain ⟨⟨hletter, hnumeral⟩, hunderscore⟩ := hclass
  simp only [isWordChar, isLetter, isNumeral, hletter, hnumeral, Bool.false_or,
    decide_eq_false_iff_not]
  rintro rfl
  exact hunderscore rfl

theorem isWordChar_of_isDigit {c : Char} (h : isDigit c) : isWordChar c := by
  simp only [isDigit, Bool.and_eq_true, decide_eq_true_eq] at h
  have hlower : ¬ c.toNat < 48 := Nat.not_lt.mpr h.1
  have hupper : c.toNat ≤ 57 := h.2
  have hnumeral : isNumeral c := by
    rw [isNumeral, numeralRanges, CodePoints.contains, if_neg hlower, if_pos hupper]
  simp [isWordChar, hnumeral]

theorem isWordStart_of_isAlpha {c : Char} (h : c.isAlpha) : isWordStart c := by
  have hrange : 65 ≤ c.toNat ∧ c.toNat ≤ 90 ∨ 97 ≤ c.toNat ∧ c.toNat ≤ 122 := by
    rcases Bool.or_eq_true_iff.mp h with hupper | hlower
    · exact .inl (of_decide_eq_true hupper)
    · obtain ⟨hfirst, hlast⟩ := Bool.and_eq_true_iff.mp hlower
      exact .inr ⟨of_decide_eq_true hfirst, of_decide_eq_true hlast⟩
  have hletter : isLetter c := by
    rw [isLetter, letterRanges, CodePoints.contains]
    rcases hrange with ⟨hfirst, hlast⟩ | ⟨hfirst, hlast⟩
    · rw [if_neg (Nat.not_lt.mpr hfirst), if_pos hlast]
    · rw [if_neg (by omega), if_neg (by omega), CodePoints.contains,
        if_neg (Nat.not_lt.mpr hfirst), if_pos hlast]
  simp [isWordStart, hletter]

/-! ## Characters of words -/

section Word

variable {c : Char}

theorem isBlank_of_isWordChar (h : isWordChar c) : isBlank c = false := by
  cases hblank : isBlank c with
  | false => rfl
  | true =>
      rw [isWordChar_eq_false_of_isBlank hblank] at h
      cases h

theorem ne_of_isWordChar {d : Char} (h : isWordChar c) (hd : isWordChar d = false) : c ≠ d := by
  rintro rfl
  rw [h] at hd
  cases hd

/-- Identifiers hold characters of words only. -/
theorem Text.not_mem_of_isIdentifier {text : Text} (h : Text.isIdentifier text)
    (hc : isWordChar c = false) : c ∉ text := by
  intro hmem
  have hword := List.all_eq_true.mp (Text.all_isWordChar_of_isIdentifier h).2 c hmem
  exact ne_of_isWordChar hword hc rfl

theorem isQuote_of_isWordChar (h : isWordChar c) : Lexeme.isQuote c = false := by
  simp [Lexeme.isQuote, ne_of_isWordChar (d := '"') h (by decide),
    ne_of_isWordChar (d := '\'') h (by decide)]

theorem isBlank_of_isQuote (h : Lexeme.isQuote c) : isBlank c = false := by
  rw [Lexeme.isQuote, Bool.or_eq_true, decide_eq_true_eq, decide_eq_true_eq] at h
  rcases h with rfl | rfl <;> decide

theorem isRunChar_of_isQuote (h : Lexeme.isQuote c) : Lexeme.isRunChar c = false := by
  simp [Lexeme.isRunChar, h]

/-- No word starts with a digit. -/
theorem isDigit_of_isWordStart (h : isWordStart c) : isDigit c = false := by
  cases hdigit : isDigit c with
  | false => rfl
  | true =>
      simp only [isDigit, Bool.and_eq_true, decide_eq_true_eq] at hdigit
      have hupper : c.toNat < 65 := Nat.lt_of_le_of_lt hdigit.2 (by decide)
      have hletter : isLetter c = false := by
        rw [isLetter, letterRanges, CodePoints.contains, if_pos hupper]
      have hunderscore : c ≠ '_' := by
        rintro rfl
        exact absurd hupper (by decide)
      simp [isWordStart, hletter, hunderscore] at h

theorem mem_of_punctuation? {token : Token} (h : Lexeme.punctuation? c = some token) :
    c ∈ ['(', ')', '{', '}', ':', ';', ','] := by
  by_cases hmem : c ∈ ['(', ')', '{', '}', ':', ';', ',']
  · exact hmem
  · simp only [List.mem_cons, List.not_mem_nil, or_false, not_or] at hmem
    simp [Lexeme.punctuation?, hmem] at h

/-- What may stand in a word may stand in a run of free text. -/
theorem isRunChar_of_isWordChar (h : isWordChar c) : Lexeme.isRunChar c := by
  have hpunctuation : Lexeme.punctuation? c = none := by
    cases htoken : Lexeme.punctuation? c with
    | none => rfl
    | some token =>
        have hmem := mem_of_punctuation? htoken
        simp only [List.mem_cons, List.not_mem_nil, or_false] at hmem
        rcases hmem with rfl | rfl | rfl | rfl | rfl | rfl | rfl <;> exact absurd h (by decide)
  simp [Lexeme.isRunChar, isBlank_of_isWordChar h, isQuote_of_isWordChar h, hpunctuation]

end Word

/-! ## Ends of runs -/

section RunEnd

variable {c : Char} (h : Lexeme.isRunChar c = false)
include h

theorem isWordChar_of_isRunChar : isWordChar c = false := by
  cases hword : isWordChar c with
  | false => rfl
  | true =>
      rw [isRunChar_of_isWordChar hword] at h
      cases h

theorem isDigit_of_isRunChar : isDigit c = false := by
  cases hdigit : isDigit c with
  | false => rfl
  | true =>
      have hword := isWordChar_of_isDigit hdigit
      rw [isWordChar_of_isRunChar h] at hword
      cases hword

theorem ne_of_isRunChar {d : Char} (hd : Lexeme.isRunChar d) : c ≠ d := by
  rintro rfl
  rw [h] at hd
  cases hd

end RunEnd

/-! ## Breaks -/

/-- The characters that end every word, number and run of free text. -/
def isBreak (c : Char) : Bool :=
  isBlank c || (Lexeme.punctuation? c).isSome

section Break

variable {c : Char}

theorem isRunChar_of_isBreak (h : isBreak c) : Lexeme.isRunChar c = false := by
  rw [isBreak, Bool.or_eq_true] at h
  rcases h with hblank | hpunctuation
  · simp [Lexeme.isRunChar, hblank]
  · simp [Lexeme.isRunChar, Option.isSome_iff_ne_none.mp hpunctuation]

theorem isWordChar_of_isBreak (h : isBreak c) : isWordChar c = false :=
  isWordChar_of_isRunChar (isRunChar_of_isBreak h)

theorem isDigit_of_isBreak (h : isBreak c) : isDigit c = false :=
  isDigit_of_isRunChar (isRunChar_of_isBreak h)

theorem ne_of_isBreak {d : Char} (h : isBreak c) (hd : isBreak d = false) : c ≠ d := by
  rintro rfl
  rw [h] at hd
  cases hd

end Break

end SceneScript
