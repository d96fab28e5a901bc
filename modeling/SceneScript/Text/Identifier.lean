import SceneScript.Text.Letter
import SceneScript.Text.Numeral
import SceneScript.Text.Basic

/-! # Words and identifiers

A word goes on with letters, numerals of any script and underscores. An identifier is a word that
starts with a letter or an underscore.
-/

namespace SceneScript

/-- Whether `c` may start an identifier. -/
def isWordStart (c : Char) : Bool :=
  isLetter c || c = '_'

/-- Whether `c` may continue an identifier. -/
def isWordChar (c : Char) : Bool :=
  isLetter c || isNumeral c || c = '_'

/-- What may start an identifier may also continue it. -/
theorem isWordChar_of_isWordStart {c : Char} (h : isWordStart c) : isWordChar c := by
  simp only [isWordStart, isWordChar, Bool.or_eq_true] at h ⊢
  exact h.elim (fun h => .inl (.inl h)) .inr

/-- Whether the whole text is an identifier. -/
def Text.isIdentifier : Text → Bool
  | [] => false
  | c :: rest => isWordStart c && rest.all isWordChar

/-- An identifier is not empty and holds word characters only. -/
theorem Text.all_isWordChar_of_isIdentifier {text : Text} (h : Text.isIdentifier text) :
    text ≠ [] ∧ text.all isWordChar := by
  cases text with
  | nil => simp [Text.isIdentifier] at h
  | cons c rest =>
    simp only [Text.isIdentifier, Bool.and_eq_true] at h
    exact ⟨by simp, by simp [isWordChar_of_isWordStart h.1, h.2]⟩

end SceneScript
