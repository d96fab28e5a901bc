/-! # Text measured in bytes

A text is a list of characters. Places in it are byte offsets of its UTF-8 form, so every cut is
made by byte counts and falls on the boundary of a character.
-/

namespace SceneScript

/-- A piece of source text. -/
abbrev Text := List Char

namespace Text

/-- The number of bytes of the UTF-8 form. -/
def byteLength : Text → Nat
  | [] => 0
  | c :: rest => c.utf8Size + byteLength rest

@[simp] theorem byteLength_nil : byteLength [] = 0 := rfl

@[simp] theorem byteLength_cons (c : Char) (rest : Text) :
    byteLength (c :: rest) = c.utf8Size + byteLength rest := rfl

@[simp] theorem byteLength_append (front back : Text) :
    byteLength (front ++ back) = byteLength front + byteLength back := by
  induction front with
  | nil => simp
  | cons c rest ih => simp [ih, Nat.add_assoc]

/-- The longest front of the text that has at most `count` bytes. -/
def takeBytes (count : Nat) : Text → Text
  | [] => []
  | c :: rest => if c.utf8Size ≤ count then c :: takeBytes (count - c.utf8Size) rest else []

/-- The text without the longest front that has at most `count` bytes. -/
def dropBytes (count : Nat) : Text → Text
  | [] => []
  | c :: rest => if c.utf8Size ≤ count then dropBytes (count - c.utf8Size) rest else c :: rest

/-- Taking and dropping the same count splits the text. -/
theorem takeBytes_append_dropBytes (count : Nat) (text : Text) :
    takeBytes count text ++ dropBytes count text = text := by
  induction text generalizing count with
  | nil => rfl
  | cons c rest ih =>
    by_cases h : c.utf8Size ≤ count <;> simp [takeBytes, dropBytes, h, ih]

/-- The text between two byte offsets. -/
def slice (text : Text) (start stop : Nat) : Text :=
  takeBytes (stop - start) (dropBytes start text)

/-- The offset clamped to the text and lowered to the boundary of a character. -/
def floorOffset (text : Text) (offset : Nat) : Nat :=
  byteLength (takeBytes offset text)

/-- The pieces between the occurrences of `separator`; there is always at least one. -/
def splitAt (separator : Char) : Text → List Text
  | [] => [[]]
  | c :: rest =>
    if c = separator then [] :: splitAt separator rest
    else
      match splitAt separator rest with
      | [] => [[c]]
      | piece :: pieces => (c :: piece) :: pieces

theorem splitAt_ne_nil (separator : Char) (text : Text) : splitAt separator text ≠ [] := by
  cases text with
  | nil => simp [splitAt]
  | cons c rest =>
    by_cases h : c = separator
    · simp [splitAt, h]
    · simp only [splitAt, h, if_false]
      split <;> simp

/-- The pieces with `separator` between each two. -/
def join (separator : Char) : List Text → Text
  | [] => []
  | [piece] => piece
  | piece :: next :: pieces => piece ++ separator :: join separator (next :: pieces)

/-- Joining undoes splitting at the same character. -/
theorem join_splitAt (separator : Char) (text : Text) :
    join separator (splitAt separator text) = text := by
  induction text with
  | nil => rfl
  | cons c rest ih =>
    by_cases h : c = separator
    · simp only [splitAt, h, if_true]
      cases hs : splitAt separator rest with
      | nil => exact absurd hs (splitAt_ne_nil separator rest)
      | cons piece pieces => simp [join, ← hs, ih]
    · simp only [splitAt, h, if_false]
      cases hs : splitAt separator rest with
      | nil => exact absurd hs (splitAt_ne_nil separator rest)
      | cons piece pieces =>
        rw [hs] at ih
        cases pieces with
        | nil => simpa [join] using ih
        | cons next more => simpa [join] using ih

/-- What stands before and after the first `separator`, if there is one. -/
def cutAt (separator : Char) : Text → Option (Text × Text)
  | [] => none
  | c :: rest =>
    if c = separator then some ([], rest)
    else (cutAt separator rest).map fun (before, after) => (c :: before, after)

/-- A cut loses only the separator, which does not occur before it. -/
theorem eq_of_cutAt {separator : Char} {text before after : Text}
    (h : cutAt separator text = some (before, after)) :
    text = before ++ separator :: after ∧ separator ∉ before := by
  induction text generalizing before with
  | nil => simp [cutAt] at h
  | cons c rest ih =>
    by_cases hc : c = separator
    · simp only [cutAt, hc, if_true, Option.some.injEq, Prod.mk.injEq] at h
      obtain ⟨rfl, rfl⟩ := h
      simp [hc]
    · simp only [cutAt, hc, if_false, Option.map_eq_some_iff] at h
      obtain ⟨⟨front, back⟩, hcut, heq⟩ := h
      obtain ⟨rfl, rfl⟩ := Prod.mk.inj heq
      obtain ⟨hrest, hmem⟩ := ih hcut
      exact ⟨by simp [hrest], by simp [hmem, Ne.symm hc]⟩

end Text

end SceneScript
