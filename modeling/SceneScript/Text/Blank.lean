import SceneScript.Text.Basic
import SceneScript.Text.CodePoints

/-! # White space

The property White_Space of the Unicode character database, and trimming by it.
-/

namespace SceneScript

/-- The code points with the property White_Space. -/
def blankRanges : CodePoints :=
  [(0x0009, 0x000D), (0x0020, 0x0020), (0x0085, 0x0085), (0x00A0, 0x00A0), (0x1680, 0x1680),
   (0x2000, 0x200A), (0x2028, 0x2029), (0x202F, 0x202F), (0x205F, 0x205F), (0x3000, 0x3000)]

/-- Whether `c` has the property White_Space; the newline is one of them. -/
def isBlank (c : Char) : Bool :=
  blankRanges.contains c.toNat

namespace Text

/-- The text without its leading white space. -/
def trimStart (text : Text) : Text :=
  text.dropWhile isBlank

/-- The text without its trailing white space. -/
def trimEnd (text : Text) : Text :=
  (text.reverse.dropWhile isBlank).reverse

/-- The text without white space at either end. -/
def trim (text : Text) : Text :=
  trimEnd (trimStart text)

/-- The number of bytes of leading white space. -/
def leadingBlank (text : Text) : Nat :=
  byteLength (text.takeWhile isBlank)

/-- Leading white space and what trimming leaves at the front make up the text. -/
theorem takeWhile_append_trimStart (text : Text) :
    text.takeWhile isBlank ++ trimStart text = text :=
  List.takeWhile_append_dropWhile

end Text

end SceneScript
