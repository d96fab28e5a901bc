import SceneScript.Decimal.Digits
import SceneScript.Decimal.Shortest

/-! # Writing doubles

A layout holds what a format decides about the text of a double: which magnitudes are written out
and which with an exponent, whether a whole number gets a point, and the words for what is not
finite. The digits themselves are always the fewest that read back.
-/

namespace SceneScript.Decimal

/-- The decisions of a format about the text of doubles. -/
structure Layout where
  /-- The least and the greatest decimal exponent that is written out, if not all are. -/
  writtenOut : Option (Int × Int)
  /-- Whether a whole number ends in `.0`. -/
  wholePoint : Bool
  tie : Tie
  infinity : Text
  minusInfinity : Text
  nan : Text
  deriving DecidableEq, Repr

namespace Layout

/-- Every finite number is written out, and a whole one has no point. -/
def plain : Layout where
  writtenOut := none
  wholePoint := false
  tie := .up
  infinity := ['i', 'n', 'f']
  minusInfinity := ['-', 'i', 'n', 'f']
  nan := ['N', 'a', 'N']

/-- Numbers from `1e-5` up to `1e16` are written out, with a point; there is no text for what is
not finite. -/
def json : Layout where
  writtenOut := some (-5, 15)
  wholePoint := true
  tie := .toEven
  infinity := ['n', 'u', 'l', 'l']
  minusInfinity := ['n', 'u', 'l', 'l']
  nan := ['n', 'u', 'l', 'l']

/-- The end of a whole number. -/
def wholeEnd (layout : Layout) : Text :=
  if layout.wholePoint then ['.', '0'] else []

/-- A number in full, digit by digit. -/
def positional (layout : Layout) (scaled : Scaled) : Text :=
  let digits := ofNat scaled.digits
  let places := (-scaled.exponent).toNat
  if 0 ≤ scaled.exponent then
    digits ++ List.replicate scaled.exponent.toNat '0' ++ layout.wholeEnd
  else if places < digits.length then
    digits.take (digits.length - places) ++ '.' :: digits.drop (digits.length - places)
  else
    '0' :: '.' :: (List.replicate (places - digits.length) '0' ++ digits)

/-- A number as one digit, the others after a point, and a signed exponent. -/
def scientific (scaled : Scaled) : Text :=
  let digits := ofNat scaled.digits
  let exponent := scaled.exponent + digits.length - 1
  let fraction := digits.drop 1
  digits.take 1 ++ (if fraction.isEmpty then [] else '.' :: fraction) ++
    'e' :: (if exponent < 0 then '-' else '+') :: ofNat exponent.natAbs

/-- A positive number. -/
def magnitude (layout : Layout) (scaled : Scaled) : Text :=
  let exponent := scaled.exponent + (ofNat scaled.digits).length - 1
  match layout.writtenOut with
  | some (low, high) =>
    if low ≤ exponent ∧ exponent ≤ high then layout.positional scaled else scientific scaled
  | none => layout.positional scaled

/-- The text of a double. -/
def write (layout : Layout) (x : Float) : Text :=
  match Binary64.meaning x with
  | .nan => layout.nan
  | .infinite negative => if negative then layout.minusInfinity else layout.infinity
  | .finite negative significand exponent =>
    let text :=
      if significand = 0 then '0' :: layout.wholeEnd
      else layout.magnitude (shortest layout.tie significand exponent)
    if negative then '-' :: text else text

end Layout

end SceneScript.Decimal
