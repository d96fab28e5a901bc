import SceneScript.Text.Numeral
import SceneScript.Text.Basic

/-! # Numbers in decimal digits

Natural numbers and integers in decimal, read and written over plain characters.
-/

namespace SceneScript

namespace Decimal

/-- The number that the digits spell when they follow the digits of `start`. -/
def valueFrom (start : Nat) (digits : Text) : Nat :=
  digits.foldl (fun value c => 10 * value + (c.toNat - '0'.toNat)) start

/-- The number that the digits spell. -/
def value (digits : Text) : Nat :=
  valueFrom 0 digits

/-- The digits of a natural number, without leading zeros. -/
def ofNat (n : Nat) : Text :=
  Nat.toDigits 10 n

/-- The digits of an integer, after a minus sign when it is negative. -/
def ofInt : Int → Text
  | .ofNat n => ofNat n
  | .negSucc n => '-' :: ofNat (n + 1)

/-- A minus sign, if there is one, and what follows it. -/
def cutSign : Text → Bool × Text
  | [] => (false, [])
  | c :: rest => if c = '-' then (true, rest) else (false, c :: rest)

/-- Whether the text is one digit or more. -/
def isDigits (text : Text) : Bool :=
  !text.isEmpty && text.all isDigit

end Decimal

end SceneScript
