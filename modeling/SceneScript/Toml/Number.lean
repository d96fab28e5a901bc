import SceneScript.Decimal.Binary64
import SceneScript.Decimal.Digits

/-! # Numbers without quotes

A number literal is recognised by its outline, which leaves room for literals that stand for no
number: `0x` without a digit, `1_a`, or more than a double can hold. Whether a literal has a meaning
is a second question, asked of the values that are looked at. An integer has one within 128 bits, a
decimal number within the range of doubles.
-/

namespace SceneScript.Toml.Number

/-- A sign, if there is one, and what follows it. -/
def cutEitherSign (text : Text) : Bool × Text :=
  match text with
  | [] => (false, [])
  | c :: rest => if c = '+' then (false, rest) else if c = '-' then (true, rest) else (false, text)

/-! ## Digits -/

/-- The number that a digit of a base up to sixteen stands for. -/
def digitValue (c : Char) : Nat :=
  if c.isDigit then c.toNat - '0'.toNat else c.toLower.toNat - 'a'.toNat + 10

/-- Whether `c` is a digit of a base up to sixteen. -/
def isDigitOf (base : Nat) (c : Char) : Bool :=
  (c.isDigit || ('a' ≤ c.toLower && c.toLower ≤ 'f')) && digitValue c < base

/-- The digits without underscores, if every underscore stands between two digits. -/
def plainDigits? (isDigitChar : Char → Bool) (text : Text) : Option Text :=
  if (Text.splitAt '_' text).all fun part => !part.isEmpty && part.all isDigitChar then
    some (text.filter (· ≠ '_'))
  else
    none

/-- The digits of a decimal integer, which has no leading zeros. -/
def decimalDigits? (text : Text) : Option Text :=
  match plainDigits? isDigit text with
  | some digits => if digits.head? = some '0' ∧ digits.length ≠ 1 then none else some digits
  | none => none

/-! ## Integers -/

/-- The base of an integer with a base mark, and what follows the mark. There is no sign. -/
def cutBase? : Text → Option (Nat × Text)
  | '0' :: 'x' :: digits => some (16, digits)
  | '0' :: 'o' :: digits => some (8, digits)
  | '0' :: 'b' :: digits => some (2, digits)
  | _ => none

/-- Whether there is a hexadecimal digit after each underscore, and one before each but the first.
The groups are those after the first underscore; the last of them may end in any way. -/
def areGroups : List Text → Bool
  | [] => true
  | [last] => last.head?.any (isDigitOf 16)
  | group :: next :: groups =>
    group.head?.any (isDigitOf 16) && group.getLast?.any (isDigitOf 16) && areGroups (next :: groups)

/-- Whether the text has the outline of a decimal integer: decimal digits up to the first underscore,
with no zero in front, and neither a point nor an exponent mark. -/
def hasIntegerOutline (text : Text) : Bool :=
  match Text.splitAt '_' text with
  | [] => false
  | first :: groups =>
    Decimal.isDigits first && (first.head? ≠ some '0' || text = ['0']) && areGroups groups &&
      text.all fun c => c ≠ '.' && c ≠ 'e' && c ≠ 'E'

/-! ## Decimal numbers -/

/-- Whether the text is infinity or no number. -/
def isSpecial (text : Text) : Bool :=
  text = ['i', 'n', 'f'] || text = ['n', 'a', 'n']

/-- A power of ten: digits after a sign or none. -/
def readExponent? (text : Text) : Option Int :=
  let (negative, rest) := cutEitherSign text
  (plainDigits? isDigit rest).map fun digits =>
    if negative then -(Decimal.value digits : Int) else Decimal.value digits

/-- The digits and the power of ten of a decimal number with a fraction, an exponent or both. -/
def scaled? (text : Text) : Option (Text × Int) :=
  let (mantissa, exponent) := match Text.cutAt 'e' (text.map Char.toLower) with
    | some (mantissa, exponent) => (mantissa, some exponent)
    | none => (text, none)
  let (whole, fraction) := match Text.cutAt '.' mantissa with
    | some (whole, fraction) => (whole, some fraction)
    | none => (mantissa, none)
  if exponent.isNone && fraction.isNone then none
  else do
    let whole ← decimalDigits? whole
    let places ← (fraction.map (plainDigits? isDigit)).getD (some [])
    let scale ← (exponent.map readExponent?).getD (some 0)
    return (whole ++ places, scale - places.length)

/-- Whether the digits, scaled by a power of ten, are in the range of doubles. -/
def isFinite (digits : Text) (exponent : Int) : Bool :=
  let significant := digits.dropWhile (· = '0')
  let magnitude := significant.length + exponent
  if significant.isEmpty || magnitude < 300 then true
  else if 310 < magnitude then false
  else
    Binary64.bitsOfRatio (Decimal.value significant * tenTo exponent.toNat) (tenTo (-exponent).toNat)
      < Binary64.infinityBits

/-! ## Literals and their meaning -/

/-- Whether the text is a number literal. -/
def isLiteral (text : Text) : Bool :=
  match cutBase? text with
  | some (base, digits) => digits.isEmpty || (plainDigits? (isDigitOf base) digits).isSome
  | none =>
    let rest := (cutEitherSign text).2
    hasIntegerOutline rest || isSpecial rest || (scaled? rest).isSome

/-- Whether the digits of some base spell a number of at most 128 bits. -/
def basedHasMeaning (base : Nat) (digits : Text) : Bool :=
  match plainDigits? (isDigitOf base) digits with
  | some digits => digits.foldl (fun value c => base * value + digitValue c) 0 < twoTo 128
  | none => false

/-- Whether a number literal stands for a number. -/
def hasMeaning (text : Text) : Bool :=
  match cutBase? text with
  | some (base, digits) => basedHasMeaning base digits
  | none =>
    let (negative, rest) := cutEitherSign text
    match decimalDigits? rest, scaled? rest with
    | some digits, _ =>
      if negative then Decimal.value digits ≤ twoTo 127 else Decimal.value digits < twoTo 128
    | none, some (digits, exponent) => isFinite digits exponent
    | none, none => isSpecial rest

end SceneScript.Toml.Number
