import SceneScript.Decimal.Binary64

/-! # The fewest digits that read back

A double stands for an interval of reals, those that round to it. Among the decimals in that
interval `shortest` takes one with the fewest digits, and of these the nearest to the double. The
search goes from a coarse decimal grid to finer ones and looks at the two grid points next to the
double, in exact integer arithmetic.
-/

namespace SceneScript.Decimal

/-- The choice between two decimals that are equally near. -/
inductive Tie where
  | up
  | toEven
  deriving DecidableEq, Repr

/-- The number `digits * 10 ^ exponent`. -/
structure Scaled where
  digits : Nat
  exponent : Int
  deriving DecidableEq, Repr

/-- The reals that round to a double: between `low / unit` and `high / unit`, around
`centre / unit`. The ends belong to it when `closed` says so. -/
structure Interval where
  low : Nat
  centre : Nat
  high : Nat
  unit : Nat
  closed : Bool
  deriving DecidableEq, Repr

namespace Interval

/-- The reals that round to `significand * 2 ^ exponent`. Below a power of two the doubles lie twice
as close, except at the bottom of their range. -/
def ofDouble (significand : Nat) (exponent : Int) : Interval :=
  let scale := twoTo (exponent - 2).toNat
  let below := if significand = twoTo 52 ∧ exponent ≠ -1074 then 1 else 2
  { low := (4 * significand - below) * scale
    centre := 4 * significand * scale
    high := (4 * significand + 2) * scale
    unit := twoTo (2 - exponent).toNat
    closed := significand % 2 = 0 }

/-- Whether `p / (q * unit)` lies in the interval. -/
def holds (interval : Interval) (p q : Nat) : Bool :=
  if interval.closed then interval.low * q ≤ p && p ≤ interval.high * q
  else interval.low * q < p && p < interval.high * q

/-- The greatest `l` with `10 ^ l ≤ centre / unit`, for a positive centre. -/
def decimalExponent (interval : Interval) : Int :=
  if interval.unit ≤ interval.centre then
    ((Nat.toDigits 10 (interval.centre / interval.unit)).length : Int) - 1
  else
    let length := (Nat.toDigits 10 (interval.unit / interval.centre)).length
    if interval.centre * tenTo (length - 1) = interval.unit then -((length : Int) - 1)
    else -(length : Int)

/-- The multiple of `10 ^ exponent` in the interval that is nearest to the centre. -/
def nearestOnGrid? (tie : Tie) (interval : Interval) (exponent : Int) : Option Scaled :=
  let step := tenTo exponent.toNat * interval.unit
  let fine := tenTo (-exponent).toNat
  let centre := interval.centre * fine
  let below := centre / step
  let above := below + 1
  let holdsBelow := interval.holds (below * step) fine
  let holdsAbove := interval.holds (above * step) fine
  let twice := 2 * (centre % step)
  let takeBelow : Bool :=
    if holdsBelow && holdsAbove then
      twice < step || (twice = step && tie = .toEven && below % 2 = 0)
    else holdsBelow
  if takeBelow then some ⟨below, exponent⟩
  else if holdsAbove then some ⟨above, exponent⟩
  else none

/-- The first hit on `count` grids, each ten times as fine as the one before. -/
def search (tie : Tie) (interval : Interval) (exponent : Int) : Nat → Option Scaled
  | 0 => none
  | count + 1 =>
    match interval.nearestOnGrid? tie exponent with
    | some found => some found
    | none => interval.search tie (exponent - 1) count

end Interval

/-- The same number without a zero at the end of its digits. -/
def Scaled.dropZero (scaled : Scaled) : Scaled :=
  if scaled.digits % 10 = 0 then ⟨scaled.digits / 10, scaled.exponent + 1⟩ else scaled

/-- The decimal with the fewest digits that reads back as `significand * 2 ^ exponent`, for a
positive significand. Seventeen digits always suffice. -/
def shortest (tie : Tie) (significand : Nat) (exponent : Int) : Scaled :=
  let interval := Interval.ofDouble significand exponent
  ((interval.search tie interval.decimalExponent 17).getD
    ⟨significand, exponent⟩).dropZero

end SceneScript.Decimal
