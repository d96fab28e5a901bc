import SceneScript.Decimal.Powers

/-! # Double precision numbers as integers

A finite double is an integer of at most 53 bits times a power of two. Here a ratio of two natural
numbers is rounded to the nearest double, ties to the even one, and a double is taken apart again,
both in exact integer arithmetic.
-/

namespace SceneScript.Binary64

/-- The natural number nearest to `p / q`; of two that are equally near, the even one. -/
def roundRatio (p q : Nat) : Nat :=
  let floor := p / q
  let twice := 2 * (p % q)
  if twice < q then floor
  else if q < twice then floor + 1
  else if floor % 2 = 0 then floor
  else floor + 1

/-- The greatest `l` with `2 ^ l ≤ p / q`, for positive `p` and `q`. -/
def binaryExponent (p q : Nat) : Int :=
  let guess : Int := (p.log2 : Int) - (q.log2 : Int)
  if q * twoTo guess.toNat ≤ p * twoTo (-guess).toNat then guess else guess - 1

/-- The bits of infinity, which are greater than those of every finite double. -/
def infinityBits : Nat :=
  0x7FF * twoTo 52

/-- The bits of the double nearest to `p / q`. The exponent is the least that leaves 53 bits, but
not below that of the smallest double; what is too great for a double becomes infinity. -/
def bitsOfRatio (p q : Nat) : Nat :=
  if p = 0 then 0
  else
    let exponent := max (binaryExponent p q - 52) (-1074)
    let significand := roundRatio (p * twoTo (-exponent).toNat) (q * twoTo exponent.toNat)
    min ((exponent + 1074).toNat * twoTo 52 + significand) infinityBits

/-- The double nearest to `p / q`, with a sign. -/
def ofRatio (negative : Bool) (p q : Nat) : Float :=
  let sign := if negative then twoTo 63 else 0
  Float.ofBits (UInt64.ofNat (sign + bitsOfRatio p q))

/-- The double nearest to an integer. -/
def ofInt (n : Int) : Float :=
  ofRatio (n < 0) n.natAbs 1

/-- What a double stands for. -/
inductive Meaning where
  | nan
  | infinite (negative : Bool)
  /-- The number `significand * 2 ^ exponent`, with a sign that a zero has too. -/
  | finite (negative : Bool) (significand : Nat) (exponent : Int)
  deriving DecidableEq, Repr

/-- What the bits of a double stand for. -/
def meaningOfBits (bits : Nat) : Meaning :=
  let negative : Bool := twoTo 63 ≤ bits
  let exponent : Nat := bits / twoTo 52 % twoTo 11
  let fraction := bits % twoTo 52
  if exponent = 0x7FF then
    if fraction = 0 then .infinite negative else .nan
  else if exponent = 0 then .finite negative fraction (-1074)
  else .finite negative (twoTo 52 + fraction) ((exponent : Int) - 1075)

/-- What a double stands for. -/
def meaning (x : Float) : Meaning :=
  meaningOfBits x.toBits.toNat

end SceneScript.Binary64
