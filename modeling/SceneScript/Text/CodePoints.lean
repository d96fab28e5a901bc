/-! # Sets of code points

A character class is a list of inclusive ranges in increasing order. Membership stops at the first
range that lies beyond the code point, so that the ASCII characters are decided at once.
-/

namespace SceneScript

/-- A set of code points, as inclusive ranges in increasing order. -/
abbrev CodePoints := List (Nat × Nat)

/-- Whether `n` lies in one of the ranges. -/
def CodePoints.contains : CodePoints → Nat → Bool
  | [], _ => false
  | (first, last) :: rest, n =>
    if n < first then false else if n ≤ last then true else CodePoints.contains rest n

end SceneScript
