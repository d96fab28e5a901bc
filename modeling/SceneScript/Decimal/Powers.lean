/-! # Powers of two and ten

The two bases between which numbers are carried over: doubles scale by powers of two, decimals by
powers of ten. -/

namespace SceneScript

/-- A power of two. -/
def twoTo (exponent : Nat) : Nat :=
  Nat.pow 2 exponent

/-- A power of ten. -/
def tenTo (exponent : Nat) : Nat :=
  Nat.pow 10 exponent

@[simp] theorem twoTo_zero : twoTo 0 = 1 := rfl

theorem twoTo_succ (exponent : Nat) : twoTo (exponent + 1) = twoTo exponent * 2 := rfl

theorem twoTo_pos (exponent : Nat) : 0 < twoTo exponent :=
  Nat.pow_pos (by decide)

@[simp] theorem tenTo_zero : tenTo 0 = 1 := rfl

theorem tenTo_succ (exponent : Nat) : tenTo (exponent + 1) = tenTo exponent * 10 := rfl

theorem tenTo_pos (exponent : Nat) : 0 < tenTo exponent :=
  Nat.pow_pos (by decide)

end SceneScript
