import Mathlib.Algebra.Order.Field.Power
import Mathlib.Algebra.Order.Field.Rat
import Mathlib.Order.Monotone.Basic
import Mathlib.Tactic.FieldSimp
import Mathlib.Tactic.Linarith
import Mathlib.Tactic.NormNum
import Mathlib.Tactic.Positivity
import Mathlib.Tactic.Ring
import SceneScript.Decimal.Binary64

/-! # Rounding to the nearest double

The bits of the doubles without a sign stand in the order of the numbers that they stand for, and
infinity follows the greatest of them. A ratio is rounded in two steps, which find the exponent and
round the significand to an integer. Together they give the nearest of all doubles, and of two that
are equally near the one with even bits.
-/

namespace SceneScript.Binary64

/-- The number that the bits of a double without a sign stand for. Infinity counts as the number
that would follow the greatest double. -/
def number (bits : Nat) : ℚ :=
  if bits / twoTo 52 = 0 then (bits % twoTo 52 : Nat) * 2 ^ (-1074 : Int)
  else (twoTo 52 + bits % twoTo 52 : Nat) * 2 ^ ((bits / twoTo 52 : Nat) - 1075 : Int)

/-- No double lies nearer to the number, and where another lies equally near, the bits are even. -/
structure IsNearest (x : ℚ) (bits : Nat) : Prop where
  le_infinity : bits ≤ infinityBits
  nearest : ∀ other ≤ infinityBits, |x - number bits| ≤ |x - number other|
  even_of_tie : ∀ other ≤ infinityBits, other ≠ bits → |x - number other| = |x - number bits| →
    bits % 2 = 0

/-! ## Levels of doubles

The bits `k * 2 ^ 52 + m` stand for `m` units of `2 ^ (k - 1074)`, where `m` has 53 bits or `k` is
zero. A significand that is rounded up to `2 ^ 53` belongs to the next level, where the same bits
stand for the same number. -/

theorem number_of_lt {fraction : Nat} (h : fraction < twoTo 52) :
    number fraction = fraction * 2 ^ (-1074 : Int) := by
  rw [number, if_pos (Nat.div_eq_of_lt h), Nat.mod_eq_of_lt h]

theorem number_of_exponent {fraction : Nat} (h : fraction < twoTo 52) (k : Nat) :
    number ((k + 1) * twoTo 52 + fraction) =
      (twoTo 52 + fraction : Nat) * 2 ^ ((k : Int) - 1074) := by
  have hdiv : ((k + 1) * twoTo 52 + fraction) / twoTo 52 = k + 1 := by
    rw [Nat.add_comm, Nat.add_mul_div_right _ _ (twoTo_pos 52), Nat.div_eq_of_lt h, Nat.zero_add]
  have hmod : ((k + 1) * twoTo 52 + fraction) % twoTo 52 = fraction := by
    rw [Nat.add_comm, Nat.add_mul_mod_self_right, Nat.mod_eq_of_lt h]
  have hexponent : ((k + 1 : Nat) : Int) - 1075 = k - 1074 := by omega
  rw [number, hdiv, hmod, if_neg (Nat.succ_ne_zero k), hexponent]

theorem number_level {k m : Nat} (hk : k = 0 ∨ twoTo 52 ≤ m) (hm : m ≤ 2 * twoTo 52) :
    number (k * twoTo 52 + m) = m * 2 ^ ((k : Int) - 1074) := by
  rcases Nat.lt_or_ge m (twoTo 52) with hlt | hge
  · obtain rfl : k = 0 := hk.resolve_right (Nat.not_le_of_lt hlt)
    rw [Nat.zero_mul, Nat.zero_add, number_of_lt hlt]
    rfl
  · obtain ⟨fraction, rfl⟩ := Nat.exists_eq_add_of_le hge
    rcases Nat.lt_or_ge fraction (twoTo 52) with hfraction | hfraction
    · rw [← Nat.add_assoc, ← Nat.succ_mul, number_of_exponent hfraction]
    · -- The significand is rounded up to the next power of two.
      obtain rfl : fraction = twoTo 52 := by omega
      have hbits : k * twoTo 52 + (twoTo 52 + twoTo 52) = (k + 1 + 1) * twoTo 52 + 0 := by ring
      have hexponent : ((k + 1 : Nat) : Int) - 1074 = (k - 1074) + 1 := by omega
      rw [hbits, number_of_exponent (twoTo_pos 52), hexponent, zpow_add_one₀ two_ne_zero]
      push_cast
      ring

theorem exists_level (bits : Nat) :
    ∃ k m, bits = k * twoTo 52 + m ∧ (k = 0 ∨ twoTo 52 ≤ m) ∧ m < 2 * twoTo 52 := by
  have hmod := Nat.mod_lt bits (twoTo_pos 52)
  have hsplit := Nat.div_add_mod' bits (twoTo 52)
  cases hexponent : bits / twoTo 52 with
  | zero =>
      rw [hexponent] at hsplit
      exact ⟨0, bits, by omega, .inl rfl, by omega⟩
  | succ k =>
      rw [hexponent, Nat.succ_mul] at hsplit
      exact ⟨k, twoTo 52 + bits % twoTo 52, by omega, .inr (Nat.le_add_right _ _), by omega⟩

theorem number_lt_number_succ (bits : Nat) : number bits < number (bits + 1) := by
  obtain ⟨k, m, rfl, hk, hm⟩ := exists_level bits
  have hunit : (0 : ℚ) < 2 ^ ((k : Int) - 1074) := by positivity
  rw [Nat.add_assoc, number_level hk (Nat.le_of_lt hm),
    number_level (hk.imp_right fun h => Nat.le_succ_of_le h) hm]
  push_cast
  linarith

theorem strictMono_number : StrictMono number :=
  strictMono_nat_of_lt_succ number_lt_number_succ

/-- Seen from a level, a double is a number of its units or it lies below all its significands of 53
bits. -/
theorem units_or_below (k bits : Nat) :
    (∃ j : Nat, number bits = j * 2 ^ ((k : Int) - 1074)) ∨
      0 < k ∧ number bits < (twoTo 52 : Nat) * 2 ^ ((k : Int) - 1074) := by
  obtain ⟨l, m, rfl, hl, hm⟩ := exists_level bits
  rw [number_level hl (Nat.le_of_lt hm)]
  rcases Nat.lt_or_ge l k with hlt | hge
  · right
    have hunit : (2 : ℚ) ^ ((l : Int) - 1074 + 1) ≤ 2 ^ ((k : Int) - 1074) :=
      zpow_le_zpow_right₀ one_le_two (by omega)
    have hm : (m : ℚ) < 2 * twoTo 52 := by exact_mod_cast hm
    have hpos : (0 : ℚ) < 2 ^ ((l : Int) - 1074) := by positivity
    refine ⟨by omega, ?_⟩
    calc
      (m : ℚ) * 2 ^ ((l : Int) - 1074)
      _ < 2 * twoTo 52 * 2 ^ ((l : Int) - 1074) := mul_lt_mul_of_pos_right hm hpos
      _ = twoTo 52 * 2 ^ ((l : Int) - 1074 + 1) := by
        rw [zpow_add_one₀ two_ne_zero]
        ring
      _ ≤ twoTo 52 * 2 ^ ((k : Int) - 1074) := mul_le_mul_of_nonneg_left hunit (by positivity)
  · left
    obtain ⟨d, rfl⟩ := Nat.exists_eq_add_of_le hge
    refine ⟨m * 2 ^ d, ?_⟩
    have hexponent : ((k + d : Nat) : Int) - 1074 = d + (k - 1074) := by omega
    rw [hexponent, zpow_add₀ two_ne_zero, zpow_natCast]
    push_cast
    ring

/-! ## Rounding to an integer -/

section RoundRatio

variable {p q : Nat} (hq : 0 < q)
include hq

/-- The integer lies at most one half away, and if it does it is even. -/
theorem abs_sub_roundRatio :
    |(p : ℚ) / q - roundRatio p q| ≤ 1 / 2 ∧
      (|(p : ℚ) / q - roundRatio p q| = 1 / 2 → roundRatio p q % 2 = 0) := by
  have hpos : (0 : ℚ) < q := by exact_mod_cast hq
  have hratio : (p : ℚ) / q = (p / q : Nat) + (p % q : Nat) / q := by
    rw [eq_comm, ← eq_sub_iff_add_eq', div_eq_iff hpos.ne', sub_mul, div_mul_cancel₀ _ hpos.ne',
      eq_sub_iff_add_eq']
    exact_mod_cast Nat.div_add_mod' p q
  have hmod : ((p % q : Nat) : ℚ) < q := by exact_mod_cast Nat.mod_lt p hq
  have hzero : (0 : ℚ) ≤ (p % q : Nat) / q := by positivity
  have hone : ((p % q : Nat) : ℚ) / q < 1 := (div_lt_one hpos).mpr hmod
  rcases Nat.lt_trichotomy (2 * (p % q)) q with hless | hhalf | hmore
  · have hbelow : ((p % q : Nat) : ℚ) / q < 1 / 2 := by
      rw [div_lt_div_iff₀ hpos two_pos]
      exact_mod_cast (by omega : p % q * 2 < 1 * q)
    have hround : roundRatio p q = p / q := if_pos hless
    rw [hround, hratio, add_sub_cancel_left, abs_of_nonneg hzero]
    exact ⟨hbelow.le, fun heq => absurd heq hbelow.ne⟩
  · have hmiddle : ((p % q : Nat) : ℚ) / q = 1 / 2 := by
      rw [div_eq_div_iff hpos.ne' two_ne_zero]
      exact_mod_cast (by omega : p % q * 2 = 1 * q)
    have hround : roundRatio p q = if p / q % 2 = 0 then p / q else p / q + 1 := by
      rw [roundRatio]
      simp only [hhalf, Nat.lt_irrefl, if_false]
    rw [hround, hratio, hmiddle]
    split
    next heven =>
      rw [add_sub_cancel_left, abs_of_pos one_half_pos]
      exact ⟨le_rfl, fun _ => heven⟩
    next hodd =>
      have hdistance : ((p / q : Nat) : ℚ) + 1 / 2 - (p / q + 1 : Nat) = -(1 / 2) := by
        push_cast
        ring
      rw [hdistance, abs_neg, abs_of_pos one_half_pos]
      exact ⟨le_rfl, fun _ => by omega⟩
  · have habove : 1 / 2 < ((p % q : Nat) : ℚ) / q := by
      rw [div_lt_div_iff₀ two_pos hpos]
      exact_mod_cast (by omega : 1 * q < p % q * 2)
    have hround : roundRatio p q = p / q + 1 := by
      rw [roundRatio]
      simp only [hmore, Nat.lt_asymm hmore, if_true, if_false]
    have hdistance : ((p / q : Nat) : ℚ) + (p % q : Nat) / q - (p / q + 1 : Nat) =
        -(1 - (p % q : Nat) / q) := by
      push_cast
      ring
    rw [hround, hratio, hdistance, abs_neg, abs_of_pos (by linarith)]
    exact ⟨by linarith, fun heq => by linarith⟩

/-- No integer is nearer, and where another is equally near, this one is even. -/
theorem roundRatio_nearest (j : Nat) :
    |(p : ℚ) / q - roundRatio p q| ≤ |(p : ℚ) / q - j| ∧
      (j ≠ roundRatio p q → |(p : ℚ) / q - j| = |(p : ℚ) / q - roundRatio p q| →
        roundRatio p q % 2 = 0) := by
  obtain ⟨hhalf, htie⟩ := abs_sub_roundRatio (p := p) hq
  by_cases hj : j = roundRatio p q
  · exact ⟨by rw [hj], fun hne => absurd hj hne⟩
  · -- Two integers are at least one apart, so the other one is at least one half away.
    have hapart : (1 : ℚ) ≤ |(roundRatio p q : ℚ) - j| := by
      have hne : (roundRatio p q : Int) - j ≠ 0 := by omega
      exact_mod_cast Int.one_le_abs hne
    have htriangle := abs_sub_le (roundRatio p q : ℚ) (p / q) j
    rw [abs_sub_comm (roundRatio p q : ℚ) (p / q)] at htriangle
    exact ⟨by linarith, fun _ heq => htie (by linarith)⟩

/-- Rounding does not pass an integer. -/
theorem le_roundRatio {n : Nat} (h : (n : ℚ) ≤ p / q) : n ≤ roundRatio p q := by
  by_contra hlt
  have hround : (roundRatio p q : ℚ) < n := by exact_mod_cast not_le.mp hlt
  have hnearest := (roundRatio_nearest (p := p) hq n).1
  rw [abs_of_nonneg (by linarith), abs_of_nonneg (by linarith)] at hnearest
  linarith

theorem roundRatio_le {n : Nat} (h : (p : ℚ) / q ≤ n) : roundRatio p q ≤ n := by
  by_contra hlt
  have hround : (n : ℚ) < roundRatio p q := by exact_mod_cast not_le.mp hlt
  have hnearest := (roundRatio_nearest (p := p) hq n).1
  rw [abs_of_nonpos (by linarith), abs_of_nonpos (by linarith)] at hnearest
  linarith

end RoundRatio

/-! ## The exponent of a ratio -/

theorem zpow_eq_div (l : Int) : (2 : ℚ) ^ l = twoTo l.toNat / twoTo (-l).toNat := by
  have hsplit : l = l.toNat - (-l).toNat := by omega
  have hcast : ∀ n, ((twoTo n : Nat) : ℚ) = 2 ^ n := fun n => Nat.cast_pow 2 n
  rw [hcast, hcast, ← zpow_natCast, ← zpow_natCast, ← zpow_sub₀ two_ne_zero, ← hsplit]

theorem zpow_le_div_iff {q : Nat} (hq : 0 < q) (p : Nat) (l : Int) :
    (2 : ℚ) ^ l ≤ p / q ↔ q * twoTo l.toNat ≤ p * twoTo (-l).toNat := by
  have hpos : (0 : ℚ) < q := by exact_mod_cast hq
  have hdown : (0 : ℚ) < twoTo (-l).toNat := by exact_mod_cast twoTo_pos _
  rw [zpow_eq_div, div_le_div_iff₀ hdown hpos, mul_comm (twoTo l.toNat : ℚ)]
  exact_mod_cast Iff.rfl

theorem zpow_log2_le {n : Nat} (h : 0 < n) : (2 : ℚ) ^ (n.log2 : Int) ≤ n := by
  rw [zpow_natCast]
  exact_mod_cast Nat.log2_self_le h.ne'

theorem lt_zpow_log2 (n : Nat) : (n : ℚ) < 2 ^ ((n.log2 : Int) + 1) := by
  rw [← Nat.cast_succ, zpow_natCast]
  exact_mod_cast Nat.lt_log2_self

/-- The exponent is found from the lengths of the two numbers, which leave it open by one. -/
theorem binaryExponent_spec {p q : Nat} (hp : 0 < p) (hq : 0 < q) :
    (2 : ℚ) ^ binaryExponent p q ≤ p / q ∧ (p : ℚ) / q < 2 ^ (binaryExponent p q + 1) := by
  have hpos : (0 : ℚ) < q := by exact_mod_cast hq
  have hlow : (2 : ℚ) ^ ((p.log2 : Int) - q.log2 - 1) ≤ p / q := by
    rw [le_div_iff₀ hpos]
    calc
      (2 : ℚ) ^ ((p.log2 : Int) - q.log2 - 1) * q
      _ ≤ 2 ^ ((p.log2 : Int) - q.log2 - 1) * 2 ^ ((q.log2 : Int) + 1) :=
        mul_le_mul_of_nonneg_left (lt_zpow_log2 q).le (by positivity)
      _ = 2 ^ (p.log2 : Int) := by
        rw [← zpow_add₀ two_ne_zero]
        congr 1
        omega
      _ ≤ p := zpow_log2_le hp
  have hhigh : (p : ℚ) / q < 2 ^ ((p.log2 : Int) - q.log2 + 1) := by
    rw [div_lt_iff₀ hpos]
    calc
      (p : ℚ) < 2 ^ ((p.log2 : Int) + 1) := lt_zpow_log2 p
      _ = 2 ^ ((p.log2 : Int) - q.log2 + 1) * 2 ^ (q.log2 : Int) := by
        rw [← zpow_add₀ two_ne_zero]
        congr 1
        omega
      _ ≤ 2 ^ ((p.log2 : Int) - q.log2 + 1) * q :=
        mul_le_mul_of_nonneg_left (zpow_log2_le hq) (by positivity)
  rw [binaryExponent]
  simp only [← zpow_le_div_iff hq]
  split
  next hguess => exact ⟨hguess, hhigh⟩
  next hguess =>
    rw [Int.sub_add_cancel]
    exact ⟨hlow, not_le.mp hguess⟩

/-! ## The nearest double -/

/-- With a significand that is rounded to an integer in the units of its level, no bits stand for a
nearer number, those behind infinity included. -/
theorem nearest_level {x : ℚ} {k m : Nat} (hk : k = 0 ∨ twoTo 52 ≤ m) (hm : m ≤ 2 * twoTo 52)
    (hx : k = 0 ∨ (twoTo 52 : ℚ) * 2 ^ ((k : Int) - 1074) ≤ x)
    (hnearest : ∀ j : Nat, |x - m * 2 ^ ((k : Int) - 1074)| ≤ |x - j * 2 ^ ((k : Int) - 1074)| ∧
      (j ≠ m → |x - j * 2 ^ ((k : Int) - 1074)| = |x - m * 2 ^ ((k : Int) - 1074)| → m % 2 = 0))
    (other : Nat) :
    |x - number (k * twoTo 52 + m)| ≤ |x - number other| ∧
      (other ≠ k * twoTo 52 + m → |x - number other| = |x - number (k * twoTo 52 + m)| →
        (k * twoTo 52 + m) % 2 = 0) := by
  have hbits := number_level hk hm
  rw [hbits]
  rcases units_or_below k other with ⟨j, hj⟩ | ⟨hpos, hbelow⟩
  · obtain ⟨hle, htie⟩ := hnearest j
    rw [hj]
    refine ⟨hle, fun hne heq => ?_⟩
    have hjm : j ≠ m := by
      rintro rfl
      exact hne (strictMono_number.injective (hj.trans hbits.symm))
    have heven : k * twoTo 52 = 2 * (k * twoTo 51) := by
      rw [twoTo_succ 51]
      ring
    have hm := htie hjm heq
    omega
  · -- The significands of 53 bits lie between the other number and `x`.
    have hx := hx.resolve_left (by omega)
    have hle := (hnearest (twoTo 52)).1
    rw [abs_of_nonneg (sub_nonneg.mpr hx)] at hle
    have hfar : |x - number other| = x - number other := abs_of_nonneg (by linarith)
    rw [hfar]
    exact ⟨by linarith, fun _ heq => by linarith⟩

/-- What lies behind infinity is cut down to infinity. -/
theorem isNearest_min {x : ℚ} {bits : Nat}
    (h : ∀ other, |x - number bits| ≤ |x - number other| ∧
      (other ≠ bits → |x - number other| = |x - number bits| → bits % 2 = 0)) :
    IsNearest x (min bits infinityBits) := by
  rcases Nat.lt_or_ge infinityBits bits with hlt | hle
  · rw [Nat.min_eq_right hlt.le]
    have hnumber := strictMono_number hlt
    have hx : number infinityBits ≤ x := by
      by_contra hless
      have hinfinity := (h infinityBits).1
      rw [abs_of_nonpos (by linarith), abs_of_nonpos (by linarith)] at hinfinity
      linarith
    refine ⟨le_rfl, fun other hother => ?_, fun other hother hne heq => ?_⟩
    · have hmono := strictMono_number.monotone hother
      rw [abs_of_nonneg (by linarith), abs_of_nonneg (by linarith)]
      linarith
    · have hmono := strictMono_number (lt_of_le_of_ne hother hne)
      rw [abs_of_nonneg (by linarith), abs_of_nonneg (by linarith)] at heq
      linarith
  · rw [Nat.min_eq_left hle]
    exact ⟨hle, fun other _ => (h other).1, fun other _ => (h other).2⟩

/-- The ratio in units of a power of two. -/
theorem ratio_div_zpow (p q : Nat) (l : Int) :
    ((p * twoTo (-l).toNat : Nat) : ℚ) / (q * twoTo l.toNat : Nat) = p / q / 2 ^ l := by
  have hdown : ((twoTo (-l).toNat : Nat) : ℚ) ≠ 0 := by exact_mod_cast (twoTo_pos _).ne'
  rw [zpow_eq_div, div_div_eq_mul_div, div_mul_eq_mul_div, div_div]
  push_cast
  rfl

theorem abs_sub_mul_zpow (x y : ℚ) (l : Int) :
    |x - y * 2 ^ l| = |x / 2 ^ l - y| * 2 ^ l := by
  have hunit : (0 : ℚ) < 2 ^ l := by positivity
  have hscale : x - y * 2 ^ l = (x / 2 ^ l - y) * 2 ^ l := by
    rw [sub_mul, div_mul_cancel₀ _ hunit.ne']
  rw [hscale, abs_mul, abs_of_pos hunit]

/-- A ratio is rounded on a level where it has at most 53 bits in front of the point, and fewer on
the least level only. -/
theorem exists_level_bitsOfRatio {p q : Nat} (hp : 0 < p) (hq : 0 < q) :
    ∃ k : Nat, bitsOfRatio p q = min (k * twoTo 52 + roundRatio
        (p * twoTo (-((k : Int) - 1074)).toNat) (q * twoTo ((k : Int) - 1074).toNat))
        infinityBits ∧
      (k = 0 ∨ (twoTo 52 : ℚ) * 2 ^ ((k : Int) - 1074) ≤ p / q) ∧
      (p : ℚ) / q ≤ (2 * twoTo 52 : Nat) * 2 ^ ((k : Int) - 1074) := by
  obtain ⟨hlow, hhigh⟩ := binaryExponent_spec hp hq
  obtain ⟨k, hk⟩ : ∃ k : Nat, (k : Int) - 1074 = max (binaryExponent p q - 52) (-1074) :=
    ⟨(max (binaryExponent p q - 52) (-1074) + 1074).toNat, by omega⟩
  have hlevel : ((k : Int) - 1074 + 1074).toNat = k := by omega
  have htwo : (twoTo 52 : ℚ) = 2 ^ (52 : Int) := by norm_num [twoTo]
  refine ⟨k, ?_, ?_, ?_⟩
  · rw [bitsOfRatio, if_neg hp.ne']
    simp only [← hk, hlevel]
  · rcases Nat.eq_zero_or_pos k with hzero | hpos
    · exact .inl hzero
    · have hexponent : (52 : Int) + (k - 1074) = binaryExponent p q := by omega
      rw [htwo, ← zpow_add₀ two_ne_zero, hexponent]
      exact .inr hlow
  · calc
      (p : ℚ) / q
      _ ≤ 2 ^ (binaryExponent p q + 1) := hhigh.le
      _ ≤ 2 ^ ((52 : Int) + 1 + (k - 1074)) := zpow_le_zpow_right₀ one_le_two (by omega)
      _ = (2 * twoTo 52 : Nat) * 2 ^ ((k : Int) - 1074) := by
        rw [zpow_add₀ two_ne_zero, zpow_add_one₀ two_ne_zero, ← htwo]
        push_cast
        ring

/-- The rounded ratio is the nearest double. -/
theorem isNearest_bitsOfRatio (p : Nat) {q : Nat} (hq : 0 < q) :
    IsNearest ((p : ℚ) / q) (bitsOfRatio p q) := by
  rcases Nat.eq_zero_or_pos p with rfl | hp
  · have hzero : number 0 = 0 := by
      rw [number_of_lt (twoTo_pos 52), Nat.cast_zero, zero_mul]
    refine ⟨Nat.zero_le _, fun other _ => ?_, fun _ _ _ _ => rfl⟩
    rw [bitsOfRatio, if_pos rfl, hzero, Nat.cast_zero, zero_div, sub_zero, abs_zero]
    exact abs_nonneg _
  · obtain ⟨k, hbits, hfull, hbound⟩ := exists_level_bitsOfRatio hp hq
    have hunit : (0 : ℚ) < 2 ^ ((k : Int) - 1074) := by positivity
    have hscaled : 0 < q * twoTo ((k : Int) - 1074).toNat := Nat.mul_pos hq (twoTo_pos _)
    have hratio := ratio_div_zpow p q ((k : Int) - 1074)
    rw [hbits]
    apply isNearest_min
    apply nearest_level
    · apply hfull.imp_right
      intro hle
      apply le_roundRatio hscaled
      rwa [hratio, le_div_iff₀ hunit]
    · apply roundRatio_le hscaled
      rwa [hratio, div_le_iff₀ hunit]
    · exact hfull
    · intro j
      obtain ⟨hle, htie⟩ := @roundRatio_nearest (p * twoTo (-((k : Int) - 1074)).toNat) _ hscaled j
      rw [hratio] at hle htie
      rw [abs_sub_mul_zpow, abs_sub_mul_zpow]
      exact ⟨mul_le_mul_of_nonneg_right hle hunit.le,
        fun hne heq => htie hne (mul_right_cancel₀ hunit.ne' heq)⟩

/-- There is only one nearest double. -/
theorem IsNearest.unique {x : ℚ} {a b : Nat} (ha : IsNearest x a) (hb : IsNearest x b) :
    a = b := by
  wlog hle : a ≤ b generalizing a b
  · exact (this hb ha (Nat.le_of_not_le hle)).symm
  rcases Nat.eq_or_lt_of_le hle with heq | hlt
  · exact heq
  · have heq := le_antisymm (ha.nearest b hb.le_infinity) (hb.nearest a ha.le_infinity)
    have haEven := ha.even_of_tie b hb.le_infinity hlt.ne' heq.symm
    have hbEven := hb.even_of_tie a ha.le_infinity hlt.ne heq
    -- Bits that are both even have odd ones between them, which are nearer.
    have hfirst := strictMono_number (Nat.lt_succ_self a)
    have hsecond : number (a + 1) < number b := strictMono_number (by omega)
    have hbetween := ha.nearest (a + 1) (Nat.le_trans hlt hb.le_infinity)
    rcases abs_eq_abs.mp heq with hsame | hmiddle
    · linarith
    · have hnearer : |x - number (a + 1)| < x - number a :=
        abs_lt.mpr ⟨by linarith, by linarith⟩
      linarith [le_abs_self (x - number a)]

/-! ## Doubles with a sign -/

/-- The double has the sign, and its other bits are the nearest to the number. -/
def RoundsTo (negative : Bool) (x : ℚ) (double : Float) : Prop :=
  ∃ bits, IsNearest x bits ∧
    double = Float.ofBits (UInt64.ofNat ((if negative then twoTo 63 else 0) + bits))

theorem eq_ofRatio_iff (negative : Bool) (p : Nat) {q : Nat} (hq : 0 < q) (double : Float) :
    double = ofRatio negative p q ↔ RoundsTo negative ((p : ℚ) / q) double := by
  constructor
  · rintro rfl
    exact ⟨bitsOfRatio p q, isNearest_bitsOfRatio p hq, rfl⟩
  · rintro ⟨bits, hbits, rfl⟩
    rw [hbits.unique (isNearest_bitsOfRatio p hq)]
    rfl

end SceneScript.Binary64
