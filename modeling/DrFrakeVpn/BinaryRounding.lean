import Mathlib

/-! # Rounding to a number of binary digits

A rational is rounded to `p` significant binary digits, to the nearest and on a tie to the even
neighbour. The exponent is not bounded: this is a binary format as long as no result leaves its
normal range. -/
namespace BinaryRounding

variable {p : ℕ} {x y z : ℚ}

def nearestInt (x : ℚ) : ℤ :=
  if x - ⌊x⌋ < 1 / 2 ∨ x - ⌊x⌋ = 1 / 2 ∧ ⌊x⌋ % 2 = 0 then ⌊x⌋ else ⌊x⌋ + 1

theorem abs_nearestInt_sub_le : |(nearestInt x : ℚ) - x| ≤ 1 / 2 := by
  have hlow := Int.floor_le x
  have hhigh := Int.lt_floor_add_one x
  unfold nearestInt
  split
  · next h =>
    have hhalf : x - ⌊x⌋ ≤ 1 / 2 := by
      rcases h with h | h
      · exact h.le
      · exact h.1.le
    rw [abs_le]
    constructor <;> linarith
  · next h =>
    have hhalf : 1 / 2 ≤ x - ⌊x⌋ := by
      by_contra hlt
      exact h (.inl (not_le.mp hlt))
    rw [abs_le]
    push_cast
    constructor <;> linarith

/-- The distance of neighbours among the numbers of the magnitude of `x`. -/
def ulp (p : ℕ) (x : ℚ) : ℚ := 2 ^ (Int.log 2 x + 1 - p)

def round (p : ℕ) (x : ℚ) : ℚ := nearestInt (x / ulp p x) * ulp p x

/-- Up to a relative error of `ε`. -/
structure Near (ε x y : ℚ) : Prop where
  lower : (1 - ε) * x ≤ y
  upper : y ≤ (1 + ε) * x

/-- The relative error of one rounding. -/
def unit (p : ℕ) : ℚ := (2 ^ p)⁻¹

theorem round_near (hx : 0 ≤ x) : Near (unit p) x (round p x) := by
  rcases hx.eq_or_lt with rfl | hpos
  · have hzero : nearestInt 0 = 0 := by simp [nearestInt]
    constructor <;> simp [round, hzero]
  have hulp : 0 < ulp p x := zpow_pos two_pos _
  have hbinade : ulp p x ≤ 2 * unit p * x := by
    have hlog := Int.zpow_log_le_self one_lt_two hpos
    have hsplit : ulp p x = 2 * unit p * 2 ^ Int.log 2 x := by
      rw [ulp, zpow_sub₀ two_ne_zero, zpow_add_one₀ two_ne_zero, zpow_natCast, unit]
      ring
    rw [hsplit]
    have hunit : 0 ≤ 2 * unit p := by
      unfold unit
      positivity
    exact mul_le_mul_of_nonneg_left (by exact_mod_cast hlog) hunit
  have herror : |round p x - x| ≤ unit p * x := by
    have hscaled : round p x - x = (nearestInt (x / ulp p x) - x / ulp p x) * ulp p x := by
      rw [round, sub_mul, div_mul_cancel₀ x hulp.ne']
    rw [hscaled, abs_mul, abs_of_pos hulp]
    calc |(nearestInt (x / ulp p x) : ℚ) - x / ulp p x| * ulp p x ≤ 1 / 2 * ulp p x :=
          mul_le_mul_of_nonneg_right abs_nearestInt_sub_le hulp.le
      _ ≤ unit p * x := by linarith
  obtain ⟨hlow, hhigh⟩ := abs_le.mp herror
  constructor <;> linarith

section Errors

variable {a b c x' y' : ℚ}

theorem Near.nonneg (h : Near a x y) (hx : 0 ≤ x) (ha : a ≤ 1) : 0 ≤ y :=
  (mul_nonneg (sub_nonneg.mpr ha) hx).trans h.lower

/-- Errors of `a` and `b` one after the other come to at most `c`. -/
structure Compound (a b c : ℚ) : Prop where
  left : 0 ≤ a ∧ a ≤ 1
  right : 0 ≤ b ∧ b ≤ 1
  lower : 1 - c ≤ (1 - a) * (1 - b)
  upper : (1 + a) * (1 + b) ≤ 1 + c

theorem Near.mul (h : Near a x y) (h' : Near b x' y') (hx : 0 ≤ x) (hx' : 0 ≤ x')
    (hc : Compound a b c) : Near c (x * x') (y * y') := by
  have hxx := mul_nonneg hx hx'
  have hy := h.nonneg hx hc.left.2
  constructor
  · calc (1 - c) * (x * x') ≤ (1 - a) * (1 - b) * (x * x') :=
          mul_le_mul_of_nonneg_right hc.lower hxx
      _ = (1 - a) * x * ((1 - b) * x') := by ring
      _ ≤ y * y' := mul_le_mul h.lower h'.lower
          (mul_nonneg (sub_nonneg.mpr hc.right.2) hx') hy
  · calc y * y' ≤ (1 + a) * x * ((1 + b) * x') :=
          mul_le_mul h.upper h'.upper (h'.nonneg hx' hc.right.2) (hy.trans h.upper)
      _ = (1 + a) * (1 + b) * (x * x') := by ring
      _ ≤ (1 + c) * (x * x') := mul_le_mul_of_nonneg_right hc.upper hxx

theorem Near.trans (h : Near a x y) (h' : Near b y z) (hx : 0 ≤ x) (hc : Compound a b c) :
    Near c x z := by
  constructor
  · calc (1 - c) * x ≤ (1 - a) * (1 - b) * x := mul_le_mul_of_nonneg_right hc.lower hx
      _ = (1 - b) * ((1 - a) * x) := by ring
      _ ≤ (1 - b) * y := mul_le_mul_of_nonneg_left h.lower (sub_nonneg.mpr hc.right.2)
      _ ≤ z := h'.lower
  · calc z ≤ (1 + b) * y := h'.upper
      _ ≤ (1 + b) * ((1 + a) * x) :=
          mul_le_mul_of_nonneg_left h.upper (by linarith [hc.right.1])
      _ = (1 + a) * (1 + b) * x := by ring
      _ ≤ (1 + c) * x := mul_le_mul_of_nonneg_right hc.upper hx

theorem Near.inv (h : Near a x y) (hx : 0 < x) (ha : 0 ≤ a ∧ a < 1)
    (hb : 1 ≤ (1 + b) * (1 - a)) (hb' : (1 - b) * (1 + a) ≤ 1) (hb1 : b ≤ 1) : Near b x⁻¹ y⁻¹ := by
  have hlow : 0 < (1 - a) * x := mul_pos (sub_pos.mpr ha.2) hx
  have hy : 0 < y := hlow.trans_le h.lower
  constructor
  · rw [← div_eq_mul_inv, ← one_div, div_le_div_iff₀ hx hy]
    calc (1 - b) * y ≤ (1 - b) * ((1 + a) * x) :=
          mul_le_mul_of_nonneg_left h.upper (sub_nonneg.mpr hb1)
      _ = (1 - b) * (1 + a) * x := by ring
      _ ≤ 1 * x := mul_le_mul_of_nonneg_right hb' hx.le
  · rw [← div_eq_mul_inv, ← one_div, div_le_div_iff₀ hy hx]
    have hone : 0 ≤ 1 + b := by
      by_contra hneg
      have hle : (1 + b) * (1 - a) ≤ 0 :=
        mul_nonpos_of_nonpos_of_nonneg (not_le.mp hneg).le (sub_pos.mpr ha.2).le
      linarith
    calc 1 * x ≤ (1 + b) * (1 - a) * x := mul_le_mul_of_nonneg_right hb hx.le
      _ = (1 + b) * ((1 - a) * x) := by ring
      _ ≤ (1 + b) * y := mul_le_mul_of_nonneg_left h.lower hone

/-- An exact summand adds no error. -/
theorem Near.add_left (h : Near a x y) (hz : 0 ≤ z) (ha : 0 ≤ a) : Near a (z + x) (z + y) := by
  have hza := mul_nonneg ha hz
  obtain ⟨hlow, hhigh⟩ := h
  constructor <;> linarith

end Errors

end BinaryRounding
