import Mathlib.Tactic.Linarith
import Paparazzi.Math.TrigInt

/-!
The order of the angles that `INT32_ATAN2` computes: their quadrants, the symmetry about the first
axis, and that they grow with `y` where `x` is not negative.
-/

namespace Paparazzi.Math.TrigInt

open Paparazzi.Library.Checked32

/-! ### Quotients -/

/-- Truncated quotients are ordered as the fractions are. -/
theorem tdiv_le_tdiv_of_mul_le {a b a' b' : ℤ} (hb : 0 < b) (hb' : 0 < b') (h : a * b' ≤ a' * b) :
    a.tdiv b ≤ a'.tdiv b' := by
  have hnonneg : ∀ {c d c' d' : ℤ}, 0 < d → 0 < d' → 0 ≤ c → c * d' ≤ c' * d →
      c.tdiv d ≤ c'.tdiv d' := by
    intro c d c' d' hd hd' hc hle
    have hc' : 0 ≤ c' := nonneg_of_mul_nonneg_left ((mul_nonneg hc hd'.le).trans hle) hd
    rw [Int.tdiv_eq_ediv_of_nonneg hc, Int.tdiv_eq_ediv_of_nonneg hc', Int.le_ediv_iff_mul_le hd']
    refine le_of_mul_le_mul_right ?_ hd
    calc c / d * d' * d
      _ = c / d * d * d' := mul_right_comm _ _ _
      _ ≤ c * d' := mul_le_mul_of_nonneg_right (Int.ediv_mul_le _ hd.ne') hd'.le
      _ ≤ c' * d := hle
  rcases le_or_gt 0 a with ha | ha
  · exact hnonneg hb hb' ha h
  rcases le_or_gt 0 a' with ha' | ha'
  · have hneg := Int.tdiv_nonneg (neg_nonneg.mpr ha.le) hb.le
    rw [Int.neg_tdiv] at hneg
    exact (neg_nonneg.mp hneg).trans (Int.tdiv_nonneg ha' hb'.le)
  · have hneg : (-a').tdiv b' ≤ (-a).tdiv b := by
      refine hnonneg hb' hb (neg_nonneg.mpr ha'.le) ?_
      rw [neg_mul, neg_mul]
      exact neg_le_neg h
    rw [Int.neg_tdiv, Int.neg_tdiv] at hneg
    exact neg_le_neg_iff.mp hneg

/-- The quotient of `INT32_ATAN2`. -/
def atanRatio (y x : ℤ) : ℤ := (atanNum y x * 2 ^ rFrac).tdiv (atanDen y x)

theorem atanRatio_lt (y x : ℤ) : atanRatio y x < 16384 := by
  have hden := atanDen_pos y x
  have hlt : atanNum y x < atanDen y x := by
    have hy := abs_nonneg y
    rw [atanNum, atanDen]
    split_ifs <;> omega
  rcases le_or_gt 0 (atanNum y x) with hnum | hnum
  · rw [atanRatio, Int.tdiv_eq_ediv_of_nonneg (mul_nonneg hnum (by decide)),
      Int.ediv_lt_iff_lt_mul hden, mul_comm (16384 : ℤ)]
    exact mul_lt_mul_of_pos_right hlt (by decide)
  · have hneg := Int.tdiv_nonneg (a := -(atanNum y x * 2 ^ rFrac)) (b := atanDen y x)
      (by rw [← neg_mul]; exact mul_nonneg (neg_nonneg.mpr hnum.le) (by decide)) hden.le
    rw [Int.neg_tdiv] at hneg
    exact (neg_nonneg.mp hneg).trans_lt (by decide)

/-- With `y` further away the quotient does not grow. -/
theorem atanRatio_anti {x y y' : ℤ} (hx : 0 ≤ x) (h : |y| ≤ |y'|) :
    atanRatio y' x ≤ atanRatio y x := by
  apply tdiv_le_tdiv_of_mul_le (atanDen_pos y' x) (atanDen_pos y x)
  rw [mul_right_comm, mul_right_comm (atanNum y x)]
  refine mul_le_mul_of_nonneg_right ?_ (by decide)
  rw [atanNum, atanNum, atanDen, atanDen, if_pos hx, if_pos hx, if_pos hx, if_pos hx]
  have hgap := mul_nonneg hx (sub_nonneg.mpr h)
  linarith

/-! ### Angles -/

theorem bearing_eq (y x : ℤ) : bearing y x =
    if y < 0 then -((if 0 ≤ x then 3216 else 9648) - 3216 * atanRatio y x / 16384)
    else (if 0 ≤ x then 3216 else 9648) - 3216 * atanRatio y x / 16384 := by
  rw [bearing]
  simp only [Int.shiftRight_eq_div_pow]
  rfl

theorem bearing_neg {y : ℤ} (hy : y ≠ 0) (x : ℤ) : bearing (-y) x = -bearing y x := by
  have hratio : atanRatio (-y) x = atanRatio y x := by
    rw [atanRatio, atanRatio, atanNum, atanNum, atanDen, atanDen, abs_neg]
  rw [bearing_eq, bearing_eq, hratio]
  split_ifs <;> omega

/-- The angle lies in the quadrant that the signs of the arguments give. -/
def InQuadrant (y x a : ℤ) : Prop :=
  if 0 ≤ y then
    if 0 ≤ x then 0 ≤ a ∧ a ≤ int32AnglePi2 else int32AnglePi2 ≤ a ∧ a ≤ int32AnglePi
  else if 0 ≤ x then -int32AnglePi2 ≤ a ∧ a ≤ 0
  else -int32AnglePi ≤ a ∧ a ≤ -int32AnglePi2

theorem inQuadrant_bearing (y x : ℤ) : InQuadrant y x (bearing y x) := by
  have hlt := atanRatio_lt y x
  have hle := (abs_le.mp (abs_atanRatio_le y x)).1
  rw [← atanRatio] at hle
  rw [InQuadrant, bearing_eq]
  change if 0 ≤ y then if 0 ≤ x then 0 ≤ _ ∧ _ ≤ 6433 else 6433 ≤ _ ∧ _ ≤ 12867
    else if 0 ≤ x then -6433 ≤ _ ∧ _ ≤ 0 else -12867 ≤ _ ∧ _ ≤ -6433
  split_ifs <;> omega

theorem bearing_mono {x y y' : ℤ} (hx : 0 ≤ x) (h : y ≤ y') : bearing y x ≤ bearing y' x := by
  have hmem := inQuadrant_bearing y x
  have hmem' := inQuadrant_bearing y' x
  rw [InQuadrant, if_pos hx, if_pos hx] at hmem hmem'
  rcases lt_or_ge y 0 with hy | hy
  · rcases lt_or_ge y' 0 with hy' | hy'
    · have hratio : atanRatio y x ≤ atanRatio y' x := by
        apply atanRatio_anti hx
        rw [abs_of_neg hy, abs_of_neg hy']
        exact neg_le_neg h
      rw [bearing_eq, bearing_eq, if_pos hy, if_pos hy', if_pos hx]
      omega
    · rw [if_neg hy.not_ge] at hmem
      rw [if_pos hy'] at hmem'
      exact hmem.2.trans hmem'.1
  · have hy' := hy.trans h
    have hratio : atanRatio y' x ≤ atanRatio y x := by
      apply atanRatio_anti hx
      rwa [abs_of_nonneg hy, abs_of_nonneg hy']
    rw [bearing_eq, bearing_eq, if_neg hy.not_gt, if_neg hy'.not_gt, if_pos hx]
    omega

/-! ### What is asked -/

/-- An angle is computed that lies between `-INT32_ANGLE_PI` and `INT32_ANGLE_PI` and in the
quadrant of the point; it is odd in `y`, and where `x` is not negative it grows with `y`. -/
def AtanRight (y x : ℤ) : Prop :=
  ∃ a, int32Atan2 y x = some a ∧ |a| ≤ int32AnglePi ∧ InQuadrant y x a ∧
    (y ≠ 0 → int32Atan2 (-y) x = some (-a)) ∧
    (0 ≤ x → ∀ y' a', y ≤ y' → int32Atan2 y' x = some a' → a ≤ a')

theorem atanFits_of_lt {y x : ℤ} (hy : |y| < 2 ^ 16) (hx : |x| < 2 ^ 16) : AtanFits y x := by
  have habs := abs_nonneg y
  rw [abs_lt (a := x)] at hx
  rw [AtanFits, ShiftFits, Fits, atanNum, atanDen]
  split_ifs <;> omega

theorem atanFits_neg (y x : ℤ) : AtanFits (-y) x ↔ AtanFits y x := by
  rw [AtanFits, AtanFits, ShiftFits, ShiftFits, atanNum, atanNum, atanDen, atanDen, abs_neg]

/-- Below `2 ^ 16` all is right; beyond, it is so for just the points where the shifted numerator
and the denominator fit. -/
theorem atanRight_iff (y x : ℤ) :
    (|y| < 2 ^ 16 → |x| < 2 ^ 16 → AtanRight y x) ∧ (AtanRight y x ↔ AtanFits y x) := by
  have hiff : AtanRight y x ↔ AtanFits y x := by
    constructor
    · rintro ⟨a, ha, -⟩
      rw [int32Atan2_eq, Option.ite_none_right_eq_some] at ha
      exact ha.1
    · intro h
      refine ⟨bearing y x, ?_, (abs_bearing_le y x).trans (by decide), inQuadrant_bearing y x,
        fun hy => ?_, fun hx y' a' hle ha' => ?_⟩
      · rw [int32Atan2_eq, if_pos h]
      · rw [int32Atan2_eq, if_pos ((atanFits_neg y x).mpr h), bearing_neg hy]
      · rw [int32Atan2_eq, Option.ite_none_right_eq_some] at ha'
        rw [← Option.some.inj ha'.2]
        exact bearing_mono hx hle
  exact ⟨fun hy hx => hiff.mpr (atanFits_of_lt hy hx), hiff⟩

/-- A position 600 m to the east of the centre. -/
theorem not_atanRight_far : ¬AtanRight 0 153600 := by
  rintro ⟨a, ha, -⟩
  rw [int32Atan2_eq, if_neg (by decide)] at ha
  cases ha

end Paparazzi.Math.TrigInt
