import Mathlib.Analysis.Calculus.Deriv.MeanValue
import Mathlib.Analysis.SpecialFunctions.Complex.Arg
import Mathlib.Analysis.SpecialFunctions.Trigonometric.ArctanDeriv
import Paparazzi.Math.TrigInt

/-!
How far the bearing of `INT32_ATAN2` is from the direction of the point: its quotient stands for an
arctangent.
-/

namespace Paparazzi.Math.TrigInt

open Paparazzi.Library.Checked32
open Real

/-! ### The arctangent between two polynomials -/

theorem arctan_le_poly {r : ℝ} (hr : 0 ≤ r) : arctan r ≤ r - r ^ 3 / 3 + r ^ 5 / 5 := by
  have hderiv : ∀ x : ℝ, HasDerivAt (fun x => x - x ^ 3 / 3 + x ^ 5 / 5 - arctan x)
      (x ^ 6 / (1 + x ^ 2)) x := by
    intro x
    have hpos : (0 : ℝ) < 1 + x ^ 2 := by positivity
    have hall := ((((hasDerivAt_id' x).sub ((hasDerivAt_pow 3 x).div_const 3)).add
      ((hasDerivAt_pow 5 x).div_const 5)).sub (hasDerivAt_arctan x))
    refine hall.congr_deriv ?_
    field_simp
    ring
  have hmono := monotone_of_deriv_nonneg (fun x => (hderiv x).differentiableAt) fun x => by
    rw [(hderiv x).deriv]
    positivity
  have hle := hmono hr
  simp only [arctan_zero] at hle
  linarith

theorem poly_le_arctan {r : ℝ} (hr : 0 ≤ r) :
    r - r ^ 3 / 3 + r ^ 5 / 5 - r ^ 7 / 7 ≤ arctan r := by
  have hderiv : ∀ x : ℝ, HasDerivAt (fun x => arctan x - (x - x ^ 3 / 3 + x ^ 5 / 5 - x ^ 7 / 7))
      (x ^ 8 / (1 + x ^ 2)) x := by
    intro x
    have hpos : (0 : ℝ) < 1 + x ^ 2 := by positivity
    have hall := (hasDerivAt_arctan x).sub ((((hasDerivAt_id' x).sub
      ((hasDerivAt_pow 3 x).div_const 3)).add ((hasDerivAt_pow 5 x).div_const 5)).sub
        ((hasDerivAt_pow 7 x).div_const 7))
    refine hall.congr_deriv ?_
    field_simp
    ring
  have hmono := monotone_of_deriv_nonneg (fun x => (hderiv x).differentiableAt) fun x => by
    rw [(hderiv x).deriv]
    positivity
  have hle := hmono hr
  simp only [arctan_zero] at hle
  linarith

/-- On a quarter of a turn the arctangent is close to a straight line. -/
theorem abs_arctan_sub_le_of_nonneg {r : ℝ} (hpos : 0 ≤ r) (hle : r ≤ 1) :
    |arctan r - π / 4 * r| ≤ 0.084 := by
  have hupper := arctan_le_poly hpos
  have hlower := poly_le_arctan hpos
  have hpi := mul_nonneg hpos (sub_nonneg.mpr pi_gt_d4.le)
  have hpi' := mul_nonneg hpos (sub_nonneg.mpr pi_lt_d4.le)
  have hrest := sub_nonneg.mpr hle
  rw [abs_le]
  constructor
  · have hpow : r ^ 7 ≤ r ^ 5 := pow_le_pow_of_le_one hpos hle (by decide)
    have hfactor : 0 ≤ (1 - r) * (0.0616 + 0.16 * (r + r ^ 2)) := by positivity
    nlinarith [mul_nonneg hrest (mul_nonneg (sq_nonneg r) hrest), pow_nonneg hpos 3,
      mul_nonneg hrest (mul_nonneg (sq_nonneg r) (mul_nonneg hrest (by linarith : 0 ≤ 1 + r)))]
  · nlinarith [mul_nonneg hrest (sq_nonneg (r ^ 2 + r / 2 - 1 / 2)),
      mul_nonneg hrest (sq_nonneg (r - 1))]

theorem abs_arctan_sub_le {r : ℝ} (hr : |r| ≤ 1) : |arctan r - π / 4 * r| ≤ 0.084 := by
  rcases le_total 0 r with hsign | hsign
  · exact abs_arctan_sub_le_of_nonneg hsign (abs_le.mp hr).2
  · have hneg := abs_arctan_sub_le_of_nonneg (neg_nonneg.mpr hsign) (by linarith [(abs_le.mp hr).1])
    rw [arctan_neg, mul_neg, ← neg_add', abs_neg] at hneg
    rwa [sub_eq_add_neg]

/-! ### The direction of a point -/

/-- The quotient of a point is the tangent of what its direction lacks of the middle. -/
theorem arctan_quotient {ρ θ : ℝ} (hρ : ρ ≠ 0) (hlow : -(π / 4) < θ) (hhigh : θ < 3 * (π / 4)) :
    arctan ((ρ * cos θ - ρ * sin θ) / (ρ * cos θ + ρ * sin θ)) = π / 4 - θ := by
  rw [← arctan_tan (x := π / 4 - θ) (by linarith) (by linarith), tan_eq_sin_div_cos, sin_sub,
    cos_sub, sin_pi_div_four, cos_pi_div_four, ← mul_sub, ← mul_add, ← mul_sub, ← mul_add,
    mul_div_mul_left _ _ hρ, mul_div_mul_left _ _ (by positivity)]

section

variable {x y : ℝ}

theorem norm_ne_zero_of_im_pos (x : ℝ) (hy : 0 < y) : ‖(⟨x, y⟩ : ℂ)‖ ≠ 0 := by
  intro h
  have him : ‖(⟨x, y⟩ : ℂ)‖ * sin (Complex.arg ⟨x, y⟩) = y := Complex.norm_mul_sin_arg ⟨x, y⟩
  rw [h, zero_mul] at him
  exact hy.ne him

theorem arctan_quotient_of_re_nonneg (hx : 0 ≤ x) (hy : 0 < y) :
    arctan ((x - y) / (x + y)) = π / 4 - Complex.arg ⟨x, y⟩ := by
  have hlow : 0 ≤ Complex.arg ⟨x, y⟩ := Complex.arg_nonneg_iff.mpr hy.le
  have hhigh := (abs_le.mp (Complex.abs_arg_le_pi_div_two_iff.mpr
    (show 0 ≤ (⟨x, y⟩ : ℂ).re from hx))).2
  have hpi := pi_pos
  have hquotient := arctan_quotient (θ := Complex.arg ⟨x, y⟩) (norm_ne_zero_of_im_pos x hy)
    (by linarith) (by linarith)
  rwa [Complex.norm_mul_cos_arg ⟨x, y⟩, Complex.norm_mul_sin_arg ⟨x, y⟩] at hquotient

theorem arctan_quotient_of_re_neg (hx : x < 0) (hy : 0 < y) :
    arctan ((x + y) / (y - x)) = 3 * (π / 4) - Complex.arg ⟨x, y⟩ := by
  have hlow : 0 ≤ Complex.arg ⟨x, y⟩ := Complex.arg_nonneg_iff.mpr hy.le
  have hpast : ¬|Complex.arg ⟨x, y⟩| ≤ π / 2 := fun h =>
    hx.not_ge (Complex.abs_arg_le_pi_div_two_iff.mp h)
  rw [abs_of_nonneg hlow, not_le] at hpast
  have hhigh := Complex.arg_le_pi ⟨x, y⟩
  have hpi := pi_pos
  -- a quarter of a turn back
  have hquotient := arctan_quotient (θ := Complex.arg ⟨x, y⟩ - π / 2) (norm_ne_zero_of_im_pos x hy)
    (by linarith) (by linarith)
  rw [cos_sub_pi_div_two, sin_sub_pi_div_two, mul_neg, Complex.norm_mul_cos_arg ⟨x, y⟩,
    Complex.norm_mul_sin_arg ⟨x, y⟩, sub_neg_eq_add, ← sub_eq_add_neg] at hquotient
  rw [add_comm, hquotient]
  ring

end

/-! ### The bearing -/

/-- An eighth of a turn is a little more than its fixed-point number. -/
theorem eighth_mem : 0 ≤ π / 4 - 3216 / 4096 ∧ π / 4 - 3216 / 4096 ≤ 0.00025 := by
  have hlow := pi_gt_d4
  have hhigh := pi_lt_d4
  constructor <;> linarith

/-- A branch of the bearing, around an odd multiple of an eighth of a turn. -/
theorem abs_around_sub_le {num den c : ℤ} {k : ℝ} (hden : 0 < den) (hnum : |num| ≤ den)
    (hc : (c : ℝ) = k * 3216) (hk : 0 ≤ k) (hk' : k ≤ 3) :
    |radians (c - (int32AnglePi4 * (num * 2 ^ rFrac).tdiv den) >>> rFrac) -
      (k * (π / 4) - arctan (num / den))| ≤ 1 / 11 := by
  have hden' : (0 : ℝ) < den := by exact_mod_cast hden
  have hratio : |(num : ℝ) / den| ≤ 1 := by
    rw [abs_div, abs_of_pos hden']
    exact div_le_one_of_le₀ (by exact_mod_cast hnum) hden'.le
  have hatan := abs_le.mp (abs_arctan_sub_le hratio)
  have hquot : |(((num * 2 ^ rFrac).tdiv den : ℤ) : ℝ) - 2 ^ 14 * ((num : ℝ) / den)| ≤ 1 := by
    have hint : |den * (num * 2 ^ rFrac).tdiv den - num * 2 ^ 14| ≤ den :=
      (abs_mul_tdiv_sub_lt hden).le
    have hreal : |(den : ℝ) * ((num * 2 ^ rFrac).tdiv den : ℤ) - num * 2 ^ 14| ≤ (den : ℝ) := by
      exact_mod_cast hint
    have hfactor : (((num * 2 ^ rFrac).tdiv den : ℤ) : ℝ) - 2 ^ 14 * ((num : ℝ) / den) =
        ((den : ℝ) * ((num * 2 ^ rFrac).tdiv den : ℤ) - num * 2 ^ 14) / den := by
      field_simp
    rw [hfactor, abs_div, abs_of_pos hden']
    exact div_le_one_of_le₀ hreal hden'.le
  generalize (num * 2 ^ rFrac).tdiv den = q at hquot ⊢
  generalize (num : ℝ) / den = r at hratio hatan hquot ⊢
  have hshift : (int32AnglePi4 * q) >>> rFrac = 3216 * q / 2 ^ 14 := Int.shiftRight_eq_div_pow _ _
  have hlow : ((3216 * q / 2 ^ 14 : ℤ) : ℝ) * 2 ^ 14 ≤ 3216 * q := by
    exact_mod_cast Int.ediv_mul_le (3216 * q) (show (2 ^ 14 : ℤ) ≠ 0 by decide)
  have hhigh : 3216 * (q : ℝ) < (((3216 * q / 2 ^ 14 : ℤ) : ℝ) + 1) * 2 ^ 14 := by
    exact_mod_cast Int.lt_ediv_add_one_mul_self (3216 * q) (show (0 : ℤ) < 2 ^ 14 by decide)
  obtain ⟨hpos, hle⟩ := eighth_mem
  have hscale : |(π / 4 - 3216 / 4096) * r| ≤ 0.00025 := by
    rw [abs_mul, abs_of_nonneg hpos]
    exact (mul_le_of_le_one_right hpos hratio).trans hle
  have hmiddle : 0 ≤ k * (π / 4 - 3216 / 4096) := mul_nonneg hk hpos
  have hmiddle' : k * (π / 4 - 3216 / 4096) ≤ 3 * 0.00025 :=
    mul_le_mul hk' hle hpos (by norm_num)
  rw [abs_le] at hscale hquot
  rw [hshift, radians, Int.cast_sub, hc, abs_le]
  constructor <;> linarith

/-- The bearing is within 5.3 degrees of the direction of the point, which `INT32_ATAN2` moves by
one unit off the axis. -/
theorem abs_radians_bearing_sub_le (y x : ℤ) :
    |radians (bearing y x) - Complex.arg ⟨x, if y < 0 then (y : ℝ) - 1 else y + 1⟩| ≤ 1 / 11 := by
  have hden := atanDen_pos y x
  have hnum := abs_atanNum_le y x
  have hy : (0 : ℝ) < (|y| + 1 : ℤ) := by exact_mod_cast Int.lt_add_one_of_le (abs_nonneg y)
  -- the point above the axis
  have habove : |radians ((if 0 ≤ x then int32AnglePi4 else 3 * int32AnglePi4) -
      (int32AnglePi4 * (atanNum y x * 2 ^ rFrac).tdiv (atanDen y x)) >>> rFrac) -
        Complex.arg ⟨x, (|y| + 1 : ℤ)⟩| ≤ 1 / 11 := by
    rcases le_or_gt 0 x with hsign | hsign
    · have harctan := arctan_quotient_of_re_nonneg (show (0 : ℝ) ≤ x by exact_mod_cast hsign) hy
      have haround := @abs_around_sub_le _ _ int32AnglePi4 1 hden hnum (by norm_num [int32AnglePi4])
        (by norm_num) (by norm_num)
      have hcast : ((atanNum y x : ℤ) : ℝ) / (atanDen y x : ℤ) =
          (x - (|y| + 1 : ℤ)) / (x + (|y| + 1 : ℤ)) := by
        rw [atanNum, atanDen, if_pos hsign, if_pos hsign, Int.cast_sub, Int.cast_add x]
      rw [hcast, harctan, one_mul, sub_sub_cancel] at haround
      rwa [if_pos hsign]
    · have harctan := arctan_quotient_of_re_neg (show (x : ℝ) < 0 by exact_mod_cast hsign) hy
      have haround := @abs_around_sub_le _ _ (3 * int32AnglePi4) 3 hden hnum
        (by norm_num [int32AnglePi4]) (by norm_num) (by norm_num)
      have hcast : ((atanNum y x : ℤ) : ℝ) / (atanDen y x : ℤ) =
          (x + (|y| + 1 : ℤ)) / ((|y| + 1 : ℤ) - x) := by
        rw [atanNum, atanDen, if_neg hsign.not_ge, if_neg hsign.not_ge, Int.cast_add x,
          Int.cast_sub]
      rw [hcast, harctan, sub_sub_cancel] at haround
      rwa [if_neg hsign.not_ge]
  rw [bearing]
  rcases le_or_gt 0 y with hside | hside
  · have habs : (((|y| + 1 : ℤ) : ℝ)) = y + 1 := by
      rw [abs_of_nonneg hside, Int.cast_add, Int.cast_one]
    rw [habs] at habove
    rwa [if_neg hside.not_gt, if_neg hside.not_gt]
  · have habs : (((|y| + 1 : ℤ) : ℝ)) = -(y - 1) := by
      rw [abs_of_neg hside, Int.cast_add, Int.cast_neg, Int.cast_one]
      ring
    have hbelow : Complex.arg ⟨x, (y : ℝ) - 1⟩ = -Complex.arg ⟨x, (|y| + 1 : ℤ)⟩ := by
      have hconj : (⟨x, (y : ℝ) - 1⟩ : ℂ) = (starRingEnd ℂ) ⟨x, (|y| + 1 : ℤ)⟩ := by
        rw [habs]
        exact Complex.ext rfl (neg_neg _).symm
      have hne : Complex.arg ⟨x, (|y| + 1 : ℤ)⟩ ≠ π := fun h =>
        hy.ne' (Complex.arg_eq_pi_iff.mp h).2
      rw [hconj, Complex.arg_conj, if_neg hne]
    rw [if_pos hside, if_pos hside, hbelow, radians_neg, sub_neg_eq_add, neg_add_eq_sub,
      abs_sub_comm]
    exact habove

end Paparazzi.Math.TrigInt
