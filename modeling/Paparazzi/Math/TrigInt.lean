import Mathlib
import Paparazzi.Library.Checked
import Paparazzi.Library.Numerals

/-!
Fixed-point angles of `pprz_algebra_int.h` and the sine of `pprz_trig_int.h`: angles have 12
fractional bits, sines and cosines 14.
-/

namespace Paparazzi.Math.TrigInt

open Paparazzi.Library.Checked32
open Real

attribute [local instance] Library.Numerals.atLeastTwo_two

/-! ### Angles -/

def int32AnglePi4 : ℤ := 3216
def int32AnglePi2 : ℤ := 6433
def int32AnglePi : ℤ := 12867
def int32Angle2Pi : ℤ := 25735

/-- `while (_a > INT32_ANGLE_PI) _a -= INT32_ANGLE_2_PI`, for a number of turns. -/
def turnDown : ℕ → ℤ → ℤ
  | 0, a => a
  | n + 1, a => if a > int32AnglePi then turnDown n (a - int32Angle2Pi) else a

/-- `while (_a < -INT32_ANGLE_PI) _a += INT32_ANGLE_2_PI`, for a number of turns. -/
def turnUp : ℕ → ℤ → ℤ
  | 0, a => a
  | n + 1, a => if a < -int32AnglePi then turnUp n (a + int32Angle2Pi) else a

def int32AngleNormalize (a : ℤ) : ℤ := turnUp a.natAbs (turnDown a.natAbs a)

theorem turnDown_eq {n : ℕ} {a : ℤ} (h : a ≤ 12867 + 25735 * n) :
    turnDown n a = if a ≤ 12867 then a else Int.bmod a 25735 := by
  induction n generalizing a with
  | zero => exact (if_pos (by omega)).symm
  | succ n ih =>
      change (if a > 12867 then turnDown n (a - 25735) else a) = _
      have hbmod : (a - 25735).bmod 25735 = a.bmod 25735 := Int.sub_bmod_right a 25735
      split_ifs with hturn hle
      · omega
      · rw [ih (by omega), hbmod]
        split_ifs with hless
        · rw [← hbmod, Int.bmod_def]
          omega
        · rfl
      · rfl
      · omega

theorem turnUp_eq {n : ℕ} {a : ℤ} (h : -12867 - 25735 * n ≤ a) :
    turnUp n a = if -12867 ≤ a then a else Int.bmod a 25735 := by
  induction n generalizing a with
  | zero => exact (if_pos (by omega)).symm
  | succ n ih =>
      change (if a < -12867 then turnUp n (a + 25735) else a) = _
      have hbmod : (a + 25735).bmod 25735 = a.bmod 25735 := Int.add_bmod_right a 25735
      split_ifs with hturn hle
      · omega
      · rw [ih (by omega), hbmod]
        split_ifs with hless
        · rw [← hbmod, Int.bmod_def]
          omega
        · rfl
      · rfl
      · omega

/-- The normalised angle is the residue around 0. -/
theorem int32AngleNormalize_eq (a : ℤ) : int32AngleNormalize a = a.bmod 25735 := by
  rw [int32AngleNormalize, turnDown_eq (by omega)]
  split_ifs with hle
  · rw [turnUp_eq (by omega)]
    split_ifs with hle'
    · rw [Int.bmod_def]
      omega
    · rfl
  · have hmem : -12867 ≤ a.bmod 25735 := by
      rw [Int.bmod_def]
      omega
    rw [turnUp_eq (by omega), if_pos hmem]

/-! ### The arctangent -/

def rFrac : ℕ := 14

/-- A branch of `INT32_ATAN2`: a quotient between -1 and 1, and the angle around `c`. -/
def atanAround (c num den : ℤ) : Option ℤ := do
  let shifted ← check (num * 2 ^ rFrac)
  let r ← div shifted den
  let p ← check (int32AnglePi4 * r)
  check (c - p >>> rFrac)

def int32Atan2 (y x : ℤ) : Option ℤ := do
  let c1 := int32AnglePi4
  let c2 := 3 * int32AnglePi4
  let absY ← check |y|
  let absY ← check (absY + 1)
  let a ←
    if 0 ≤ x then do atanAround c1 (← check (x - absY)) (← check (x + absY))
    else do atanAround c2 (← check (x + absY)) (← check (absY - x))
  if y < 0 then check (-a) else some a

/-- The numerator of the quotient. -/
def atanNum (y x : ℤ) : ℤ := if 0 ≤ x then x - (|y| + 1) else x + (|y| + 1)

def atanDen (y x : ℤ) : ℤ := if 0 ≤ x then x + (|y| + 1) else |y| + 1 - x

/-- What `INT32_ATAN2` computes, where nothing overflows. -/
def bearing (y x : ℤ) : ℤ :=
  let r := (atanNum y x * 2 ^ rFrac).tdiv (atanDen y x)
  let a := (if 0 ≤ x then int32AnglePi4 else 3 * int32AnglePi4) - (int32AnglePi4 * r) >>> rFrac
  if y < 0 then -a else a

/-- The shifted numerator fits. -/
def ShiftFits (y x : ℤ) : Prop := -2 ^ 17 ≤ atanNum y x ∧ atanNum y x < 2 ^ 17

instance (y x : ℤ) : Decidable (ShiftFits y x) := inferInstanceAs (Decidable (_ ∧ _))

/-- The shifted numerator and the denominator fit. -/
def AtanFits (y x : ℤ) : Prop := ShiftFits y x ∧ Fits (atanDen y x)

instance (y x : ℤ) : Decidable (AtanFits y x) := inferInstanceAs (Decidable (_ ∧ _))

theorem atanDen_pos (y x : ℤ) : 0 < atanDen y x := by
  have hy := abs_nonneg y
  rw [atanDen]
  split_ifs <;> omega

theorem abs_atanNum_le (y x : ℤ) : |atanNum y x| ≤ atanDen y x := by
  have hy := abs_nonneg y
  rw [atanNum, atanDen, abs_le]
  split_ifs <;> omega

theorem abs_atanRatio_le (y x : ℤ) : |(atanNum y x * 2 ^ rFrac).tdiv (atanDen y x)| ≤ 16384 := by
  apply abs_tdiv_le_of_le (atanDen_pos y x)
  rw [abs_mul]
  exact mul_le_mul_of_nonneg_right (abs_atanNum_le y x) (by decide)

theorem fits_shift_iff (y x : ℤ) : Fits (atanNum y x * 2 ^ rFrac) ↔ ShiftFits y x := by
  change -2 ^ 31 ≤ atanNum y x * 2 ^ 14 ∧ atanNum y x * 2 ^ 14 < 2 ^ 31 ↔
    -2 ^ 17 ≤ atanNum y x ∧ atanNum y x < 2 ^ 17
  omega

/-- The product with the quotient and what it leaves of the middle of a quarter. -/
theorem around_mem {r c : ℤ} (hr : |r| ≤ 16384) :
    Fits (int32AnglePi4 * r) ∧ c - 3216 ≤ c - (int32AnglePi4 * r) >>> rFrac ∧
      c - (int32AnglePi4 * r) >>> rFrac ≤ c + 3216 := by
  rw [abs_le] at hr
  rw [Int.shiftRight_eq_div_pow]
  change (-2 ^ 31 ≤ 3216 * r ∧ 3216 * r < 2 ^ 31) ∧ c - 3216 ≤ c - 3216 * r / 2 ^ 14 ∧
    c - 3216 * r / 2 ^ 14 ≤ c + 3216
  omega

theorem atanAround_eq (y x : ℤ) {c : ℤ} (hc : 0 ≤ c) (hc' : c ≤ 9648) :
    atanAround c (atanNum y x) (atanDen y x) =
      if ShiftFits y x then
        some (c - (int32AnglePi4 * (atanNum y x * 2 ^ rFrac).tdiv (atanDen y x)) >>> rFrac)
      else none := by
  have hr := abs_atanRatio_le y x
  obtain ⟨hprod, hlow, hhigh⟩ := @around_mem _ c hr
  have hsub : Fits (c -
      (int32AnglePi4 * (atanNum y x * 2 ^ rFrac).tdiv (atanDen y x)) >>> rFrac) := by
    change -2 ^ 31 ≤ _ ∧ _ < 2 ^ 31
    omega
  have hdiv : div (atanNum y x * 2 ^ rFrac) (atanDen y x) = some _ :=
    (if_neg (atanDen_pos y x).ne').trans
      (check_of_fits (fits_of_abs_lt (hr.trans_lt (by decide))))
  rw [atanAround]
  split_ifs with hshift
  · rw [check_of_fits ((fits_shift_iff y x).mpr hshift), Option.bind_eq_bind, Option.bind_some,
      hdiv, Option.bind_some, check_of_fits hprod]
    exact check_of_fits hsub
  · rw [check, if_neg (hshift ∘ (fits_shift_iff y x).mp)]
    rfl

theorem abs_bearing_le (y x : ℤ) : |bearing y x| ≤ 12864 := by
  have hr := abs_atanRatio_le y x
  obtain ⟨-, hlow, hhigh⟩ := @around_mem _ 3216 hr
  obtain ⟨-, hlow', hhigh'⟩ := @around_mem _ 9648 hr
  rw [bearing, abs_le]
  change -12864 ≤ (if y < 0 then -((if 0 ≤ x then 3216 else 9648) - _) else
    (if 0 ≤ x then 3216 else 9648) - _) ∧ (if y < 0 then -((if 0 ≤ x then 3216 else 9648) - _) else
    (if 0 ≤ x then 3216 else 9648) - _) ≤ 12864
  split_ifs <;> omega

/-- The end of `INT32_ATAN2` behind one of its branches. -/
theorem atanAround_bind_eq {y x c : ℤ}
    (hcase : (if 0 ≤ x then int32AnglePi4 else 3 * int32AnglePi4) = c) (hc : 0 ≤ c)
    (hc' : c ≤ 9648) :
    ((atanAround c (atanNum y x) (atanDen y x)).bind fun a =>
      if y < 0 then check (-a) else some a) =
        if ShiftFits y x then some (bearing y x) else none := by
  have hbearing := abs_le.mp (abs_bearing_le y x)
  rw [atanAround_eq y x hc hc']
  rw [bearing, hcase] at hbearing ⊢
  rcases Decidable.em (ShiftFits y x) with hshift | hshift
  · rw [if_pos hshift, if_pos hshift, Option.bind_some]
    split_ifs at hbearing ⊢ with hsign
    · apply check_of_fits
      change -2 ^ 31 ≤ _ ∧ _ < 2 ^ 31
      omega
    · rfl
  · rw [if_neg hshift, if_neg hshift]
    rfl

/-- Where the shifted numerator and the denominator fit, so does all that comes before. -/
theorem fits_of_atanFits {y x : ℤ} (h : AtanFits y x) :
    Fits |y| ∧ Fits (|y| + 1) ∧ Fits (atanNum y x) := by
  obtain ⟨⟨hlow, hhigh⟩, hden⟩ := h
  have hy := abs_nonneg y
  have hle : |y| + 1 ≤ atanDen y x := by
    rw [atanDen]
    split_ifs <;> omega
  have hlt := hden.2
  refine ⟨?_, ?_, ?_⟩ <;> change -2 ^ 31 ≤ _ ∧ _ < 2 ^ 31 <;> omega

theorem int32Atan2_eq (y x : ℤ) :
    int32Atan2 y x = if AtanFits y x then some (bearing y x) else none := by
  ext a
  rw [Option.ite_none_right_eq_some]
  have hiff : (Fits |y| ∧ Fits (|y| + 1) ∧ Fits (atanNum y x) ∧ Fits (atanDen y x) ∧
      (if ShiftFits y x then some (bearing y x) else none) = some a) ↔
        AtanFits y x ∧ some (bearing y x) = some a := by
    rw [Option.ite_none_right_eq_some]
    constructor
    · rintro ⟨-, -, -, hden, hshift, ha⟩
      exact ⟨⟨hshift, hden⟩, ha⟩
    · rintro ⟨hfits, ha⟩
      obtain ⟨habs, hsucc, hnum⟩ := fits_of_atanFits hfits
      exact ⟨habs, hsucc, hnum, hfits.2, hfits.1, ha⟩
  rw [← hiff]
  simp only [int32Atan2, Option.bind_eq_bind, check_bind_eq_some_iff]
  rcases le_or_gt 0 x with hsign | hsign
  · rw [← atanAround_bind_eq (if_pos hsign) (by decide) (by decide), atanNum, atanDen,
      if_pos hsign, if_pos hsign, if_pos hsign, check_bind_eq_some_iff, check_bind_eq_some_iff]
  · rw [← atanAround_bind_eq (if_neg hsign.not_ge) (by decide) (by decide), atanNum, atanDen,
      if_neg hsign.not_ge, if_neg hsign.not_ge, if_neg hsign.not_ge, check_bind_eq_some_iff,
      check_bind_eq_some_iff]

/-! ### Sine and cosine -/

section

variable (pprzTrigInt : ℕ → ℤ)

/-- The angle between `-INT32_ANGLE_PI_2` and `INT32_ANGLE_PI_2` with the same sine. -/
def quarter (an : ℤ) : ℤ :=
  if an > int32AnglePi2 then int32AnglePi - an
  else if an < -int32AnglePi2 then -int32AnglePi - an
  else an

def pprzItrigSin (a : ℤ) : ℤ :=
  let an := quarter (int32AngleNormalize a)
  if 0 ≤ an then pprzTrigInt an.toNat else -pprzTrigInt (-an).toNat

def pprzItrigCos (a : ℤ) : ℤ := pprzItrigSin pprzTrigInt (a + int32AnglePi2)

/-- The entries for angles up to a quarter of a turn. -/
def IsSineTable : Prop :=
  ∀ i : ℕ, i ≤ 6433 → |(pprzTrigInt i : ℝ) - 2 ^ 14 * sin (i / 2 ^ 12)| ≤ 1

end

/-- An angle in radians. -/
noncomputable def radians (a : ℤ) : ℝ := a / 2 ^ 12

/-! ### How far the sine is off -/

theorem abs_pi_sub_le : |π - radians int32AnglePi| ≤ 1 / 2 ^ 12 := by
  have hlow := pi_gt_d4
  have hhigh := pi_lt_d4
  rw [radians, int32AnglePi, abs_le]
  constructor
  · norm_num
    linarith
  · norm_num
    linarith

theorem abs_two_pi_sub_le : |2 * π - radians int32Angle2Pi| ≤ 1 / 2 ^ 12 := by
  have hlow := pi_gt_d4
  have hhigh := pi_lt_d4
  rw [radians, int32Angle2Pi, abs_le]
  constructor
  · norm_num
    linarith
  · norm_num
    linarith

theorem abs_pi_div_two_sub_le : |π / 2 - radians int32AnglePi2| ≤ 1 / 2 ^ 12 := by
  have hlow := pi_gt_d4
  have hhigh := pi_lt_d4
  rw [radians, int32AnglePi2, abs_le]
  constructor
  · norm_num
    linarith
  · norm_num
    linarith

theorem radians_sub (a b : ℤ) : radians (a - b) = radians a - radians b := by
  rw [radians, radians, radians, Int.cast_sub, sub_div]

theorem radians_add (a b : ℤ) : radians (a + b) = radians a + radians b := by
  rw [radians, radians, radians, Int.cast_add, add_div]

theorem radians_neg (a : ℤ) : radians (-a) = -radians a := by
  rw [radians, radians, Int.cast_neg, neg_div]

/-- Angles that differ by little have sines that do. -/
theorem abs_sin_sub_le {x y e : ℝ} (h : |x - y| ≤ e) : |sin x - sin y| ≤ e :=
  (abs_sin_sub_sin_le x y).trans h

theorem abs_sin_normalize_sub_le {a : ℤ} (h : |a| ≤ 38602) :
    |sin (radians (int32AngleNormalize a)) - sin (radians a)| ≤ 1 / 2 ^ 12 := by
  have hturn : int32AngleNormalize a = a ∨ int32AngleNormalize a = a - int32Angle2Pi ∨
      int32AngleNormalize a = a + int32Angle2Pi := by
    rw [int32AngleNormalize_eq, Int.bmod_def]
    rw [abs_le] at h
    change _ ∨ _ = a - 25735 ∨ _ = a + 25735
    omega
  have hpi := abs_two_pi_sub_le
  rcases hturn with heq | heq | heq
  · rw [heq, sub_self, abs_zero]
    positivity
  · rw [heq, radians_sub, ← sin_sub_two_pi (radians a)]
    apply abs_sin_sub_le
    rwa [sub_sub_sub_cancel_left]
  · rw [heq, radians_add, ← sin_add_two_pi (radians a)]
    apply abs_sin_sub_le
    rwa [add_sub_add_left_eq_sub, abs_sub_comm]

theorem normalize_mem (a : ℤ) :
    -12867 ≤ int32AngleNormalize a ∧ int32AngleNormalize a ≤ 12867 := by
  rw [int32AngleNormalize_eq, Int.bmod_def]
  omega

theorem quarter_mem {an : ℤ} (hlow : -12867 ≤ an) (hhigh : an ≤ 12867) :
    -6433 ≤ quarter an ∧ quarter an ≤ 6433 := by
  rw [quarter]
  change -6433 ≤ (if an > 6433 then 12867 - an else if an < -6433 then -12867 - an else an) ∧
    (if an > 6433 then 12867 - an else if an < -6433 then -12867 - an else an) ≤ 6433
  split_ifs <;> omega

theorem abs_sin_quarter_sub_le (an : ℤ) :
    |sin (radians (quarter an)) - sin (radians an)| ≤ 1 / 2 ^ 12 := by
  have hpi := abs_pi_sub_le
  rw [quarter]
  split_ifs
  · rw [radians_sub, ← sin_pi_sub (radians an)]
    apply abs_sin_sub_le
    rwa [sub_sub_sub_cancel_right, abs_sub_comm]
  · rw [radians_sub, radians_neg, ← sin_pi_sub (radians an), ← sin_sub_two_pi (π - radians an)]
    apply abs_sin_sub_le
    rwa [show -radians int32AnglePi - radians an - (π - radians an - 2 * π) =
      π - radians int32AnglePi by ring]
  · rw [sub_self, abs_zero]
    positivity

section

variable {pprzTrigInt : ℕ → ℤ} (htable : IsSineTable pprzTrigInt)
include htable

/-- The entry for an angle on either side of 0. -/
theorem abs_entry_sub_le {an : ℤ} (hlow : -6433 ≤ an) (hhigh : an ≤ 6433) :
    |((if 0 ≤ an then pprzTrigInt an.toNat else -pprzTrigInt (-an).toNat : ℤ) : ℝ) -
      2 ^ 14 * sin (radians an)| ≤ 1 := by
  split_ifs with hsign
  · obtain ⟨i, rfl⟩ := Int.eq_ofNat_of_zero_le hsign
    exact htable i (by omega)
  · obtain ⟨i, hi⟩ := Int.eq_ofNat_of_zero_le (show 0 ≤ -an by omega)
    obtain rfl : an = -(i : ℤ) := by omega
    have hentry := htable i (by omega)
    rw [neg_neg, Int.toNat_natCast, Int.cast_neg, radians_neg, sin_neg, mul_neg, ← neg_add',
      abs_neg, ← sub_eq_add_neg]
    exact hentry

theorem abs_pprzItrigSin_sub_le {a : ℤ} (h : |a| ≤ 38602) :
    |(pprzItrigSin pprzTrigInt a : ℝ) - 2 ^ 14 * sin (radians a)| ≤ 9 := by
  obtain ⟨hlow, hhigh⟩ := normalize_mem a
  obtain ⟨hlow', hhigh'⟩ := quarter_mem hlow hhigh
  have hentry := abs_le.mp (abs_entry_sub_le htable hlow' hhigh')
  have hquarter := abs_le.mp (abs_sin_quarter_sub_le (int32AngleNormalize a))
  have hnormalize := abs_le.mp (abs_sin_normalize_sub_le h)
  rw [pprzItrigSin, abs_le]
  constructor <;> linarith

theorem abs_pprzItrigCos_sub_le {a : ℤ} (h : |a| ≤ 32169) :
    |(pprzItrigCos pprzTrigInt a : ℝ) - 2 ^ 14 * cos (radians a)| ≤ 13 := by
  have hrange : |a + int32AnglePi2| ≤ 38602 := by
    rw [abs_le] at h ⊢
    change -38602 ≤ a + 6433 ∧ a + 6433 ≤ 38602
    omega
  have hsin := abs_le.mp (abs_pprzItrigSin_sub_le htable hrange)
  have hshift : |sin (radians (a + int32AnglePi2)) - sin (radians a + π / 2)| ≤ 1 / 2 ^ 12 := by
    apply abs_sin_sub_le
    rw [radians_add, add_sub_add_left_eq_sub, abs_sub_comm]
    exact abs_pi_div_two_sub_le
  rw [sin_add_pi_div_two] at hshift
  have hshift' := abs_le.mp hshift
  rw [pprzItrigCos, abs_le]
  constructor <;> linarith

end

end Paparazzi.Math.TrigInt
