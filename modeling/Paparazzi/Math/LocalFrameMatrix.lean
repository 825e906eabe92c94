import Mathlib
import Paparazzi.Library.Numerals
import Paparazzi.Library.RoundedRotation
import Paparazzi.Math.LocalFrame

/-!
The rotation matrix of a local frame: how far its entries are from those of the exact rotation.
-/

namespace Paparazzi.Math.LocalFrame

open Matrix
open Real (sin cos)
open Paparazzi.Library.Checked32
open Paparazzi.Library.Checked64
open Paparazzi.Library.RoundedRotation
open Paparazzi.Math.GeodeticInt (Int32Mat33)

attribute [local instance] Library.Numerals.atLeastTwo_two

/-- The rotation from ECEF to east, north and up at a latitude and a longitude. -/
noncomputable def exactLtpOfEcef (lat lon : ℝ) : Matrix (Fin 3) (Fin 3) ℝ :=
  !![-sin lon, cos lon, 0;
    -sin lat * cos lon, -sin lat * sin lon, cos lat;
    cos lat * cos lon, cos lat * sin lon, sin lat]

def entries (m : Int32Mat33) : Matrix (Fin 3) (Fin 3) ℤ :=
  !![m.m0.toInt, m.m1.toInt, m.m2.toInt;
    m.m3.toInt, m.m4.toInt, m.m5.toInt;
    m.m6.toInt, m.m7.toInt, m.m8.toInt]

/-- Within 2 units of the exact rotation. -/
def NearRotation (m : Int32Mat33) (lat lon : ℝ) : Prop :=
  ∀ i j, |(entries m i j : ℝ) - 2 ^ highResTrigFrac * exactLtpOfEcef lat lon i j| ≤ 2

theorem exactLtpOfEcef_mem (lat lon : ℝ) :
    exactLtpOfEcef lat lon ∈ orthogonalGroup (Fin 3) ℝ := by
  have hlat := Real.sin_sq_add_cos_sq lat
  have hlon := Real.sin_sq_add_cos_sq lon
  rw [mem_orthogonalGroup_iff]
  ext i j
  fin_cases i <;> fin_cases j <;>
    simp [exactLtpOfEcef, mul_apply, Fin.sum_univ_three] <;> grind

/-- The entries that the conversions read: the last one of the first row is taken as zero. -/
def readEntries (m : Int32Mat33) : Matrix (Fin 3) (Fin 3) ℤ :=
  !![m.m0.toInt, m.m1.toInt, 0;
    m.m3.toInt, m.m4.toInt, m.m5.toInt;
    m.m6.toInt, m.m7.toInt, m.m8.toInt]

/-- A matrix with `highResTrigFrac` fractional bits. -/
noncomputable def scaled (M : Matrix (Fin 3) (Fin 3) ℤ) : Matrix (Fin 3) (Fin 3) ℝ :=
  of fun i j => (M i j : ℝ) / 2 ^ highResTrigFrac

theorem readEntries_eq (m : Int32Mat33) (i j : Fin 3) :
    readEntries m i j = entries m i j ∨ i = 0 ∧ j = 2 := by
  fin_cases i <;> fin_cases j <;> simp [readEntries, entries]

theorem near_scaled {m : Int32Mat33} {lat lon : ℝ} (h : NearRotation m lat lon) :
    Near (2 / 2 ^ 20) (scaled (readEntries m)) (exactLtpOfEcef lat lon) := by
  intro i j
  have hread : |(readEntries m i j : ℝ) - 2 ^ 20 * exactLtpOfEcef lat lon i j| ≤ 2 := by
    obtain heq | ⟨hi, hj⟩ := readEntries_eq m i j
    · rw [heq]
      exact h i j
    · simp [hi, hj, readEntries, exactLtpOfEcef]
  have hsplit : scaled (readEntries m) i j - exactLtpOfEcef lat lon i j =
      ((readEntries m i j : ℝ) - 2 ^ 20 * exactLtpOfEcef lat lon i j) / 2 ^ 20 := by
    rw [scaled, of_apply, highResTrigFrac]
    ring
  rw [hsplit, abs_div, abs_of_pos (by positivity : (0 : ℝ) < 2 ^ 20)]
  exact div_le_div_of_nonneg_right hread (by positivity)

/-! ### The matrix from rounded sines and cosines -/

/-- Rounded to the nearest of the numbers with `highResTrigFrac` fractional bits. -/
def RoundsTo (a : Int32) (r : ℝ) : Prop := |(a.toInt : ℝ) - 2 ^ highResTrigFrac * r| ≤ 1 / 2

theorem RoundsTo.abs_le {a : Int32} {r : ℝ} (h : RoundsTo a r) (hr : |r| ≤ 1) :
    |a.toInt| ≤ 2 ^ 21 := by
  rw [RoundsTo, highResTrigFrac] at h
  have hsum := abs_add_le (2 ^ 20 * r) ((a.toInt : ℝ) - 2 ^ 20 * r)
  rw [add_sub_cancel, abs_mul, abs_of_pos (by positivity : (0 : ℝ) < 2 ^ 20)] at hsum
  have hnear : |(a.toInt : ℝ)| ≤ 2 ^ 20 + 1 / 2 := hsum.trans (add_le_add (by linarith) h)
  have hreal : |(a.toInt : ℝ)| ≤ 2 ^ 21 := by linarith
  exact_mod_cast hreal

theorem RoundsTo.neg {a : Int32} {r : ℝ} (h : RoundsTo a r) :
    |((-a.toInt : ℤ) : ℝ) - 2 ^ 20 * -r| ≤ 1 / 2 := by
  have hneg : ((-a.toInt : ℤ) : ℝ) - 2 ^ 20 * -r = -(a.toInt - 2 ^ 20 * r) := by
    push_cast
    ring
  rw [hneg, abs_neg]
  exact h

/-- The product of two rounded numbers, rounded down, is at most 2 units off. -/
theorem abs_product_sub_le {a b : ℤ} {r s : ℝ} (ha : |(a : ℝ) - 2 ^ 20 * r| ≤ 1 / 2)
    (hb : |(b : ℝ) - 2 ^ 20 * s| ≤ 1 / 2) (hr : |r| ≤ 1) (hs : |s| ≤ 1) :
    |((a * b) >>> highResTrigFrac : ℤ) - 2 ^ 20 * (r * s)| ≤ 2 := by
  have hsplit : (a : ℝ) * b - 2 ^ 40 * (r * s) = (a - 2 ^ 20 * r) * (2 ^ 20 * s) +
      2 ^ 20 * r * (b - 2 ^ 20 * s) + (a - 2 ^ 20 * r) * (b - 2 ^ 20 * s) := by ring
  have hscaled {t : ℝ} (ht : |t| ≤ 1) : |2 ^ 20 * t| ≤ 2 ^ 20 := by
    rw [abs_mul, abs_of_pos (by positivity : (0 : ℝ) < 2 ^ 20)]
    linarith
  have hone := mul_le_mul ha (hscaled hs) (abs_nonneg _) (by positivity)
  have htwo := mul_le_mul (hscaled hr) hb (abs_nonneg _) (by positivity)
  have hthree := mul_le_mul ha hb (abs_nonneg _) (by positivity)
  rw [← abs_mul] at hone htwo hthree
  have hsum := (abs_add_three _ _ _).trans (add_le_add_three hone htwo hthree)
  rw [← hsplit] at hsum
  -- The shift takes off less than a unit.
  have hfloor : 2 ^ 20 * ((a * b) >>> highResTrigFrac) ≤ a * b ∧
      a * b ≤ 2 ^ 20 * ((a * b) >>> highResTrigFrac) + (2 ^ 20 - 1) := by
    rw [highResTrigFrac, Int.shiftRight_eq_div_pow]
    omega
  obtain ⟨hlow, hhigh⟩ := hfloor
  have hlow' : 2 ^ 20 * (((a * b) >>> highResTrigFrac : ℤ) : ℝ) ≤ a * b := by exact_mod_cast hlow
  have hhigh' : (a : ℝ) * b ≤ 2 ^ 20 * (((a * b) >>> highResTrigFrac : ℤ) : ℝ) + (2 ^ 20 - 1) := by
    exact_mod_cast hhigh
  rw [abs_le] at hsum ⊢
  constructor <;> linarith

theorem nearRotation_of_entries {m : Int32Mat33} {lat lon : ℝ}
    (h0 : |(m.m0.toInt : ℝ) - 2 ^ 20 * -sin lon| ≤ 2)
    (h1 : |(m.m1.toInt : ℝ) - 2 ^ 20 * cos lon| ≤ 2) (h2 : |(m.m2.toInt : ℝ)| ≤ 2)
    (h3 : |(m.m3.toInt : ℝ) - 2 ^ 20 * (-sin lat * cos lon)| ≤ 2)
    (h4 : |(m.m4.toInt : ℝ) - 2 ^ 20 * (-sin lat * sin lon)| ≤ 2)
    (h5 : |(m.m5.toInt : ℝ) - 2 ^ 20 * cos lat| ≤ 2)
    (h6 : |(m.m6.toInt : ℝ) - 2 ^ 20 * (cos lat * cos lon)| ≤ 2)
    (h7 : |(m.m7.toInt : ℝ) - 2 ^ 20 * (cos lat * sin lon)| ≤ 2)
    (h8 : |(m.m8.toInt : ℝ) - 2 ^ 20 * sin lat| ≤ 2) : NearRotation m lat lon := by
  intro i j
  rw [highResTrigFrac, entries, exactLtpOfEcef]
  fin_cases i <;> fin_cases j <;>
    simpa only [Fin.zero_eta, Fin.mk_one, Fin.reduceFinMk, of_apply, cons_val, mul_zero, sub_zero]

/-- With sines and cosines rounded to the nearest, the matrix is within 2 units of the rotation. -/
theorem nearRotation_ltpOfTrig {sinLat cosLat sinLon cosLon : Int32} {lat lon : ℝ}
    (hsinLat : RoundsTo sinLat (sin lat)) (hcosLat : RoundsTo cosLat (cos lat))
    (hsinLon : RoundsTo sinLon (sin lon)) (hcosLon : RoundsTo cosLon (cos lon)) :
    NearRotation (ltpOfTrig sinLat cosLat sinLon cosLon) lat lon := by
  have hbounds := Real.abs_sin_le_one
  have hboundc := Real.abs_cos_le_one
  have hneg (t : ℝ) : |-sin t| ≤ 1 := by
    rw [abs_neg]
    exact hbounds t
  have hs := hsinLat.abs_le (hbounds lat)
  have hc := hcosLat.abs_le (hboundc lat)
  have hS := hsinLon.abs_le (hbounds lon)
  have hC := hcosLon.abs_le (hboundc lon)
  have hs' : |-sinLat.toInt| ≤ 2 ^ 21 := (abs_neg _).trans_le hs
  have h0 : |((-sinLon).toInt : ℝ) - 2 ^ 20 * -sin lon| ≤ 2 := by
    rw [Int32.toInt_neg, eq_bmod_of_fits (fits_of_abs_lt
      (((abs_neg _).trans_le hS).trans_lt (by decide)))]
    exact hsinLon.neg.trans (by norm_num)
  have h3 := abs_product_sub_le hsinLat.neg hcosLon (hneg lat) (hboundc lon)
  have h4 := abs_product_sub_le hsinLat.neg hsinLon (hneg lat) (hbounds lon)
  have h6 := abs_product_sub_le hcosLat hcosLon (hboundc lat) (hboundc lon)
  have h7 := abs_product_sub_le hcosLat hsinLon (hboundc lat) (hbounds lon)
  rw [← toInt_product (toInt_neg_toInt64 hs) (Int32.toInt_toInt64 cosLon) hs' hC] at h3
  rw [← toInt_product (toInt_neg_toInt64 hs) (Int32.toInt_toInt64 sinLon) hs' hS] at h4
  rw [← toInt_product (Int32.toInt_toInt64 cosLat) (Int32.toInt_toInt64 cosLon) hc hC] at h6
  rw [← toInt_product (Int32.toInt_toInt64 cosLat) (Int32.toInt_toInt64 sinLon) hc hS] at h7
  have htwo {a : Int32} {r : ℝ} (h : RoundsTo a r) : |(a.toInt : ℝ) - 2 ^ 20 * r| ≤ 2 :=
    h.trans (by norm_num)
  exact nearRotation_of_entries h0 (htwo hcosLon) (by simp [ltpOfTrig]) h3 h4 (htwo hcosLat) h6 h7
    (htwo hsinLat)

end Paparazzi.Math.LocalFrame
