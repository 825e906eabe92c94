import Mathlib
import Paparazzi.Library.Numerals
import Paparazzi.Math.LocalFrameMatrix

/-!
The conversions between ECEF and a local frame against each other, for a rotation matrix whose
entries are rounded.
-/

namespace Paparazzi.Math.LocalFrame

open Matrix
open Real (sin cos)
open Paparazzi.Library.Checked32
open Paparazzi.Library.Checked64
open Paparazzi.Library.RoundedRotation
open Paparazzi.Math.GeodeticInt (EcefCoorI LtpDefI)

attribute [local instance] Library.Numerals.neZero_three

/-! ### Positions -/

namespace Int32Vect3

def Within (c : ℤ) (v : Int32Vect3) : Prop := |v.x| ≤ c ∧ |v.y| ≤ c ∧ |v.z| ≤ c

instance (c : ℤ) (v : Int32Vect3) : Decidable (v.Within c) := instDecidableAnd

noncomputable def vec (v : Int32Vect3) : Fin 3 → ℝ := ![v.x, v.y, v.z]

theorem norm_vec_sub_le_iff {v : Int32Vect3} {y : Fin 3 → ℝ} {c : ℝ} (hc : 0 ≤ c) :
    ‖v.vec - y‖ ≤ c ↔ |v.x - y 0| ≤ c ∧ |v.y - y 1| ≤ c ∧ |v.z - y 2| ≤ c := by
  rw [pi_norm_le_iff_of_nonneg hc, Fin.forall_fin_succ, Fin.forall_fin_two]
  rfl

theorem within_iff {v : Int32Vect3} {c : ℤ} : v.Within c ↔ ‖v.vec‖ ≤ c := by
  have hiff (hc : 0 ≤ c) : ‖v.vec‖ ≤ c ↔ v.Within c := by
    have h := @norm_vec_sub_le_iff v 0 c (by exact_mod_cast hc)
    simp only [sub_zero, Pi.zero_apply] at h
    rw [h, Within]
    norm_cast
  constructor
  · intro h
    exact (hiff ((abs_nonneg v.x).trans h.1)).mpr h
  · intro h
    exact (hiff (by exact_mod_cast (norm_nonneg _).trans h)).mp h

theorem Within.check {v : Int32Vect3} {c : ℤ} (h : v.Within c) (hc : c < 2 ^ 31) :
    v.check = some v :=
  check_of_fits (fits_of_abs_lt (h.1.trans_lt hc)) (fits_of_abs_lt (h.2.1.trans_lt hc))
    (fits_of_abs_lt (h.2.2.trans_lt hc))

theorem Within.add {v w : Int32Vect3} {b c : ℤ} (hv : v.Within b) (hw : w.Within c) :
    Within (b + c) ⟨v.x + w.x, v.y + w.y, v.z + w.z⟩ :=
  ⟨(abs_add_le _ _).trans (add_le_add hv.1 hw.1),
    (abs_add_le _ _).trans (add_le_add hv.2.1 hw.2.1),
    (abs_add_le _ _).trans (add_le_add hv.2.2 hw.2.2)⟩

theorem Within.mono {v : Int32Vect3} {b c : ℤ} (h : v.Within b) (hle : b ≤ c) : v.Within c :=
  ⟨h.1.trans hle, h.2.1.trans hle, h.2.2.trans hle⟩

theorem Within.smul {v : Int32Vect3} {c s : ℤ} (h : v.Within c) (hs : 0 ≤ s) :
    Within (c * s) ⟨v.x * s, v.y * s, v.z * s⟩ := by
  have hentry {a : ℤ} (ha : |a| ≤ c) : |a * s| ≤ c * s := by
    rw [abs_mul, abs_of_nonneg hs]
    exact mul_le_mul_of_nonneg_right ha hs
  exact ⟨hentry h.1, hentry h.2.1, hentry h.2.2⟩

end Int32Vect3

/-! ### Rounded products -/

/-- The product with a vector, rounded down. -/
def rounded (M : Matrix (Fin 3) (Fin 3) ℤ) (v : Int32Vect3) : Int32Vect3 where
  x := (M 0 0 * v.x + M 0 1 * v.y + M 0 2 * v.z) >>> highResTrigFrac
  y := (M 1 0 * v.x + M 1 1 * v.y + M 1 2 * v.z) >>> highResTrigFrac
  z := (M 2 0 * v.x + M 2 1 * v.y + M 2 2 * v.z) >>> highResTrigFrac

theorem abs_shiftRight_sub_le (a : ℤ) (k : ℕ) : |((a >>> k : ℤ) : ℝ) - a / 2 ^ k| ≤ 1 := by
  have hpow : (0 : ℤ) < 2 ^ k := by positivity
  have hsplit := Int.mul_ediv_add_emod a (2 ^ k)
  have hnonneg := Int.emod_nonneg a hpow.ne'
  have hlt := Int.emod_lt_of_pos a hpow
  have hreal : (2 : ℝ) ^ k * (a / 2 ^ k : ℤ) + (a % 2 ^ k : ℤ) = a := by exact_mod_cast hsplit
  have hnonneg' : (0 : ℝ) ≤ (a % 2 ^ k : ℤ) := by exact_mod_cast hnonneg
  have hlt' : ((a % 2 ^ k : ℤ) : ℝ) < 2 ^ k := by exact_mod_cast hlt
  have hpos : (0 : ℝ) < 2 ^ k := by positivity
  rw [Int.shiftRight_eq_div_pow, abs_sub_comm, ← hreal, add_div, mul_div_cancel_left₀ _ hpos.ne']
  push_cast
  rw [add_sub_cancel_left, abs_of_nonneg (div_nonneg hnonneg' hpos.le), div_le_one hpos]
  exact hlt'.le

theorem norm_rounded_sub_le (M : Matrix (Fin 3) (Fin 3) ℤ) (v : Int32Vect3) :
    ‖(rounded M v).vec - scaled M *ᵥ v.vec‖ ≤ 1 := by
  have hrow (i : Fin 3) : (scaled M *ᵥ v.vec) i =
      ((M i 0 * v.x + M i 1 * v.y + M i 2 * v.z : ℤ) : ℝ) / 2 ^ highResTrigFrac := by
    simp [mulVec, dotProduct, Fin.sum_univ_three, scaled, Int32Vect3.vec]
    ring
  rw [Int32Vect3.norm_vec_sub_le_iff zero_le_one, hrow, hrow, hrow]
  exact ⟨abs_shiftRight_sub_le _ _, abs_shiftRight_sub_le _ _, abs_shiftRight_sub_le _ _⟩

/-! ### What the conversions compute -/

/-- Metres with `int32PosFrac` fractional bits to centimetres, rounded down. -/
def cmOfPos (p : Int32Vect3) : Int32Vect3 :=
  int32Vect3Rshift ⟨p.x * 25, p.y * 25, p.z * 25⟩ (int32PosFrac - 2)

/-- Centimetres to metres with `int32PosFrac` fractional bits, rounded towards zero. -/
def posOfCm (v : Int32Vect3) : Int32Vect3 where
  x := (v.x * 2 ^ (int32PosFrac - 2)).tdiv 25
  y := (v.y * 2 ^ (int32PosFrac - 2)).tdiv 25
  z := (v.z * 2 ^ (int32PosFrac - 2)).tdiv 25

theorem rotateRow_of_bounds {terms : List (ℤ × ℤ)} {s : ℤ} (hsum : sumOfProducts terms = s)
    (hlength : terms.length ≤ 3) (hterms : ∀ t ∈ terms, |t.1| ≤ 2 ^ 21 ∧ |t.2| ≤ 2 ^ 31)
    (hfits : |s >>> highResTrigFrac| < 2 ^ 31) :
    rotateRow terms = some (s >>> highResTrigFrac) := by
  have hadd := addProducts_of_bounds (by decide) (by decide) hterms
    (show |(0 : ℤ)| + terms.length * (2 ^ 21 * 2 ^ 31) < 2 ^ 63 by rw [abs_zero]; omega)
  rw [rotateRow, hadd, Option.bind_eq_bind, Option.bind_some, zero_add, hsum]
  exact check_of_fits (fits_of_abs_lt hfits)

theorem ecefOfEnuVectI_eq {d : LtpDefI} {v : Int32Vect3} {c : ℤ}
    (hm : ∀ i j, |readEntries d.ltpOfEcef i j| ≤ 2 ^ 21) (hv : v.Within (2 ^ 31))
    (hw : (rounded (readEntries d.ltpOfEcef)ᵀ v).Within c) (hc : c < 2 ^ 31) :
    ecefOfEnuVectI d v = some (rounded (readEntries d.ltpOfEcef)ᵀ v) := by
  obtain ⟨hx, hy, hz⟩ := hv
  have hrowx : rotateRow [(d.ltpOfEcef.m0.toInt, v.x), (d.ltpOfEcef.m3.toInt, v.y),
      (d.ltpOfEcef.m6.toInt, v.z)] = some (rounded (readEntries d.ltpOfEcef)ᵀ v).x := by
    refine rotateRow_of_bounds ?_ (le_refl 3) ?_ (hw.1.trans_lt hc)
    · simp [readEntries, add_assoc]
    · simpa using ⟨⟨hm 0 0, hx⟩, ⟨hm 1 0, hy⟩, hm 2 0, hz⟩
  have hrowy : rotateRow [(d.ltpOfEcef.m1.toInt, v.x), (d.ltpOfEcef.m4.toInt, v.y),
      (d.ltpOfEcef.m7.toInt, v.z)] = some (rounded (readEntries d.ltpOfEcef)ᵀ v).y := by
    refine rotateRow_of_bounds ?_ (le_refl 3) ?_ (hw.2.1.trans_lt hc)
    · simp [readEntries, add_assoc]
    · simpa using ⟨⟨hm 0 1, hx⟩, ⟨hm 1 1, hy⟩, hm 2 1, hz⟩
  have hrowz : rotateRow [(d.ltpOfEcef.m5.toInt, v.y), (d.ltpOfEcef.m8.toInt, v.z)] =
      some (rounded (readEntries d.ltpOfEcef)ᵀ v).z := by
    refine rotateRow_of_bounds ?_ (Nat.le_succ 2) ?_ (hw.2.2.trans_lt hc)
    · simp [readEntries]
    · simpa using ⟨⟨hm 1 2, hy⟩, hm 2 2, hz⟩
  simp only [ecefOfEnuVectI, hrowx, hrowy, hrowz]
  rfl

theorem enuOfEcefPointI_eq {d : LtpDefI} {ecef delta : Int32Vect3} {c : ℤ}
    (hm : ∀ i j, |readEntries d.ltpOfEcef i j| ≤ 2 ^ 21)
    (hdelta : vect3Diff ecef (vect3OfEcef d.ecef) = some delta) (hv : delta.Within (2 ^ 31))
    (hw : (rounded (readEntries d.ltpOfEcef) delta).Within c) (hc : c < 2 ^ 31) :
    enuOfEcefPointI d ecef = some (rounded (readEntries d.ltpOfEcef) delta) := by
  obtain ⟨hx, hy, hz⟩ := hv
  have hrowx : rotateRow [(d.ltpOfEcef.m0.toInt, delta.x), (d.ltpOfEcef.m1.toInt, delta.y)] =
      some (rounded (readEntries d.ltpOfEcef) delta).x := by
    refine rotateRow_of_bounds ?_ (Nat.le_succ 2) ?_ (hw.1.trans_lt hc)
    · simp [readEntries]
    · simpa using ⟨⟨hm 0 0, hx⟩, hm 0 1, hy⟩
  have hrowy : rotateRow [(d.ltpOfEcef.m3.toInt, delta.x), (d.ltpOfEcef.m4.toInt, delta.y),
      (d.ltpOfEcef.m5.toInt, delta.z)] = some (rounded (readEntries d.ltpOfEcef) delta).y := by
    refine rotateRow_of_bounds ?_ (le_refl 3) ?_ (hw.2.1.trans_lt hc)
    · simp [readEntries, add_assoc]
    · simpa using ⟨⟨hm 1 0, hx⟩, ⟨hm 1 1, hy⟩, hm 1 2, hz⟩
  have hrowz : rotateRow [(d.ltpOfEcef.m6.toInt, delta.x), (d.ltpOfEcef.m7.toInt, delta.y),
      (d.ltpOfEcef.m8.toInt, delta.z)] = some (rounded (readEntries d.ltpOfEcef) delta).z := by
    refine rotateRow_of_bounds ?_ (le_refl 3) ?_ (hw.2.2.trans_lt hc)
    · simp [readEntries, add_assoc]
    · simpa using ⟨⟨hm 2 0, hx⟩, ⟨hm 2 1, hy⟩, hm 2 2, hz⟩
  simp only [enuOfEcefPointI, hdelta, Option.bind_eq_bind, Option.bind_some, hrowx, hrowy, hrowz]
  rfl

theorem posOfCm_eq {v : Int32Vect3} {c : ℤ} (hv : v.Within c) (hc : c * 2 ^ 6 < 2 ^ 31) :
    (int32Vect3Lshift v (int32PosFrac - 2)).bind (fun enu => vect3Sdiv enu 25) =
      some (posOfCm v) := by
  obtain ⟨hx, hy, hz⟩ := hv.smul (show (0 : ℤ) ≤ 2 ^ 6 by decide)
  have hdiv {a : ℤ} (ha : |a * 2 ^ 6| ≤ c * 2 ^ 6) :
      div (a * 2 ^ 6) 25 = some ((a * 2 ^ 6).tdiv 25) := by
    rw [div, if_neg (by decide)]
    exact check_of_fits (fits_of_abs_lt ((abs_tdiv_le _ _).trans_lt (ha.trans_lt hc)))
  have hshift : int32Vect3Lshift v (int32PosFrac - 2) =
      some ⟨v.x * 2 ^ 6, v.y * 2 ^ 6, v.z * 2 ^ 6⟩ :=
    (hv.smul (by decide)).check hc
  rw [hshift, Option.bind_some]
  simp only [vect3Sdiv, hdiv hx, hdiv hy, hdiv hz, Option.bind_eq_bind, Option.bind_some]
  rfl

/-- What one conversion loses of a position. -/
theorem norm_cmOfPos_sub_le (p : Int32Vect3) : ‖(cmOfPos p).vec - (25 / 64 : ℝ) • p.vec‖ ≤ 1 := by
  have hentry (a : ℤ) : |((a * 25) >>> (int32PosFrac - 2) : ℤ) - 25 / 64 * (a : ℝ)| ≤ 1 := by
    have h := abs_shiftRight_sub_le (a * 25) (int32PosFrac - 2)
    have heq : ((a * 25 : ℤ) : ℝ) / 2 ^ (int32PosFrac - 2) = 25 / 64 * (a : ℝ) := by
      rw [int32PosFrac]
      push_cast
      ring
    rwa [heq] at h
  exact (Int32Vect3.norm_vec_sub_le_iff zero_le_one).mpr ⟨hentry p.x, hentry p.y, hentry p.z⟩

theorem norm_posOfCm_sub_le (v : Int32Vect3) : ‖(posOfCm v).vec - (64 / 25 : ℝ) • v.vec‖ ≤ 1 := by
  have hentry (a : ℤ) : |((a * 2 ^ (int32PosFrac - 2)).tdiv 25 : ℤ) - 64 / 25 * (a : ℝ)| ≤ 1 := by
    have h : |25 * (a * 64).tdiv 25 - a * 64| < 25 := abs_mul_tdiv_sub_lt (by decide)
    have hreal : |25 * ((a * 64).tdiv 25 : ℝ) - a * 64| < 25 := by exact_mod_cast h
    rw [abs_lt] at hreal
    rw [abs_le]
    change -1 ≤ ((a * 64).tdiv 25 : ℝ) - _ ∧ ((a * 64).tdiv 25 : ℝ) - _ ≤ 1
    constructor <;> linarith
  exact (Int32Vect3.norm_vec_sub_le_iff zero_le_one).mpr ⟨hentry v.x, hentry v.y, hentry v.z⟩

/-- What both conversions of units lose, with an error in centimetres in between. -/
theorem norm_posOfCm_sub_pos_le (p u : Int32Vect3) :
    ‖(posOfCm u).vec - p.vec‖ ≤ 64 / 25 * ‖u.vec - (cmOfPos p).vec‖ + 89 / 25 := by
  have hsplit : (posOfCm u).vec - p.vec = ((posOfCm u).vec - (64 / 25 : ℝ) • u.vec) +
      (64 / 25 : ℝ) • (u.vec - (cmOfPos p).vec) +
      (64 / 25 : ℝ) • ((cmOfPos p).vec - (25 / 64 : ℝ) • p.vec) := by
    module
  have hsum := norm_add₃_le (a := (posOfCm u).vec - (64 / 25 : ℝ) • u.vec)
    (b := (64 / 25 : ℝ) • (u.vec - (cmOfPos p).vec))
    (c := (64 / 25 : ℝ) • ((cmOfPos p).vec - (25 / 64 : ℝ) • p.vec))
  rw [← hsplit, norm_smul, norm_smul, Real.norm_of_nonneg (by positivity)] at hsum
  have hpos := norm_posOfCm_sub_le u
  have hcm := norm_cmOfPos_sub_le p
  linarith

theorem norm_cmOfPos_le (p : Int32Vect3) : ‖(cmOfPos p).vec‖ ≤ 25 / 64 * ‖p.vec‖ + 1 := by
  have hsum := norm_le_norm_add_norm_sub' (cmOfPos p).vec ((25 / 64 : ℝ) • p.vec)
  have hrounded := norm_cmOfPos_sub_le p
  rw [norm_smul, Real.norm_of_nonneg (by positivity)] at hsum
  linarith

theorem norm_posOfCm_le (v : Int32Vect3) : ‖(posOfCm v).vec‖ ≤ 64 / 25 * ‖v.vec‖ + 1 := by
  have hsum := norm_le_norm_add_norm_sub' (posOfCm v).vec ((64 / 25 : ℝ) • v.vec)
  have hrounded := norm_posOfCm_sub_le v
  rw [norm_smul, Real.norm_of_nonneg (by positivity)] at hsum
  linarith

theorem norm_cmOfPos_posOfCm_sub_le (v : Int32Vect3) :
    ‖(cmOfPos (posOfCm v)).vec - v.vec‖ ≤ 89 / 64 := by
  have hsplit : (cmOfPos (posOfCm v)).vec - v.vec =
      ((cmOfPos (posOfCm v)).vec - (25 / 64 : ℝ) • (posOfCm v).vec) +
      (25 / 64 : ℝ) • ((posOfCm v).vec - (64 / 25 : ℝ) • v.vec) := by
    module
  have hsum := norm_add_le ((cmOfPos (posOfCm v)).vec - (25 / 64 : ℝ) • (posOfCm v).vec)
    ((25 / 64 : ℝ) • ((posOfCm v).vec - (64 / 25 : ℝ) • v.vec))
  rw [← hsplit, norm_smul, Real.norm_of_nonneg (by positivity)] at hsum
  have hcm := norm_cmOfPos_sub_le (posOfCm v)
  have hpos := norm_posOfCm_sub_le v
  linarith

/-! ### Rounded rotations -/

section
variable {M : Matrix (Fin 3) (Fin 3) ℤ} {R : Matrix (Fin 3) (Fin 3) ℝ}
  (hR : R ∈ orthogonalGroup (Fin 3) ℝ) (hM : Near (2 / 2 ^ 20) (scaled M) R)
include hR hM

theorem abs_le_of_near (i j : Fin 3) : |M i j| ≤ 2 ^ 21 := by
  have hentry : |R i j| ≤ 1 := entry_norm_bound_of_unitary hR i j
  have hnear := hM i j
  have hsum := norm_le_norm_add_norm_sub' (scaled M i j) (R i j)
  rw [Real.norm_eq_abs, Real.norm_eq_abs, Real.norm_eq_abs] at hsum
  have hscaled : |scaled M i j| = |(M i j : ℝ)| / 2 ^ 20 := by
    rw [scaled, of_apply, highResTrigFrac, abs_div, abs_of_pos (by positivity : (0 : ℝ) < 2 ^ 20)]
  have hreal : |(M i j : ℝ)| ≤ 2 ^ 21 := by linarith
  exact_mod_cast hreal

theorem norm_rounded_le {v : Int32Vect3} {b : ℝ} (hv : ‖v.vec‖ ≤ b) :
    ‖(rounded M v).vec‖ ≤ 3 * (1 + 2 / 2 ^ 20) * b + 1 := by
  have hsum := norm_le_norm_add_norm_sub' (rounded M v).vec (scaled M *ᵥ v.vec)
  have hrounded := norm_rounded_sub_le M v
  have hscaled := hM.norm_mulVec_le (by positivity) hR hv
  rw [Fintype.card_fin] at hscaled
  push_cast at hscaled
  linarith

/-- Over by the transpose and back, rounded twice. -/
theorem norm_rounded_rounded_sub_le (v : Int32Vect3) :
    ‖(rounded M (rounded Mᵀ v)).vec - v.vec‖ ≤ ‖v.vec‖ / 2 ^ 14 + 4.01 := by
  have h := hM.norm_back_sub_le (by positivity) hR (norm_rounded_sub_le Mᵀ v)
    (norm_rounded_sub_le M (rounded Mᵀ v))
  have hnorm := norm_nonneg v.vec
  rw [Fintype.card_fin] at h
  norm_num at h ⊢
  linarith

end

/-! ### There and back -/

/-- At most 6400 km from the centre of the Earth, as its whole surface is. -/
def OnEarth (ecef : EcefCoorI) : Prop :=
  ecef.x.toInt ^ 2 + ecef.y.toInt ^ 2 + ecef.z.toInt ^ 2 ≤ 640000000 ^ 2

instance (ecef : EcefCoorI) : Decidable (OnEarth ecef) := inferInstanceAs (Decidable (_ ≤ _))

/-- `VECT3_NED_OF_ENU`, in either direction, without a limit. -/
def exchange (v : Int32Vect3) : Int32Vect3 := ⟨v.y, v.x, -v.z⟩

def largest (v : Int32Vect3) : ℤ := max |v.x| (max |v.y| |v.z|)

/-- At most 16 units and 2⁻¹³ of the largest component off, in each component. -/
def CloseTo (p q : Int32Vect3) : Prop :=
  2 ^ 13 * |q.x - p.x| ≤ 2 ^ 13 * 16 + largest p ∧
    2 ^ 13 * |q.y - p.y| ≤ 2 ^ 13 * 16 + largest p ∧
    2 ^ 13 * |q.z - p.z| ≤ 2 ^ 13 * 16 + largest p

/-- Neither direction overflows, and the position comes back. -/
def ComesBack (toEcef ofEcef : Int32Vect3 → Option Int32Vect3) (p : Int32Vect3) : Prop :=
  ∃ ecef q, toEcef p = some ecef ∧ ofEcef ecef = some q ∧ CloseTo p q

/-- Up to 100 km in each direction. -/
def InReach (p : Int32Vect3) : Prop := p.Within (100000 * 2 ^ int32PosFrac)

instance (p : Int32Vect3) : Decidable (InReach p) := instDecidableAnd

theorem norm_vec_le (v : Int32Vect3) : ‖v.vec‖ ≤ largest v := by
  refine Int32Vect3.within_iff.mp ⟨le_max_left _ _, ?_, ?_⟩
  · exact (le_max_left _ _).trans (le_max_right _ _)
  · exact (le_max_right _ _).trans (le_max_right _ _)

theorem closeTo_of_norm {p q : Int32Vect3} (h : ‖q.vec - p.vec‖ ≤ 16 + ‖p.vec‖ / 2 ^ 13) :
    CloseTo p q := by
  have hlargest := norm_vec_le p
  have hentry {a b : ℤ} (hab : |(a : ℝ) - b| ≤ 16 + ‖p.vec‖ / 2 ^ 13) :
      2 ^ 13 * |a - b| ≤ 2 ^ 13 * 16 + largest p := by
    have hreal : 2 ^ 13 * |(a : ℝ) - b| ≤ 2 ^ 13 * 16 + largest p := by linarith
    exact_mod_cast hreal
  have hbound : (0 : ℝ) ≤ 16 + ‖p.vec‖ / 2 ^ 13 := (norm_nonneg _).trans h
  obtain ⟨hx, hy, hz⟩ := (Int32Vect3.norm_vec_sub_le_iff hbound).mp h
  exact ⟨hentry hx, hentry hy, hentry hz⟩

theorem within_origin {ecef : EcefCoorI} (h : OnEarth ecef) :
    (vect3OfEcef ecef).Within 640000000 := by
  rw [OnEarth] at h
  have hx := sq_nonneg ecef.x.toInt
  have hy := sq_nonneg ecef.y.toInt
  have hz := sq_nonneg ecef.z.toInt
  have hentry {a : ℤ} (ha : a ^ 2 ≤ 640000000 ^ 2) : |a| ≤ 640000000 :=
    abs_le_of_sq_le_sq ha (by decide)
  have hboundx : |ecef.x.toInt| ≤ 640000000 := hentry (by linarith)
  have hboundy : |ecef.y.toInt| ≤ 640000000 := hentry (by linarith)
  have hboundz : |ecef.z.toInt| ≤ 640000000 := hentry (by linarith)
  exact ⟨hboundx, hboundy, hboundz⟩

/-- A sum that fits is taken apart again. -/
theorem exists_add {v o : Int32Vect3} {b c : ℤ} (hv : v.Within b) (ho : o.Within c)
    (hbc : b + c < 2 ^ 31) :
    ∃ ecef, int32Vect3Add v o = some ecef ∧ vect3Diff ecef o = some v := by
  have hc := (abs_nonneg o.x).trans ho.1
  refine ⟨⟨v.x + o.x, v.y + o.y, v.z + o.z⟩, (hv.add ho).check hbc, ?_⟩
  simp only [vect3Diff, add_sub_cancel_right]
  exact hv.check (by omega)

theorem vec_of_vect3Diff {a b v : Int32Vect3} (h : vect3Diff a b = some v) :
    v.vec = a.vec - b.vec := by
  obtain ⟨-, rfl⟩ := Int32Vect3.check_eq_some_iff.mp h
  funext i
  fin_cases i <;> simp [Int32Vect3.vec]

section
variable {d : LtpDefI} {lat lon : ℝ} (hframe : NearRotation d.ltpOfEcef lat lon)
include hframe

theorem exists_ecefOfEnuPosI (horigin : OnEarth d.ecef) {p : Int32Vect3} (hp : p.Within 26000000) :
    ∃ ecef, ecefOfEnuPosI d p = some ecef ∧ vect3Diff ecef (vect3OfEcef d.ecef) =
      some (rounded (readEntries d.ltpOfEcef)ᵀ (cmOfPos p)) ∧
      (rounded (readEntries d.ltpOfEcef)ᵀ (cmOfPos p)).Within 31000000 := by
  have hR := transpose_mem (exactLtpOfEcef_mem lat lon)
  have hM := near_scaled hframe
  have hMT : Near (2 / 2 ^ 20) (scaled (readEntries d.ltpOfEcef)ᵀ) _ := hM.transpose
  have hnorm : ‖(cmOfPos p).vec‖ ≤ (10160000 : ℤ) := by
    have hcm := norm_cmOfPos_le p
    have hreach := Int32Vect3.within_iff.mp hp
    push_cast at hreach ⊢
    linarith
  have hw : (rounded (readEntries d.ltpOfEcef)ᵀ (cmOfPos p)).Within 31000000 := by
    have hrounded := norm_rounded_le hR hMT hnorm
    apply Int32Vect3.within_iff.mpr
    push_cast at hrounded ⊢
    linarith
  have hvect := ecefOfEnuVectI_eq (abs_le_of_near (exactLtpOfEcef_mem lat lon) hM)
    ((Int32Vect3.within_iff.mpr hnorm).mono (by decide)) hw (by decide)
  have hsmul : vect3Smul p 25 = some ⟨p.x * 25, p.y * 25, p.z * 25⟩ :=
    (hp.smul (by decide)).check (by decide)
  obtain ⟨ecef, hadd, hdiff⟩ := exists_add hw (within_origin horigin) (by decide)
  refine ⟨ecef, ?_, hdiff, hw⟩
  rw [ecefOfEnuPosI, hsmul, Option.bind_eq_bind, Option.bind_some]
  change (ecefOfEnuVectI d (cmOfPos p)).bind _ = _
  rw [hvect]
  exact hadd

theorem enuOfEcefPosI_eq {ecef delta : Int32Vect3}
    (hdelta : vect3Diff ecef (vect3OfEcef d.ecef) = some delta) (hv : delta.Within 31000000)
    (hu : (rounded (readEntries d.ltpOfEcef) delta).Within 10010000) :
    enuOfEcefPosI d ecef = some (posOfCm (rounded (readEntries d.ltpOfEcef) delta)) := by
  have hm := abs_le_of_near (exactLtpOfEcef_mem lat lon) (near_scaled hframe)
  rw [enuOfEcefPosI, enuOfEcefPointI_eq hm hdelta (hv.mono (by decide)) hu (by decide)]
  exact posOfCm_eq hu (by decide)

/-- A position goes to ECEF and comes back. -/
theorem comesBack_enu (horigin : OnEarth d.ecef) {p : Int32Vect3} (hp : InReach p) :
    ComesBack (ecefOfEnuPosI d) (enuOfEcefPosI d) p := by
  obtain ⟨ecef, hthere, hdelta, hw⟩ := exists_ecefOfEnuPosI hframe horigin (hp.mono (by decide))
  have hback := norm_rounded_rounded_sub_le (exactLtpOfEcef_mem lat lon) (near_scaled hframe)
    (cmOfPos p)
  have hcm := norm_cmOfPos_le p
  have hreach := Int32Vect3.within_iff.mp hp
  have hu : (rounded (readEntries d.ltpOfEcef)
      (rounded (readEntries d.ltpOfEcef)ᵀ (cmOfPos p))).Within 10010000 := by
    have hsum := norm_le_norm_add_norm_sub' (rounded (readEntries d.ltpOfEcef)
      (rounded (readEntries d.ltpOfEcef)ᵀ (cmOfPos p))).vec (cmOfPos p).vec
    rw [int32PosFrac] at hreach
    apply Int32Vect3.within_iff.mpr
    push_cast at hreach ⊢
    linarith
  refine ⟨ecef, _, hthere, enuOfEcefPosI_eq hframe hdelta hw hu, closeTo_of_norm ?_⟩
  have hunits := norm_posOfCm_sub_pos_le p (rounded (readEntries d.ltpOfEcef)
    (rounded (readEntries d.ltpOfEcef)ᵀ (cmOfPos p)))
  have hnorm := norm_nonneg p.vec
  linarith

/-- The difference to the origin, in centimetres, for an ECEF position up to 100 km away, and how
far its rounded rotation is from the exact one. -/
theorem exists_delta {ecef : Int32Vect3}
    (hreach : ‖exactLtpOfEcef lat lon *ᵥ (ecef.vec - (vect3OfEcef d.ecef).vec)‖ ≤ 10 ^ 7) :
    ∃ delta, vect3Diff ecef (vect3OfEcef d.ecef) = some delta ∧ delta.Within 31000000 ∧
      (rounded (readEntries d.ltpOfEcef) delta).Within 10010000 ∧
      ‖(rounded (readEntries d.ltpOfEcef) delta).vec - exactLtpOfEcef lat lon *ᵥ delta.vec‖ ≤
        1 + 6 / 2 ^ 20 * ‖delta.vec‖ := by
  have hlong := norm_le_of_mulVec (exactLtpOfEcef_mem lat lon)
    (ecef.vec - (vect3OfEcef d.ecef).vec)
  rw [Fintype.card_fin, Nat.cast_ofNat] at hlong
  obtain ⟨hx, hy, hz⟩ := (Int32Vect3.norm_vec_sub_le_iff (c := 31000000) (by norm_num)).mp
    (hlong.trans (by linarith))
  have hentry {a b : ℤ} (h : |(a : ℝ) - b| ≤ 31000000) : |a - b| ≤ 31000000 := by exact_mod_cast h
  have hwithin : Int32Vect3.Within 31000000 ⟨ecef.x - (vect3OfEcef d.ecef).x,
    ecef.y - (vect3OfEcef d.ecef).y, ecef.z - (vect3OfEcef d.ecef).z⟩ :=
    ⟨hentry hx, hentry hy, hentry hz⟩
  obtain ⟨delta, hdelta, hbound⟩ : ∃ delta, vect3Diff ecef (vect3OfEcef d.ecef) = some delta ∧
      delta.Within 31000000 := ⟨_, hwithin.check (by decide), hwithin⟩
  rw [← vec_of_vect3Diff hdelta] at hreach hlong
  have hclose : ‖(rounded (readEntries d.ltpOfEcef) delta).vec -
      exactLtpOfEcef lat lon *ᵥ delta.vec‖ ≤ 1 + 6 / 2 ^ 20 * ‖delta.vec‖ := by
    have hrounded := norm_rounded_sub_le (readEntries d.ltpOfEcef) delta
    have hnear := (near_scaled hframe).norm_mulVec_sub_le (by positivity) delta.vec
    have hsum := norm_sub_le_norm_sub_add_norm_sub (rounded (readEntries d.ltpOfEcef) delta).vec
      (scaled (readEntries d.ltpOfEcef) *ᵥ delta.vec) (exactLtpOfEcef lat lon *ᵥ delta.vec)
    rw [Fintype.card_fin, Nat.cast_ofNat] at hnear
    linarith
  refine ⟨delta, hdelta, hbound, Int32Vect3.within_iff.mpr ?_, hclose⟩
  have hsum := norm_le_norm_add_norm_sub' (rounded (readEntries d.ltpOfEcef) delta).vec
    (exactLtpOfEcef lat lon *ᵥ delta.vec)
  push_cast
  linarith

/-- Nothing overflows for an ECEF position up to 100 km away, and the local position is the exact
one up to 4 units and 2⁻¹⁶ of the distance. -/
theorem enuOfEcefPosI_close {ecef : Int32Vect3}
    (hreach : ‖exactLtpOfEcef lat lon *ᵥ (ecef.vec - (vect3OfEcef d.ecef).vec)‖ ≤ 10 ^ 7) :
    ∃ enu, enuOfEcefPosI d ecef = some enu ∧
      ‖enu.vec - (64 / 25 : ℝ) • exactLtpOfEcef lat lon *ᵥ
        (ecef.vec - (vect3OfEcef d.ecef).vec)‖ ≤
        4 + ‖ecef.vec - (vect3OfEcef d.ecef).vec‖ / 2 ^ 16 := by
  obtain ⟨delta, hdelta, hwithin, hu, hclose⟩ := exists_delta hframe hreach
  refine ⟨_, enuOfEcefPosI_eq hframe hdelta hwithin hu, ?_⟩
  rw [← vec_of_vect3Diff hdelta]
  have hunits := norm_posOfCm_sub_le (rounded (readEntries d.ltpOfEcef) delta)
  have hsum := norm_sub_le_norm_sub_add_norm_sub
    (posOfCm (rounded (readEntries d.ltpOfEcef) delta)).vec
    ((64 / 25 : ℝ) • (rounded (readEntries d.ltpOfEcef) delta).vec)
    ((64 / 25 : ℝ) • exactLtpOfEcef lat lon *ᵥ delta.vec)
  rw [← smul_sub, norm_smul, Real.norm_of_nonneg (by positivity)] at hsum
  have hnonneg := norm_nonneg delta.vec
  linarith

end

/-! ### North, east and down -/

/-- Where the exchange overflows, so does the conversion. -/
theorem ecefOfNedPosI_eq (d : LtpDefI) (ned : Int32Vect3) :
    ecefOfNedPosI d ned = ecefOfEnuPosI d (exchange ned) := by
  rw [ecefOfNedPosI, enuOfToNed, Int32Vect3.check]
  split_ifs with hfits
  · rfl
  · have hentry {a : ℤ} (h : Fits (a * 25)) : Fits a := by
      simp only [Fits] at h ⊢
      omega
    have hnone : vect3Smul (exchange ned) 25 = none :=
      if_neg fun h => hfits ⟨hentry h.1, hentry h.2.1, hentry h.2.2⟩
    rw [ecefOfEnuPosI, hnone]
    rfl

theorem within_of_enuOfEcefPosI {d : LtpDefI} {ecef enu : Int32Vect3}
    (h : enuOfEcefPosI d ecef = some enu) : enu.Within (2 ^ 30) := by
  simp only [enuOfEcefPosI, int32Vect3Lshift, vect3Sdiv, Option.bind_eq_bind,
    Option.bind_eq_some_iff, Int32Vect3.check_eq_some_iff] at h
  obtain ⟨enuCm, -, v, ⟨⟨hx, hy, hz⟩, rfl⟩, x, hdivx, y, hdivy, z, hdivz, hv⟩ := h
  cases hv
  have hentry {a q : ℤ} (ha : Fits a) (hq : div a 25 = some q) : |q| ≤ 2 ^ 30 := by
    rw [div, if_neg (by decide), check_eq_some_iff] at hq
    rw [hq.2]
    refine abs_tdiv_le_of_le (by decide) (abs_le.mpr ?_)
    rw [Fits] at ha
    omega
  exact ⟨hentry hx hdivx, hentry hy hdivy, hentry hz hdivz⟩

theorem nedOfEcefPosI_eq (d : LtpDefI) (ecef : Int32Vect3) :
    nedOfEcefPosI d ecef = (enuOfEcefPosI d ecef).map exchange := by
  rw [nedOfEcefPosI]
  cases h : enuOfEcefPosI d ecef with
  | none => rfl
  | some enu =>
      obtain ⟨hx, hy, hz⟩ := within_of_enuOfEcefPosI h
      have hwithin : (exchange enu).Within (2 ^ 30) := ⟨hy, hx, (abs_neg enu.z).trans_le hz⟩
      exact hwithin.check (by decide)

theorem largest_exchange (v : Int32Vect3) : largest (exchange v) = largest v := by
  rw [largest, exchange, abs_neg, max_left_comm]
  rfl

theorem CloseTo.exchange {p q : Int32Vect3} (h : CloseTo (exchange p) q) :
    CloseTo p (LocalFrame.exchange q) := by
  obtain ⟨hx, hy, hz⟩ := h
  rw [largest_exchange] at hx hy hz
  refine ⟨hy, hx, ?_⟩
  have hneg : -q.z - p.z = -(q.z - -p.z) := by ring
  change 2 ^ 13 * |-q.z - p.z| ≤ _
  rw [hneg, abs_neg]
  exact hz

theorem comesBack_ned {d : LtpDefI} {p : Int32Vect3}
    (h : ComesBack (ecefOfEnuPosI d) (enuOfEcefPosI d) (exchange p)) :
    ComesBack (ecefOfNedPosI d) (nedOfEcefPosI d) p := by
  obtain ⟨ecef, q, hthere, hback, hclose⟩ := h
  refine ⟨ecef, exchange q, ?_, ?_, hclose.exchange⟩
  · rw [ecefOfNedPosI_eq, hthere]
  · rw [nedOfEcefPosI_eq, hback]
    rfl

/-- The conversions undo each other, whatever the rounding of the frame's matrix within 2 units. -/
theorem enu_ecef_round_trip {d : LtpDefI} {lat lon : ℝ} (hframe : NearRotation d.ltpOfEcef lat lon)
    (horigin : OnEarth d.ecef) :
    (∀ p, InReach p → ComesBack (ecefOfEnuPosI d) (enuOfEcefPosI d) p) ∧
      (∀ p, InReach p → ComesBack (ecefOfNedPosI d) (nedOfEcefPosI d) p) ∧
      (∀ ecef : Int32Vect3,
        ‖exactLtpOfEcef lat lon *ᵥ (ecef.vec - (vect3OfEcef d.ecef).vec)‖ ≤ 10 ^ 7 →
          (enuOfEcefPosI d ecef).isSome) ∧
      (∀ ned, ecefOfNedPosI d ned = ecefOfEnuPosI d (exchange ned)) ∧
      ∀ ecef, nedOfEcefPosI d ecef = (enuOfEcefPosI d ecef).map exchange := by
  refine ⟨fun p hp => comesBack_enu hframe horigin hp, fun p hp => comesBack_ned ?_,
    fun ecef h => ?_, ecefOfNedPosI_eq d, nedOfEcefPosI_eq d⟩
  · exact comesBack_enu hframe horigin ⟨hp.2.1, hp.1, (abs_neg p.z).trans_le hp.2.2⟩
  · obtain ⟨enu, hsome, -⟩ := enuOfEcefPosI_close hframe h
    exact Option.isSome_of_mem hsome

/-- Where the equator meets the meridian of Greenwich. -/
def equatorFrame : LtpDefI where
  ecef := ⟨637813700, 0, 0⟩
  lla := ⟨0, 0, 0⟩
  ltpOfEcef := ltpOfTrig 0 1048576 0 1048576
  hmsl := 0

theorem nearRotation_equator : NearRotation equatorFrame.ltpOfEcef 0 0 := by
  have hzero : RoundsTo 0 (sin 0) := by
    have htoInt : (0 : Int32).toInt = 0 := by decide
    norm_num [RoundsTo, htoInt]
  have hone : RoundsTo 1048576 (cos 0) := by
    have htoInt : (1048576 : Int32).toInt = 1048576 := by decide
    norm_num [RoundsTo, highResTrigFrac, htoInt]
  exact nearRotation_ltpOfTrig hzero hone hzero hone

theorem enu_ecef_round_trip_equator :
    ComesBack (ecefOfEnuPosI equatorFrame) (enuOfEcefPosI equatorFrame)
        ⟨25600000, -12345678, 2560⟩ ∧
      ComesBack (ecefOfNedPosI equatorFrame) (nedOfEcefPosI equatorFrame)
        ⟨-12345678, 25600000, -2560⟩ ∧
      (enuOfEcefPosI equatorFrame ⟨637813700, 0, 0⟩).isSome := by
  have hzero : RoundsTo 0 (sin 0) := by
    have htoInt : (0 : Int32).toInt = 0 := by decide
    norm_num [RoundsTo, htoInt]
  have hone : RoundsTo 1048576 (cos 0) := by
    have htoInt : (1048576 : Int32).toInt = 1048576 := by decide
    norm_num [RoundsTo, highResTrigFrac, htoInt]
  have hframe : NearRotation equatorFrame.ltpOfEcef 0 0 :=
    nearRotation_ltpOfTrig hzero hone hzero hone
  have horigin : (⟨637813700, 0, 0⟩ : Int32Vect3) = vect3OfEcef equatorFrame.ecef := by decide
  obtain ⟨henu, hned, hfits, -⟩ := enu_ecef_round_trip hframe (by decide)
  refine ⟨henu _ (by decide), hned _ (by decide), hfits _ ?_⟩
  rw [horigin, sub_self, mulVec_zero, norm_zero]
  positivity

end Paparazzi.Math.LocalFrame
