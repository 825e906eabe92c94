import Paparazzi.Math.Geodesy
import Mathlib.Data.Rat.Floor
import Mathlib.Tactic.Positivity

/-!
The velocity conversions of the math library, in exact arithmetic: vectors
between ECEF and the local frame, the fixed-point format of speeds, the norm of
a horizontal vector and its direction.
-/

namespace Paparazzi.Math.Velocity

open Matrix
open Paparazzi.Math.Geodesy

/-! ### Fixed-point speeds -/

/-- `SPEED_BFP_OF_REAL`, with `INT32_SPEED_FRAC` fractional bits. -/
def speedBfpOfReal (a : ℚ) : ℚ := 2 ^ 19 * a

def speedFloatOfBfp (a : ℚ) : ℚ := a / 2 ^ 19

def speedsBfpOfReal (v : Vect3) : Vect3 := (2 ^ 19 : ℚ) • v

def speedsFloatOfBfp (v : Vect3) : Vect3 := (1 / 2 ^ 19 : ℚ) • v

@[simp] theorem speedsFloatOfBfp_speedsBfpOfReal (v : Vect3) :
    speedsFloatOfBfp (speedsBfpOfReal v) = v := by
  simp [speedsFloatOfBfp, speedsBfpOfReal, smul_smul]

/-! ### Norms -/

/-- The norm of a vector, kept as its square, so that the root is exact. -/
structure Norm where
  sq : ℚ
  sq_nonneg : 0 ≤ sq
  deriving DecidableEq

namespace Norm

/-- `FLOAT_VECT2_NORM`. -/
def floatVect2 (x y : ℚ) : Norm :=
  ⟨x * x + y * y, add_nonneg (mul_self_nonneg x) (mul_self_nonneg y)⟩

/-- `INT32_SQRT` of the sum of the squares shifted by `INT32_SPEED_FRAC`. -/
def int32Shifted (x y : ℚ) : Norm :=
  ⟨(x * x + y * y) / 2 ^ 19,
    div_nonneg (add_nonneg (mul_self_nonneg x) (mul_self_nonneg y)) (by positivity)⟩

def speedBfpOfReal (n : Norm) : Norm :=
  ⟨(2 ^ 19) ^ 2 * n.sq, mul_nonneg (by positivity) n.sq_nonneg⟩

def speedFloatOfBfp (n : Norm) : Norm :=
  ⟨n.sq / (2 ^ 19) ^ 2, div_nonneg n.sq_nonneg (by positivity)⟩

@[simp] theorem speedFloatOfBfp_speedBfpOfReal (n : Norm) :
    n.speedBfpOfReal.speedFloatOfBfp = n := by
  simp [speedFloatOfBfp, speedBfpOfReal]

end Norm

/-! ### Directions -/

/-- `atan2f`, which depends on the direction of its argument only. -/
structure Trig where
  atan2 : ℚ → ℚ → ℚ
  atan2_mul : ∀ {c : ℚ}, 0 < c → ∀ y x, atan2 (c * y) (c * x) = atan2 y x

/-- `INT32_ATAN2`, with `INT32_ANGLE_FRAC` fractional bits. -/
def int32Atan2 (trig : Trig) (y x : ℚ) : ℚ := 2 ^ 12 * trig.atan2 y x

def int32Angle2Pi : ℚ := 25735

/-- `INT32_COURSE_NORMALIZE`, which adds or subtracts full turns. -/
def int32CourseNormalize (a : ℚ) : ℚ := a - int32Angle2Pi * ⌊a / int32Angle2Pi⌋

/-! ### Vectors in the local frame -/

def enuOfEcefVectF (d : LtpDef) (ecef : Vect3) : Vect3 := d.ltpOfEcef.m *ᵥ ecef

def nedOfEcefVectF (d : LtpDef) (ecef : Vect3) : Vect3 := vect3NedOfEnu (enuOfEcefVectF d ecef)

def ecefOfEnuVectF (d : LtpDef) (enu : Vect3) : Vect3 := d.ltpOfEcef.mᵀ *ᵥ enu

def ecefOfNedVectF (d : LtpDef) (ned : Vect3) : Vect3 := ecefOfEnuVectF d (vect3EnuOfNed ned)

/-- `enu_of_ecef_vect_i`, which keeps the unit of its argument. -/
def enuOfEcefVectI (d : LtpDef) (ecef : Vect3) : Vect3 := d.ltpOfEcef.m *ᵥ ecef

def nedOfEcefVectI (d : LtpDef) (ecef : Vect3) : Vect3 := vect3NedOfEnu (enuOfEcefVectI d ecef)

def ecefOfEnuVectI (d : LtpDef) (enu : Vect3) : Vect3 := d.ltpOfEcef.mᵀ *ᵥ enu

def ecefOfNedVectI (d : LtpDef) (ned : Vect3) : Vect3 := ecefOfEnuVectI d (vect3EnuOfNed ned)

@[simp] theorem ecefOfNedVectF_nedOfEcefVectF (d : LtpDef) (v : Vect3) :
    ecefOfNedVectF d (nedOfEcefVectF d v) = v := by
  simp [ecefOfNedVectF, ecefOfEnuVectF, nedOfEcefVectF, enuOfEcefVectF,
    d.ltpOfEcef.transpose_mulVec_mulVec]

@[simp] theorem nedOfEcefVectF_ecefOfNedVectF (d : LtpDef) (v : Vect3) :
    nedOfEcefVectF d (ecefOfNedVectF d v) = v := by
  simp [ecefOfNedVectF, ecefOfEnuVectF, nedOfEcefVectF, enuOfEcefVectF,
    d.ltpOfEcef.mulVec_transpose_mulVec]

/-- Only the rotation of the origin matters for vectors. -/
theorem nedOfEcefVectF_congr {d d' : LtpDef} (h : d.ltpOfEcef = d'.ltpOfEcef) (v : Vect3) :
    nedOfEcefVectF d v = nedOfEcefVectF d' v := by
  rw [nedOfEcefVectF, enuOfEcefVectF, h]
  rfl

/-- The rotation of fixed-point speeds is the one of speeds in metres per second. -/
theorem speedsFloatOfBfp_nedOfEcefVectI (d : LtpDef) (v : Vect3) :
    speedsFloatOfBfp (nedOfEcefVectI d v) =
      nedOfEcefVectF (ltpFloatOfBfp d) (speedsFloatOfBfp v) := by
  rw [nedOfEcefVectI, enuOfEcefVectI, speedsFloatOfBfp, ← vect3NedOfEnu_smul,
    ← Matrix.mulVec_smul]
  rfl

theorem speedsFloatOfBfp_ecefOfNedVectI (d : LtpDef) (v : Vect3) :
    speedsFloatOfBfp (ecefOfNedVectI d v) =
      ecefOfNedVectF (ltpFloatOfBfp d) (speedsFloatOfBfp v) := by
  rw [ecefOfNedVectI, ecefOfEnuVectI, speedsFloatOfBfp, ← Matrix.mulVec_smul]
  exact congrArg _ (vect3NedOfEnu_smul (1 / 2 ^ 19) v).symm

end Paparazzi.Math.Velocity
