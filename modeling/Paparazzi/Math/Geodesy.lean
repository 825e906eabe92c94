import Mathlib
import Paparazzi.Library.Numerals

/-!
The coordinate conversions of the math library, in exact arithmetic. Every
function keeps the unit its source documents: ECEF integers are centimetres,
local integer positions are metres with 8 fractional bits, the `point`
functions work in centimetres, and all floating-point values are metres and
radians. Rounding is abstracted away, and so are the scale of the entries of
the rotation matrix and the UTM zone, which is the one of the origin.
-/

namespace Paparazzi.Math.Geodesy

open Matrix

attribute [local instance] Library.Numerals.neZero_three

abbrev Vect3 := Fin 3 → ℚ

structure LlaCoor where
  lat : ℚ
  lon : ℚ
  alt : ℚ
  deriving DecidableEq

structure UtmCoor where
  north : ℚ
  east : ℚ
  alt : ℚ
  deriving DecidableEq

/-- A rotation matrix; its inverse is its transpose. -/
structure Rotation where
  m : Matrix (Fin 3) (Fin 3) ℚ
  mul_transpose : m * mᵀ = 1

/-- Definition of a local tangent plane: the origin and the rotation from ECEF
to the local east-north-up frame. -/
structure LtpDef where
  ecef : Vect3
  lla : LlaCoor
  ltpOfEcef : Rotation
  hmsl : ℚ

/-- The ellipsoid and the map projection, as exact conversions between the
floating-point global coordinates: `ecef_of_lla_f` with its inverse
`lla_of_ecef_f`, and `utm_of_lla_f` with its inverse `lla_of_utm_f`. -/
structure Earth where
  ecefOfLla : LlaCoor ≃ Vect3
  utmOfLla : LlaCoor ≃ UtmCoor

namespace Rotation

theorem transpose_mul (r : Rotation) : r.mᵀ * r.m = 1 :=
  mul_eq_one_comm.mp r.mul_transpose

theorem mulVec_transpose_mulVec (r : Rotation) (v : Vect3) :
    r.m *ᵥ (r.mᵀ *ᵥ v) = v := by
  rw [Matrix.mulVec_mulVec, r.mul_transpose, Matrix.one_mulVec]

theorem transpose_mulVec_mulVec (r : Rotation) (v : Vect3) :
    r.mᵀ *ᵥ (r.m *ᵥ v) = v := by
  rw [Matrix.mulVec_mulVec, r.transpose_mul, Matrix.one_mulVec]

end Rotation

/-! ### Unit conversions -/

def ecefBfpOfReal (v : Vect3) : Vect3 := (100 : ℚ) • v

def ecefFloatOfBfp (v : Vect3) : Vect3 := (1 / 100 : ℚ) • v

def llaBfpOfReal (l : LlaCoor) : LlaCoor :=
  { lat := l.lat * 10 ^ 7, lon := l.lon * 10 ^ 7, alt := l.alt * 10 ^ 3 }

def llaFloatOfBfp (l : LlaCoor) : LlaCoor :=
  { lat := l.lat / 10 ^ 7, lon := l.lon / 10 ^ 7, alt := l.alt / 10 ^ 3 }

/-- `NED_BFP_OF_REAL`, and `ENU_BFP_OF_REAL` which is the same macro: metres to
metres with `INT32_POS_FRAC` fractional bits. -/
def nedBfpOfReal (v : Vect3) : Vect3 := (2 ^ 8 : ℚ) • v

def nedFloatOfBfp (v : Vect3) : Vect3 := (1 / 2 ^ 8 : ℚ) • v

/-- `VECT3_ENU_OF_NED`, its own inverse and therefore `VECT3_NED_OF_ENU` too. -/
def vect3EnuOfNed (v : Vect3) : Vect3 := ![v 1, v 0, -v 2]

def vect3NedOfEnu (v : Vect3) : Vect3 := vect3EnuOfNed v

/-- The float copy of an integer origin made by `stateSetLocalOrigin_i`. -/
def ltpFloatOfBfp (d : LtpDef) : LtpDef :=
  { ecef := ecefFloatOfBfp d.ecef
    lla := llaFloatOfBfp d.lla
    ltpOfEcef := d.ltpOfEcef
    hmsl := d.hmsl / 10 ^ 3 }

@[simp] theorem ecefFloatOfBfp_ecefBfpOfReal (v : Vect3) :
    ecefFloatOfBfp (ecefBfpOfReal v) = v := by
  simp [ecefFloatOfBfp, ecefBfpOfReal, smul_smul]

@[simp] theorem ecefBfpOfReal_ecefFloatOfBfp (v : Vect3) :
    ecefBfpOfReal (ecefFloatOfBfp v) = v := by
  simp [ecefFloatOfBfp, ecefBfpOfReal, smul_smul]

@[simp] theorem llaFloatOfBfp_llaBfpOfReal (l : LlaCoor) :
    llaFloatOfBfp (llaBfpOfReal l) = l := by
  simp [llaFloatOfBfp, llaBfpOfReal]

@[simp] theorem nedFloatOfBfp_nedBfpOfReal (v : Vect3) :
    nedFloatOfBfp (nedBfpOfReal v) = v := by
  simp [nedFloatOfBfp, nedBfpOfReal, smul_smul]

@[simp] theorem vect3NedOfEnu_vect3EnuOfNed (v : Vect3) :
    vect3NedOfEnu (vect3EnuOfNed v) = v := by
  funext i
  fin_cases i <;> simp [vect3NedOfEnu, vect3EnuOfNed]

@[simp] theorem vect3EnuOfNed_vect3NedOfEnu (v : Vect3) :
    vect3EnuOfNed (vect3NedOfEnu v) = v := by
  funext i
  fin_cases i <;> simp [vect3NedOfEnu, vect3EnuOfNed]

theorem vect3NedOfEnu_smul (c : ℚ) (v : Vect3) :
    vect3NedOfEnu (c • v) = c • vect3NedOfEnu v := by
  funext i
  fin_cases i <;> simp [vect3NedOfEnu, vect3EnuOfNed]

/-! ### Local tangent plane, floating point -/

def enuOfEcefPointF (d : LtpDef) (ecef : Vect3) : Vect3 :=
  d.ltpOfEcef.m *ᵥ (ecef - d.ecef)

def nedOfEcefPointF (d : LtpDef) (ecef : Vect3) : Vect3 :=
  vect3NedOfEnu (enuOfEcefPointF d ecef)

def ecefOfEnuPointF (d : LtpDef) (enu : Vect3) : Vect3 :=
  d.ltpOfEcef.mᵀ *ᵥ enu + d.ecef

def ecefOfNedPointF (d : LtpDef) (ned : Vect3) : Vect3 :=
  ecefOfEnuPointF d (vect3EnuOfNed ned)

def nedOfLlaPointF (earth : Earth) (d : LtpDef) (lla : LlaCoor) : Vect3 :=
  nedOfEcefPointF d (earth.ecefOfLla lla)

def enuOfLlaPointF (earth : Earth) (d : LtpDef) (lla : LlaCoor) : Vect3 :=
  enuOfEcefPointF d (earth.ecefOfLla lla)

/-! ### Local tangent plane, fixed point -/

/-- ECEF centimetres to local centimetres. -/
def enuOfEcefPointI (d : LtpDef) (ecef : Vect3) : Vect3 :=
  d.ltpOfEcef.m *ᵥ (ecef - d.ecef)

def nedOfEcefPointI (d : LtpDef) (ecef : Vect3) : Vect3 :=
  vect3NedOfEnu (enuOfEcefPointI d ecef)

/-- ECEF centimetres to local metres with `INT32_POS_FRAC` fractional bits. -/
def enuOfEcefPosI (d : LtpDef) (ecef : Vect3) : Vect3 :=
  (2 ^ 6 / 25 : ℚ) • enuOfEcefPointI d ecef

def nedOfEcefPosI (d : LtpDef) (ecef : Vect3) : Vect3 :=
  vect3NedOfEnu (enuOfEcefPosI d ecef)

def ecefOfEnuPosI (d : LtpDef) (enu : Vect3) : Vect3 :=
  d.ltpOfEcef.mᵀ *ᵥ ((25 / 2 ^ 6 : ℚ) • enu) + d.ecef

def ecefOfNedPosI (d : LtpDef) (ned : Vect3) : Vect3 :=
  ecefOfEnuPosI d (vect3EnuOfNed ned)

def ecefOfLlaI (earth : Earth) (lla : LlaCoor) : Vect3 :=
  ecefBfpOfReal (earth.ecefOfLla (llaFloatOfBfp lla))

def llaOfEcefI (earth : Earth) (ecef : Vect3) : LlaCoor :=
  llaBfpOfReal (earth.ecefOfLla.symm (ecefFloatOfBfp ecef))

def enuOfLlaPointI (earth : Earth) (d : LtpDef) (lla : LlaCoor) : Vect3 :=
  enuOfEcefPointI d (ecefOfLlaI earth lla)

def nedOfLlaPointI (earth : Earth) (d : LtpDef) (lla : LlaCoor) : Vect3 :=
  nedOfEcefPointI d (ecefOfLlaI earth lla)

/-! ### UTM differences -/

def enuOfUtmDiff (u o : UtmCoor) : Vect3 :=
  ![u.east - o.east, u.north - o.north, u.alt - o.alt]

def nedOfUtmDiff (u o : UtmCoor) : Vect3 :=
  ![u.north - o.north, u.east - o.east, -u.alt + o.alt]

/-- The UTM position at a local offset from a UTM origin. -/
def utmOfNed (o : UtmCoor) (ned : Vect3) : UtmCoor :=
  { north := o.north + ned 0, east := o.east + ned 1, alt := o.alt - ned 2 }

/-! ### The conversions are mutually inverse -/

theorem ecefOfNedPointF_nedOfEcefPointF (d : LtpDef) (v : Vect3) :
    ecefOfNedPointF d (nedOfEcefPointF d v) = v := by
  simp [ecefOfNedPointF, ecefOfEnuPointF, nedOfEcefPointF, enuOfEcefPointF,
    d.ltpOfEcef.transpose_mulVec_mulVec]

/-- The fixed-point local position is the floating-point one in its own units. -/
theorem enuOfEcefPosI_eq (d : LtpDef) (v : Vect3) :
    enuOfEcefPosI d v =
      nedBfpOfReal (enuOfEcefPointF (ltpFloatOfBfp d) (ecefFloatOfBfp v)) := by
  have hdelta : ecefFloatOfBfp v - (ltpFloatOfBfp d).ecef =
      (1 / 100 : ℚ) • (v - d.ecef) := by
    simp [ecefFloatOfBfp, ltpFloatOfBfp, smul_sub]
  rw [enuOfEcefPosI, enuOfEcefPointI, enuOfEcefPointF, hdelta, nedBfpOfReal,
    Matrix.mulVec_smul, smul_smul]
  norm_num [ltpFloatOfBfp]

theorem nedBfpOfReal_vect3NedOfEnu (v : Vect3) :
    nedBfpOfReal (vect3NedOfEnu v) = vect3NedOfEnu (nedBfpOfReal v) :=
  (vect3NedOfEnu_smul _ v).symm

theorem nedOfEcefPosI_eq (d : LtpDef) (v : Vect3) :
    nedOfEcefPosI d v =
      nedBfpOfReal (nedOfEcefPointF (ltpFloatOfBfp d) (ecefFloatOfBfp v)) := by
  rw [nedOfEcefPosI, enuOfEcefPosI_eq, nedOfEcefPointF, nedBfpOfReal_vect3NedOfEnu]

theorem ecefOfEnuPosI_eq (d : LtpDef) (v : Vect3) :
    ecefOfEnuPosI d v =
      ecefBfpOfReal (ecefOfEnuPointF (ltpFloatOfBfp d) (nedFloatOfBfp v)) := by
  rw [ecefOfEnuPosI, ecefOfEnuPointF, ecefBfpOfReal, nedFloatOfBfp, smul_add,
    Matrix.mulVec_smul, Matrix.mulVec_smul, smul_smul]
  congr 1
  · norm_num [ltpFloatOfBfp]
  · exact (ecefBfpOfReal_ecefFloatOfBfp d.ecef).symm

theorem ecefOfNedPosI_eq (d : LtpDef) (v : Vect3) :
    ecefOfNedPosI d v =
      ecefBfpOfReal (ecefOfNedPointF (ltpFloatOfBfp d) (nedFloatOfBfp v)) := by
  rw [ecefOfNedPosI, ecefOfEnuPosI_eq, ecefOfNedPointF]
  congr 2
  exact (vect3NedOfEnu_smul _ v).symm

theorem utmOfNed_nedOfUtmDiff (o u : UtmCoor) :
    utmOfNed o (nedOfUtmDiff u o) = u := by
  simp [utmOfNed, nedOfUtmDiff]

theorem vect3NedOfEnu_enuOfUtmDiff (o u : UtmCoor) :
    vect3NedOfEnu (enuOfUtmDiff u o) = nedOfUtmDiff u o := by
  funext i
  fin_cases i <;> simp [vect3NedOfEnu, vect3EnuOfNed, enuOfUtmDiff, nedOfUtmDiff]
  ring

end Paparazzi.Math.Geodesy
