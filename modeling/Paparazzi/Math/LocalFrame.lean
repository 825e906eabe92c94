import Paparazzi.Library.Checked
import Paparazzi.Math.GeodeticInt

/-!
Positions of `pprz_geodetic_int.c` between ECEF and a local frame, in signed arithmetic of 32 and
64 bits that has no value where it overflows. Where it has one, it is that of the arithmetic that
wraps around.
-/

namespace Paparazzi.Math.LocalFrame

open Paparazzi.Library.Checked32
open Paparazzi.Library.Checked64
open Paparazzi.Math.GeodeticInt (EcefCoorI EnuCoorI Int32Mat33 LtpDefI)

/-- A position in any of the frames. -/
@[ext] structure Int32Vect3 where
  x : ℤ
  y : ℤ
  z : ℤ
  deriving DecidableEq, Repr

def vect3OfEcef (ecef : EcefCoorI) : Int32Vect3 := ⟨ecef.x.toInt, ecef.y.toInt, ecef.z.toInt⟩

def vect3OfEnu (enu : EnuCoorI) : Int32Vect3 := ⟨enu.x.toInt, enu.y.toInt, enu.z.toInt⟩

namespace Int32Vect3

def check (v : Int32Vect3) : Option Int32Vect3 :=
  if Fits v.x ∧ Fits v.y ∧ Fits v.z then some v else none

theorem check_of_fits {v : Int32Vect3} (hx : Fits v.x) (hy : Fits v.y) (hz : Fits v.z) :
    v.check = some v := if_pos ⟨hx, hy, hz⟩

theorem check_eq_some_iff {v w : Int32Vect3} :
    v.check = some w ↔ (Fits v.x ∧ Fits v.y ∧ Fits v.z) ∧ w = v := by
  rw [check, Option.ite_none_right_eq_some, Option.some.injEq, eq_comm (a := v)]

end Int32Vect3

/-! ### Vectors -/

def vect3Diff (a b : Int32Vect3) : Option Int32Vect3 :=
  Int32Vect3.check ⟨a.x - b.x, a.y - b.y, a.z - b.z⟩

def int32Vect3Add (a b : Int32Vect3) : Option Int32Vect3 :=
  Int32Vect3.check ⟨a.x + b.x, a.y + b.y, a.z + b.z⟩

def vect3Smul (v : Int32Vect3) (s : ℤ) : Option Int32Vect3 :=
  Int32Vect3.check ⟨v.x * s, v.y * s, v.z * s⟩

def vect3Sdiv (v : Int32Vect3) (s : ℤ) : Option Int32Vect3 := do
  let x ← div v.x s
  let y ← div v.y s
  let z ← div v.z s
  return ⟨x, y, z⟩

/-- The shift of a negative number rounds down. -/
def int32Vect3Rshift (v : Int32Vect3) (r : ℕ) : Int32Vect3 := ⟨v.x >>> r, v.y >>> r, v.z >>> r⟩

def int32Vect3Lshift (v : Int32Vect3) (l : ℕ) : Option Int32Vect3 :=
  Int32Vect3.check ⟨v.x * 2 ^ l, v.y * 2 ^ l, v.z * 2 ^ l⟩

/-- `ENU_OF_TO_NED`, in either direction. -/
def enuOfToNed (v : Int32Vect3) : Option Int32Vect3 := Int32Vect3.check ⟨v.y, v.x, -v.z⟩

/-! ### Conversions -/

def highResTrigFrac : ℕ := 20

def int32PosFrac : ℕ := 8

/-- Products of 64 bits, their sum shifted and converted to 32 bits. -/
def rotateRow (terms : List (ℤ × ℤ)) : Option ℤ := do
  let tmp ← addProducts 0 terms
  check (tmp >>> highResTrigFrac)

/-- In centimetres; the last entry of the first row is always zero. -/
def enuOfEcefPointI (d : LtpDefI) (ecef : Int32Vect3) : Option Int32Vect3 := do
  let m := d.ltpOfEcef
  let delta ← vect3Diff ecef (vect3OfEcef d.ecef)
  let x ← rotateRow [(m.m0.toInt, delta.x), (m.m1.toInt, delta.y)]
  let y ← rotateRow [(m.m3.toInt, delta.x), (m.m4.toInt, delta.y), (m.m5.toInt, delta.z)]
  let z ← rotateRow [(m.m6.toInt, delta.x), (m.m7.toInt, delta.y), (m.m8.toInt, delta.z)]
  return ⟨x, y, z⟩

/-- From centimetres to metres with `int32PosFrac` fractional bits. -/
def enuOfEcefPosI (d : LtpDefI) (ecef : Int32Vect3) : Option Int32Vect3 := do
  let enuCm ← enuOfEcefPointI d ecef
  let enu ← int32Vect3Lshift enuCm (int32PosFrac - 2)
  vect3Sdiv enu 25

def nedOfEcefPosI (d : LtpDefI) (ecef : Int32Vect3) : Option Int32Vect3 := do
  let enu ← enuOfEcefPosI d ecef
  enuOfToNed enu

def ecefOfEnuVectI (d : LtpDefI) (enu : Int32Vect3) : Option Int32Vect3 := do
  let m := d.ltpOfEcef
  let x ← rotateRow [(m.m0.toInt, enu.x), (m.m3.toInt, enu.y), (m.m6.toInt, enu.z)]
  let y ← rotateRow [(m.m1.toInt, enu.x), (m.m4.toInt, enu.y), (m.m7.toInt, enu.z)]
  let z ← rotateRow [(m.m5.toInt, enu.y), (m.m8.toInt, enu.z)]
  return ⟨x, y, z⟩

def ecefOfEnuPosI (d : LtpDefI) (enu : Int32Vect3) : Option Int32Vect3 := do
  let enuCm ← vect3Smul enu 25
  let ecef ← ecefOfEnuVectI d (int32Vect3Rshift enuCm (int32PosFrac - 2))
  int32Vect3Add ecef (vect3OfEcef d.ecef)

def ecefOfNedPosI (d : LtpDefI) (ned : Int32Vect3) : Option Int32Vect3 := do
  let enu ← enuOfToNed ned
  ecefOfEnuPosI d enu

/-- The matrix of `ltp_def_from_ecef_i` and `ltp_def_from_lla_i`, behind the rounded sines and
cosines of the latitude and the longitude. -/
def ltpOfTrig (sinLat cosLat sinLon cosLon : Int32) : Int32Mat33 where
  m0 := -sinLon
  m1 := cosLon
  m2 := 0
  m3 := ((-sinLat.toInt64 * cosLon.toInt64) >>> GeodeticInt.highResTrigFrac).toInt32
  m4 := ((-sinLat.toInt64 * sinLon.toInt64) >>> GeodeticInt.highResTrigFrac).toInt32
  m5 := cosLat
  m6 := ((cosLat.toInt64 * cosLon.toInt64) >>> GeodeticInt.highResTrigFrac).toInt32
  m7 := ((cosLat.toInt64 * sinLon.toInt64) >>> GeodeticInt.highResTrigFrac).toInt32
  m8 := sinLat

/-! ### Wrapping arithmetic -/

theorem eq_bmod_of_fits {z : ℤ} (h : Fits z) : z.bmod (2 ^ 32) = z := by
  rw [Fits] at h
  exact Int.bmod_eq_of_le (by omega) (by omega)

theorem eq_bmod_of_fits64 {z : ℤ} (h : Fits64 z) : z.bmod (2 ^ 64) = z := by
  rw [Fits64] at h
  exact Int.bmod_eq_of_le (by omega) (by omega)

theorem toInt_shiftRight (a : Int64) :
    (a >>> GeodeticInt.highResTrigFrac).toInt = a.toInt >>> highResTrigFrac := by
  change (a.toBitVec.sshiftRight' _).toInt = _
  rw [BitVec.toInt_sshiftRight']
  rfl

theorem shiftLeft_eq_mul (a : Int32) : a <<< (GeodeticInt.int32PosFrac - 2) = a * 64 := by
  apply Int32.toBitVec_inj.mp
  change a.toBitVec <<< _ = _
  rw [BitVec.shiftLeft_eq', BitVec.shiftLeft_eq_mul_twoPow]
  rfl

theorem rotateRow_eq_some {terms : List (ℤ × ℤ)} {a : ℤ} (h : rotateRow terms = some a) :
    Fits64 (sumOfProducts terms) ∧ Fits (sumOfProducts terms >>> highResTrigFrac) ∧
      a = sumOfProducts terms >>> highResTrigFrac := by
  obtain ⟨tmp, htmp, hcheck⟩ := Option.bind_eq_some_iff.mp h
  obtain ⟨hfits, hsum⟩ := addProducts_eq_some (by decide) htmp
  rw [zero_add] at hsum
  rw [hsum] at hfits hcheck
  exact ⟨hfits, check_eq_some_iff.mp hcheck⟩

/-- A row in 64-bit arithmetic that wraps around. -/
theorem toInt_rotateRow {a b c : Int32} {v : EcefCoorI} {terms : List (ℤ × ℤ)} {r : ℤ}
    (h : rotateRow terms = some r) (hterms : sumOfProducts terms =
      a.toInt * v.x.toInt + b.toInt * v.y.toInt + c.toInt * v.z.toInt) :
    (GeodeticInt.rotateRow a b c v).toInt = r := by
  obtain ⟨hfits64, hfits, rfl⟩ := rotateRow_eq_some h
  have hsum : (a.toInt64 * v.x.toInt64 + b.toInt64 * v.y.toInt64 +
      c.toInt64 * v.z.toInt64).toInt = sumOfProducts terms := by
    simp only [Int64.toInt_add, Int64.toInt_mul, Int32.toInt_toInt64, Int.bmod_add_bmod,
      Int.add_bmod_bmod, ← hterms]
    exact eq_bmod_of_fits64 hfits64
  rw [GeodeticInt.rotateRow, Int64.toInt_toInt32, toInt_shiftRight, hsum]
  exact eq_bmod_of_fits hfits

theorem vect3OfEnu_enuOfEcefPointI {d : LtpDefI} {ecef : EcefCoorI} {v : Int32Vect3}
    (h : enuOfEcefPointI d (vect3OfEcef ecef) = some v) :
    vect3OfEnu (GeodeticInt.enuOfEcefPointI d ecef) = v := by
  simp only [enuOfEcefPointI, vect3Diff, Option.bind_eq_bind, Option.bind_eq_some_iff,
    Int32Vect3.check_eq_some_iff, vect3OfEcef] at h
  obtain ⟨delta, ⟨⟨hx, hy, hz⟩, rfl⟩, x, hrowx, y, hrowy, z, hrowz, hv⟩ := h
  have hdelta : vect3OfEcef ⟨ecef.x - d.ecef.x, ecef.y - d.ecef.y, ecef.z - d.ecef.z⟩ =
      ⟨ecef.x.toInt - d.ecef.x.toInt, ecef.y.toInt - d.ecef.y.toInt,
        ecef.z.toInt - d.ecef.z.toInt⟩ := by
    rw [vect3OfEcef, Int32.toInt_sub, Int32.toInt_sub, Int32.toInt_sub, eq_bmod_of_fits hx,
      eq_bmod_of_fits hy, eq_bmod_of_fits hz]
  rw [vect3OfEcef, Int32Vect3.mk.injEq] at hdelta
  obtain ⟨hdx, hdy, hdz⟩ := hdelta
  cases hv
  simp only [vect3OfEnu, GeodeticInt.enuOfEcefPointI, Int32Vect3.mk.injEq]
  refine ⟨toInt_rotateRow hrowx ?_, toInt_rotateRow hrowy ?_, toInt_rotateRow hrowz ?_⟩
  · simp [hdx, hdy]
  · simp [hdx, hdy, hdz, add_assoc]
  · simp [hdx, hdy, hdz, add_assoc]

theorem toInt_scaled {a : Int32} {cm r : ℤ} (ha : a.toInt = cm)
    (hfits : Fits (cm * 2 ^ (int32PosFrac - 2)))
    (h : div (cm * 2 ^ (int32PosFrac - 2)) 25 = some r) :
    ((a <<< (GeodeticInt.int32PosFrac - 2)) / 25).toInt = r := by
  rw [div, if_neg (by decide), check_eq_some_iff] at h
  have hmul : (a * 64).toInt = cm * 2 ^ (int32PosFrac - 2) := by
    rw [Int32.toInt_mul, ha]
    exact eq_bmod_of_fits hfits
  rw [shiftLeft_eq_mul, Int32.toInt_div, hmul, h.2]
  exact eq_bmod_of_fits h.1

/-- Where nothing overflows, the position is that of the arithmetic that wraps around. -/
theorem vect3OfEnu_enuOfEcefPosI {d : LtpDefI} {ecef : EcefCoorI} {v : Int32Vect3}
    (h : enuOfEcefPosI d (vect3OfEcef ecef) = some v) :
    vect3OfEnu (GeodeticInt.enuOfEcefPosI d ecef) = v := by
  simp only [enuOfEcefPosI, int32Vect3Lshift, vect3Sdiv, Option.bind_eq_bind,
    Option.bind_eq_some_iff, Int32Vect3.check_eq_some_iff] at h
  obtain ⟨enuCm, hcm, enu, ⟨⟨hx, hy, hz⟩, rfl⟩, x, hdivx, y, hdivy, z, hdivz, hv⟩ := h
  cases hv
  have heq := vect3OfEnu_enuOfEcefPointI hcm
  simp only [vect3OfEnu, Int32Vect3.ext_iff] at heq
  simp only [vect3OfEnu, GeodeticInt.enuOfEcefPosI, Int32Vect3.mk.injEq]
  exact ⟨toInt_scaled heq.1 hx hdivx, toInt_scaled heq.2.1 hy hdivy,
    toInt_scaled heq.2.2 hz hdivz⟩

theorem toInt_product {a b : Int64} {x y : ℤ} (ha : a.toInt = x) (hb : b.toInt = y)
    (hx : |x| ≤ 2 ^ 21) (hy : |y| ≤ 2 ^ 21) :
    ((a * b) >>> GeodeticInt.highResTrigFrac).toInt32.toInt = (x * y) >>> highResTrigFrac := by
  have hprod : |x * y| ≤ 2 ^ 21 * 2 ^ 21 := by
    rw [abs_mul]
    exact mul_le_mul hx hy (abs_nonneg y) (by decide)
  have hmul : (a * b).toInt = x * y := by
    rw [Int64.toInt_mul, ha, hb]
    exact eq_bmod_of_fits64 (fits64_of_abs_lt (hprod.trans_lt (by decide)))
  rw [Int64.toInt_toInt32, toInt_shiftRight, hmul]
  apply eq_bmod_of_fits
  rw [abs_le] at hprod
  rw [Fits, highResTrigFrac, Int.shiftRight_eq_div_pow]
  omega

theorem toInt_neg_toInt64 {a : Int32} (h : |a.toInt| ≤ 2 ^ 21) :
    (-a.toInt64).toInt = -a.toInt := by
  rw [Int64.toInt_neg, Int32.toInt_toInt64]
  exact eq_bmod_of_fits64 (fits64_of_abs_lt (by rw [abs_neg]; exact h.trans_lt (by decide)))

end Paparazzi.Math.LocalFrame
