import Mathlib.Algebra.Order.Field.Rat
import Mathlib.Algebra.Order.Floor.Ring
import Mathlib.Data.Rat.Floor
import Mathlib.Tactic.Linarith
import Paparazzi.Library.Checked

/-!
The estimator of the vertical loop: a Kalman filter of the acceleration per unit of thrust. The
estimate has 24 fractional bits, its covariance 18 and the gain 12.
-/

namespace Paparazzi.Rotorcraft.GuidanceVAdapt

open Paparazzi.Library.Checked32

/-- The macro `Bound` of an integer with floating-point limits, which are positive. -/
def boundReal (x : ℤ) (min max : ℚ) : ℤ := if x > max then ⌊max⌋ else if x < min then ⌊min⌋ else x

structure Adapt where
  x : ℤ
  p : ℤ
  xmeas : ℤ
  deriving DecidableEq

/-- 0.1, as it is stored. -/
def gvAdaptP0 : ℤ := 26214

/-- 0.003, as it is stored. -/
def gvAdaptX0 : ℤ := 50331

def gvAdaptMaxAccel : ℤ := 4 * 2 ^ 10
def gvAdaptMinCmd : ℤ := 960
def gvAdaptMaxCmd : ℤ := 8640
def gvAdaptMeasNoiseHover : ℤ := 50 * 2 ^ 18
def gvAdaptMeasNoiseOfZd : ℤ := 100

/-- 9.81 m/s². -/
def gvAdaptMaxOut : ℚ := 981 / 100 * 2 ^ 24

def gvAdaptMinOut : ℚ := gvAdaptMaxOut / 9600

def gvAdaptInit (s : Adapt) : Adapt := { s with x := gvAdaptX0, p := gvAdaptP0 }

/-- The covariance with the system noise of 0.00005, where it is stored. -/
def gvAdaptPropagate (p : ℤ) : Option ℤ := check ((p * 10000 + 131072).tdiv 10000)

/-- The measurement: what of gravity the thrust takes away, per unit of it. -/
def gvAdaptMeasure (zddMeas thrustApplied : ℤ) : Option ℤ := do
  let gMinus ← check (10045 - zddMeas)
  let gMZdd ← check (gMinus * 2 ^ 14)
  let half := thrustApplied >>> (1 : ℕ)
  let num ← check (if gMZdd > 0 then gMZdd + half else gMZdd - half)
  div num thrustApplied

/-- The covariance of the error, with more measurement noise when climbing. -/
def gvAdaptError (p zdRef : ℤ) : Option ℤ := do
  let ref := zdRef >>> (1 : ℕ)
  let ref ← check (if zdRef < 0 then -ref else ref)
  check (p + gvAdaptMeasNoiseHover + ref * gvAdaptMeasNoiseOfZd)

def gvAdaptGain (p zdRef : ℤ) : Option ℤ := do
  let e ← gvAdaptError p zdRef
  let shifted ← check (p * 2 ^ 12)
  div shifted e

/-- The step of the filter, with no value where a signed integer overflows or a divisor is 0. -/
def gvAdaptUpdate (s : Adapt) (zddMeas thrustApplied zdRef : ℤ) : Option Adapt := do
  let p ← gvAdaptPropagate s.p
  let xmeas ← gvAdaptMeasure zddMeas thrustApplied
  let residual ← check (xmeas - s.x)
  let k ← gvAdaptGain p zdRef
  let kp ← check (k * p)
  let pNew ← check (p - kp >>> (12 : ℕ))
  let kr ← check (k * residual)
  let x ← check (s.x + kr >>> (12 : ℕ))
  some {
    x := boundReal x gvAdaptMinOut gvAdaptMaxOut
    p := if pNew > gvAdaptP0 then gvAdaptP0 else pNew
    xmeas := xmeas }

def gvAdaptRun (s : Adapt) (zddMeas thrustApplied zdRef : ℤ) : Option Adapt :=
  if thrustApplied < gvAdaptMinCmd ∨ thrustApplied > gvAdaptMaxCmd ∨
      zddMeas < -gvAdaptMaxAccel ∨ zddMeas > gvAdaptMaxAccel then some s
  else gvAdaptUpdate s zddMeas thrustApplied zdRef

/-- 40 m/s in the resolution of speeds. -/
def maxSpeed : ℤ := 40 * 2 ^ 19

/-- The estimate within the limits as they are stored, and the covariance positive. -/
structure Adapt.Valid (s : Adapt) : Prop where
  x : 17144 ≤ s.x ∧ s.x ≤ 164584488
  p : 0 < s.p ∧ s.p ≤ gvAdaptP0

theorem floor_gvAdaptMinOut : ⌊gvAdaptMinOut⌋ = 17144 := by
  norm_num [gvAdaptMinOut, gvAdaptMaxOut, Int.floor_eq_iff]

theorem floor_gvAdaptMaxOut : ⌊gvAdaptMaxOut⌋ = 164584488 := by
  norm_num [gvAdaptMaxOut, Int.floor_eq_iff]

/-- The limits are stored without their fractions, the lower one below itself. -/
theorem boundReal_gvAdapt (x : ℤ) :
    boundReal x gvAdaptMinOut gvAdaptMaxOut =
      if x > 164584488 then 164584488 else if x < 17145 then 17144 else x := by
  have hmax : (x : ℚ) > gvAdaptMaxOut ↔ x > 164584488 := by
    rw [gt_iff_lt, ← Int.floor_lt, floor_gvAdaptMaxOut]
  have hmin : (x : ℚ) < gvAdaptMinOut ↔ x < 17145 := by
    rw [← Int.lt_ceil]
    have hceil : ⌈gvAdaptMinOut⌉ = 17145 := by
      norm_num [gvAdaptMinOut, gvAdaptMaxOut, Int.ceil_eq_iff]
    rw [hceil]
  simp only [boundReal, hmax, hmin, floor_gvAdaptMinOut, floor_gvAdaptMaxOut]

theorem valid_gvAdaptInit (s : Adapt) : (gvAdaptInit s).Valid where
  x := by
    change 17144 ≤ gvAdaptX0 ∧ gvAdaptX0 ≤ 164584488
    decide
  p := by
    change 0 < gvAdaptP0 ∧ gvAdaptP0 ≤ gvAdaptP0
    decide

theorem gvAdaptPropagate_eq {p : ℤ} (hp : 0 < p ∧ p ≤ gvAdaptP0) :
    gvAdaptPropagate p = some (p + 13) := by
  rw [gvAdaptP0] at hp
  have hquot : (p * 10000 + 131072).tdiv 10000 = p + 13 := by
    rw [Int.tdiv_eq_ediv_of_nonneg (by omega)]
    omega
  rw [gvAdaptPropagate, hquot]
  exact check_of_fits ⟨by omega, by omega⟩

/-- Of nonnegative numbers the truncated quotient is the floor. -/
theorem div_of_nonneg {a b : ℤ} (ha : 0 ≤ a) (hfits : Fits a) (hb : 0 < b) :
    div a b = some (a / b) := by
  rw [div, if_neg hb.ne', Int.tdiv_eq_ediv_of_nonneg ha]
  have hnonneg := Int.ediv_nonneg ha hb.le
  have hle := Int.ediv_le_self b ha
  exact check_of_fits ⟨by omega, hle.trans_lt hfits.2⟩

theorem half_eq (z : ℤ) : z >>> (1 : ℕ) = z / 2 := by
  rw [Int.shiftRight_eq_div_pow]
  rfl

/-- Commands and accelerations in range give a measurement. -/
theorem exists_gvAdaptMeasure {zddMeas thrustApplied : ℤ}
    (hthrust : gvAdaptMinCmd ≤ thrustApplied ∧ thrustApplied ≤ gvAdaptMaxCmd)
    (hzdd : -gvAdaptMaxAccel ≤ zddMeas ∧ zddMeas ≤ gvAdaptMaxAccel) :
    ∃ x, gvAdaptMeasure zddMeas thrustApplied = some x ∧ 0 ≤ x ∧ x ≤ 250000 := by
  simp only [gvAdaptMinCmd, gvAdaptMaxCmd, gvAdaptMaxAccel] at hthrust hzdd
  have hminus : Fits (10045 - zddMeas) := ⟨by omega, by omega⟩
  have hshift : Fits ((10045 - zddMeas) * 2 ^ 14) := ⟨by omega, by omega⟩
  have hpos : (10045 - zddMeas) * 2 ^ 14 > 0 := by omega
  have hnum : Fits ((10045 - zddMeas) * 2 ^ 14 + thrustApplied / 2) := ⟨by omega, by omega⟩
  refine ⟨((10045 - zddMeas) * 2 ^ 14 + thrustApplied / 2) / thrustApplied, ?_, ?_, ?_⟩
  · simp only [gvAdaptMeasure, Option.bind_eq_bind, check_of_fits hminus, Option.bind_some,
      check_of_fits hshift, if_pos hpos, half_eq, check_of_fits hnum]
    exact div_of_nonneg (by omega) hnum (by omega)
  · exact Int.ediv_nonneg (by omega) (by omega)
  · apply Int.ediv_le_of_le_mul (by omega)
    omega

/-- The measurement noise is much more than the covariance. -/
theorem exists_gvAdaptError {p zdRef : ℤ} (hp : 0 ≤ p ∧ p ≤ 26227) (hzd : |zdRef| ≤ maxSpeed) :
    ∃ e, gvAdaptError p zdRef = some e ∧ p + 13107200 ≤ e ∧ e < 2 ^ 31 := by
  rw [maxSpeed, abs_le] at hzd
  have href : 0 ≤ (if zdRef < 0 then -(zdRef / 2) else zdRef / 2) ∧
      (if zdRef < 0 then -(zdRef / 2) else zdRef / 2) ≤ 10485760 := by
    split_ifs <;> omega
  simp only [gvAdaptError, half_eq]
  generalize (if zdRef < 0 then -(zdRef / 2) else zdRef / 2) = r at href
  have hrFits : Fits r := ⟨by omega, by omega⟩
  have hsum : Fits (p + gvAdaptMeasNoiseHover + r * gvAdaptMeasNoiseOfZd) := by
    rw [gvAdaptMeasNoiseHover, gvAdaptMeasNoiseOfZd]
    exact ⟨by omega, by omega⟩
  refine ⟨p + gvAdaptMeasNoiseHover + r * gvAdaptMeasNoiseOfZd, ?_, ?_, hsum.2⟩
  · rw [check_of_fits hrFits, Option.bind_eq_bind, Option.bind_some, check_of_fits hsum]
  · rw [gvAdaptMeasNoiseHover, gvAdaptMeasNoiseOfZd]
    omega

/-- So the gain is small. -/
theorem exists_gvAdaptGain {p zdRef : ℤ} (hp : 0 ≤ p ∧ p ≤ 26227) (hzd : |zdRef| ≤ maxSpeed) :
    ∃ k, gvAdaptGain p zdRef = some k ∧ 0 ≤ k ∧ k ≤ 8 := by
  obtain ⟨e, herror, hlow, hhigh⟩ := exists_gvAdaptError hp hzd
  have hshifted : Fits (p * 2 ^ 12) := ⟨by omega, by omega⟩
  refine ⟨p * 2 ^ 12 / e, ?_, ?_, ?_⟩
  · simp only [gvAdaptGain, herror, Option.bind_eq_bind, Option.bind_some, check_of_fits hshifted]
    exact div_of_nonneg (by omega) hshifted (by omega)
  · exact Int.ediv_nonneg (by omega) (by omega)
  · apply Int.lt_add_one_iff.mp
    apply Int.ediv_lt_of_lt_mul (by omega)
    omega

/-- The step for a measurement and a gain, where nothing overflows. -/
def gvAdaptStep (s : Adapt) (xmeas k : ℤ) : Adapt where
  x := boundReal (s.x + k * (xmeas - s.x) / 2 ^ 12) gvAdaptMinOut gvAdaptMaxOut
  p := if s.p + 13 - k * (s.p + 13) / 2 ^ 12 > gvAdaptP0 then gvAdaptP0
    else s.p + 13 - k * (s.p + 13) / 2 ^ 12
  xmeas := xmeas

theorem abs_gain_mul_le {s : Adapt} (hs : s.Valid) {xmeas k : ℤ} (hx : 0 ≤ xmeas ∧ xmeas ≤ 250000)
    (hk : 0 ≤ k ∧ k ≤ 8) : |k * (xmeas - s.x)| ≤ 8 * 164584488 := by
  have hsx := hs.x
  rw [abs_mul, abs_of_nonneg hk.1]
  exact mul_le_mul hk.2 (abs_le.mpr (by omega)) (abs_nonneg _) (by norm_num)

theorem gain_mul_mem {s : Adapt} (hs : s.Valid) {k : ℤ} (hk : 0 ≤ k ∧ k ≤ 8) :
    0 ≤ k * (s.p + 13) ∧ k * (s.p + 13) ≤ 8 * (s.p + 13) := by
  have hp := hs.p
  exact ⟨mul_nonneg hk.1 (by omega), mul_le_mul_of_nonneg_right hk.2 (by omega)⟩

theorem gvAdaptUpdate_eq {s : Adapt} (hs : s.Valid) {zddMeas thrustApplied zdRef xmeas k : ℤ}
    (hmeas : gvAdaptMeasure zddMeas thrustApplied = some xmeas) (hx : 0 ≤ xmeas ∧ xmeas ≤ 250000)
    (hgain : gvAdaptGain (s.p + 13) zdRef = some k) (hk : 0 ≤ k ∧ k ≤ 8) :
    gvAdaptUpdate s zddMeas thrustApplied zdRef = some (gvAdaptStep s xmeas k) := by
  have hsx := hs.x
  have hp := hs.p
  rw [gvAdaptP0] at hp
  have hkr := abs_le.mp (abs_gain_mul_le hs hx hk)
  have hkp := gain_mul_mem hs hk
  have hresidual : Fits (xmeas - s.x) := ⟨by omega, by omega⟩
  rw [gvAdaptStep]
  generalize hkpEq : k * (s.p + 13) = kp at hkp
  generalize hkrEq : k * (xmeas - s.x) = kr at hkr
  have hkpFits : Fits kp := ⟨by omega, by omega⟩
  have hkrFits : Fits kr := ⟨by omega, by omega⟩
  have hpNew : Fits (s.p + 13 - kp / 2 ^ 12) := ⟨by omega, by omega⟩
  have hxNew : Fits (s.x + kr / 2 ^ 12) := ⟨by omega, by omega⟩
  simp only [gvAdaptUpdate, gvAdaptPropagate_eq hs.p, Option.bind_eq_bind, Option.bind_some,
    hmeas, check_of_fits hresidual, hgain, hkpEq, check_of_fits hkpFits,
    Int.shiftRight_eq_div_pow, Nat.cast_pow, Nat.cast_ofNat, check_of_fits hpNew, hkrEq,
    check_of_fits hkrFits, check_of_fits hxNew]

theorem valid_gvAdaptStep {s : Adapt} (hs : s.Valid) {k : ℤ} (hk : 0 ≤ k ∧ k ≤ 8) (xmeas : ℤ) :
    (gvAdaptStep s xmeas k).Valid := by
  have hp := hs.p
  have hkp := gain_mul_mem hs hk
  constructor
  · change 17144 ≤ boundReal _ _ _ ∧ boundReal _ _ _ ≤ 164584488
    rw [boundReal_gvAdapt]
    omega
  · simp only [gvAdaptStep, gvAdaptP0] at *
    omega

/-- The filter has a value for every measurement, and keeps its state valid. -/
theorem exists_gvAdaptRun {s : Adapt} (hs : s.Valid) (zddMeas thrustApplied : ℤ) {zdRef : ℤ}
    (hzd : |zdRef| ≤ maxSpeed) :
    ∃ s', gvAdaptRun s zddMeas thrustApplied zdRef = some s' ∧ s'.Valid := by
  rw [gvAdaptRun]
  split_ifs with hout
  · exact ⟨s, rfl, hs⟩
  · push Not at hout
    have hp := hs.p
    rw [gvAdaptP0] at hp
    obtain ⟨xmeas, hmeas, hx⟩ := exists_gvAdaptMeasure ⟨hout.1, hout.2.1⟩ hout.2.2
    obtain ⟨k, hgain, hk⟩ := exists_gvAdaptGain (p := s.p + 13) ⟨by omega, by omega⟩ hzd
    exact ⟨_, gvAdaptUpdate_eq hs hmeas hx hgain hk, valid_gvAdaptStep hs hk xmeas⟩

end Paparazzi.Rotorcraft.GuidanceVAdapt
