import Paparazzi.Math.TrigInt
import Paparazzi.Rotorcraft.GuidanceVAdapt
import Paparazzi.Rotorcraft.GuidanceVRef

/-!
The vertical loop of the rotorcraft, `guidance_v_run`: the estimator, the reference model, and the
command of the hover loop. Positions have 8 fractional bits, speeds 19 and accelerations 10.
-/

namespace Paparazzi.Rotorcraft.GuidanceV

open Paparazzi.Library.Checked32
open Paparazzi.Math.TrigInt
open Paparazzi.Rotorcraft.GuidanceVAdapt
open Paparazzi.Rotorcraft.GuidanceVRef
open Paparazzi.Rotorcraft.NavRoute (bound)

def maxPprz : ℤ := 9600

/-- 10 m, the limit of the altitude error. -/
def maxErrZ : ℤ := 10 * 2 ^ 8

/-- 10 m/s, the limit of the speed error. -/
def maxErrZd : ℤ := 10 * 2 ^ 19

def maxSumErr : ℤ := 2000000

/-- 30 degrees in radians with 14 fractional bits, where it is stored. -/
def maxBankCoef : ℤ := 8578

/-- The gains, whose products with the limits of the errors fit, and the table of sines. -/
structure Airframe where
  kp : ℤ
  kd : ℤ
  ki : ℤ
  kp_mem : 0 ≤ kp ∧ Fits (kp * maxErrZ)
  kd_mem : 0 ≤ kd ∧ Fits (kd * maxErrZd)
  ki_mem : 0 ≤ ki ∧ Fits (ki * maxSumErr)
  pprzTrigInt : ℕ → ℤ
  trig_mem : ∀ i ≤ 6433, 0 ≤ pprzTrigInt i ∧ pprzTrigInt i ≤ 2 ^ 14

/-- What the state interface gives: the acceleration is any, altitude and speed are within 20 km
and 40 m/s, the attitude is within a turn. -/
structure Measured where
  accelZ : ℤ
  posZ : ℤ
  speedZ : ℤ
  phi : ℤ
  theta : ℤ
  posZ_mem : |posZ| ≤ maxPosSp
  speedZ_mem : |speedZ| ≤ maxSpeed
  phi_mem : |phi| ≤ int32Angle2Pi
  theta_mem : |theta| ≤ int32Angle2Pi

inductive VMode where
  | kill
  | rcDirect
  | rcClimb
  | climb
  | hover
  | nav
  deriving DecidableEq

inductive VerticalMode where
  | manual
  | climb
  | alt
  deriving DecidableEq

structure VState where
  mode : VMode
  adapt : Adapt
  ref : GvRef
  zSp : ℤ
  zdSp : ℤ
  zRef : ℤ
  zdRef : ℤ
  zddRef : ℤ
  zSumErr : ℤ
  ffCmd : ℤ
  fbCmd : ℤ
  deltaT : ℤ
  rcDeltaT : ℤ
  rcZdSp : ℤ
  rcOk : Bool
  verticalMode : VerticalMode
  navFlightAltitude : ℤ
  navClimb : ℤ
  navThrottle : ℤ
  thrust : ℤ

/-- `guidance_v_init`, with the other variables as they start. -/
def guidanceVInit : VState where
  mode := .kill
  adapt := gvAdaptInit ⟨0, 0, 0⟩
  ref := ⟨0, 0, 0⟩
  zSp := 0
  zdSp := 0
  zRef := 0
  zdRef := 0
  zddRef := 0
  zSumErr := 0
  ffCmd := 0
  fbCmd := 0
  deltaT := 0
  rcDeltaT := 0
  rcZdSp := 0
  rcOk := false
  verticalMode := .manual
  navFlightAltitude := 0
  navClimb := 0
  navThrottle := 0
  thrust := 0

/-- The macro `GuidanceVSetRef`, with an acceleration of 0. -/
def guidanceVSetRef (s : VState) (pos speed : ℤ) : VState :=
  { s with ref := gvSetRef pos speed 0, zRef := pos, zdRef := speed, zddRef := 0 }

def guidanceVModeChanged (s : VState) (newMode : VMode) (m : Measured) : VState :=
  if newMode = s.mode then s
  else
    match newMode with
    | .hover =>
        { guidanceVSetRef { s with zSp := m.posZ, zSumErr := 0 } m.posZ 0 with mode := newMode }
    | .rcClimb | .climb =>
        { guidanceVSetRef { s with zdSp := 0, zSumErr := 0 } m.posZ m.speedZ with mode := newMode }
    | .nav => { guidanceVSetRef { s with zSumErr := 0 } m.posZ m.speedZ with mode := newMode }
    | .kill | .rcDirect => { s with mode := newMode }

def guidanceVNotifyInFlight (s : VState) (inFlight : Bool) : VState :=
  if inFlight then { s with adapt := gvAdaptInit s.adapt } else s

/-- The cosine of the bank, not less than the limit. -/
def cosBank (a : Airframe) (m : Measured) : Option ℤ := do
  let product ← check (pprzItrigCos a.pprzTrigInt m.phi * pprzItrigCos a.pprzTrigInt m.theta)
  let cphitheta := product >>> (14 : ℕ)
  some (if cphitheta < maxBankCoef then maxBankCoef else cphitheta)

/-- The feed forward command: the thrust for gravity and the acceleration of the reference, more
of it in a bank. -/
def feedForward (a : Airframe) (x zddRef : ℤ) (m : Measured) : Option ℤ := do
  let invM := x >>> (6 : ℕ)
  let shifted ← check (zddRef * 2 ^ 8)
  let gMZdd ← check (2571632 - shifted)
  let ff ← div gMZdd invM
  let cphitheta ← cosBank a m
  let shifted ← check (ff * 2 ^ 14)
  let ff ← div shifted cphitheta
  some (bound ff 0 8640)

/-- The feed back command. -/
def feedBack (a : Airframe) (errZ errZd zSumErr : ℤ) : Option ℤ := do
  let p ← check (-a.kp * errZ)
  let d ← check (-a.kd * errZd)
  let i ← check (-a.ki * zSumErr)
  let pd ← check (p >>> (7 : ℕ) + d >>> (16 : ℕ))
  check (pd + i >>> (16 : ℕ))

/-- The sum of the altitude errors in flight. -/
def sumErr (zSumErr errZ : ℤ) (inFlight : Bool) : Option ℤ :=
  if inFlight then do
    let sum ← check (zSumErr + errZ)
    some (bound sum (-maxSumErr) maxSumErr)
  else some 0

/-- No value where a signed integer overflows, the altitude does not fit into 32 bits or a divisor
is 0. -/
def runHoverLoop (a : Airframe) (s : VState) (m : Measured) (inFlight : Bool) :
    Option VState := do
  let zRef ← check (s.ref.z >>> (18 : ℕ))
  let zdRef ← check (s.ref.zd * 2 ^ 2)
  let zddRef ← check (s.ref.zdd * 2 ^ 2)
  let errZ ← check (zRef - m.posZ)
  let errZ := bound errZ (-maxErrZ) maxErrZ
  let errZd ← check (zdRef - m.speedZ)
  let errZd := bound errZd (-maxErrZd) maxErrZd
  let zSumErr ← sumErr s.zSumErr errZ inFlight
  let ffCmd ← feedForward a s.adapt.x zddRef m
  let fbCmd ← feedBack a errZ errZd zSumErr
  let deltaT ← check (ffCmd + fbCmd)
  some { s with
    zRef := zRef
    zdRef := zdRef
    zddRef := zddRef
    zSumErr := zSumErr
    ffCmd := ffCmd
    fbCmd := fbCmd
    deltaT := bound deltaT 0 maxPprz }

/-- The modes that run the hover loop. -/
def VState.runsHoverLoop (s : VState) : Bool :=
  match s.mode, s.verticalMode with
  | .rcClimb, _ | .climb, _ | .hover, _ | .nav, .alt | .nav, .climb => true
  | .kill, _ | .rcDirect, _ | .nav, .manual => false

/-- What each mode does before the hover loop: its set point, and the reference for it. -/
def setReference (s : VState) (m : Measured) : Option VState :=
  match s.mode with
  | .kill => some s
  | .rcDirect => some { s with zSp := m.posZ }
  | .rcClimb => do
      let ref ← gvUpdateRefFromZdSp s.ref s.rcZdSp
      some { s with zdSp := s.rcZdSp, ref := ref }
  | .climb => do
      let ref ← gvUpdateRefFromZdSp s.ref s.zdSp
      some { s with ref := ref }
  | .hover => do
      let ref ← gvUpdateRefFromZSp s.ref s.zSp
      some { s with ref := ref }
  | .nav =>
      match s.verticalMode with
      | .alt => do
          let zSp ← check (-s.navFlightAltitude)
          let ref ← gvUpdateRefFromZSp s.ref zSp
          some { s with zSp := zSp, ref := ref }
      | .climb => do
          let zdSp ← check (-s.navClimb)
          let ref ← gvUpdateRefFromZdSp s.ref zdSp
          let altitude ← check (-s.zSp)
          some { s with zdSp := zdSp, ref := ref, navFlightAltitude := altitude }
      | .manual => do
          let zSp ← check (-s.navFlightAltitude)
          some { s with zSp := zSp, deltaT := s.navThrottle }

/-- The thrust each mode commands, limited by the stick. -/
def commandThrust (s : VState) : VState :=
  { s with
    thrust :=
      match s.mode with
      | .kill => s.thrust
      | .rcDirect => s.rcDeltaT
      | .rcClimb => s.deltaT
      | .climb | .hover => min s.rcDeltaT s.deltaT
      | .nav => if s.rcOk then min s.rcDeltaT s.deltaT else s.deltaT }

/-- The modes with the hover loop run it. -/
def hoverIfAsked (a : Airframe) (s : VState) (m : Measured) (inFlight : Bool) : Option VState :=
  if s.runsHoverLoop then runHoverLoop a s m inFlight else some s

/-- The estimator runs in flight. -/
def adaptInFlight (s : VState) (m : Measured) (inFlight : Bool) : Option VState :=
  if inFlight then do
    let adapt ← gvAdaptRun s.adapt m.accelZ s.thrust s.zdRef
    some { s with adapt := adapt }
  else some s

def guidanceVRun (a : Airframe) (s : VState) (m : Measured) (inFlight : Bool) :
    Option VState := do
  let s ← adaptInFlight s m inFlight
  let s ← setReference s m
  let s ← hoverIfAsked a s m inFlight
  some (commandThrust s)

/-- What else writes the variables: the mode and the in-flight flag of the autopilot, the stick,
the set points of settings and failsafe, the navigation, and other commands of thrust. -/
inductive Event where
  | modeChanged (newMode : VMode) (m : Measured)
  | notifyInFlight (inFlight : Bool)
  | readRc (deltaT zdSp : ℤ) (ok : Bool)
  | setPoints (zSp zdSp : ℤ)
  | navigate (mode : VerticalMode) (altitude climb throttle : ℤ)
  | command (thrust : ℤ)
  | run (m : Measured) (inFlight : Bool)

def step (a : Airframe) (s : VState) : Event → Option VState
  | .modeChanged newMode m => some (guidanceVModeChanged s newMode m)
  | .notifyInFlight inFlight => some (guidanceVNotifyInFlight s inFlight)
  | .readRc deltaT zdSp ok => some { s with rcDeltaT := deltaT, rcZdSp := zdSp, rcOk := ok }
  | .setPoints zSp zdSp => some { s with zSp := zSp, zdSp := zdSp }
  | .navigate mode altitude climb throttle =>
      some { s with verticalMode := mode, navFlightAltitude := altitude, navClimb := climb,
                    navThrottle := throttle }
  | .command thrust => some { s with thrust := thrust }
  | .run m inFlight => guidanceVRun a s m inFlight

/-! ### The hover loop -/

theorem abs_pprzItrigSin_le (a : Airframe) (angle : ℤ) :
    |pprzItrigSin a.pprzTrigInt angle| ≤ 2 ^ 14 := by
  have hquarter : |quarter (int32AngleNormalize angle)| ≤ 6433 := by
    rw [int32AngleNormalize_eq, quarter, int32AnglePi2, int32AnglePi, abs_le]
    have hlow := Int.le_bmod (x := angle) (m := 25735) (by norm_num)
    have hhigh := Int.bmod_lt (x := angle) (m := 25735) (by norm_num)
    split_ifs <;> omega
  rw [abs_le] at hquarter
  rw [pprzItrigSin, abs_le]
  split_ifs with hsign
  · have htrig := a.trig_mem (quarter (int32AngleNormalize angle)).toNat (by omega)
    omega
  · have htrig := a.trig_mem (-quarter (int32AngleNormalize angle)).toNat (by omega)
    omega

theorem bound_mem {x lo hi : ℤ} (h : lo ≤ hi) : lo ≤ bound x lo hi ∧ bound x lo hi ≤ hi := by
  rw [bound]
  split_ifs <;> omega

theorem exists_cosBank (a : Airframe) (m : Measured) :
    ∃ c, cosBank a m = some c ∧ 8578 ≤ c ∧ c ≤ 2 ^ 14 := by
  have hcos : |pprzItrigCos a.pprzTrigInt m.phi * pprzItrigCos a.pprzTrigInt m.theta| ≤ 2 ^ 28 := by
    rw [abs_mul]
    have hprod := mul_le_mul (abs_pprzItrigSin_le a (m.phi + int32AnglePi2))
      (abs_pprzItrigSin_le a (m.theta + int32AnglePi2)) (abs_nonneg _) (by norm_num)
    exact hprod.trans (by norm_num)
  rw [abs_le] at hcos
  simp only [cosBank, maxBankCoef, Int.shiftRight_eq_div_pow]
  generalize pprzItrigCos a.pprzTrigInt m.phi * pprzItrigCos a.pprzTrigInt m.theta = c at hcos
  have hcFits : Fits c := ⟨by omega, by omega⟩
  rw [check_of_fits hcFits]
  refine ⟨_, rfl, ?_⟩
  norm_num
  omega

/-- The feed forward command has a value for any estimate and any bank. -/
theorem exists_feedForward (a : Airframe) {x zddRef : ℤ} (hx : 17144 ≤ x ∧ x ≤ 164584488)
    (hzdd : -20088 ≤ zddRef ∧ zddRef ≤ 8036) (m : Measured) :
    ∃ ff, feedForward a x zddRef m = some ff ∧ 0 ≤ ff ∧ ff ≤ 8640 := by
  obtain ⟨c, hc, hcLow, hcHigh⟩ := exists_cosBank a m
  have hinv : 267 ≤ x / 2 ^ 6 ∧ x / 2 ^ 6 ≤ 2571632 := by omega
  have hshift : Fits (zddRef * 2 ^ 8) := ⟨by omega, by omega⟩
  have hg : Fits (2571632 - zddRef * 2 ^ 8) := ⟨by omega, by omega⟩
  have hgNonneg : 0 ≤ 2571632 - zddRef * 2 ^ 8 := by omega
  have hff : 0 ≤ (2571632 - zddRef * 2 ^ 8) / (x / 2 ^ 6) ∧
      (2571632 - zddRef * 2 ^ 8) / (x / 2 ^ 6) ≤ 28892 := by
    constructor
    · exact Int.ediv_nonneg hgNonneg (by omega)
    · apply Int.lt_add_one_iff.mp
      apply Int.ediv_lt_of_lt_mul (by omega)
      omega
  have hdiv := div_of_nonneg hgNonneg hg (show 0 < x / 2 ^ 6 by omega)
  generalize (2571632 - zddRef * 2 ^ 8) / (x / 2 ^ 6) = ff at hff hdiv
  have hffFits : Fits (ff * 2 ^ 14) := ⟨by omega, by omega⟩
  have hlast := div_of_nonneg (by omega) hffFits (show 0 < c by omega)
  refine ⟨bound (ff * 2 ^ 14 / c) 0 8640, ?_, bound_mem (by norm_num)⟩
  simp only [feedForward, Option.bind_eq_bind, Int.shiftRight_eq_div_pow, Nat.cast_pow,
    Nat.cast_ofNat, check_of_fits hshift, Option.bind_some, check_of_fits hg, hdiv, hc,
    check_of_fits hffFits, hlast]

/-- A gain times a bounded error. -/
theorem fits_gain_mul {gain limit err : ℤ} (hgain : 0 ≤ gain ∧ Fits (gain * limit))
    (herr : |err| ≤ limit) : Fits (-gain * err) := by
  have hprod : |-gain * err| ≤ gain * limit := by
    rw [abs_mul, abs_neg, abs_of_nonneg hgain.1]
    exact mul_le_mul_of_nonneg_left herr hgain.1
  exact fits_of_abs_lt (hprod.trans_lt hgain.2.2)

theorem exists_feedBack (a : Airframe) {errZ errZd zSumErr : ℤ} (hz : |errZ| ≤ maxErrZ)
    (hzd : |errZd| ≤ maxErrZd) (hsum : |zSumErr| ≤ maxSumErr) :
    ∃ fb, feedBack a errZ errZd zSumErr = some fb ∧ |fb| ≤ 2 ^ 25 := by
  have hp := fits_gain_mul a.kp_mem hz
  have hd := fits_gain_mul a.kd_mem hzd
  have hi := fits_gain_mul a.ki_mem hsum
  simp only [feedBack, Option.bind_eq_bind, check_of_fits hp, check_of_fits hd, check_of_fits hi,
    Option.bind_some, Int.shiftRight_eq_div_pow, Nat.cast_pow, Nat.cast_ofNat]
  generalize -a.kp * errZ = p at hp
  generalize -a.kd * errZd = d at hd
  generalize -a.ki * zSumErr = i at hi
  obtain ⟨hp1, hp2⟩ := hp
  obtain ⟨hd1, hd2⟩ := hd
  obtain ⟨hi1, hi2⟩ := hi
  have hpd : Fits (p / 2 ^ 7 + d / 2 ^ 16) := ⟨by omega, by omega⟩
  have hpdi : Fits (p / 2 ^ 7 + d / 2 ^ 16 + i / 2 ^ 16) := ⟨by omega, by omega⟩
  refine ⟨p / 2 ^ 7 + d / 2 ^ 16 + i / 2 ^ 16, ?_, abs_le.mpr (by omega)⟩
  rw [check_of_fits hpd, Option.bind_some, check_of_fits hpdi]

/-- The altitude of the reference and its difference to the measured one fit into 32 bits. -/
def Near (s : VState) (m : Measured) : Prop :=
  Fits (s.ref.z >>> (18 : ℕ)) ∧ Fits (s.ref.z >>> (18 : ℕ) - m.posZ)

instance (s : VState) (m : Measured) : Decidable (Near s m) := inferInstanceAs (Decidable (_ ∧ _))

/-- The invariant of the loop: the estimator, the speed of the reference as it is handed out, and
the sum of the errors. -/
structure VState.Valid (s : VState) : Prop where
  adapt : s.adapt.Valid
  zdRef : |s.zdRef| ≤ maxSpeed
  zSumErr : |s.zSumErr| ≤ maxSumErr

theorem exists_sumErr {zSumErr errZ : ℤ} (hsum : |zSumErr| ≤ maxSumErr) (hz : |errZ| ≤ maxErrZ)
    (inFlight : Bool) : ∃ t, sumErr zSumErr errZ inFlight = some t ∧ |t| ≤ maxSumErr := by
  rw [sumErr]
  split_ifs
  · have hfits : Fits (zSumErr + errZ) := by
      rw [maxSumErr, abs_le] at hsum
      rw [maxErrZ, abs_le] at hz
      exact ⟨by omega, by omega⟩
    rw [check_of_fits hfits]
    exact ⟨_, rfl, abs_le.mpr (bound_mem (by decide))⟩
  · exact ⟨0, rfl, by decide⟩

/-- What the hover loop leaves, and what it does not touch. -/
structure Hovered (s s' : VState) : Prop where
  zdRef : s'.zdRef = s.ref.zd * 2 ^ 2
  zSumErr : |s'.zSumErr| ≤ maxSumErr
  deltaT : 0 ≤ s'.deltaT ∧ s'.deltaT ≤ maxPprz
  adapt : s'.adapt = s.adapt
  ref : s'.ref = s.ref
  mode : s'.mode = s.mode
  zSp : s'.zSp = s.zSp
  zdSp : s'.zdSp = s.zdSp

/-- Near its reference the hover loop has a value. -/
theorem exists_runHoverLoop (a : Airframe) {s : VState} (hs : s.Valid) (href : s.ref.Limited)
    {m : Measured} (hnear : Near s m) (inFlight : Bool) :
    ∃ s', runHoverLoop a s m inFlight = some s' ∧ Hovered s s' := by
  obtain ⟨⟨hzdMin, hzdMax⟩, hzddMin, hzddMax⟩ := href
  have hspeed := abs_le.mp m.speedZ_mem
  simp only [gvMinZd, gvMaxZd, gvMinZdd, gvMaxZdd, maxSpeed] at *
  have hzd : Fits (s.ref.zd * 2 ^ 2) := ⟨by omega, by omega⟩
  have hzdd : Fits (s.ref.zdd * 2 ^ 2) := ⟨by omega, by omega⟩
  have herrZd : Fits (s.ref.zd * 2 ^ 2 - m.speedZ) := ⟨by omega, by omega⟩
  have hz : |bound (s.ref.z >>> (18 : ℕ) - m.posZ) (-maxErrZ) maxErrZ| ≤ maxErrZ :=
    abs_le.mpr (bound_mem (by decide))
  have hzdBound : |bound (s.ref.zd * 2 ^ 2 - m.speedZ) (-maxErrZd) maxErrZd| ≤ maxErrZd :=
    abs_le.mpr (bound_mem (by decide))
  obtain ⟨t, ht, htBound⟩ := exists_sumErr hs.zSumErr hz inFlight
  obtain ⟨ff, hff, hff0, hff1⟩ := exists_feedForward a hs.adapt.x
    (show -20088 ≤ s.ref.zdd * 2 ^ 2 ∧ s.ref.zdd * 2 ^ 2 ≤ 8036 by omega) m
  obtain ⟨fb, hfb, hfbBound⟩ := exists_feedBack a hz hzdBound htBound
  rw [abs_le] at hfbBound
  have hdelta : Fits (ff + fb) := ⟨by omega, by omega⟩
  refine ⟨_, by
    simp only [runHoverLoop, Option.bind_eq_bind, check_of_fits hnear.1, Option.bind_some,
      check_of_fits hzd, check_of_fits hzdd, check_of_fits hnear.2, check_of_fits herrZd, ht, hff,
      hfb, check_of_fits hdelta]
    rfl, ?_⟩
  exact ⟨rfl, htBound, bound_mem (by decide), rfl, rfl, rfl, rfl, rfl⟩

/-- Away from it the altitude error overflows. -/
theorem runHoverLoop_eq_none (a : Airframe) {s : VState} {m : Measured} (hfar : ¬Near s m)
    (inFlight : Bool) : runHoverLoop a s m inFlight = none := by
  apply Option.eq_none_iff_forall_ne_some.mpr
  intro s' h
  simp only [runHoverLoop, Option.bind_eq_bind, check_bind_eq_some_iff] at h
  exact hfar ⟨h.1, h.2.2.2.1⟩

theorem hoverIfAsked_eq_none {a : Airframe} {s : VState} {m : Measured} {inFlight : Bool}
    (hruns : s.runsHoverLoop) (hfar : ¬Near s m) : hoverIfAsked a s m inFlight = none := by
  rw [hoverIfAsked, if_pos hruns, runHoverLoop_eq_none a hfar]

/-! ### The other phases -/

/-- What the set points leave as it is. -/
structure Referred (s s' : VState) : Prop where
  adapt : s'.adapt = s.adapt
  zdRef : s'.zdRef = s.zdRef
  zSumErr : s'.zSumErr = s.zSumErr
  runs : s'.runsHoverLoop = s.runsHoverLoop
  ref : s'.runsHoverLoop → s'.ref.Limited

theorem setReference_eq_some {s s' : VState} {m : Measured} (h : setReference s m = some s') :
    Referred s s' := by
  cases hmode : s.mode <;> simp only [setReference, hmode] at h
  case kill =>
    obtain rfl := Option.some.inj h
    refine ⟨rfl, rfl, rfl, rfl, fun hruns => ?_⟩
    simp [VState.runsHoverLoop, hmode] at hruns
  case rcDirect =>
    obtain rfl := Option.some.inj h
    refine ⟨rfl, rfl, rfl, by simp [VState.runsHoverLoop, hmode], fun hruns => ?_⟩
    simp [VState.runsHoverLoop] at hruns
  case rcClimb =>
    obtain ⟨ref, href, heq⟩ := Option.bind_eq_some_iff.mp h
    obtain rfl := Option.some.inj heq
    exact ⟨rfl, rfl, rfl, by simp [VState.runsHoverLoop, hmode],
      fun _ => (gvUpdateRefFromZdSp_eq_some href).2⟩
  case climb =>
    obtain ⟨ref, href, heq⟩ := Option.bind_eq_some_iff.mp h
    obtain rfl := Option.some.inj heq
    exact ⟨rfl, rfl, rfl, by simp [VState.runsHoverLoop, hmode],
      fun _ => (gvUpdateRefFromZdSp_eq_some href).2⟩
  case hover =>
    obtain ⟨ref, href, heq⟩ := Option.bind_eq_some_iff.mp h
    obtain rfl := Option.some.inj heq
    exact ⟨rfl, rfl, rfl, by simp [VState.runsHoverLoop, hmode],
      fun _ => (gvUpdateRefFromZSp_eq_some href).2⟩
  case nav =>
    cases hvertical : s.verticalMode <;> simp only [hvertical] at h
    case manual =>
      obtain ⟨zSp, -, heq⟩ := Option.bind_eq_some_iff.mp h
      obtain rfl := Option.some.inj heq
      refine ⟨rfl, rfl, rfl, by simp [VState.runsHoverLoop, hmode, hvertical], fun hruns => ?_⟩
      simp [VState.runsHoverLoop] at hruns
    case climb =>
      obtain ⟨zdSp, -, hrest⟩ := Option.bind_eq_some_iff.mp h
      obtain ⟨ref, href, hrest⟩ := Option.bind_eq_some_iff.mp hrest
      obtain ⟨altitude, -, heq⟩ := Option.bind_eq_some_iff.mp hrest
      obtain rfl := Option.some.inj heq
      exact ⟨rfl, rfl, rfl, by simp [VState.runsHoverLoop, hmode, hvertical],
        fun _ => (gvUpdateRefFromZdSp_eq_some href).2⟩
    case alt =>
      obtain ⟨zSp, -, hrest⟩ := Option.bind_eq_some_iff.mp h
      obtain ⟨ref, href, heq⟩ := Option.bind_eq_some_iff.mp hrest
      obtain rfl := Option.some.inj heq
      exact ⟨rfl, rfl, rfl, by simp [VState.runsHoverLoop, hmode, hvertical],
        fun _ => (gvUpdateRefFromZSp_eq_some href).2⟩

theorem setReference_adapt (s : VState) (adapt : Adapt) (m : Measured) :
    setReference { s with adapt := adapt } m =
      (setReference s m).map fun t => { t with adapt := adapt } := by
  obtain ⟨mode, old, ref, zSp, zdSp, zRef, zdRef, zddRef, zSumErr, ffCmd, fbCmd, deltaT, rcDeltaT,
    rcZdSp, rcOk, verticalMode, navFlightAltitude, navClimb, navThrottle, thrust⟩ := s
  cases mode <;> cases verticalMode <;>
    simp only [setReference, Option.bind_eq_bind, Option.map_bind, Function.comp_def,
      Option.map_some]

theorem exists_adaptInFlight {s : VState} (hs : s.Valid) (m : Measured) (inFlight : Bool) :
    ∃ adapt, adaptInFlight s m inFlight = some { s with adapt := adapt } ∧ adapt.Valid := by
  rw [adaptInFlight]
  split_ifs
  · obtain ⟨adapt, hadapt, hvalid⟩ := exists_gvAdaptRun hs.adapt m.accelZ s.thrust hs.zdRef
    rw [hadapt]
    exact ⟨adapt, rfl, hvalid⟩
  · exact ⟨s.adapt, rfl, hs.adapt⟩

/-- The condition of a call: the reference can be updated, and a mode with the hover loop is near
the measured altitude. -/
def StepOk (s : VState) : Event → Prop
  | .run m _ => ∃ t, setReference s m = some t ∧ (t.runsHoverLoop → Near t m)
  | _ => True

/-- A call, once the estimator has run. -/
theorem guidanceVRun_eq {a : Airframe} {s : VState} {m : Measured} {inFlight : Bool}
    {adapt : Adapt} (hadapt : adaptInFlight s m inFlight = some { s with adapt := adapt }) :
    guidanceVRun a s m inFlight = (setReference s m).bind fun t =>
      (hoverIfAsked a { t with adapt := adapt } m inFlight).bind fun u =>
        some (commandThrust u) := by
  rw [guidanceVRun, hadapt, Option.bind_eq_bind, Option.bind_some, setReference_adapt]
  cases setReference s m <;> rfl

/-- What a call leaves, of the state `t` with the new reference. -/
structure Called (t u : VState) (adapt : Adapt) : Prop where
  valid : u.Valid
  adapt : u.adapt = adapt
  deltaT : t.runsHoverLoop → 0 ≤ u.deltaT ∧ u.deltaT ≤ maxPprz
  zdRef : t.runsHoverLoop → u.zdRef = t.ref.zd * 2 ^ 2
  ref : u.ref = t.ref
  mode : u.mode = t.mode
  zSp : u.zSp = t.zSp
  zdSp : u.zdSp = t.zdSp

theorem called_commandThrust {t u : VState} {adapt : Adapt} (h : Called t u adapt) :
    Called t (commandThrust u) adapt where
  valid := ⟨h.valid.adapt, h.valid.zdRef, h.valid.zSumErr⟩
  adapt := h.adapt
  deltaT := h.deltaT
  zdRef := h.zdRef
  ref := h.ref
  mode := h.mode
  zSp := h.zSp
  zdSp := h.zdSp

/-- A call that meets the condition has a value. -/
theorem exists_guidanceVRun {a : Airframe} {s t : VState} (hs : s.Valid) {m : Measured}
    {inFlight : Bool} {adapt : Adapt}
    (hadapt : adaptInFlight s m inFlight = some { s with adapt := adapt }) (hvalid : adapt.Valid)
    (ht : setReference s m = some t) (hnear : t.runsHoverLoop → Near t m) :
    ∃ u, guidanceVRun a s m inFlight = some u ∧ Called t u adapt := by
  have hreferred := setReference_eq_some ht
  have htValid : VState.Valid { t with adapt := adapt } :=
    ⟨hvalid, hreferred.zdRef ▸ hs.zdRef, hreferred.zSumErr ▸ hs.zSumErr⟩
  rw [guidanceVRun_eq hadapt, ht, Option.bind_some, hoverIfAsked]
  split_ifs with hruns
  · have hlimited := hreferred.ref hruns
    obtain ⟨u, hu, hhovered⟩ := exists_runHoverLoop a htValid hlimited (hnear hruns) inFlight
    rw [hu, Option.bind_some]
    refine ⟨_, rfl, called_commandThrust ⟨⟨?_, ?_, hhovered.zSumErr⟩, hhovered.adapt,
      fun _ => hhovered.deltaT, fun _ => hhovered.zdRef, hhovered.ref, hhovered.mode, hhovered.zSp,
      hhovered.zdSp⟩⟩
    · rw [hhovered.adapt]
      exact hvalid
    · obtain ⟨hlow, hhigh⟩ := hlimited.zd
      rw [gvMinZd] at hlow
      rw [gvMaxZd] at hhigh
      rw [hhovered.zdRef, maxSpeed, abs_le]
      dsimp only
      omega
  · refine ⟨_, rfl, called_commandThrust ⟨htValid, rfl, ?_, ?_, rfl, rfl, rfl, rfl⟩⟩
    · exact fun h => absurd h hruns
    · exact fun h => absurd h hruns

theorem isSome_guidanceVRun_iff (a : Airframe) {s : VState} (hs : s.Valid) (m : Measured)
    (inFlight : Bool) :
    (guidanceVRun a s m inFlight).isSome ↔ StepOk s (.run m inFlight) := by
  obtain ⟨adapt, hadapt, hvalid⟩ := exists_adaptInFlight hs m inFlight
  constructor
  · intro h
    obtain ⟨u, hu⟩ := Option.isSome_iff_exists.mp h
    rw [guidanceVRun_eq hadapt] at hu
    obtain ⟨t, ht, hrest⟩ := Option.bind_eq_some_iff.mp hu
    refine ⟨t, ht, fun hruns => ?_⟩
    by_contra hfar
    have hnone : hoverIfAsked a { t with adapt := adapt } m inFlight = none :=
      hoverIfAsked_eq_none hruns hfar
    rw [hnone] at hrest
    exact Option.some_ne_none u hrest.symm
  · rintro ⟨t, ht, hnear⟩
    obtain ⟨u, hu, -⟩ := exists_guidanceVRun (a := a) hs hadapt hvalid ht hnear
    rw [hu]
    rfl

/-- A call that has a value meets the condition, and leaves what the phases leave. -/
theorem called_of_guidanceVRun {a : Airframe} {s u : VState} (hs : s.Valid) {m : Measured}
    {inFlight : Bool} (h : guidanceVRun a s m inFlight = some u) :
    ∃ t adapt, setReference s m = some t ∧ Called t u adapt := by
  obtain ⟨adapt, hadapt, hvalid⟩ := exists_adaptInFlight hs m inFlight
  obtain ⟨t, ht, hnear⟩ := (isSome_guidanceVRun_iff a hs m inFlight).mp (h ▸ rfl)
  obtain ⟨u', hu', hcalled⟩ := exists_guidanceVRun (a := a) hs hadapt hvalid ht hnear
  obtain rfl := Option.some.inj (hu'.symm.trans h)
  exact ⟨t, adapt, ht, hcalled⟩

/-! ### Every event -/

theorem valid_guidanceVInit : guidanceVInit.Valid where
  adapt := valid_gvAdaptInit _
  zdRef := by decide
  zSumErr := by decide

theorem valid_guidanceVModeChanged {s : VState} (hs : s.Valid) (newMode : VMode) (m : Measured) :
    (guidanceVModeChanged s newMode m).Valid := by
  have hzero : |(0 : ℤ)| ≤ maxSumErr := by decide
  have hrest : |(0 : ℤ)| ≤ maxSpeed := by decide
  rw [guidanceVModeChanged.eq_def]
  split
  · exact hs
  · cases newMode with
    | hover => exact ⟨hs.adapt, hrest, hzero⟩
    | rcClimb => exact ⟨hs.adapt, m.speedZ_mem, hzero⟩
    | climb => exact ⟨hs.adapt, m.speedZ_mem, hzero⟩
    | nav => exact ⟨hs.adapt, m.speedZ_mem, hzero⟩
    | kill => exact ⟨hs.adapt, hs.zdRef, hs.zSumErr⟩
    | rcDirect => exact ⟨hs.adapt, hs.zdRef, hs.zSumErr⟩

theorem valid_of_step {a : Airframe} {s s' : VState} {e : Event} (hs : s.Valid)
    (h : step a s e = some s') : s'.Valid := by
  cases e with
  | modeChanged newMode m =>
      obtain rfl := Option.some.inj h
      exact valid_guidanceVModeChanged hs newMode m
  | notifyInFlight inFlight =>
      obtain rfl := Option.some.inj h
      rw [guidanceVNotifyInFlight]
      split_ifs
      · exact ⟨valid_gvAdaptInit _, hs.zdRef, hs.zSumErr⟩
      · exact hs
  | readRc deltaT zdSp ok =>
      obtain rfl := Option.some.inj h
      exact ⟨hs.adapt, hs.zdRef, hs.zSumErr⟩
  | setPoints zSp zdSp =>
      obtain rfl := Option.some.inj h
      exact ⟨hs.adapt, hs.zdRef, hs.zSumErr⟩
  | navigate mode altitude climb throttle =>
      obtain rfl := Option.some.inj h
      exact ⟨hs.adapt, hs.zdRef, hs.zSumErr⟩
  | command thrust =>
      obtain rfl := Option.some.inj h
      exact ⟨hs.adapt, hs.zdRef, hs.zSumErr⟩
  | run m inFlight =>
      obtain ⟨t, adapt, -, hcalled⟩ := called_of_guidanceVRun hs h
      exact hcalled.valid

theorem isSome_step_iff (a : Airframe) (s : VState) (e : Event) (hs : s.Valid) :
    (step a s e).isSome ↔ StepOk s e := by
  cases e with
  | run m inFlight => exact isSome_guidanceVRun_iff a hs m inFlight
  | _ => exact iff_of_true rfl trivial

end Paparazzi.Rotorcraft.GuidanceV
