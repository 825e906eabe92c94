import Mathlib.Tactic.SplitIfs
import Paparazzi.Library.Machine
import Paparazzi.Rotorcraft.Arming

/-!
The mode logic of the rotorcraft autopilot: mode changes and what they do to the
motors and to the guidance modes, RC frames, the periodic task and the failsafe
check. The guidance loops themselves are left out.
-/

namespace Paparazzi.Rotorcraft.Autopilot

open Paparazzi.Rotorcraft.Arming

inductive GuidanceHMode where
  | kill | rate | attitude | hover | nav | rcDirect | careFree | forward
  deriving DecidableEq, Repr

inductive GuidanceVMode where
  | kill | rcDirect | rcClimb | climb | hover | nav
  deriving DecidableEq, Repr

/-- The compile-time configuration of the airframe. -/
structure Config extends ArmingConfig where
  variant : Variant := .yaw
  modeAuto1 : ApMode := apModeAttitudeDirect
  modeAuto2 : ApMode := apModeAttitudeZHold
  modeStartup : ApMode := apModeNav
  /-- `AUTOPILOT_DISABLE_AHRS_KILL` is not defined. -/
  ahrsKill : Bool := true
  killAsFailsafe : Bool := false
  failsafeGroundDetect : Bool := false
  useGps : Bool := true
  noGpsLostWithRcValid : Bool := false
  deriving DecidableEq, Repr

/-- The autopilot's variables, and the status of its sensors and of the radio. -/
structure ApState where
  autopilotMode : ApMode
  autopilotModeAuto2 : ApMode
  autopilotMotorsOn : Bool
  killThrottle : Bool
  autopilotInFlight : Bool
  autopilotInFlightCounter : Nat
  autopilotDetectGround : Bool
  autopilotDetectGroundOnce : Bool
  arming : Machine
  guidanceHMode : GuidanceHMode
  guidanceVMode : GuidanceVMode
  ahrsRunning : Bool
  rcOk : Bool
  /-- The result of `GpsIsLost()`. -/
  gpsLost : Bool
  deriving DecidableEq, Repr

def autopilotInFlightTime : Nat := 40

section

variable (cfg : Config)

def ahrsIsAligned (s : ApState) : Bool := !cfg.ahrsKill || s.ahrsRunning

def autopilotSetMotorsOn (motorsOn : Bool) (s : ApState) : ApState :=
  let on := ahrsIsAligned cfg s && motorsOn
  { s with
    autopilotMotorsOn := on
    killThrottle := !on
    arming := autopilotArmingSet cfg.toArmingConfig s.autopilotMode on s.arming }

/-! ### Mode changes -/

/-- The modes whose entry stops the motors: KILL, and FAILSAFE when the
configuration makes it the same. -/
def stopsMotors (mode : ApMode) : Bool :=
  mode = apModeKill || (mode = apModeFailsafe && cfg.killAsFailsafe)

/-- The horizontal part of `autopilot_set_mode`, with the mode of
`guidance_h_mode_changed`; modes without a case change nothing. -/
def setModeHorizontal (new : ApMode) (s : ApState) : ApState :=
  if stopsMotors cfg new then
    { autopilotSetMotorsOn cfg false s with
      autopilotInFlight := false
      autopilotInFlightCounter := 0
      guidanceHMode := .kill }
  else if new = apModeFailsafe then { s with guidanceHMode := .attitude }
  else if new = apModeRcDirect then { s with guidanceHMode := .rcDirect }
  else if new = apModeRateDirect ∨ new = apModeRateZHold then { s with guidanceHMode := .rate }
  else if new = apModeAttitudeRcClimb ∨ new = apModeAttitudeDirect ∨
      new = apModeAttitudeClimb ∨ new = apModeAttitudeZHold then
    { s with guidanceHMode := .attitude }
  else if new = apModeForward then { s with guidanceHMode := .forward }
  else if new = apModeCareFreeDirect then { s with guidanceHMode := .careFree }
  else if new = apModeHoverDirect ∨ new = apModeHoverClimb ∨ new = apModeHoverZHold then
    { s with guidanceHMode := .hover }
  else if new = apModeNav then { s with guidanceHMode := .nav }
  else s

/-- The vertical part of `autopilot_set_mode`. -/
def setModeVertical (new : ApMode) (s : ApState) : ApState :=
  if stopsMotors cfg new then { s with guidanceVMode := .kill }
  else if new = apModeFailsafe then { s with guidanceVMode := .climb }
  else if new = apModeRcDirect ∨ new = apModeRateDirect ∨ new = apModeAttitudeDirect ∨
      new = apModeHoverDirect ∨ new = apModeCareFreeDirect ∨ new = apModeForward then
    { s with guidanceVMode := .rcDirect }
  else if new = apModeRateRcClimb ∨ new = apModeAttitudeRcClimb then
    { s with guidanceVMode := .rcClimb }
  else if new = apModeAttitudeClimb ∨ new = apModeHoverClimb then
    { s with guidanceVMode := .climb }
  else if new = apModeRateZHold ∨ new = apModeAttitudeZHold ∨ new = apModeHoverZHold then
    { s with guidanceVMode := .hover }
  else if new = apModeNav then { s with guidanceVMode := .nav }
  else s

/-- Force KILL as long as the AHRS is not aligned. -/
def forcedMode (new : ApMode) (s : ApState) : ApMode :=
  if ahrsIsAligned cfg s then new else apModeKill

def autopilotSetMode (new : ApMode) (s : ApState) : ApState :=
  let new := forcedMode cfg new s
  if new ≠ s.autopilotMode then
    { setModeVertical cfg new (setModeHorizontal cfg new s) with autopilotMode := new }
  else s

/-! ### In-flight detection -/

/-- The common body of `autopilot_check_in_flight` and
`autopilot_check_in_flight_no_rc`: `idle` counts the flight down, `lift` counts
the take-off up. -/
def checkInFlight (idle lift motorsOn : Bool) (s : ApState) : ApState :=
  if s.autopilotInFlight then
    if s.autopilotInFlightCounter > 0 then
      if idle then
        { s with
          autopilotInFlightCounter := s.autopilotInFlightCounter - 1
          autopilotInFlight := decide (s.autopilotInFlightCounter - 1 ≠ 0) }
      else { s with autopilotInFlightCounter := autopilotInFlightTime }
    else s
  else if s.autopilotInFlightCounter < autopilotInFlightTime ∧ motorsOn then
    if lift then
      { s with
        autopilotInFlightCounter := s.autopilotInFlightCounter + 1
        autopilotInFlight := decide (s.autopilotInFlightCounter + 1 = autopilotInFlightTime) }
    else { s with autopilotInFlightCounter := 0 }
  else s

def autopilotCheckInFlight (rc : RcValues) : Bool → ApState → ApState :=
  checkInFlight (throttleStickDown rc) (!throttleStickDown rc)

def autopilotCheckInFlightNoRc (thrust : Int) : Bool → ApState → ApState :=
  checkInFlight (thrust = 0) (thrust > 0)

/-! ### RC frames -/

def apModeOfPprz (rc : RcValues) (s : ApState) : ApMode :=
  if rc.mode > maxPprz / 2 then s.autopilotModeAuto2
  else if rc.mode > -maxPprz / 2 then cfg.modeAuto1
  else cfg.modeManual

/-- NAV is not entered from the RC while the GPS is lost. -/
def navRefused (new : ApMode) (s : ApState) : Bool :=
  new = apModeNav && (!cfg.useGps || s.gpsLost)

/-- The first half of `autopilot_on_rc_frame`: the kill switch and the mode switch. -/
def rcSetMode (rc : RcValues) (s : ApState) : ApState :=
  if killSwitchIsOn cfg.toArmingConfig rc then autopilotSetMode cfg apModeKill s
  else if !navRefused cfg (apModeOfPprz cfg rc s) s then
    autopilotSetMode cfg (apModeOfPprz cfg rc s) s
  else s

/-- The second half: the arming machine and the in-flight detection. -/
def rcCheckMotors (rc : RcValues) (s : ApState) : ApState :=
  if s.autopilotMode > apModeFailsafe then
    let (arming, on) := autopilotArmingCheckMotorsOn cfg.toArmingConfig rc s.autopilotMode
      s.arming s.autopilotMotorsOn
    autopilotCheckInFlight rc on
      { s with arming := arming, autopilotMotorsOn := on, killThrottle := !on }
  else s

def autopilotOnRcFrame (rc : RcValues) (s : ApState) : ApState :=
  rcCheckMotors cfg rc (rcSetMode cfg rc s)

/-! ### Periodic task, failsafe check and initialisation -/

/-- What the statements of a flight plan do to the autopilot when
`nav_periodic_task` runs them. -/
inductive NavAction where
  | killThrottle
  | resurrect
  | setMode (mode : ApMode)
  | startDetectGround
  | detectGround
  deriving DecidableEq, Repr

def navAction (s : ApState) : NavAction → ApState
  | .killThrottle =>
      if s.autopilotMode = apModeNav then autopilotSetMotorsOn cfg false s else s
  | .resurrect =>
      if s.autopilotMode = apModeNav then autopilotSetMotorsOn cfg true s else s
  | .setMode mode => autopilotSetMode cfg mode s
  | .startDetectGround => { s with autopilotDetectGroundOnce := true }
  | .detectGround => { s with autopilotDetectGround := false }

/-- The ground detection in FAILSAFE of `autopilot_periodic`. -/
def killOnGround (s : ApState) : ApState :=
  if cfg.failsafeGroundDetect && s.autopilotMode = apModeFailsafe && s.autopilotDetectGround then
    { autopilotSetMode cfg apModeKill s with autopilotDetectGround := false }
  else s

/-- `autopilot_periodic`, with the actions of the flight plan in this call (none
when the navigation prescaler skips it) and the commanded thrust. -/
def autopilotPeriodic (actions : List NavAction) (thrust : Int) (s : ApState) : ApState :=
  let s := killOnGround cfg (actions.foldl (navAction cfg) s)
  if !s.rcOk then autopilotCheckInFlightNoRc thrust s.autopilotMotorsOn s else s

def failsafeCheck (s : ApState) : ApState :=
  let s :=
    if !s.rcOk && s.autopilotMode ≠ apModeKill && s.autopilotMode ≠ apModeNav then
      autopilotSetMode cfg apModeFailsafe s
    else s
  if cfg.useGps && s.autopilotMode = apModeNav && s.autopilotMotorsOn &&
      (!cfg.noGpsLostWithRcValid || !s.rcOk) && s.gpsLost then
    autopilotSetMode cfg apModeFailsafe s
  else s

/-- `DetectGroundEvent`, with the test on the vertical acceleration. -/
def detectGroundEvent (hit : Bool) (s : ApState) : ApState :=
  if (s.autopilotMode = apModeFailsafe || s.autopilotDetectGroundOnce) && hit then
    { s with autopilotDetectGround := true, autopilotDetectGroundOnce := false }
  else s

/-- `autopilot_init`, with the status of the sensors and of the radio at that time. -/
def autopilotInit (ahrsRunning rcOk gpsLost : Bool) : ApState :=
  autopilotSetMode cfg cfg.modeStartup
    { autopilotMode := apModeNav
      autopilotModeAuto2 := cfg.modeAuto2
      autopilotMotorsOn := false
      killThrottle := true
      autopilotInFlight := false
      autopilotInFlightCounter := 0
      autopilotDetectGround := false
      autopilotDetectGroundOnce := false
      arming := autopilotArmingInit cfg.variant
      guidanceHMode := .kill
      guidanceVMode := .kill
      ahrsRunning := ahrsRunning
      rcOk := rcOk
      gpsLost := gpsLost }

/-! ### The machine -/

inductive ApEvent where
  | rcFrame (rc : RcValues)
  | rcStatus (ok : Bool)
  | gps (lost : Bool)
  | ahrs (running : Bool)
  | failsafeCheck
  | periodic (actions : List NavAction) (thrust : Int)
  | setMode (mode : ApMode)
  | setAuto2 (mode : ApMode)
  | detectGround (hit : Bool)
  deriving DecidableEq, Repr

def step (s : ApState) : ApEvent → ApState
  | .rcFrame rc => autopilotOnRcFrame cfg rc s
  | .rcStatus ok => { s with rcOk := ok }
  | .gps lost => { s with gpsLost := lost }
  | .ahrs running => { s with ahrsRunning := running }
  | .failsafeCheck => failsafeCheck cfg s
  | .periodic actions thrust => autopilotPeriodic cfg actions thrust s
  | .setMode mode => autopilotSetMode cfg mode s
  | .setAuto2 mode => { s with autopilotModeAuto2 := mode }
  | .detectGround hit => detectGroundEvent hit s

end

/-! ### What each operation can do -/

section

variable {cfg : Config} {s : ApState}

/-- Unless it stops the motors, the horizontal switch writes the guidance mode only. -/
theorem setModeHorizontal_eq {new : ApMode} (hstop : ¬stopsMotors cfg new = true) :
    ∃ mode, setModeHorizontal cfg new s = { s with guidanceHMode := mode } := by
  have hite {c : Prop} [Decidable c] {t e : ApState}
      (ht : ∃ mode, t = { s with guidanceHMode := mode })
      (he : ∃ mode, e = { s with guidanceHMode := mode }) :
      ∃ mode, (if c then t else e) = { s with guidanceHMode := mode } :=
    iteInduction (motive := fun x => ∃ mode, x = { s with guidanceHMode := mode })
      (fun _ => ht) fun _ => he
  unfold setModeHorizontal
  rw [if_neg hstop]
  repeat' apply hite
  all_goals exact ⟨_, rfl⟩

theorem setModeVertical_eq (new : ApMode) :
    ∃ mode, setModeVertical cfg new s = { s with guidanceVMode := mode } := by
  have hite {c : Prop} [Decidable c] {t e : ApState}
      (ht : ∃ mode, t = { s with guidanceVMode := mode })
      (he : ∃ mode, e = { s with guidanceVMode := mode }) :
      ∃ mode, (if c then t else e) = { s with guidanceVMode := mode } :=
    iteInduction (motive := fun x => ∃ mode, x = { s with guidanceVMode := mode })
      (fun _ => ht) fun _ => he
  unfold setModeVertical
  repeat' apply hite
  all_goals exact ⟨_, rfl⟩

@[simp] theorem setModeHorizontal_mode (new : ApMode) :
    (setModeHorizontal cfg new s).autopilotMode = s.autopilotMode := by
  by_cases hstop : stopsMotors cfg new = true
  · unfold setModeHorizontal
    rw [if_pos hstop]
    rfl
  · obtain ⟨mode, heq⟩ := @setModeHorizontal_eq cfg s new hstop
    rw [heq]

@[simp] theorem setModeVertical_motorsOn (new : ApMode) :
    (setModeVertical cfg new s).autopilotMotorsOn = s.autopilotMotorsOn := by
  obtain ⟨mode, heq⟩ := @setModeVertical_eq cfg s new
  rw [heq]

@[simp] theorem setModeVertical_arming (new : ApMode) :
    (setModeVertical cfg new s).arming = s.arming := by
  obtain ⟨mode, heq⟩ := @setModeVertical_eq cfg s new
  rw [heq]

theorem setMode_of_eq {new : ApMode} (h : forcedMode cfg new s = s.autopilotMode) :
    autopilotSetMode cfg new s = s := by
  simp [autopilotSetMode, h]

/-- A mode change ends in the forced mode. -/
theorem setMode_mode (new : ApMode) :
    (autopilotSetMode cfg new s).autopilotMode = forcedMode cfg new s := by
  by_cases h : forcedMode cfg new s = s.autopilotMode
  · rw [setMode_of_eq h, h]
  · simp [autopilotSetMode, h]

/-- Entering a mode that stops the motors takes the arming machine back. -/
theorem setMode_stops {new : ApMode} (hne : forcedMode cfg new s ≠ s.autopilotMode)
    (hstop : stopsMotors cfg (forcedMode cfg new s) = true) :
    (autopilotSetMode cfg new s).autopilotMotorsOn = false ∧
      (autopilotSetMode cfg new s).arming =
        autopilotArmingSet cfg.toArmingConfig s.autopilotMode false s.arming := by
  simp [autopilotSetMode, hne, setModeHorizontal, hstop, autopilotSetMotorsOn]

@[simp] theorem checkInFlight_mode (idle lift motorsOn : Bool) :
    (checkInFlight idle lift motorsOn s).autopilotMode = s.autopilotMode := by
  unfold checkInFlight
  split_ifs <;> rfl

@[simp] theorem checkInFlight_motorsOn (idle lift motorsOn : Bool) :
    (checkInFlight idle lift motorsOn s).autopilotMotorsOn = s.autopilotMotorsOn := by
  unfold checkInFlight
  split_ifs <;> rfl

end

end Paparazzi.Rotorcraft.Autopilot
