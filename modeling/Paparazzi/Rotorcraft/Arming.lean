import Mathlib

/-!
The three ways to arm the motors of a rotorcraft: by applying throttle, by
pushing the yaw stick, or with the kill switch. Each is a state machine that
reads one RC frame at a time.
-/

namespace Paparazzi.Rotorcraft.Arming

/-! ### Autopilot modes -/

/-- `autopilot_mode` is a byte; the names below are the values of `AP_MODE_*`. -/
abbrev ApMode := UInt8

def apModeFailsafe : ApMode := 0
def apModeKill : ApMode := 1
def apModeRateDirect : ApMode := 2
def apModeAttitudeDirect : ApMode := 3
def apModeRateRcClimb : ApMode := 4
def apModeAttitudeRcClimb : ApMode := 5
def apModeAttitudeClimb : ApMode := 6
def apModeRateZHold : ApMode := 7
def apModeAttitudeZHold : ApMode := 8
def apModeHoverDirect : ApMode := 9
def apModeHoverClimb : ApMode := 10
def apModeHoverZHold : ApMode := 11
def apModeNav : ApMode := 12
def apModeRcDirect : ApMode := 13
def apModeCareFreeDirect : ApMode := 14
def apModeForward : ApMode := 15

/-! ### RC helpers -/

def maxPprz : Int := 9600

/-- The entries of `radio_control.values` that the autopilot reads. -/
structure RcValues where
  throttle : Int
  roll : Int
  pitch : Int
  yaw : Int
  mode : Int
  killSwitch : Int
  deriving DecidableEq, Repr

/-- The configuration of the airframe that the arming machines read. -/
structure ArmingConfig where
  modeManual : ApMode := apModeRateDirect
  /-- `RADIO_KILL_SWITCH` is defined. -/
  radioKillSwitch : Bool := true
  stickCenterThreshold : Int := maxPprz * 1 / 20
  motorArmingDelay : Nat := 40
  deriving DecidableEq, Repr

def throttleStickDown (rc : RcValues) : Bool := rc.throttle < maxPprz / 20

def yawStickPushed (rc : RcValues) : Bool :=
  rc.yaw > maxPprz * 19 / 20 || rc.yaw < -(maxPprz * 19 / 20)

/-- `ROLL_STICK_CENTERED`, `PITCH_STICK_CENTERED` and `YAW_STICK_CENTERED`. -/
def stickCentered (cfg : ArmingConfig) (value : Int) : Bool :=
  value < cfg.stickCenterThreshold && value > -cfg.stickCenterThreshold

def rcAttitudeSticksCentered (cfg : ArmingConfig) (rc : RcValues) : Bool :=
  stickCentered cfg rc.roll && stickCentered cfg rc.pitch && stickCentered cfg rc.yaw

def killSwitchIsOn (cfg : ArmingConfig) (rc : RcValues) : Bool :=
  cfg.radioKillSwitch && decide (rc.killSwitch < 0)

/-! ### Arming by throttle -/

namespace Throttle

inductive State where
  | uninit | waiting | motorsOffReady | arming | motorsOn | unarming
  deriving DecidableEq, Repr

structure Machine where
  state : State
  /-- A `uint8_t`. -/
  delayCounter : Nat
  unarmedInAuto : Bool
  deriving DecidableEq, Repr

def autopilotArmingDelay : Nat := 10

def autopilotArmingInit : Machine :=
  { state := .uninit, delayCounter := 0, unarmedInAuto := false }

def autopilotArmingSet (motorsOn : Bool) (a : Machine) : Machine :=
  if motorsOn then { a with state := .motorsOn }
  else if a.state = .motorsOn then { a with state := .waiting }
  else a

/-- The mode allows starting the motors. -/
def modeAllows (cfg : ArmingConfig) (mode : ApMode) (a : Machine) : Bool :=
  mode = cfg.modeManual || a.unarmedInAuto

/-- One RC frame; the second component is `autopilot_motors_on`. -/
def autopilotArmingCheckMotorsOn (cfg : ArmingConfig) (rc : RcValues) (mode : ApMode)
    (a : Machine) (motorsOn : Bool) : Machine × Bool :=
  if mode > apModeKill then
    match a.state with
    | .uninit =>
        ({ a with
            delayCounter := 0
            state := if throttleStickDown rc then .motorsOffReady else .waiting }, false)
    | .waiting =>
        ({ a with
            delayCounter := 0
            state := if throttleStickDown rc then .motorsOffReady else a.state }, false)
    | .motorsOffReady =>
        ({ a with
            delayCounter := 0
            state :=
              if !throttleStickDown rc && rcAttitudeSticksCentered cfg rc &&
                  modeAllows cfg mode a then .arming
              else a.state }, false)
    | .arming =>
        let counter := (a.delayCounter + 1) % 2 ^ 8
        ({ a with
            delayCounter := counter
            state :=
              if throttleStickDown rc || !rcAttitudeSticksCentered cfg rc ||
                  !modeAllows cfg mode a then .motorsOffReady
              else if counter ≥ autopilotArmingDelay then .motorsOn
              else a.state }, false)
    | .motorsOn =>
        ({ a with
            delayCounter := autopilotArmingDelay
            state := if throttleStickDown rc then .unarming else a.state }, true)
    | .unarming =>
        let counter := (a.delayCounter + (2 ^ 8 - 1)) % 2 ^ 8
        if !throttleStickDown rc then
          ({ a with delayCounter := counter, state := .motorsOn }, true)
        else if counter = 0 then
          ({ state := .motorsOffReady
             delayCounter := counter
             unarmedInAuto := decide (mode ≠ cfg.modeManual) }, true)
        else ({ a with delayCounter := counter }, true)
  else (a, motorsOn)

end Throttle

/-! ### Arming by yaw stick -/

namespace Yaw

inductive Status where
  | motorsOff | mOffStickPushed | startMotors | motorsOn | mOnStickPushed | stopMotors
  deriving DecidableEq, Repr

structure Machine where
  /-- A `uint32_t`. -/
  motorsOnCounter : Nat
  checkMotorStatus : Status
  deriving DecidableEq, Repr

def autopilotArmingInit : Machine :=
  { motorsOnCounter := 0, checkMotorStatus := .motorsOff }

def autopilotArmingSet (motorsOn : Bool) (a : Machine) : Machine :=
  { a with checkMotorStatus := if motorsOn then .motorsOn else .motorsOff }

/-- The stick position of the gesture. -/
def stickPushed (rc : RcValues) : Bool := throttleStickDown rc && yawStickPushed rc

def autopilotArmingCheckMotorsOn (cfg : ArmingConfig) (rc : RcValues) (mode : ApMode)
    (a : Machine) (motorsOn : Bool) : Machine × Bool :=
  if mode > apModeKill then
    match a.checkMotorStatus with
    | .motorsOff =>
        ({ motorsOnCounter := 0
           checkMotorStatus := if stickPushed rc then .mOffStickPushed else .motorsOff }, false)
    | .mOffStickPushed =>
        let counter := (a.motorsOnCounter + 1) % 2 ^ 32
        ({ motorsOnCounter := counter
           checkMotorStatus :=
             if counter ≥ cfg.motorArmingDelay then .startMotors
             else if !stickPushed rc then .motorsOff
             else .mOffStickPushed }, false)
    | .startMotors =>
        ({ motorsOnCounter := cfg.motorArmingDelay
           checkMotorStatus := if !stickPushed rc then .motorsOn else .startMotors }, true)
    | .motorsOn =>
        ({ motorsOnCounter := cfg.motorArmingDelay
           checkMotorStatus := if stickPushed rc then .mOnStickPushed else .motorsOn }, true)
    | .mOnStickPushed =>
        let counter := (a.motorsOnCounter + (2 ^ 32 - 1)) % 2 ^ 32
        ({ motorsOnCounter := counter
           checkMotorStatus :=
             if counter = 0 then .stopMotors
             else if !stickPushed rc then .motorsOn
             else .mOnStickPushed }, true)
    | .stopMotors =>
        ({ motorsOnCounter := 0
           checkMotorStatus := if !stickPushed rc then .motorsOff else .stopMotors }, false)
  else (a, motorsOn)

end Yaw

/-! ### Arming with the kill switch -/

namespace Switch

inductive State where
  | uninit | waiting | startable | motorsOn
  deriving DecidableEq, Repr

structure Machine where
  state : State
  unarmedInAuto : Bool
  deriving DecidableEq, Repr

def autopilotArmingInit : Machine :=
  { state := .uninit, unarmedInAuto := false }

def autopilotArmingSet (cfg : ArmingConfig) (mode : ApMode) (motorsOn : Bool)
    (a : Machine) : Machine :=
  if motorsOn then { a with state := .motorsOn }
  else if a.state = .motorsOn then
    { state := .startable, unarmedInAuto := decide (mode ≠ cfg.modeManual) }
  else a

/-- Unlike the two other variants this one does not look at the mode first. -/
def autopilotArmingCheckMotorsOn (cfg : ArmingConfig) (rc : RcValues) (mode : ApMode)
    (a : Machine) : Machine × Bool :=
  match a.state with
  | .uninit =>
      ({ a with state := if killSwitchIsOn cfg rc then .startable else .waiting }, false)
  | .waiting =>
      ({ a with state := if killSwitchIsOn cfg rc then .startable else a.state }, false)
  | .startable =>
      ({ a with
          state :=
            if !killSwitchIsOn cfg rc && throttleStickDown rc &&
                rcAttitudeSticksCentered cfg rc &&
                (mode = cfg.modeManual || a.unarmedInAuto) then .motorsOn
            else a.state }, false)
  | .motorsOn =>
      if killSwitchIsOn cfg rc then
        ({ state := .startable, unarmedInAuto := decide (mode ≠ cfg.modeManual) }, true)
      else (a, true)

end Switch

/-! ### The arming machine of an airframe -/

/-- Which variant is compiled in, and its state. -/
inductive Machine where
  | throttle (a : Throttle.Machine)
  | yaw (a : Yaw.Machine)
  | switch (a : Switch.Machine)
  deriving DecidableEq, Repr

inductive Variant where
  | throttle | yaw | switch
  deriving DecidableEq, Repr

def autopilotArmingInit : Variant → Machine
  | .throttle => .throttle Throttle.autopilotArmingInit
  | .yaw => .yaw Yaw.autopilotArmingInit
  | .switch => .switch Switch.autopilotArmingInit

def autopilotArmingSet (cfg : ArmingConfig) (mode : ApMode) (motorsOn : Bool) : Machine → Machine
  | .throttle a => .throttle (Throttle.autopilotArmingSet motorsOn a)
  | .yaw a => .yaw (Yaw.autopilotArmingSet motorsOn a)
  | .switch a => .switch (Switch.autopilotArmingSet cfg mode motorsOn a)

def autopilotArmingCheckMotorsOn (cfg : ArmingConfig) (rc : RcValues) (mode : ApMode)
    (arming : Machine) (motorsOn : Bool) : Machine × Bool :=
  match arming with
  | .throttle a =>
      let (a, on) := Throttle.autopilotArmingCheckMotorsOn cfg rc mode a motorsOn
      (.throttle a, on)
  | .yaw a =>
      let (a, on) := Yaw.autopilotArmingCheckMotorsOn cfg rc mode a motorsOn
      (.yaw a, on)
  | .switch a =>
      let (a, on) := Switch.autopilotArmingCheckMotorsOn cfg rc mode a
      (.switch a, on)

/-- The switch machine is in the state that turns the motors on at the next frame. -/
def switchMotorsOn : Machine → Bool
  | .switch a => a.state = .motorsOn
  | _ => false

/-- In KILL or FAILSAFE a frame turns the motors on only through the switch
machine in its last state. -/
theorem checkMotorsOn_of_not_flying {cfg : ArmingConfig} {rc : RcValues} {mode : ApMode}
    {arming : Machine} {motorsOn : Bool} (hmode : ¬ mode > apModeKill) :
    (autopilotArmingCheckMotorsOn cfg rc mode arming motorsOn).2 =
      match arming with
      | .switch _ => switchMotorsOn arming
      | _ => motorsOn := by
  cases arming with
  | throttle a => simp [autopilotArmingCheckMotorsOn, Throttle.autopilotArmingCheckMotorsOn, hmode]
  | yaw a => simp [autopilotArmingCheckMotorsOn, Yaw.autopilotArmingCheckMotorsOn, hmode]
  | switch a =>
      obtain ⟨state, unarmed⟩ := a
      cases state with
      | uninit => rfl
      | waiting => rfl
      | startable => rfl
      | motorsOn =>
          simp only [autopilotArmingCheckMotorsOn, Switch.autopilotArmingCheckMotorsOn,
            switchMotorsOn]
          split <;> rfl

/-- A kill takes the switch machine out of its last state. -/
theorem switchMotorsOn_set_false (cfg : ArmingConfig) (mode : ApMode) (arming : Machine) :
    switchMotorsOn (autopilotArmingSet cfg mode false arming) = false := by
  cases arming with
  | throttle a => rfl
  | yaw a => rfl
  | switch a =>
      obtain ⟨state, unarmed⟩ := a
      cases state <;> rfl

end Paparazzi.Rotorcraft.Arming
