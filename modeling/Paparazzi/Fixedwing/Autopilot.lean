import Mathlib.Data.Rat.Defs
import Mathlib.Algebra.Order.Ring.Rat
import Paparazzi.Library.Machine

/-!
The four tasks of the fixed-wing autopilot that share `pprz_mode`, with a radio compiled in and
without `UNLOCKED_HOME_MODE`. What the floating-point code between them computes (distances,
speeds, the throttle of the climb loop) is given with each call; so is what the flight plan does,
whose code is generated. Nothing here resets `launch`.
-/

namespace Paparazzi.Fixedwing.Autopilot

open Paparazzi.Library.Machine

inductive PprzMode where
  | manual
  | auto1
  | auto2
  | home
  | gpsOutOfOrder
  deriving DecidableEq, Repr

def PprzMode.toNat : PprzMode → Nat
  | .manual => 0
  | .auto1 => 1
  | .auto2 => 2
  | .home => 3
  | .gpsOutOfOrder => 4

inductive VCtlMode where
  | manual
  | autoThrottle
  | autoClimb
  | autoAlt
  deriving DecidableEq, Repr

def maxPprz : Int16 := 9600

def threshold1 : Int16 := -4800

def threshold2 : Int16 := 4800

def throttleThresholdTakeoff : Int16 := 8640

def pprzModeOfPulse (pprz : Int16) : PprzMode :=
  if pprz > threshold2 then .auto2 else if pprz > threshold1 then .auto1 else .manual

def trimUpprz (pprz : Int16) : Int16 :=
  if pprz < 0 then 0 else if pprz > maxPprz then maxPprz else pprz

def bound (x min max : Int16) : Int16 :=
  if x > max then max else if x < min then min else x

/-- The airframe file. `radioAutoMode` is the second switch of `RADIO_AUTO_MODE`,
`powerCtlBat` the throttle scaled by the voltage. -/
structure ApConfig (m : Nat) where
  radioMode : Fin m
  radioAutoMode : Option (Fin m) := none
  radioThrottle : Fin m
  rcLostMode : PprzMode := .home
  failsafeDelayWithoutGps : Option UInt32
  maxDistFromHome : ℚ
  killModeDistance : ℚ := 3 / 2 * maxDistFromHome
  failsafeThrottle : Int16
  throttleIdle : Option Int16 := none
  powerCtlBat : Option (Int16 → UInt16 → Int16) := none
  catastrophicBatLevel : ℚ

/-- What the tasks read of `fbw_state`. -/
structure FbwState (m : Nat) where
  channels : Fin m → Int16
  radioReallyLost : Bool
  averagedChannelsSent : Bool
  vsupply : UInt16

/-- What `auto_nav` does in one call. It may set `launch`, and it may write `kill_throttle`
and `autopilot_flight_time`. -/
structure AutoNav where
  vCtlMode : VCtlMode
  navThrottleSetpoint : Int16
  killThrottle : Option Bool := none
  autopilotFlightTime : Option UInt16 := none
  launch : Bool := false

structure NavigationCall where
  nbSec : UInt32
  lastFixTime : UInt32
  dist2ToHome : ℚ
  inAirspace : Bool := true
  autoNav : AutoNav

/-- `lastPprzMode` and `t` are the static variables of `navigation_task` and `monitor_task`. -/
structure ApState where
  pprzMode : PprzMode
  killThrottle : Bool
  launch : Bool
  autopilotFlightTime : UInt16
  gpsLost : Bool
  lastPprzMode : PprzMode
  vsupply : UInt16
  t : UInt8
  dist2ToHome : ℚ
  tooFarFromHome : Bool
  vCtlMode : VCtlMode
  navThrottleSetpoint : Int16
  vCtlThrottleSetpoint : Int16

def autopilotInit : ApState :=
  { pprzMode := .auto2
    killThrottle := false
    launch := false
    autopilotFlightTime := 0
    gpsLost := false
    lastPprzMode := .manual
    vsupply := 0
    t := 0
    dist2ToHome := 0
    tooFarFromHome := false
    vCtlMode := .manual
    navThrottleSetpoint := 0
    vCtlThrottleSetpoint := 0 }

variable {m : Nat}

/-! ### `telecommand_task` -/

/-- HOME and GPS_OUT_OF_ORDER. -/
def lockedMode (mode : PprzMode) : Bool :=
  mode = .home ∨ mode = .gpsOutOfOrder

def modeOfChannels (cfg : ApConfig m) (channels : Fin m → Int16) : PprzMode :=
  match cfg.radioAutoMode with
  | none => pprzModeOfPulse (channels cfg.radioMode)
  | some radioAutoMode =>
      if pprzModeOfPulse (channels cfg.radioMode) = .manual then .manual
      else if channels radioAutoMode > threshold2 then .auto2
      else .auto1

def pprzModeUpdate (cfg : ApConfig m) (fbw : FbwState m) (s : ApState) : ApState :=
  if lockedMode s.pprzMode then s else { s with pprzMode := modeOfChannels cfg fbw.channels }

/-- With the radio really lost too, `RC_LOST_MODE` is written over HOME. -/
def checkHomeAndRc (cfg : ApConfig m) (fbw : FbwState m) (s : ApState) : ApState :=
  let reallyLost := fbw.radioReallyLost ∧ (s.pprzMode = .auto1 ∨ s.pprzMode = .manual)
  if lockedMode s.pprzMode = false ∧ s.launch then
    if reallyLost then { s with pprzMode := cfg.rcLostMode }
    else if s.tooFarFromHome then { s with pprzMode := .home }
    else s
  else s

def readThrottle (cfg : ApConfig m) (fbw : FbwState m) (s : ApState) : ApState :=
  if s.pprzMode = .manual ∨ s.pprzMode = .auto1 then
    { s with vCtlThrottleSetpoint := fbw.channels cfg.radioThrottle }
  else s

def checkLaunch (cfg : ApConfig m) (fbw : FbwState m) (s : ApState) : ApState :=
  if s.autopilotFlightTime = 0 ∧ s.pprzMode = .auto2 ∧
      fbw.channels cfg.radioThrottle > throttleThresholdTakeoff then
    { s with launch := true }
  else s

def telecommandTask (cfg : ApConfig m) (fbw : FbwState m) (s : ApState) : ApState :=
  let s := checkHomeAndRc cfg fbw s
  let s := if fbw.averagedChannelsSent then pprzModeUpdate cfg fbw s else s
  let s := { readThrottle cfg fbw s with vsupply := fbw.vsupply }
  checkLaunch cfg fbw s

/-! ### `navigation_task` -/

def gpsTimeoutError (delay : UInt32) (call : NavigationCall) : Bool :=
  call.nbSec - call.lastFixTime > delay

def checkGps (cfg : ApConfig m) (call : NavigationCall) (s : ApState) : ApState :=
  match cfg.failsafeDelayWithoutGps with
  | none => s
  | some delay =>
      if s.launch then
        if gpsTimeoutError delay call then
          if s.pprzMode = .auto2 ∨ s.pprzMode = .home then
            { s with lastPprzMode := s.pprzMode, pprzMode := .gpsOutOfOrder, gpsLost := true }
          else s
        else if s.gpsLost then { s with pprzMode := s.lastPprzMode, gpsLost := false }
        else s
      else s

def computeDist2ToHome (cfg : ApConfig m) (call : NavigationCall) (s : ApState) : ApState :=
  { s with
    dist2ToHome := call.dist2ToHome
    tooFarFromHome :=
      call.dist2ToHome > cfg.maxDistFromHome * cfg.maxDistFromHome ∨ call.inAirspace = false }

def navHome (cfg : ApConfig m) (call : NavigationCall) (s : ApState) : ApState :=
  computeDist2ToHome cfg call { s with vCtlMode := .autoAlt }

def navWithoutGps (cfg : ApConfig m) (s : ApState) : ApState :=
  { s with vCtlMode := .autoThrottle, navThrottleSetpoint := cfg.failsafeThrottle }

def navPeriodicTask (cfg : ApConfig m) (call : NavigationCall) (s : ApState) : ApState :=
  { computeDist2ToHome cfg call s with
    vCtlMode := call.autoNav.vCtlMode
    navThrottleSetpoint := call.autoNav.navThrottleSetpoint
    killThrottle := call.autoNav.killThrottle.getD s.killThrottle
    autopilotFlightTime := call.autoNav.autopilotFlightTime.getD s.autopilotFlightTime
    launch := s.launch || call.autoNav.launch }

def navigationTask (cfg : ApConfig m) (call : NavigationCall) (s : ApState) : ApState :=
  let s := checkGps cfg call s
  match s.pprzMode with
  | .home => navHome cfg call s
  | .gpsOutOfOrder => navWithoutGps cfg s
  | _ => navPeriodicTask cfg call s

/-! ### `attitude_loop` -/

/-- The throttle before the check of `kill_throttle`; `climb` is that of the climb loop. -/
def guidanceThrottle (cfg : ApConfig m) (climb : Int16) (s : ApState) : Int16 :=
  let throttle :=
    match s.vCtlMode with
    | .manual => s.vCtlThrottleSetpoint
    | .autoThrottle => s.navThrottleSetpoint
    | .autoClimb | .autoAlt => climb
  let throttle :=
    match cfg.throttleIdle with
    | none => throttle
    | some idle => bound throttle idle maxPprz
  match cfg.powerCtlBat with
  | none => throttle
  | some scaled => if s.vsupply > 0 then trimUpprz (scaled throttle s.vsupply) else throttle

def attitudeLoop (cfg : ApConfig m) (climb : Int16) (s : ApState) : ApState :=
  if s.pprzMode.toNat ≥ PprzMode.auto2.toNat then
    { s with
      vCtlThrottleSetpoint :=
        if s.killThrottle ∨ (s.autopilotFlightTime = 0 ∧ s.launch = false) then 0
        else guidanceThrottle cfg climb s }
  else s

/-! ### `monitor_task` -/

def lowBatteryDelay : UInt8 := 5

def minSpeedForTakeoff : ℚ := 5

def monitorTask (cfg : ApConfig m) (speed : ℚ) (s : ApState) : ApState :=
  let flightTime :=
    if s.autopilotFlightTime = 0 then s.autopilotFlightTime else s.autopilotFlightTime + 1
  let t := if (s.vsupply.toNat : ℚ) < cfg.catastrophicBatLevel * 10 then s.t + 1 else 0
  let s :=
    { s with
      t := t
      killThrottle := s.killThrottle || decide (t ≥ lowBatteryDelay) ||
        (s.launch && decide (s.dist2ToHome > cfg.killModeDistance * cfg.killModeDistance)) }
  if flightTime = 0 ∧ speed > minSpeedForTakeoff then
    { s with autopilotFlightTime := 1, launch := true }
  else { s with autopilotFlightTime := flightTime }

/-! ### Runs -/

inductive ApEvent (m : Nat) where
  | telecommand (fbw : FbwState m)
  | navigation (call : NavigationCall)
  | attitude (climb : Int16)
  | monitor (speed : ℚ)

def step (cfg : ApConfig m) (s : ApState) : ApEvent m → ApState
  | .telecommand fbw => telecommandTask cfg fbw s
  | .navigation call => navigationTask cfg call s
  | .attitude climb => attitudeLoop cfg climb s
  | .monitor speed => monitorTask cfg speed s

end Paparazzi.Fixedwing.Autopilot
