import Mathlib.Data.Fin.Basic
import Paparazzi.Library.Machine

/-!
The fly-by-wire loop of the fixed-wing firmware, with a radio, the link to the autopilot and
the actuators compiled in. The report to the autopilot and the telemetry are left out: the loop
does not read them.
-/

namespace Paparazzi.Fixedwing.FlyByWire

open Paparazzi.Library.Machine

/-! ### The radio -/

inductive RcStatus where
  | ok
  | lost
  | reallyLost
  deriving DecidableEq, Repr

structure RadioControl (m : Nat) where
  status : RcStatus
  timeSinceLastFrame : Nat
  radioOkCpt : Nat
  values : Fin m → Int16

def rcLostTime : Nat := 30

def rcReallyLostTime : Nat := 60

def rcOkCpt : Nat := 15

def radioControlInit (m : Nat) : RadioControl m :=
  { status := .reallyLost
    timeSinceLastFrame := rcReallyLostTime
    radioOkCpt := 0
    values := fun _ => 0 }

def radioControlPeriodicTask {m : Nat} (radio : RadioControl m) : RadioControl m :=
  if radio.timeSinceLastFrame ≥ rcReallyLostTime then { radio with status := .reallyLost }
  else if radio.timeSinceLastFrame ≥ rcLostTime then
    { radio with
      status := .lost
      radioOkCpt := rcOkCpt
      timeSinceLastFrame := radio.timeSinceLastFrame + 1 }
  else { radio with timeSinceLastFrame := radio.timeSinceLastFrame + 1 }

inductive RadioControlType where
  | ppm
  | datalink
  deriving DecidableEq, Repr

/-- `RadioControlEvent` on a frame with these normalized values, and whether the handler is
called. -/
def radioControlEvent {m : Nat} (type : RadioControlType) (values : Fin m → Int16)
    (radio : RadioControl m) : RadioControl m × Bool :=
  match type with
  | .ppm =>
      if radio.radioOkCpt > 0 then
        ({ radio with timeSinceLastFrame := 0, radioOkCpt := radio.radioOkCpt - 1 }, false)
      else ({ radio with timeSinceLastFrame := 0, status := .ok, values := values }, true)
  | .datalink =>
      ({ timeSinceLastFrame := 0, radioOkCpt := 0, status := .ok, values := values }, true)

/-! ### The state -/

inductive FbwMode where
  | manual
  | auto
  | failsafe
  deriving DecidableEq, Repr

def thresholdManualPprz : Int16 := -4800

def fbwModeOfPprz (mode : Int16) : FbwMode :=
  if mode < thresholdManualPprz then .manual else .auto

abbrev Commands (n : Nat) := Fin n → Int16

/-- The airframe file and the options of the firmware. The generated `SetCommandsFromRC` may
set some commands only; no command is in `apOnlyCommands` when `SetApOnlyCommands` is not
defined, and `commandForcecrash` is `none` when the autopilot cannot force the failsafe mode. -/
structure FbwConfig (n m : Nat) where
  commandsFailsafe : Commands n
  setCommandsFromRC : (Fin m → Int16) → Commands n → Commands n
  apOnlyCommands : Fin n → Bool := fun _ => false
  commandRoll : Option (Fin n) := none
  commandPitch : Option (Fin n) := none
  commandYaw : Option (Fin n) := none
  commandForcecrash : Option (Fin n) := none
  radioMode : Fin m
  radioControlType : RadioControlType := .ppm
  rcLostNoAp : Bool := false

/-- What the autopilot sends. -/
structure ApState (n : Nat) where
  commands : Commands n
  commandRollTrim : Int16
  commandPitchTrim : Int16
  commandYawTrim : Int16

/-- `given` lists the values given to `SetActuatorsFromCommands`; `halted` is the endless loop
after a forced crash. -/
structure Fbw (n m : Nat) where
  fbwMode : FbwMode
  commands : Commands n
  commandRollTrim : Int16
  commandPitchTrim : Int16
  commandYawTrim : Int16
  fbwNewActuators : Bool
  apOk : Bool
  timeSinceLastAp : Nat
  radioControl : RadioControl m
  halted : Bool
  given : List (Commands n)

variable {n m : Nat}

def initFbw (cfg : FbwConfig n m) : Fbw n m :=
  { fbwMode := .failsafe
    commands := cfg.commandsFailsafe
    commandRollTrim := 0
    commandPitchTrim := 0
    commandYawTrim := 0
    fbwNewActuators := true
    apOk := false
    timeSinceLastAp := 0
    radioControl := radioControlInit m
    halted := false
    given := [] }

def setFailsafeMode (cfg : FbwConfig n m) (s : Fbw n m) : Fbw n m :=
  { s with fbwMode := .failsafe, commands := cfg.commandsFailsafe, fbwNewActuators := true }

/-! ### `event_task_fbw` -/

def handleRcFrame (cfg : FbwConfig n m) (s : Fbw n m) : Fbw n m :=
  let mode := fbwModeOfPprz (s.radioControl.values cfg.radioMode)
  if mode = .manual then
    { s with
      fbwMode := mode
      commands := cfg.setCommandsFromRC s.radioControl.values s.commands
      fbwNewActuators := true }
  else { s with fbwMode := mode }

def onRadioEvent (cfg : FbwConfig n m) (frame : Option (Fin m → Int16)) (s : Fbw n m) : Fbw n m :=
  match frame with
  | none => s
  | some values =>
      let event := radioControlEvent cfg.radioControlType values s.radioControl
      let s := { s with radioControl := event.1 }
      if event.2 then handleRcFrame cfg s else s

def interMcuEventTask (s : Fbw n m) : Fbw n m :=
  { s with timeSinceLastAp := 0, apOk := true }

def setApOnlyCommands (cfg : FbwConfig n m) (apCommands commands : Commands n) : Commands n :=
  fun i => if cfg.apOnlyCommands i then apCommands i else commands i

/-- The mode in which the commands of the autopilot are read. -/
def modeForAp (cfg : FbwConfig n m) (mode : FbwMode) : FbwMode :=
  if !cfg.rcLostNoAp ∧ mode = .failsafe then .auto else mode

def onApMessage (cfg : FbwConfig n m) (message : Option (ApState n)) (s : Fbw n m) : Fbw n m :=
  match message with
  | none => s
  | some ap =>
      -- `ap_ok` has just been set
      let mode := modeForAp cfg s.fbwMode
      { interMcuEventTask s with
        commandRollTrim := ap.commandRollTrim
        commandPitchTrim := ap.commandPitchTrim
        commandYawTrim := ap.commandYawTrim
        fbwMode := mode
        commands :=
          if mode = .auto then ap.commands else setApOnlyCommands cfg ap.commands s.commands
        fbwNewActuators := true }

def forcesCrash (cfg : FbwConfig n m) (s : Fbw n m) : Bool :=
  match cfg.commandForcecrash with
  | none => false
  | some i => decide (s.commands i ≥ 8000)

def maxPprz : Int16 := 9600

def chopAbs (x max : Int16) : Int16 :=
  if x < -max then -max else if x > max then max else x

def trimmedCommands (cfg : FbwConfig n m) (s : Fbw n m) : Commands n :=
  fun i => s.commands i
    + (if cfg.commandRoll = some i then chopAbs s.commandRollTrim (maxPprz / 10) else 0)
    + (if cfg.commandPitch = some i then chopAbs s.commandPitchTrim (maxPprz / 10) else 0)
    + (if cfg.commandYaw = some i then chopAbs s.commandYawTrim maxPprz else 0)

def setActuators (cfg : FbwConfig n m) (crash : Bool) (s : Fbw n m) : Fbw n m :=
  if s.fbwNewActuators then
    { s with
      given := s.given ++ [trimmedCommands cfg s]
      fbwNewActuators := false
      halted := crash }
  else s

def eventTaskFbw (cfg : FbwConfig n m) (frame : Option (Fin m → Int16))
    (message : Option (ApState n)) (s : Fbw n m) : Fbw n m :=
  let s := onApMessage cfg message (onRadioEvent cfg frame s)
  if forcesCrash cfg s then setActuators cfg true (setFailsafeMode cfg s)
  else setActuators cfg false s

/-! ### `periodic_task_fbw` -/

def apStalledTime : Nat := 30

def interMcuPeriodicTask (s : Fbw n m) : Fbw n m :=
  if s.timeSinceLastAp ≥ apStalledTime then { s with apOk := false }
  else { s with timeSinceLastAp := s.timeSinceLastAp + 1 }

def checkRcLost (cfg : FbwConfig n m) (s : Fbw n m) : Fbw n m :=
  if s.fbwMode = .manual ∧ s.radioControl.status = .reallyLost then
    if cfg.rcLostNoAp then setFailsafeMode cfg s else { s with fbwMode := .auto }
  else s

def checkApLost (cfg : FbwConfig n m) (s : Fbw n m) : Fbw n m :=
  if s.fbwMode = .auto ∧ s.apOk = false then setFailsafeMode cfg s else s

def periodicTaskFbw (cfg : FbwConfig n m) (s : Fbw n m) : Fbw n m :=
  let s := { s with radioControl := radioControlPeriodicTask s.radioControl }
  checkApLost cfg (interMcuPeriodicTask (checkRcLost cfg s))

/-- A call of `event_task_fbw`, with the RC frame and the message of the autopilot that it
finds, or a call of `periodic_task_fbw`. -/
inductive FbwEvent (n m : Nat) where
  | event (frame : Option (Fin m → Int16)) (message : Option (ApState n))
  | periodic

def step (cfg : FbwConfig n m) (s : Fbw n m) (e : FbwEvent n m) : Fbw n m :=
  if s.halted then s
  else match e with
    | .event frame message => eventTaskFbw cfg frame message s
    | .periodic => periodicTaskFbw cfg s

end Paparazzi.Fixedwing.FlyByWire
