import Mathlib.Data.List.FinRange
import Mathlib.Data.Fintype.Basic
import Paparazzi.Library.Checked
import Paparazzi.Library.Machine

/-!
Motor mixing: `motor_mixing_init` and `motor_mixing_run`, in 32-bit arithmetic that has no value
where it overflows.
-/

namespace Paparazzi.Actuators.Mixing

open Paparazzi.Library.Checked32

def maxPprz : ℤ := 9600

def motorMixingMinMotor : ℤ := 0

def motorMixingMaxMotor : ℤ := maxPprz

def int32Max : ℤ := 2147483647

def int32Min : ℤ := -2147483647 - 1

/-- `MOTOR_MIXING_MAX_NEGATIVE_MOTOR_STEP` and `MOTOR_MIXING_MAX_POSITIVE_MOTOR_STEP`. -/
structure StepLimits where
  maxNegativeMotorStep : ℤ
  maxPositiveMotorStep : ℤ
  negative_le : maxNegativeMotorStep ≤ 0
  positive_ge : 0 ≤ maxPositiveMotorStep
  deriving DecidableEq

/-- The section `MIXING` of an airframe. -/
structure Airframe where
  nbMotor : ℕ
  scale : ℤ
  rollCoef : Fin nbMotor → ℤ
  pitchCoef : Fin nbMotor → ℤ
  yawCoef : Fin nbMotor → ℤ
  thrustCoef : Fin nbMotor → ℤ
  trimRoll : ℤ
  trimPitch : ℤ
  trimYaw : ℤ
  stopMotor : ℤ
  maxSaturationOffset : ℤ
  /-- `MOTOR_MIXING_USE_MAX_MOTOR_STEP_BINDING` when there are some. -/
  stepLimits : Option StepLimits
  /-- The loops over the motors count with a `uint8_t`. -/
  nbMotor_lt : nbMotor < 256
  scale_pos : 0 < scale
  /-- Some airframes have 255 or 512, all others 256. -/
  scale_fits : 5 * (maxPprz * scale) < 2 ^ 31
  rollCoef_le : ∀ i, |rollCoef i| ≤ scale
  pitchCoef_le : ∀ i, |pitchCoef i| ≤ scale
  yawCoef_le : ∀ i, |yawCoef i| ≤ scale
  thrustCoef_le : ∀ i, |thrustCoef i| ≤ scale
  maxSaturationOffset_ge : 0 ≤ maxSaturationOffset

/-- `motor_mixing`, and the static variables of `bound_commands_step`. -/
structure MotorMixing (n : ℕ) where
  commands : Fin n → ℤ
  trim : Fin n → ℤ
  overrideEnabled : Fin n → Bool
  overrideValue : Fin n → ℤ
  nbFailure : UInt32
  prevCommands : Fin n → ℤ
  initialized : Bool

structure InCmd where
  thrust : ℤ
  roll : ℤ
  pitch : ℤ
  yaw : ℤ

/-- The macro `Bound`. -/
def bound (x min max : ℤ) : ℤ := if x > max then max else if x < min then min else x

def boundAbs (x max : ℤ) : ℤ := bound x (-max) max

/-- A loop that gives each motor a new value, computed from the one it has. -/
def forMotors {n : ℕ} (values : Fin n → ℤ) (body : ℤ → Fin n → Option ℤ) : Option (Fin n → ℤ) :=
  (List.finRange n).foldlM
    (fun values j => (body (values j) j).map (Function.update values j)) values

section

variable (a : Airframe)

def motorMixingInit : Option (MotorMixing a.nbMotor) := do
  let trim ← forMotors (fun _ => 0) fun _ i => do
    let roll ← check (a.rollCoef i * a.trimRoll)
    let pitch ← check (a.pitchCoef i * a.trimPitch)
    let rollPitch ← check (roll + pitch)
    let yaw ← check (a.yawCoef i * a.trimYaw)
    check (rollPitch + yaw)
  some
    { commands := fun _ => 0
      trim := trim
      overrideEnabled := fun _ => false
      overrideValue := fun _ => a.stopMotor
      nbFailure := 0
      prevCommands := fun _ => 0
      initialized := false }

/-- The command of a motor before saturation. -/
def mixCommand (trim : Fin a.nbMotor → ℤ) (inCmd : InCmd) (i : Fin a.nbMotor) : Option ℤ := do
  let thrust ← check (a.thrustCoef i * inCmd.thrust)
  let roll ← check (a.rollCoef i * inCmd.roll)
  let sum ← check (thrust + roll)
  let pitch ← check (a.pitchCoef i * inCmd.pitch)
  let sum ← check (sum + pitch)
  let yaw ← check (a.yawCoef i * inCmd.yaw)
  let sum ← check (sum + yaw)
  let sum ← check (sum + trim i)
  let mixed ← div sum a.scale
  let scaled ← check (mixed * (motorMixingMaxMotor - motorMixingMinMotor))
  let command ← div scaled maxPprz
  check (motorMixingMinMotor + command)

/-- The commands with `min_cmd` and `max_cmd`. -/
structure Mixed (n : ℕ) where
  commands : Fin n → ℤ
  minCmd : ℤ
  maxCmd : ℤ

def mixMotor (trim : Fin a.nbMotor → ℤ) (inCmd : InCmd) (m : Mixed a.nbMotor)
    (i : Fin a.nbMotor) : Option (Mixed a.nbMotor) := do
  let command ← mixCommand a trim inCmd i
  some
    { commands := Function.update m.commands i command
      minCmd := if command < m.minCmd then command else m.minCmd
      maxCmd := if command > m.maxCmd then command else m.maxCmd }

/-- The first loop of `motor_mixing_run`. -/
def mixMotors (s : MotorMixing a.nbMotor) (inCmd : InCmd) : Option (Mixed a.nbMotor) :=
  (List.finRange a.nbMotor).foldlM (mixMotor a s.trim inCmd) ⟨s.commands, int32Max, int32Min⟩

def offsetCommands {n : ℕ} (offset : ℤ) (commands : Fin n → ℤ) : Option (Fin n → ℤ) :=
  forMotors commands fun command _ => check (command + offset)

def boundCommands {n : ℕ} (commands : Fin n → ℤ) : Option (Fin n → ℤ) :=
  forMotors commands fun command _ =>
    some (bound command motorMixingMinMotor motorMixingMaxMotor)

/-- The first offset of `motor_mixing_run`. -/
def raiseCommands (m : Mixed a.nbMotor) : Option (Fin a.nbMotor → ℤ) :=
  if m.minCmd < motorMixingMinMotor then do
    let saturationOffset ← check (motorMixingMinMotor - m.minCmd)
    offsetCommands (boundAbs saturationOffset a.maxSaturationOffset) m.commands
  else some m.commands

/-- The second offset; `max_cmd` is still the one from before the first. -/
def lowerCommands (m : Mixed a.nbMotor) (commands : Fin a.nbMotor → ℤ) :
    Option (Fin a.nbMotor → ℤ) :=
  if m.maxCmd > motorMixingMaxMotor then do
    let saturationOffset ← check (motorMixingMaxMotor - m.maxCmd)
    offsetCommands (boundAbs saturationOffset a.maxSaturationOffset) commands
  else some commands

def overrideCommands {n : ℕ} (overrideOn : Bool) (s : MotorMixing n) (commands : Fin n → ℤ) :
    Option (Fin n → ℤ) :=
  if overrideOn then
    forMotors commands fun command i =>
      some (if s.overrideEnabled i then s.overrideValue i else command)
  else some commands

/-- The first loop of `bound_commands_step`. -/
def limitCommands (limits : StepLimits) (s : MotorMixing a.nbMotor) :
    Option (Fin a.nbMotor → ℤ) :=
  if s.initialized then
    forMotors s.commands fun command j => do
      let newCommandDiff ← check (command - s.prevCommands j)
      check (s.prevCommands j +
        bound newCommandDiff limits.maxNegativeMotorStep limits.maxPositiveMotorStep)
  else some s.commands

def boundCommandsStep (s : MotorMixing a.nbMotor) : Option (MotorMixing a.nbMotor) :=
  match a.stepLimits with
  | none => some s
  | some limits => do
      let commands ← limitCommands a limits s
      some { s with commands := commands, initialized := true, prevCommands := commands }

def motorMixingRun (motorsOn overrideOn : Bool) (inCmd : InCmd) (s : MotorMixing a.nbMotor) :
    Option (MotorMixing a.nbMotor) :=
  if motorsOn then do
    let m ← mixMotors a s inCmd
    let nbFailure :=
      if m.minCmd < motorMixingMinMotor ∧ m.maxCmd > motorMixingMaxMotor then s.nbFailure + 1
      else s.nbFailure
    let commands ← raiseCommands a m
    let commands ← lowerCommands a m commands
    let commands ← overrideCommands overrideOn s commands
    let commands ← boundCommands commands
    boundCommandsStep a { s with commands := commands, nbFailure := nbFailure }
  else some { s with commands := fun _ => a.stopMotor }

/-- A call, with the overrides as they are set when it comes. -/
structure Call (n : ℕ) where
  motorsOn : Bool
  overrideOn : Bool
  inCmd : InCmd
  overrideEnabled : Fin n → Bool
  overrideValue : Fin n → ℤ

def step (s : Option (MotorMixing a.nbMotor)) (c : Call a.nbMotor) :
    Option (MotorMixing a.nbMotor) :=
  s.bind fun s =>
    motorMixingRun a c.motorsOn c.overrideOn c.inCmd
      { s with overrideEnabled := c.overrideEnabled, overrideValue := c.overrideValue }

end

end Paparazzi.Actuators.Mixing
