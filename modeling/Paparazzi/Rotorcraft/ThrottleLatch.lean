import Mathlib.Tactic.SplitIfs
import Paparazzi.Library.Machine
import Paparazzi.Rotorcraft.Arming

/-!
A kill is latched by the throttle machine: after the motors were switched off,
RC frames turn them on only by the complete gesture of lowering the throttle and
then holding it up, sticks centred, for the arming delay.
-/

namespace Paparazzi.Rotorcraft.ThrottleLatch

open Paparazzi.Library.Machine
open Paparazzi.Rotorcraft.Arming
open Paparazzi.Rotorcraft.Arming.Throttle

/-- The throttle machine with `autopilot_motors_on`. -/
structure MotorsState where
  machine : Throttle.Machine
  motorsOn : Bool
  deriving DecidableEq, Repr

/-- An RC frame and the mode in which it is checked. -/
structure Frame where
  rc : RcValues
  mode : ApMode
  deriving DecidableEq, Repr

inductive MotorsEvent where
  | rcFrame (f : Frame)
  | setOff
  deriving DecidableEq, Repr

/-- `autopilot_set_motors_on(FALSE)`. -/
def motorsOff (s : MotorsState) : MotorsState :=
  { machine := autopilotArmingSet false s.machine, motorsOn := false }

def step (cfg : ArmingConfig) (s : MotorsState) : MotorsEvent → MotorsState
  | .rcFrame f =>
      let (machine, on) := autopilotArmingCheckMotorsOn cfg f.rc f.mode s.machine s.motorsOn
      { machine := machine, motorsOn := on }
  | .setOff => motorsOff s

/-- The frames that the machine looks at: those above KILL. -/
def flyingFrames : List MotorsEvent → List Frame
  | [] => []
  | .rcFrame f :: events =>
      if f.mode > apModeKill then f :: flyingFrames events else flyingFrames events
  | .setOff :: events => flyingFrames events

theorem flyingFrames_append (events events' : List MotorsEvent) :
    flyingFrames (events ++ events') = flyingFrames events ++ flyingFrames events' := by
  induction events with
  | nil => rfl
  | cons event events ih =>
      cases event with
      | rcFrame f =>
          simp only [List.cons_append, flyingFrames, ih]
          split <;> rfl
      | setOff => exact ih

/-! ### The gesture -/

/-- Throttle up with the sticks centred, in a mode that may start the motors. -/
def throttleApplied (cfg : ArmingConfig) (unarmedInAuto : Bool) (f : Frame) : Bool :=
  !throttleStickDown f.rc && rcAttitudeSticksCentered cfg f.rc &&
    (f.mode = cfg.modeManual || unarmedInAuto)

/-- The throttle was down, before the first frame (`ready`) or in one of them. -/
def Lowered (ready : Bool) (frames : List Frame) : Prop :=
  ready = true ∨ ∃ f ∈ frames, throttleStickDown f.rc = true

/-- The frames end with `n` frames of applied throttle after the throttle was down. -/
def Held (cfg : ArmingConfig) (ready unarmedInAuto : Bool) (n : Nat) (frames : List Frame) :
    Prop :=
  ∃ before up, frames = before ++ up ∧ Lowered ready before ∧ up.length = n ∧
    ∀ f ∈ up, throttleApplied cfg unarmedInAuto f = true

/-- The complete gesture: throttle down, then applied for one frame and the
arming delay, and at least one frame after that. -/
def ThrottleGesture (cfg : ArmingConfig) (ready unarmedInAuto : Bool) (frames : List Frame) :
    Prop :=
  ∃ held after, frames = held ++ after ∧
    Held cfg ready unarmedInAuto (1 + autopilotArmingDelay) held ∧ after ≠ []

theorem Lowered.append {ready : Bool} {frames : List Frame} (h : Lowered ready frames)
    (frames' : List Frame) : Lowered ready (frames ++ frames') := by
  rcases h with hready | ⟨f, hf, hdown⟩
  · exact Or.inl hready
  · exact Or.inr ⟨f, List.mem_append_left frames' hf, hdown⟩

theorem Lowered.of_last {ready : Bool} {f : Frame} (h : throttleStickDown f.rc = true)
    (frames : List Frame) : Lowered ready (frames ++ [f]) :=
  Or.inr ⟨f, by simp, h⟩

section

variable {cfg : ArmingConfig} {ready unarmed : Bool} {frames : List Frame} {f : Frame}

theorem Held.lowered {n : Nat} (h : Held cfg ready unarmed n frames) : Lowered ready frames := by
  obtain ⟨before, up, rfl, hlow, -, -⟩ := h
  exact hlow.append up

theorem Held.first (h : Lowered ready frames) (hf : throttleApplied cfg unarmed f = true) :
    Held cfg ready unarmed 1 (frames ++ [f]) := by
  refine ⟨frames, [f], rfl, h, rfl, ?_⟩
  intro g hg
  rw [List.mem_singleton] at hg
  rw [hg]
  exact hf

theorem Held.next {n : Nat} (h : Held cfg ready unarmed n frames)
    (hf : throttleApplied cfg unarmed f = true) :
    Held cfg ready unarmed (n + 1) (frames ++ [f]) := by
  obtain ⟨before, up, rfl, hlow, hlen, hup⟩ := h
  refine ⟨before, up ++ [f], by simp, hlow, by simp [hlen], ?_⟩
  intro g hg
  rcases List.mem_append.mp hg with hg | hg
  · exact hup g hg
  · rw [List.mem_singleton] at hg
    rw [hg]
    exact hf

end

/-! ### The latch -/

/-- How far the gesture must have come in a state of the machine. -/
def Progress (cfg : ArmingConfig) (ready unarmed : Bool) (frames : List Frame)
    (m : Throttle.Machine) : Prop :=
  match m.state with
  | .uninit | .waiting => True
  | .motorsOffReady => Lowered ready frames
  | .arming =>
      m.delayCounter < autopilotArmingDelay ∧
        Held cfg ready unarmed (1 + m.delayCounter) frames
  | .motorsOn | .unarming => False

/-- Either the gesture is complete, and a frame came after it if the motors are
on, or the motors are off and the machine is in the middle of the gesture. -/
def Latched (cfg : ArmingConfig) (ready unarmed : Bool) (frames : List Frame)
    (s : MotorsState) : Prop :=
  (∃ held after, frames = held ++ after ∧
      Held cfg ready unarmed (1 + autopilotArmingDelay) held ∧
      (s.motorsOn = true → after ≠ [])) ∨
    (s.motorsOn = false ∧ s.machine.unarmedInAuto = unarmed ∧
      Progress cfg ready unarmed frames s.machine)

section

variable {cfg : ArmingConfig} {ready unarmed : Bool} {frames : List Frame} {s : MotorsState}

/-- The condition on which the machine starts to count. -/
theorem startCondition_eq (f : Frame) (state : State) (counter : Nat) :
    (!throttleStickDown f.rc && rcAttitudeSticksCentered cfg f.rc &&
      modeAllows cfg f.mode ⟨state, counter, unarmed⟩) = throttleApplied cfg unarmed f := rfl

/-- The condition on which it goes back. -/
theorem stopCondition_eq (f : Frame) (state : State) (counter : Nat) :
    (throttleStickDown f.rc || !rcAttitudeSticksCentered cfg f.rc ||
      !modeAllows cfg f.mode ⟨state, counter, unarmed⟩) = !throttleApplied cfg unarmed f := by
  rw [← startCondition_eq f state counter]
  simp only [Bool.not_and, Bool.not_not]

theorem latched_motorsOff (h : Latched cfg ready unarmed frames s) :
    Latched cfg ready unarmed frames (motorsOff s) := by
  rcases h with ⟨held, after, hframes, hheld, -⟩ | ⟨-, hunarmed, hprogress⟩
  · left
    refine ⟨held, after, hframes, hheld, ?_⟩
    intro hon
    cases hon
  · right
    obtain ⟨⟨state, counter, inAuto⟩, on⟩ := s
    refine ⟨rfl, ?_, ?_⟩
    · cases state <;> exact hunarmed
    · cases state with
      | uninit => trivial
      | waiting => trivial
      | motorsOffReady => exact hprogress
      | arming => exact hprogress
      | motorsOn => exact hprogress.elim
      | unarming => exact hprogress.elim

/-- One frame above KILL, by the state in which the machine reads it. -/
theorem latched_flyingFrame {f : Frame} (hmode : f.mode > apModeKill)
    (h : Latched cfg ready unarmed frames s) :
    Latched cfg ready unarmed (frames ++ [f]) (step cfg s (.rcFrame f)) := by
  rcases h with ⟨held, after, hframes, hheld, -⟩ | ⟨hoff, hunarmed, hprogress⟩
  · left
    refine ⟨held, after ++ [f], by simp [hframes], hheld, ?_⟩
    intro _
    simp
  · obtain ⟨⟨state, counter, inAuto⟩, on⟩ := s
    obtain rfl : inAuto = unarmed := hunarmed
    cases state with
    | uninit =>
        right
        simp only [step, Throttle.autopilotArmingCheckMotorsOn, hmode, if_true]
        refine ⟨trivial, trivial, ?_⟩
        by_cases hdown : throttleStickDown f.rc = true
        · simpa [Progress, hdown] using Lowered.of_last hdown frames
        · simp [Progress, hdown]
    | waiting =>
        right
        simp only [step, Throttle.autopilotArmingCheckMotorsOn, hmode, if_true]
        refine ⟨trivial, trivial, ?_⟩
        by_cases hdown : throttleStickDown f.rc = true
        · simpa [Progress, hdown] using Lowered.of_last hdown frames
        · simp [Progress, hdown]
    | motorsOffReady =>
        right
        have hlow : Lowered ready frames := hprogress
        simp only [step, Throttle.autopilotArmingCheckMotorsOn, hmode, if_true,
          startCondition_eq]
        refine ⟨trivial, trivial, ?_⟩
        by_cases happlied : throttleApplied cfg inAuto f = true
        · have hheld : Held cfg ready inAuto 1 (frames ++ [f]) := Held.first hlow happlied
          simpa [Progress, happlied, autopilotArmingDelay] using hheld
        · simpa [Progress, happlied] using hlow.append [f]
    | arming =>
        obtain ⟨hcounter, hheld⟩ := hprogress
        change counter < autopilotArmingDelay at hcounter
        change Held cfg ready inAuto (1 + counter) frames at hheld
        have hsmall : (counter + 1) % 2 ^ 8 = counter + 1 := by
          apply Nat.mod_eq_of_lt
          unfold autopilotArmingDelay at hcounter
          omega
        simp only [step, Throttle.autopilotArmingCheckMotorsOn, hmode, if_true,
          stopCondition_eq, hsmall]
        by_cases happlied : throttleApplied cfg inAuto f = true
        · have hnext := hheld.next happlied
          by_cases hend : counter + 1 ≥ autopilotArmingDelay
          · left
            have hlast : counter + 1 = autopilotArmingDelay := by omega
            refine ⟨frames ++ [f], [], by simp, ?_, ?_⟩
            · rw [← hlast, ← Nat.add_assoc]
              exact hnext
            · intro hon
              cases hon
          · right
            refine ⟨rfl, rfl, ?_⟩
            simp only [Progress, happlied, Bool.not_true, Bool.false_eq_true, if_false, hend]
            exact ⟨by omega, by rwa [← Nat.add_assoc]⟩
        · right
          refine ⟨rfl, rfl, ?_⟩
          simpa [Progress, happlied] using hheld.lowered.append [f]
    | motorsOn => exact hprogress.elim
    | unarming => exact hprogress.elim

/-- The step lemma. -/
theorem latched_step {events : List MotorsEvent} (event : MotorsEvent)
    (h : Latched cfg ready unarmed (flyingFrames events) s) :
    Latched cfg ready unarmed (flyingFrames (events ++ [event])) (step cfg s event) := by
  rw [flyingFrames_append]
  cases event with
  | rcFrame f =>
      by_cases hmode : f.mode > apModeKill
      · simpa only [flyingFrames, hmode, if_true] using latched_flyingFrame hmode h
      · simpa only [flyingFrames, step, Throttle.autopilotArmingCheckMotorsOn, hmode, if_false,
          List.append_nil] using h
  | setOff => simpa only [flyingFrames, List.append_nil, step] using latched_motorsOff h

end

/-- A call that switches the motors off in a state other than ARMING and
UNARMING starts the latch. -/
theorem latched_start {cfg : ArmingConfig} {s : MotorsState}
    (hstate : s.machine.state ≠ .arming ∧ s.machine.state ≠ .unarming) :
    Latched cfg (s.machine.state = .motorsOffReady) s.machine.unarmedInAuto [] (motorsOff s) := by
  right
  obtain ⟨⟨state, counter, inAuto⟩, on⟩ := s
  cases state with
  | uninit => exact ⟨rfl, rfl, trivial⟩
  | waiting => exact ⟨rfl, rfl, trivial⟩
  | motorsOffReady => exact ⟨rfl, rfl, Or.inl rfl⟩
  | arming => exact absurd rfl hstate.1
  | motorsOn => exact ⟨rfl, rfl, trivial⟩
  | unarming => exact absurd rfl hstate.2

/-- After the motors were switched off in a state other than ARMING and UNARMING,
they are on again at the end of a run of RC frames and further such calls only if
the complete gesture was made after the first call. -/
theorem motors_on_only_by_gesture (cfg : ArmingConfig) (s : MotorsState)
    (hstate : s.machine.state ≠ .arming ∧ s.machine.state ≠ .unarming)
    (events : List MotorsEvent)
    (hon : (run (step cfg) (motorsOff s) events).motorsOn = true) :
    ThrottleGesture cfg (s.machine.state = .motorsOffReady) s.machine.unarmedInAuto
      (flyingFrames events) := by
  let inv := fun es => Latched cfg (s.machine.state = .motorsOffReady)
    s.machine.unarmedInAuto (flyingFrames es)
  have hstep : ∀ es s' event, inv es s' → inv (es ++ [event]) (step cfg s' event) := by
    intro es s' event hs'
    exact latched_step event hs'
  have h : inv events (run (step cfg) (motorsOff s) events) :=
    run_history _ hstep (latched_start hstate) events
  rcases h with ⟨held, after, hframes, hheld, hafter⟩ | ⟨hoff, -, -⟩
  · exact ⟨held, after, hframes, hheld, hafter hon⟩
  · rw [hoff] at hon
    cases hon

/-- In UNARMING the call is lost: the next frame turns the motors on again. -/
theorem setOff_lost_in_unarming (cfg : ArmingConfig) (s : MotorsState) (f : Frame)
    (hstate : s.machine.state = .unarming) (hmode : f.mode > apModeKill) :
    (step cfg (motorsOff s) (.rcFrame f)).motorsOn = true := by
  obtain ⟨⟨state, counter, inAuto⟩, on⟩ := s
  obtain rfl : state = .unarming := hstate
  simp only [step, motorsOff, Throttle.autopilotArmingSet, Throttle.autopilotArmingCheckMotorsOn,
    hmode, if_true]
  simp only [Bool.false_eq_true, if_false, reduceCtorEq]
  split_ifs <;> rfl

/-- A gesture of another kind: throttle down with the sticks in a given position
for the arming delay, then the sticks released and the throttle up. -/
def StickGesture (cfg : ArmingConfig) (inPosition : RcValues → Prop) (frames : List Frame) :
    Prop :=
  ∃ before down released up after, frames = before ++ down ++ released ++ up ++ after ∧
    down.length = autopilotArmingDelay ∧
    (∀ f ∈ down, throttleStickDown f.rc = true ∧ inPosition f.rc) ∧
    (∃ f ∈ released, rcAttitudeSticksCentered cfg f.rc = true) ∧
    ∃ f ∈ up, throttleStickDown f.rc = false

/-- A frame in manual mode with the sticks centred. -/
def manualFrame (throttle : Int) : MotorsEvent :=
  .rcFrame
    { rc := { throttle := throttle, roll := 0, pitch := 0, yaw := 0, mode := -9600, killSwitch := 1 }
      mode := apModeRateDirect }

/-- One frame of throttle down, then throttle up. -/
def throttleUp : List MotorsEvent := manualFrame 0 :: List.replicate 12 (manualFrame 5000)

/-- The state in which the first such gesture after `autopilot_arming_init` ends. -/
def armedState : MotorsState :=
  run (step {}) ⟨Throttle.autopilotArmingInit, false⟩ throttleUp

theorem motors_on_only_by_gesture_throttleUp :
    ThrottleGesture {} (armedState.machine.state = .motorsOffReady)
      armedState.machine.unarmedInAuto (flyingFrames throttleUp) :=
  motors_on_only_by_gesture {} armedState (by decide) throttleUp (by decide)

/-- The motors are on again although the throttle was down in one frame only. -/
theorem armed_without_stick_gesture :
    (run (step {}) (motorsOff armedState) throttleUp).motorsOn = true ∧
      ∀ inPosition, ¬ StickGesture {} inPosition (flyingFrames throttleUp) := by
  refine ⟨by decide, ?_⟩
  rintro inPosition ⟨before, down, released, up, after, hframes, hlen, hdown, -⟩
  have hall : down.countP (fun f => throttleStickDown f.rc) = down.length := by
    rw [List.countP_eq_length]
    intro f hf
    exact (hdown f hf).1
  have hone : (flyingFrames throttleUp).countP (fun f => throttleStickDown f.rc) = 1 := by
    decide
  rw [hframes] at hone
  simp only [List.countP_append, hall, hlen, autopilotArmingDelay] at hone
  omega

end Paparazzi.Rotorcraft.ThrottleLatch
