import Paparazzi.Rotorcraft.Autopilot

/-!
Motors in KILL. With throttle and yaw arming no run turns the motors on in KILL;
with switch arming it takes an RC frame that leaves the autopilot in KILL while
the arming machine already waits to start the motors.
-/

namespace Paparazzi.Rotorcraft.KillInvariant

open Paparazzi.Library.Machine
open Paparazzi.Rotorcraft.Arming
open Paparazzi.Rotorcraft.Autopilot

/-- In KILL the motors are off. -/
def KillOff (s : ApState) : Prop :=
  s.autopilotMode = apModeKill → s.autopilotMotorsOn = false

/-- An RC frame that arrives in KILL does not change the mode: the kill switch is
on, the AHRS is not aligned, or the mode switch asks for KILL or for a NAV mode
that is refused. -/
def staysInKill (cfg : Config) (rc : RcValues) (s : ApState) : Bool :=
  killSwitchIsOn cfg.toArmingConfig rc || !ahrsIsAligned cfg s ||
    apModeOfPprz cfg rc s = apModeKill || navRefused cfg (apModeOfPprz cfg rc s) s

/-- No RC frame that stays in KILL finds the switch machine in its last state. -/
def KillOk (cfg : Config) (s : ApState) : ApEvent → Prop
  | .rcFrame rc =>
      ¬(s.autopilotMode = apModeKill ∧ switchMotorsOn s.arming = true ∧
        staysInKill cfg rc s = true)
  | _ => True

instance (cfg : Config) (s : ApState) : (event : ApEvent) → Decidable (KillOk cfg s event)
  | .rcFrame rc =>
      inferInstanceAs (Decidable (¬(s.autopilotMode = apModeKill ∧
        switchMotorsOn s.arming = true ∧ staysInKill cfg rc s = true)))
  | .rcStatus _ | .gps _ | .ahrs _ | .failsafeCheck | .periodic _ _ | .setMode _
  | .setAuto2 _ | .detectGround _ => isTrue trivial

section

variable {cfg : Config} {s : ApState}

theorem stopsMotors_kill : stopsMotors cfg apModeKill = true := by
  simp [stopsMotors]

/-- A mode change that ends in KILL either was in KILL before and changes
nothing, or stops the motors and the arming machine. -/
theorem setMode_kill {new : ApMode}
    (hkill : (autopilotSetMode cfg new s).autopilotMode = apModeKill) :
    (s.autopilotMode = apModeKill ∧ autopilotSetMode cfg new s = s) ∨
      ((autopilotSetMode cfg new s).autopilotMotorsOn = false ∧
        switchMotorsOn (autopilotSetMode cfg new s).arming = false) := by
  rw [setMode_mode] at hkill
  by_cases heq : forcedMode cfg new s = s.autopilotMode
  · left
    exact ⟨heq.symm.trans hkill, setMode_of_eq heq⟩
  · right
    have hstop : stopsMotors cfg (forcedMode cfg new s) = true := by
      rw [hkill]
      exact stopsMotors_kill
    obtain ⟨hoff, harming⟩ := setMode_stops heq hstop
    refine ⟨hoff, ?_⟩
    rw [harming]
    exact switchMotorsOn_set_false _ _ _

theorem killOff_setMode (new : ApMode) (h : KillOff s) : KillOff (autopilotSetMode cfg new s) := by
  intro hkill
  rcases setMode_kill hkill with ⟨hmode, hsame⟩ | ⟨hoff, -⟩
  · rw [hsame]
    exact h hmode
  · exact hoff

theorem killOff_navAction (action : NavAction) (h : KillOff s) :
    KillOff (navAction cfg s action) := by
  cases action with
  | killThrottle =>
      unfold navAction
      split_ifs with hnav
      · intro hkill
        exact absurd (hnav.symm.trans hkill) (by decide)
      · exact h
  | resurrect =>
      unfold navAction
      split_ifs with hnav
      · intro hkill
        exact absurd (hnav.symm.trans hkill) (by decide)
      · exact h
  | setMode mode => exact killOff_setMode mode h
  | startDetectGround => exact h
  | detectGround => exact h

theorem killOff_navActions (actions : List NavAction) (h : KillOff s) :
    KillOff (actions.foldl (navAction cfg) s) := by
  induction actions generalizing s with
  | nil => exact h
  | cons action actions ih => exact ih (killOff_navAction action h)

theorem killOff_checkInFlight (idle lift motorsOn : Bool) (h : KillOff s) :
    KillOff (checkInFlight idle lift motorsOn s) := by
  intro hkill
  rw [checkInFlight_mode] at hkill
  rw [checkInFlight_motorsOn]
  exact h hkill

theorem killOff_killOnGround (h : KillOff s) : KillOff (killOnGround cfg s) := by
  unfold killOnGround
  split_ifs
  · exact @killOff_setMode cfg s apModeKill h
  · exact h

theorem killOff_periodic (actions : List NavAction) (thrust : Int) (h : KillOff s) :
    KillOff (autopilotPeriodic cfg actions thrust s) := by
  have hground : KillOff (killOnGround cfg (actions.foldl (navAction cfg) s)) :=
    killOff_killOnGround (killOff_navActions actions h)
  unfold autopilotPeriodic
  dsimp only
  split_ifs
  · exact killOff_checkInFlight _ _ _ hground
  · exact hground

theorem killOff_failsafeCheck (h : KillOff s) : KillOff (failsafeCheck cfg s) := by
  unfold failsafeCheck
  dsimp only
  split_ifs
  · exact killOff_setMode _ (killOff_setMode _ h)
  · exact killOff_setMode _ h
  · exact killOff_setMode _ h
  · exact h

/-- The switches leave the autopilot in KILL with the motors off; where a frame
could start them, the autopilot was in KILL before and nothing changed. -/
theorem rcSetMode_kill {rc : RcValues} (h : KillOff s)
    (hkill : (rcSetMode cfg rc s).autopilotMode = apModeKill) :
    (rcSetMode cfg rc s).autopilotMotorsOn = false ∧
      (switchMotorsOn (rcSetMode cfg rc s).arming = true →
        s.autopilotMode = apModeKill ∧ switchMotorsOn s.arming = true ∧
          staysInKill cfg rc s = true) := by
  have hset : ∀ new, (autopilotSetMode cfg new s).autopilotMode = apModeKill →
      (forcedMode cfg new s = apModeKill → staysInKill cfg rc s = true) →
      (autopilotSetMode cfg new s).autopilotMotorsOn = false ∧
        (switchMotorsOn (autopilotSetMode cfg new s).arming = true →
          s.autopilotMode = apModeKill ∧ switchMotorsOn s.arming = true ∧
            staysInKill cfg rc s = true) := by
    intro new hmode hstays
    refine ⟨killOff_setMode new h hmode, ?_⟩
    intro hon
    rcases setMode_kill hmode with ⟨hbefore, hsame⟩ | ⟨-, hoff⟩
    · rw [hsame] at hon
      rw [setMode_mode] at hmode
      exact ⟨hbefore, hon, hstays hmode⟩
    · rw [hoff] at hon
      contradiction
  unfold rcSetMode at hkill ⊢
  split_ifs at hkill ⊢ with hswitch hrefused
  · apply hset apModeKill hkill
    intro _
    simp [staysInKill, hswitch]
  · apply hset (apModeOfPprz cfg rc s) hkill
    intro hforced
    unfold forcedMode at hforced
    split_ifs at hforced with haligned
    · simp [staysInKill, hforced]
    · simp [staysInKill, haligned]
  · refine ⟨h hkill, ?_⟩
    intro hon
    refine ⟨hkill, hon, ?_⟩
    simp only [Bool.not_eq_eq_eq_not, Bool.not_true, Bool.not_eq_false] at hrefused
    simp [staysInKill, hrefused]

theorem killOff_rcFrame {rc : RcValues} (h : KillOff s) (hok : KillOk cfg s (.rcFrame rc)) :
    KillOff (autopilotOnRcFrame cfg rc s) := by
  intro hkill
  unfold autopilotOnRcFrame rcCheckMotors at hkill ⊢
  split_ifs at hkill ⊢ with hflying
  · simp only [autopilotCheckInFlight, checkInFlight_mode, checkInFlight_motorsOn] at hkill ⊢
    obtain ⟨hoff, hstart⟩ := rcSetMode_kill h hkill
    rw [checkMotorsOn_of_not_flying (by rw [hkill]; decide)]
    split
    · exact Bool.eq_false_iff.mpr fun hon => hok (hstart hon)
    · exact hoff
  · exact (rcSetMode_kill h hkill).1

/-- A frame that stays in KILL leaves everything to the arming machine. -/
theorem rcSetMode_of_staysInKill {rc : RcValues} (hkill : s.autopilotMode = apModeKill)
    (hstays : staysInKill cfg rc s = true) : rcSetMode cfg rc s = s := by
  have hforced : ∀ new, forcedMode cfg new s = apModeKill → autopilotSetMode cfg new s = s := by
    intro new hnew
    exact setMode_of_eq (hnew.trans hkill.symm)
  unfold rcSetMode
  split_ifs with hswitch hrefused
  · apply hforced
    simp [forcedMode]
  · apply hforced
    unfold forcedMode
    rw [Bool.not_eq_true'] at hrefused
    split_ifs with haligned
    · simpa [staysInKill, hswitch, hrefused, haligned] using hstays
    · rfl
  · rfl

/-- The condition on RC frames is exact. -/
theorem killOff_rcFrame_iff {rc : RcValues} (h : KillOff s) :
    KillOff (autopilotOnRcFrame cfg rc s) ↔ KillOk cfg s (.rcFrame rc) := by
  refine ⟨?_, killOff_rcFrame h⟩
  rintro hoff ⟨hkill, hstart, hstays⟩
  unfold autopilotOnRcFrame rcCheckMotors at hoff
  rw [rcSetMode_of_staysInKill hkill hstays, if_pos (by rw [hkill]; decide)] at hoff
  simp only [KillOff, autopilotCheckInFlight, checkInFlight_mode,
    checkInFlight_motorsOn] at hoff
  specialize hoff hkill
  rw [checkMotorsOn_of_not_flying (by rw [hkill]; decide)] at hoff
  cases harming : s.arming with
  | throttle a => simp [harming, switchMotorsOn] at hstart
  | yaw a => simp [harming, switchMotorsOn] at hstart
  | switch a =>
      rw [harming] at hoff hstart
      exact absurd (hoff.symm.trans hstart) (by decide)

/-- The step lemma. -/
theorem killOff_step {event : ApEvent} (h : KillOff s) (hok : KillOk cfg s event) :
    KillOff (step cfg s event) := by
  cases event with
  | rcFrame rc => exact killOff_rcFrame h hok
  | rcStatus ok => exact h
  | gps lost => exact h
  | ahrs running => exact h
  | failsafeCheck => exact killOff_failsafeCheck h
  | periodic actions thrust => exact killOff_periodic actions thrust h
  | setMode mode => exact killOff_setMode mode h
  | setAuto2 mode => exact h
  | detectGround hit =>
      change KillOff (detectGroundEvent hit s)
      unfold detectGroundEvent
      split_ifs
      · exact h
      · exact h

theorem killOff_init (ahrsRunning rcOk gpsLost : Bool) :
    KillOff (autopilotInit cfg ahrsRunning rcOk gpsLost) := by
  apply killOff_setMode
  intro _
  rfl

end

/-- In every run from `autopilot_init` in which no RC frame that stays in KILL
finds the switch machine ready to start, the motors are off in KILL. -/
theorem motors_off_in_kill (cfg : Config) (ahrsRunning rcOk gpsLost : Bool)
    (events : List ApEvent)
    (hok : RunOk (step cfg) (KillOk cfg) (autopilotInit cfg ahrsRunning rcOk gpsLost) events) :
    KillOff (run (step cfg) (autopilotInit cfg ahrsRunning rcOk gpsLost) events) :=
  run_invariant _ (fun _ _ h hok => killOff_step h hok)
    (killOff_init ahrsRunning rcOk gpsLost) hok

/-- An airframe with switch arming and NAV as second automatic mode. -/
def switchConfig : Config :=
  { variant := .switch, modeAuto2 := apModeNav }

/-- Throttle down and the other sticks centred. -/
def restingSticks (mode killSwitch : Int) : RcValues :=
  { throttle := 0, roll := 0, pitch := 0, yaw := 0, mode := mode, killSwitch := killSwitch }

/-- Arm in manual mode, go to the first automatic mode and kill there with the switch. -/
def armAndKill : List ApEvent :=
  [.ahrs true, .rcFrame (restingSticks (-9600) (-1)), .rcFrame (restingSticks (-9600) 1),
    .rcFrame (restingSticks 0 1), .rcFrame (restingSticks 0 (-1))]

/-- The motors are off in KILL after the kill switch, and stay off when the GPS
is lost and the pilot asks for a manual mode. -/
theorem motors_off_in_kill_armAndKill :
    KillOff (run (step switchConfig) (autopilotInit switchConfig false true false)
      (armAndKill ++ [.gps true, .rcFrame (restingSticks (-9600) 1)])) :=
  motors_off_in_kill switchConfig false true false
    (armAndKill ++ [.gps true, .rcFrame (restingSticks (-9600) 1)]) (by decide)

/-- With the GPS lost, two frames of the NAV position of the mode switch start
the motors while the autopilot stays in KILL. -/
theorem motors_on_in_kill :
    ¬ KillOff (run (step switchConfig) (autopilotInit switchConfig false true false)
      (armAndKill ++ [.gps true, .rcFrame (restingSticks 9600 1),
        .rcFrame (restingSticks 9600 1)])) := by
  intro h
  exact absurd (h (by decide)) (by decide)

end Paparazzi.Rotorcraft.KillInvariant
