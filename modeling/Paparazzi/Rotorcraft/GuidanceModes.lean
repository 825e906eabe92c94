import Mathlib.Tactic.IntervalCases
import Paparazzi.Rotorcraft.Autopilot

/-!
The guidance modes that belong to the autopilot modes, and when the two switches of
`autopilot_set_mode` keep them in step.
-/

namespace Paparazzi.Rotorcraft.GuidanceModes

open Paparazzi.Library
open Paparazzi.Rotorcraft.Arming
open Paparazzi.Rotorcraft.Autopilot

/-- The horizontal and the vertical guidance mode that an autopilot mode stands for;
the values beyond `AP_MODE_FORWARD` stand for none. -/
def prescribed (cfg : Config) (mode : ApMode) : Option (GuidanceHMode × GuidanceVMode) :=
  if mode = apModeFailsafe then
    some (if cfg.killAsFailsafe then (.kill, .kill) else (.attitude, .climb))
  else if mode = apModeKill then some (.kill, .kill)
  else if mode = apModeRateDirect then some (.rate, .rcDirect)
  else if mode = apModeAttitudeDirect then some (.attitude, .rcDirect)
  else if mode = apModeRateRcClimb then some (.rate, .rcClimb)
  else if mode = apModeAttitudeRcClimb then some (.attitude, .rcClimb)
  else if mode = apModeAttitudeClimb then some (.attitude, .climb)
  else if mode = apModeRateZHold then some (.rate, .hover)
  else if mode = apModeAttitudeZHold then some (.attitude, .hover)
  else if mode = apModeHoverDirect then some (.hover, .rcDirect)
  else if mode = apModeHoverClimb then some (.hover, .climb)
  else if mode = apModeHoverZHold then some (.hover, .hover)
  else if mode = apModeNav then some (.nav, .nav)
  else if mode = apModeRcDirect then some (.rcDirect, .rcDirect)
  else if mode = apModeCareFreeDirect then some (.careFree, .rcDirect)
  else if mode = apModeForward then some (.forward, .rcDirect)
  else none

/-- The guidance is in the modes of the autopilot mode. -/
def Follows (cfg : Config) (s : ApState) : Prop :=
  prescribed cfg s.autopilotMode = some (s.guidanceHMode, s.guidanceVMode)

instance (cfg : Config) (s : ApState) : Decidable (Follows cfg s) :=
  inferInstanceAs (Decidable (_ = _))

/-- The mode that is entered has a case in both switches, or keeps the right horizontal
mode: `AP_MODE_RATE_RC_CLIMB` has none in the horizontal switch. -/
def Entered (s : ApState) (mode : ApMode) : Prop :=
  mode ≤ apModeForward ∧ (mode = apModeRateRcClimb → s.guidanceHMode = .rate)

instance (s : ApState) (mode : ApMode) : Decidable (Entered s mode) :=
  inferInstanceAs (Decidable (_ ∧ _))

/-- The request leaves the mode, or enters one that the switches know. -/
def RequestOk (cfg : Config) (new : ApMode) (s : ApState) : Prop :=
  forcedMode cfg new s = s.autopilotMode ∨ Entered s (forcedMode cfg new s)

instance (cfg : Config) (new : ApMode) (s : ApState) : Decidable (RequestOk cfg new s) :=
  inferInstanceAs (Decidable (_ ∨ _))

/-! ### The two switches -/

section Switches

attribute [local simp] apModeFailsafe apModeKill apModeRateDirect apModeAttitudeDirect
  apModeRateRcClimb apModeAttitudeRcClimb apModeAttitudeClimb apModeRateZHold apModeAttitudeZHold
  apModeHoverDirect apModeHoverClimb apModeHoverZHold apModeNav apModeRcDirect
  apModeCareFreeDirect apModeForward

/-- The modes of the switches are the numbers up to `AP_MODE_FORWARD`. -/
theorem exists_number {mode : ApMode} (h : mode ≤ apModeForward) :
    ∃ n : Nat, n < 16 ∧ mode = UInt8.ofNat n := by
  rw [UInt8.le_iff_toNat_le] at h
  refine ⟨mode.toNat, ?_, by simp⟩
  simp at h
  omega

theorem prescribed_eq_none {cfg : Config} {mode : ApMode} (h : ¬ mode ≤ apModeForward) :
    prescribed cfg mode = none := by
  have hne : ∀ m : ApMode, m ≤ apModeForward → mode ≠ m := by
    rintro m hm rfl
    exact h hm
  unfold prescribed
  repeat rw [if_neg (hne _ (by decide))]

/-- The switches end in the prescribed modes exactly where the mode is one that they
enter. -/
theorem prescribed_switches_iff (cfg : Config) (s : ApState) (new : ApMode) :
    prescribed cfg new =
        some ((setModeHorizontal cfg new s).guidanceHMode,
          (setModeVertical cfg new (setModeHorizontal cfg new s)).guidanceVMode) ↔
      Entered s new := by
  by_cases hle : new ≤ apModeForward
  · obtain ⟨n, hn, rfl⟩ := exists_number hle
    cases hfailsafe : cfg.killAsFailsafe <;> interval_cases n <;>
      simp [prescribed, setModeHorizontal, setModeVertical, stopsMotors, Entered, hfailsafe,
        eq_comm]
  · rw [prescribed_eq_none hle]
    exact iff_of_false (by simp) (fun h => hle h.1)

theorem prescribed_nav (cfg : Config) : prescribed cfg apModeNav = some (.nav, .nav) := by
  simp [prescribed]

end Switches

section

variable {cfg : Config} {s : ApState}

@[simp] theorem setModeVertical_guidanceHMode (new : ApMode) :
    (setModeVertical cfg new s).guidanceHMode = s.guidanceHMode := by
  obtain ⟨mode, heq⟩ := @setModeVertical_eq cfg s new
  rw [heq]

/-- A change of the mode brings the guidance in step exactly where both switches know
the mode. -/
theorem follows_changed_iff {new : ApMode} (hne : forcedMode cfg new s ≠ s.autopilotMode) :
    Follows cfg (autopilotSetMode cfg new s) ↔ Entered s (forcedMode cfg new s) := by
  have hswitch := prescribed_switches_iff cfg s (forcedMode cfg new s)
  simp only [Follows, autopilotSetMode, hne, ne_eq, not_false_eq_true, if_true,
    setModeVertical_guidanceHMode]
  exact hswitch

/-- A request keeps the guidance in step exactly where it leaves the mode or enters one
that the switches know. -/
theorem follows_setMode_iff (h : Follows cfg s) (new : ApMode) :
    Follows cfg (autopilotSetMode cfg new s) ↔ RequestOk cfg new s := by
  by_cases heq : forcedMode cfg new s = s.autopilotMode
  · rw [setMode_of_eq heq]
    exact iff_of_true h (Or.inl heq)
  · rw [follows_changed_iff heq, RequestOk, or_iff_right heq]

/-- The modes that the autopilot enters by itself are among those of the switches. -/
theorem requestOk_of_lt {new : ApMode} (h : new < apModeRateRcClimb) : RequestOk cfg new s := by
  right
  have hforced : forcedMode cfg new s < apModeRateRcClimb := by
    unfold forcedMode
    split_ifs
    · exact h
    · decide
  refine ⟨?_, ?_⟩
  · rw [UInt8.lt_iff_toNat_lt] at hforced
    rw [UInt8.le_iff_toNat_le]
    exact Nat.le_of_lt (Nat.lt_trans hforced (by decide))
  · intro heq
    rw [heq] at hforced
    exact absurd hforced (by decide)

/-- What the guidance modes depend on. -/
theorem Follows.of_eq (h : Follows cfg s) {s' : ApState}
    (hmode : s'.autopilotMode = s.autopilotMode) (hh : s'.guidanceHMode = s.guidanceHMode)
    (hv : s'.guidanceVMode = s.guidanceVMode) : Follows cfg s' := by
  unfold Follows
  rw [hmode, hh, hv]
  exact h

theorem follows_setMotorsOn (h : Follows cfg s) (motorsOn : Bool) :
    Follows cfg (autopilotSetMotorsOn cfg motorsOn s) :=
  h.of_eq rfl rfl rfl

theorem follows_checkInFlight (h : Follows cfg s) (idle lift motorsOn : Bool) :
    Follows cfg (checkInFlight idle lift motorsOn s) := by
  unfold checkInFlight
  split_ifs <;> exact h.of_eq rfl rfl rfl

/-! ### Events -/

/-- The requests of the flight plan in a call of the periodic task. -/
def ActionsOk (cfg : Config) : List NavAction → ApState → Prop
  | [], _ => True
  | .setMode mode :: actions, s =>
      RequestOk cfg mode s ∧ ActionsOk cfg actions (navAction cfg s (.setMode mode))
  | action :: actions, s => ActionsOk cfg actions (navAction cfg s action)

/-- Every mode that an event requests is left alone or entered by both switches. -/
def StepOk (cfg : Config) (s : ApState) : ApEvent → Prop
  | .rcFrame rc =>
      killSwitchIsOn cfg.toArmingConfig rc = true ∨
        navRefused cfg (apModeOfPprz cfg rc s) s = true ∨
        RequestOk cfg (apModeOfPprz cfg rc s) s
  | .periodic actions _ => ActionsOk cfg actions s
  | .setMode mode => RequestOk cfg mode s
  | _ => True

theorem follows_rcFrame (h : Follows cfg s) {rc : RcValues} (hok : StepOk cfg s (.rcFrame rc)) :
    Follows cfg (autopilotOnRcFrame cfg rc s) := by
  have hset : Follows cfg (rcSetMode cfg rc s) := by
    unfold rcSetMode
    split_ifs with hkill hrefused
    · exact (follows_setMode_iff h _).mpr (requestOk_of_lt (by decide))
    · rcases hok with hkill' | hrefused' | hrequest
      · exact absurd hkill' hkill
      · simp [hrefused'] at hrefused
      · exact (follows_setMode_iff h _).mpr hrequest
    · exact h
  simp only [autopilotOnRcFrame, rcCheckMotors]
  split_ifs
  · unfold autopilotCheckInFlight
    apply follows_checkInFlight
    exact hset.of_eq rfl rfl rfl
  · exact hset

theorem follows_actions {actions : List NavAction} (h : Follows cfg s)
    (hok : ActionsOk cfg actions s) : Follows cfg (actions.foldl (navAction cfg) s) := by
  induction actions generalizing s with
  | nil => exact h
  | cons action actions ih =>
      cases action with
      | setMode mode => exact ih ((follows_setMode_iff h mode).mpr hok.1) hok.2
      | killThrottle =>
          refine ih ?_ hok
          simp only [navAction]
          split_ifs
          · exact follows_setMotorsOn h false
          · exact h
      | resurrect =>
          refine ih ?_ hok
          simp only [navAction]
          split_ifs
          · exact follows_setMotorsOn h true
          · exact h
      | startDetectGround => exact ih (h.of_eq rfl rfl rfl) hok
      | detectGround => exact ih (h.of_eq rfl rfl rfl) hok

theorem follows_periodic (h : Follows cfg s) {actions : List NavAction}
    (hok : ActionsOk cfg actions s) (thrust : Int) :
    Follows cfg (autopilotPeriodic cfg actions thrust s) := by
  have hground : Follows cfg (killOnGround cfg (actions.foldl (navAction cfg) s)) := by
    have hactions := follows_actions h hok
    unfold killOnGround
    split_ifs
    · exact ((follows_setMode_iff hactions _).mpr (requestOk_of_lt (by decide))).of_eq rfl rfl rfl
    · exact hactions
  simp only [autopilotPeriodic]
  split_ifs
  · exact follows_checkInFlight hground _ _ _
  · exact hground

theorem follows_failsafeCheck (h : Follows cfg s) : Follows cfg (failsafeCheck cfg s) := by
  have hfailsafe : ∀ {s : ApState}, Follows cfg s →
      Follows cfg (autopilotSetMode cfg apModeFailsafe s) := by
    intro s h
    exact (follows_setMode_iff h _).mpr (requestOk_of_lt (by decide))
  simp only [failsafeCheck]
  split_ifs
  · exact hfailsafe (hfailsafe h)
  · exact hfailsafe h
  · exact hfailsafe h
  · exact h

theorem follows_step (h : Follows cfg s) {e : ApEvent} (hok : StepOk cfg s e) :
    Follows cfg (step cfg s e) := by
  cases e with
  | rcFrame rc => exact follows_rcFrame h hok
  | periodic actions thrust => exact follows_periodic h hok thrust
  | setMode mode => exact (follows_setMode_iff h mode).mpr hok
  | failsafeCheck => exact follows_failsafeCheck h
  | detectGround hit =>
      simp only [step, detectGroundEvent]
      split_ifs
      · exact h.of_eq rfl rfl rfl
      · exact h
  | rcStatus ok => exact h.of_eq rfl rfl rfl
  | gps lost => exact h.of_eq rfl rfl rfl
  | ahrs running => exact h.of_eq rfl rfl rfl
  | setAuto2 mode => exact h.of_eq rfl rfl rfl

/-! ### Start-up -/

/-- `autopilot_init` believes in NAV while the guidance is in KILL: it must enter a mode
other than NAV, one that both switches know. -/
def StartupOk (cfg : Config) (ahrsRunning : Bool) : Prop :=
  if cfg.ahrsKill = true ∧ ahrsRunning = false then True
  else cfg.modeStartup ≠ apModeNav ∧ cfg.modeStartup ≤ apModeForward ∧
    cfg.modeStartup ≠ apModeRateRcClimb

theorem follows_init_iff (cfg : Config) (ahrsRunning rcOk gpsLost : Bool) :
    Follows cfg (autopilotInit cfg ahrsRunning rcOk gpsLost) ↔ StartupOk cfg ahrsRunning := by
  unfold autopilotInit
  generalize hs : (ApState.mk apModeNav cfg.modeAuto2 false true false 0 false false
    (autopilotArmingInit cfg.variant) .kill .kill ahrsRunning rcOk gpsLost) = s
  have hmode : s.autopilotMode = apModeNav := by rw [← hs]
  have hkill : s.guidanceHMode = .kill ∧ s.guidanceVMode = .kill := by
    rw [← hs]
    exact ⟨rfl, rfl⟩
  have hforced : forcedMode cfg cfg.modeStartup s =
      if cfg.ahrsKill = true ∧ ahrsRunning = false then apModeKill else cfg.modeStartup := by
    rw [← hs]
    cases hahrs : cfg.ahrsKill <;> cases ahrsRunning <;>
      simp [forcedMode, ahrsIsAligned, hahrs]
  by_cases heq : forcedMode cfg cfg.modeStartup s = s.autopilotMode
  · rw [setMode_of_eq heq]
    rw [hforced, hmode] at heq
    unfold StartupOk
    split_ifs at heq ⊢
    · exact absurd heq (by decide)
    · refine iff_of_false ?_ (fun h => h.1 heq)
      rw [Follows, hmode, hkill.1, hkill.2]
      rw [prescribed_nav]
      decide
  · rw [follows_changed_iff heq, Entered, hkill.1]
    rw [hforced, hmode] at heq
    rw [hforced]
    unfold StartupOk
    split_ifs at heq ⊢
    · exact iff_of_true ⟨by decide, by decide⟩ trivial
    · simp [heq]

end

/-- In every run from `autopilot_init` in which each mode requested is one that both
switches know, the guidance is in the modes of the autopilot mode. -/
theorem guidance_follows_mode (cfg : Config) (ahrsRunning rcOk gpsLost : Bool)
    (events : List ApEvent) (hstart : StartupOk cfg ahrsRunning)
    (hok : Machine.RunOk (step cfg) (StepOk cfg) (autopilotInit cfg ahrsRunning rcOk gpsLost)
      events) :
    Follows cfg (Machine.run (step cfg) (autopilotInit cfg ahrsRunning rcOk gpsLost) events) :=
  Machine.run_invariant (Follows cfg)
    (fun _ _ h hstep => follows_step h hstep)
    ((follows_init_iff cfg ahrsRunning rcOk gpsLost).mpr hstart) hok

/-- Started with the AHRS not aligned, then flown in HOVER_Z_HOLD and NAV. -/
theorem guidance_follows_hover_nav :
    Follows {} (Machine.run (step {}) (autopilotInit {} false true false)
      [.ahrs true, .setMode apModeHoverZHold, .setMode apModeNav]) := by
  refine guidance_follows_mode {} false true false _ trivial ?_
  exact ⟨trivial, show RequestOk _ _ _ by decide, show RequestOk _ _ _ by decide, trivial⟩

/-- Started in NAV with the AHRS aligned, and entering RATE_RC_CLIMB from
ATTITUDE_DIRECT, the guidance is in another mode. -/
theorem guidance_left_behind :
    (¬ ∀ (cfg : Config) (ahrsRunning rcOk gpsLost : Bool),
      Follows cfg (step cfg (autopilotInit cfg ahrsRunning rcOk gpsLost) (.setMode apModeNav))) ∧
    ¬ ∀ (cfg : Config) (ahrsRunning rcOk gpsLost : Bool) (events : List ApEvent),
      StartupOk cfg ahrsRunning →
      Follows cfg
        (Machine.run (step cfg) (autopilotInit cfg ahrsRunning rcOk gpsLost) events) := by
  constructor
  · intro h
    exact absurd (h {} true true false) (by decide)
  · intro h
    exact absurd (h {} false true false
      [.ahrs true, .setMode apModeAttitudeDirect, .setMode apModeRateRcClimb] trivial) (by decide)

end Paparazzi.Rotorcraft.GuidanceModes
