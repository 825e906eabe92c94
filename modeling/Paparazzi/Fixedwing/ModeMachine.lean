import Mathlib
import Paparazzi.Fixedwing.Autopilot
import Paparazzi.Library.Numerals

/-!
The modes of the fixed-wing autopilot over every order of its tasks: HOME and GPS_OUT_OF_ORDER
against RC frames, the loss of the GPS and its recovery, the entry of GPS_OUT_OF_ORDER, and the
throttle once it is killed.
-/

namespace Paparazzi.Fixedwing.ModeMachine

open Paparazzi.Library.Machine
open Paparazzi.Fixedwing.Autopilot

attribute [local instance] Library.Numerals.neZero_two

variable {m : Nat}

section

variable {cfg : ApConfig m} {s : ApState}

/-! ### RC frames -/

@[simp] theorem readThrottle_mode (fbw : FbwState m) :
    (readThrottle cfg fbw s).pprzMode = s.pprzMode := by
  unfold readThrottle
  split_ifs <;> rfl

@[simp] theorem checkLaunch_mode (fbw : FbwState m) :
    (checkLaunch cfg fbw s).pprzMode = s.pprzMode := by
  unfold checkLaunch
  split_ifs <;> rfl

theorem checkHomeAndRc_locked (fbw : FbwState m) (h : lockedMode s.pprzMode = true) :
    checkHomeAndRc cfg fbw s = s := by
  unfold checkHomeAndRc
  simp [h]

theorem pprzModeUpdate_locked (fbw : FbwState m) (h : lockedMode s.pprzMode = true) :
    pprzModeUpdate cfg fbw s = s := by
  unfold pprzModeUpdate
  rw [if_pos h]

theorem telecommandTask_locked (fbw : FbwState m) (h : lockedMode s.pprzMode = true) :
    (telecommandTask cfg fbw s).pprzMode = s.pprzMode := by
  unfold telecommandTask
  dsimp only
  rw [checkLaunch_mode, checkHomeAndRc_locked fbw h, pprzModeUpdate_locked fbw h]
  simp

/-- What an RC frame leaves of the fields that the other tasks are about. -/
structure RcFrame (s s' : ApState) : Prop where
  gpsLost : s'.gpsLost = s.gpsLost
  lastPprzMode : s'.lastPprzMode = s.lastPprzMode
  killThrottle : s'.killThrottle = s.killThrottle
  launch : s.launch = true → s'.launch = true

theorem RcFrame.refl (s : ApState) : RcFrame s s :=
  ⟨rfl, rfl, rfl, id⟩

theorem RcFrame.trans {s₁ s₂ : ApState} (h₁ : RcFrame s s₁) (h₂ : RcFrame s₁ s₂) :
    RcFrame s s₂ where
  gpsLost := h₂.gpsLost.trans h₁.gpsLost
  lastPprzMode := h₂.lastPprzMode.trans h₁.lastPprzMode
  killThrottle := h₂.killThrottle.trans h₁.killThrottle
  launch := h₂.launch ∘ h₁.launch

theorem rcFrame_checkHomeAndRc (fbw : FbwState m) : RcFrame s (checkHomeAndRc cfg fbw s) := by
  unfold checkHomeAndRc
  dsimp only
  split_ifs <;> exact ⟨rfl, rfl, rfl, id⟩

theorem rcFrame_pprzModeUpdate (fbw : FbwState m) : RcFrame s (pprzModeUpdate cfg fbw s) := by
  unfold pprzModeUpdate
  split_ifs <;> exact ⟨rfl, rfl, rfl, id⟩

theorem rcFrame_readThrottle (fbw : FbwState m) : RcFrame s (readThrottle cfg fbw s) := by
  unfold readThrottle
  split_ifs <;> exact ⟨rfl, rfl, rfl, id⟩

theorem rcFrame_checkLaunch (fbw : FbwState m) : RcFrame s (checkLaunch cfg fbw s) := by
  unfold checkLaunch
  split_ifs
  · exact ⟨rfl, rfl, rfl, fun _ => rfl⟩
  · exact RcFrame.refl s

theorem rcFrame_telecommandTask (fbw : FbwState m) : RcFrame s (telecommandTask cfg fbw s) := by
  have hmode (s' : ApState) :
      RcFrame s' (if fbw.averagedChannelsSent then pprzModeUpdate cfg fbw s' else s') := by
    split_ifs
    · exact rcFrame_pprzModeUpdate fbw
    · exact RcFrame.refl s'
  have hread (s' : ApState) :
      RcFrame s' { readThrottle cfg fbw s' with vsupply := fbw.vsupply } :=
    (rcFrame_readThrottle fbw).trans ⟨rfl, rfl, rfl, id⟩
  unfold telecommandTask
  exact (((rcFrame_checkHomeAndRc fbw).trans (hmode _)).trans (hread _)).trans
    (rcFrame_checkLaunch fbw)

theorem modeOfChannels_unlocked (cfg : ApConfig m) (channels : Fin m → Int16) :
    lockedMode (modeOfChannels cfg channels) = false := by
  unfold modeOfChannels pprzModeOfPulse
  cases cfg.radioAutoMode with
  | none =>
      dsimp only
      split_ifs <;> rfl
  | some radioAutoMode =>
      dsimp only
      split_ifs <;> rfl

/-! ### The loss of the GPS -/

/-- The call loses the GPS in AUTO2 or HOME. -/
def Declares (cfg : ApConfig m) (s : ApState) (call : NavigationCall) : Prop :=
  ∃ delay, cfg.failsafeDelayWithoutGps = some delay ∧ s.launch = true ∧
    gpsTimeoutError delay call = true ∧ (s.pprzMode = .auto2 ∨ s.pprzMode = .home)

/-- No GPS in this call, where it is one of `navigation_task`. -/
def NoGps (cfg : ApConfig m) : ApEvent m → Prop
  | .navigation call =>
      ∀ delay, cfg.failsafeDelayWithoutGps = some delay → gpsTimeoutError delay call = true
  | _ => True

/-- The GPS was lost in `mode`. -/
structure Lost (mode : PprzMode) (s : ApState) : Prop where
  pprzMode : s.pprzMode = .gpsOutOfOrder
  gpsLost : s.gpsLost = true
  launch : s.launch = true
  lastPprzMode : s.lastPprzMode = mode

/-- The part of the state that `Lost` is about. -/
theorem Lost.of_eq {mode : PprzMode} {s' : ApState} (h : Lost mode s)
    (hmode : s'.pprzMode = s.pprzMode) (hlost : s'.gpsLost = s.gpsLost)
    (hlaunch : s.launch = true → s'.launch = true)
    (hlast : s'.lastPprzMode = s.lastPprzMode) : Lost mode s' :=
  ⟨hmode.trans h.pprzMode, hlost.trans h.gpsLost, hlaunch h.launch, hlast.trans h.lastPprzMode⟩

theorem lost_telecommandTask {mode : PprzMode} (h : Lost mode s) (fbw : FbwState m) :
    Lost mode (telecommandTask cfg fbw s) := by
  have hlocked : lockedMode s.pprzMode = true := by
    rw [h.pprzMode]
    rfl
  have hframe : RcFrame s (telecommandTask cfg fbw s) := rcFrame_telecommandTask fbw
  exact h.of_eq (telecommandTask_locked fbw hlocked) hframe.gpsLost hframe.launch
    hframe.lastPprzMode

theorem lost_monitorTask {mode : PprzMode} (h : Lost mode s) (speed : ℚ) :
    Lost mode (monitorTask cfg speed s) := by
  refine h.of_eq ?_ ?_ ?_ ?_ <;>
  · unfold monitorTask
    dsimp only
    split_ifs <;> simp

theorem lost_attitudeLoop {mode : PprzMode} (h : Lost mode s) (climb : Int16) :
    Lost mode (attitudeLoop cfg climb s) := by
  refine h.of_eq ?_ ?_ ?_ ?_ <;>
  · unfold attitudeLoop
    split_ifs <;> simp

theorem checkGps_of_lost {mode : PprzMode} (h : Lost mode s) {call : NavigationCall}
    (hno : NoGps cfg (.navigation call)) : checkGps cfg call s = s := by
  unfold checkGps
  cases hdelay : cfg.failsafeDelayWithoutGps with
  | none => rfl
  | some delay => simp [hno delay hdelay, h.pprzMode]

theorem lost_navigationTask {mode : PprzMode} (h : Lost mode s) {call : NavigationCall}
    (hno : NoGps cfg (.navigation call)) : Lost mode (navigationTask cfg call s) := by
  unfold navigationTask
  rw [checkGps_of_lost h hno]
  simp only [h.pprzMode]
  exact h.of_eq rfl rfl id rfl

theorem lost_step {mode : PprzMode} (h : Lost mode s) {e : ApEvent m} (hno : NoGps cfg e) :
    Lost mode (step cfg s e) := by
  cases e with
  | telecommand fbw => exact lost_telecommandTask h fbw
  | navigation call => exact lost_navigationTask h hno
  | attitude climb => exact lost_attitudeLoop h climb
  | monitor speed => exact lost_monitorTask h speed

theorem lost_run {mode : PprzMode} (h : Lost mode s) {es : List (ApEvent m)}
    (hno : ∀ e ∈ es, NoGps cfg e) : Lost mode (run (step cfg) s es) := by
  induction es generalizing s with
  | nil => exact h
  | cons e es ih =>
      exact ih (lost_step h (hno e (by simp))) fun e' he' => hno e' (List.mem_cons_of_mem _ he')

theorem lost_of_declares {call : NavigationCall} (h : Declares cfg s call) :
    Lost s.pprzMode (navigationTask cfg call s) := by
  obtain ⟨delay, hdelay, hlaunch, htimeout, hmode⟩ := h
  have hgps : checkGps cfg call s =
      { s with lastPprzMode := s.pprzMode, pprzMode := .gpsOutOfOrder, gpsLost := true } := by
    unfold checkGps
    simp only [hdelay, hlaunch, htimeout, hmode, if_true]
  unfold navigationTask
  rw [hgps]
  exact ⟨rfl, rfl, hlaunch, rfl⟩

@[simp] theorem navigationTask_mode (call : NavigationCall) :
    (navigationTask cfg call s).pprzMode = (checkGps cfg call s).pprzMode := by
  unfold navigationTask
  dsimp only
  split <;> rfl

theorem restored_of_lost {mode : PprzMode} (h : Lost mode s) {call : NavigationCall} {delay : UInt32}
    (hdelay : cfg.failsafeDelayWithoutGps = some delay)
    (hgps : gpsTimeoutError delay call = false) :
    (navigationTask cfg call s).pprzMode = mode := by
  rw [navigationTask_mode]
  unfold checkGps
  simp [hdelay, hgps, h.launch, h.gpsLost, h.lastPprzMode]

/-! ### The entry of GPS_OUT_OF_ORDER -/

/-- While the GPS is lost, the mode saved is one that can lose it. -/
def SavedMode (s : ApState) : Prop :=
  s.gpsLost = true → s.lastPprzMode = .auto2 ∨ s.lastPprzMode = .home

theorem navigationTask_saved (call : NavigationCall) :
    (navigationTask cfg call s).gpsLost = (checkGps cfg call s).gpsLost ∧
      (navigationTask cfg call s).lastPprzMode = (checkGps cfg call s).lastPprzMode := by
  unfold navigationTask
  dsimp only
  split <;> exact ⟨rfl, rfl⟩

theorem savedMode_checkGps (h : SavedMode s) (call : NavigationCall) :
    SavedMode (checkGps cfg call s) := by
  unfold checkGps
  split
  · exact h
  · split_ifs with _ _ hmode
    · exact fun _ => hmode
    · exact h
    · nofun
    · exact h
    · exact h

theorem savedMode_step (h : SavedMode s) (e : ApEvent m) : SavedMode (step cfg s e) := by
  cases e with
  | telecommand fbw =>
      have hframe : RcFrame s (telecommandTask cfg fbw s) := rcFrame_telecommandTask fbw
      intro hs
      rw [step, hframe.lastPprzMode]
      exact h (hframe.gpsLost.symm.trans hs)
  | navigation call =>
      obtain ⟨hlost, hlast⟩ := @navigationTask_saved _ cfg s call
      intro hs
      rw [step, hlast]
      exact savedMode_checkGps h call (hlost.symm.trans hs)
  | attitude climb =>
      unfold step attitudeLoop
      split_ifs <;> exact h
  | monitor speed =>
      unfold step monitorTask
      dsimp only
      split_ifs <;> exact h

theorem savedMode_run (cfg : ApConfig m) (es : List (ApEvent m)) :
    SavedMode (run (step cfg) autopilotInit es) :=
  run_history (fun _ => SavedMode) (fun _ _ e h => savedMode_step h e)
    (show SavedMode autopilotInit from nofun) es

/-- GPS_OUT_OF_ORDER is entered from a mode that can lose the GPS. -/
theorem checkGps_enters (hsaved : SavedMode s) {call : NavigationCall}
    (hnot : s.pprzMode ≠ .gpsOutOfOrder)
    (henter : (checkGps cfg call s).pprzMode = .gpsOutOfOrder) :
    s.pprzMode = .auto2 ∨ s.pprzMode = .home := by
  unfold checkGps at henter
  split at henter
  · exact absurd henter hnot
  · split_ifs at henter with _ _ hmode hlost
    · exact hmode
    · exact absurd henter hnot
    · rcases hsaved hlost with hlast | hlast
      · rw [hlast] at henter
        cases henter
      · rw [hlast] at henter
        cases henter
    · exact absurd henter hnot
    · exact absurd henter hnot

theorem checkHomeAndRc_enters (hrc : cfg.rcLostMode ≠ .gpsOutOfOrder) (fbw : FbwState m)
    (hnot : s.pprzMode ≠ .gpsOutOfOrder) :
    (checkHomeAndRc cfg fbw s).pprzMode ≠ .gpsOutOfOrder := by
  unfold checkHomeAndRc
  dsimp only
  split_ifs
  · exact hrc
  · nofun
  · exact hnot
  · exact hnot

theorem pprzModeUpdate_enters {fbw : FbwState m} (hnot : s.pprzMode ≠ .gpsOutOfOrder) :
    (pprzModeUpdate cfg fbw s).pprzMode ≠ .gpsOutOfOrder := by
  unfold pprzModeUpdate
  split_ifs
  · exact hnot
  · intro hmode
    have hunlocked := modeOfChannels_unlocked cfg fbw.channels
    rw [show modeOfChannels cfg fbw.channels = .gpsOutOfOrder from hmode] at hunlocked
    cases hunlocked

theorem telecommandTask_enters (hrc : cfg.rcLostMode ≠ .gpsOutOfOrder) {fbw : FbwState m}
    (hnot : s.pprzMode ≠ .gpsOutOfOrder) :
    (telecommandTask cfg fbw s).pprzMode ≠ .gpsOutOfOrder := by
  have hchecked := checkHomeAndRc_enters hrc fbw hnot
  unfold telecommandTask
  dsimp only
  rw [checkLaunch_mode]
  split_ifs
  · rw [readThrottle_mode]
    exact pprzModeUpdate_enters hchecked
  · rw [readThrottle_mode]
    exact hchecked

theorem attitudeLoop_mode (climb : Int16) : (attitudeLoop cfg climb s).pprzMode = s.pprzMode := by
  unfold attitudeLoop
  split_ifs <;> rfl

theorem monitorTask_mode (speed : ℚ) : (monitorTask cfg speed s).pprzMode = s.pprzMode := by
  unfold monitorTask
  dsimp only
  split_ifs <;> rfl

theorem step_enters (hrc : cfg.rcLostMode ≠ .gpsOutOfOrder) (hsaved : SavedMode s)
    {e : ApEvent m} (hnot : s.pprzMode ≠ .gpsOutOfOrder)
    (henter : (step cfg s e).pprzMode = .gpsOutOfOrder) :
    s.pprzMode = .auto2 ∨ s.pprzMode = .home := by
  cases e with
  | telecommand fbw => exact absurd henter (telecommandTask_enters hrc hnot)
  | navigation call =>
      rw [step, navigationTask_mode] at henter
      exact checkGps_enters hsaved hnot henter
  | attitude climb =>
      rw [step, attitudeLoop_mode] at henter
      exact absurd henter hnot
  | monitor speed =>
      rw [step, monitorTask_mode] at henter
      exact absurd henter hnot

/-! ### The killed throttle -/

/-- The flight plan does not clear `kill_throttle` in this call. -/
def KeepsKill : ApEvent m → Prop
  | .navigation call => call.autoNav.killThrottle ≠ some false
  | _ => True

theorem checkGps_killThrottle (call : NavigationCall) :
    (checkGps cfg call s).killThrottle = s.killThrottle := by
  unfold checkGps
  split
  · rfl
  · split_ifs <;> rfl

theorem kill_navigationTask (h : s.killThrottle = true) {call : NavigationCall}
    (hkeeps : call.autoNav.killThrottle ≠ some false) :
    (navigationTask cfg call s).killThrottle = true := by
  have hgps := (@checkGps_killThrottle _ cfg s call).trans h
  unfold navigationTask
  dsimp only
  split
  · exact hgps
  · exact hgps
  · unfold navPeriodicTask
    dsimp only
    rw [hgps]
    cases hkill : call.autoNav.killThrottle with
    | none => rfl
    | some killThrottle =>
        cases killThrottle with
        | false => exact absurd hkill hkeeps
        | true => rfl

theorem kill_step (h : s.killThrottle = true) {e : ApEvent m} (hkeeps : KeepsKill e) :
    (step cfg s e).killThrottle = true := by
  cases e with
  | telecommand fbw => exact (rcFrame_telecommandTask fbw).killThrottle.trans h
  | navigation call => exact kill_navigationTask h hkeeps
  | attitude climb =>
      unfold step attitudeLoop
      split_ifs <;> exact h
  | monitor speed =>
      unfold step monitorTask
      dsimp only
      split_ifs <;> simp [h]

theorem kill_run (h : s.killThrottle = true) {es : List (ApEvent m)}
    (hkeeps : ∀ e ∈ es, KeepsKill e) : (run (step cfg) s es).killThrottle = true := by
  induction es generalizing s with
  | nil => exact h
  | cons e es ih =>
      exact ih (kill_step h (hkeeps e (by simp))) fun e' he' =>
        hkeeps e' (List.mem_cons_of_mem _ he')

theorem throttle_of_kill (h : s.killThrottle = true)
    (hmode : s.pprzMode.toNat ≥ PprzMode.auto2.toNat) (climb : Int16) :
    (attitudeLoop cfg climb s).vCtlThrottleSetpoint = 0 := by
  unfold attitudeLoop
  rw [if_pos hmode]
  simp [h]

end

/-- In every run from `autopilot_init`: RC frames do not change HOME and GPS_OUT_OF_ORDER; the
mode in which the GPS was lost is restored by the first call with the GPS back;
GPS_OUT_OF_ORDER is entered from AUTO2 and HOME, unless it is the `RC_LOST_MODE`; and once
`monitor_task` kills the throttle, `attitude_loop` gives 0 in the modes from AUTO2 on for as
long as the flight plan does not clear `kill_throttle`. -/
theorem mode_machine (cfg : ApConfig m) (es : List (ApEvent m)) (s : ApState)
    (hs : s = run (step cfg) autopilotInit es) :
    (s.pprzMode = .home ∨ s.pprzMode = .gpsOutOfOrder →
      ∀ fbw : FbwState m, (step cfg s (.telecommand fbw)).pprzMode = s.pprzMode) ∧
    (∀ (lost : NavigationCall) (es' : List (ApEvent m)) (back : NavigationCall) (delay : UInt32),
      Declares cfg s lost → (∀ e ∈ es', NoGps cfg e) →
      cfg.failsafeDelayWithoutGps = some delay → gpsTimeoutError delay back = false →
      (run (step cfg) s (.navigation lost :: es' ++ [.navigation back])).pprzMode = s.pprzMode) ∧
    (cfg.rcLostMode ≠ .gpsOutOfOrder → ∀ e : ApEvent m, s.pprzMode ≠ .gpsOutOfOrder →
      (step cfg s e).pprzMode = .gpsOutOfOrder → s.pprzMode = .auto2 ∨ s.pprzMode = .home) ∧
    (∀ (speed : ℚ) (es' : List (ApEvent m)) (climb : Int16),
      (step cfg s (.monitor speed)).killThrottle = true →
      (∀ e ∈ es', KeepsKill e) →
      (run (step cfg) s (.monitor speed :: es')).pprzMode.toNat ≥ PprzMode.auto2.toNat →
      (run (step cfg) s (.monitor speed :: es' ++ [.attitude climb])).vCtlThrottleSetpoint = 0) := by
  subst hs
  refine ⟨?_, ?_, ?_, ?_⟩
  · intro hmode fbw
    exact telecommandTask_locked fbw (by rcases hmode with hmode | hmode <;> rw [hmode] <;> rfl)
  · intro lost es' back delay hlost hes' hdelay hback
    have hrun := lost_run (lost_of_declares hlost) hes'
    rw [run_append]
    exact restored_of_lost hrun hdelay hback
  · intro hrc e hnot henter
    exact step_enters hrc (savedMode_run cfg es) hnot henter
  · intro speed es' climb hkill hes' hmode
    rw [run_append]
    exact throttle_of_kill (kill_run hkill hes') hmode climb

/-! ### Runs -/

def airframe : ApConfig 2 :=
  { radioMode := 0
    radioThrottle := 1
    failsafeDelayWithoutGps := some 2
    maxDistFromHome := 100
    failsafeThrottle := 3000
    catastrophicBatLevel := 9 }

def fbwOk (mode throttle : Int16) (vsupply : UInt16) : ApEvent 2 :=
  .telecommand
    { channels := ![mode, throttle]
      radioReallyLost := false
      averagedChannelsSent := true
      vsupply := vsupply }

def fbwLost : ApEvent 2 :=
  .telecommand
    { channels := ![0, 0]
      radioReallyLost := true
      averagedChannelsSent := false
      vsupply := 120 }

/-- A flight plan that holds half throttle. -/
def call (nbSec lastFixTime : UInt32) (killThrottle : Option Bool) : NavigationCall :=
  { nbSec := nbSec
    lastFixTime := lastFixTime
    dist2ToHome := 0
    autoNav :=
      { vCtlMode := .autoThrottle
        navThrottleSetpoint := 4800
        killThrottle := killThrottle } }

/-- Launched in AUTO2; the GPS is lost, the switch goes to MANUAL, and the GPS comes back. -/
theorem mode_restored_after_loss :
    (run (step airframe) (run (step airframe) autopilotInit [fbwOk 9600 9600 120])
      (.navigation (call 5 1 none) :: [fbwOk (-9600) 0 120] ++
        [.navigation (call 6 6 none)])).pprzMode = .auto2 := by
  have h := (mode_machine airframe [fbwOk 9600 9600 120] _ rfl).2.1 (call 5 1 none)
    [fbwOk (-9600) 0 120] (call 6 6 none) 2
    ⟨2, rfl, by decide +kernel, by decide +kernel, Or.inl (by decide +kernel)⟩
    (by simp [fbwOk, NoGps]) rfl (by decide +kernel)
  exact h.trans (by decide +kernel)

/-- The battery is low for five seconds and the throttle is killed; then the flight plan clears
`kill_throttle`. And with `RC_LOST_MODE` GPS_OUT_OF_ORDER it is entered from AUTO1. -/
theorem kill_cleared_by_flight_plan :
    ((run (step airframe) autopilotInit
        (fbwOk 9600 9600 80 :: List.replicate 5 (.monitor 10))).killThrottle = true ∧
      (run (step airframe) autopilotInit
        (fbwOk 9600 9600 80 :: List.replicate 5 (.monitor 10) ++
          [.navigation (call 5 5 (some false)), .attitude 0])).pprzMode = .auto2 ∧
      (run (step airframe) autopilotInit
        (fbwOk 9600 9600 80 :: List.replicate 5 (.monitor 10) ++
          [.navigation (call 5 5 (some false)), .attitude 0])).vCtlThrottleSetpoint = 4800) ∧
    ((run (step { airframe with rcLostMode := .gpsOutOfOrder }) autopilotInit
        [fbwOk 9600 9600 120, fbwOk 0 0 120]).pprzMode = .auto1 ∧
      (run (step { airframe with rcLostMode := .gpsOutOfOrder }) autopilotInit
        [fbwOk 9600 9600 120, fbwOk 0 0 120, fbwLost]).pprzMode = .gpsOutOfOrder) := by
  decide +kernel

end Paparazzi.Fixedwing.ModeMachine
