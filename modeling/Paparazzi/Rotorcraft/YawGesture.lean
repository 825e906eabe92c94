import Mathlib
import Paparazzi.Rotorcraft.Autopilot

/-!
The gesture of the yaw machine. The motors change when the stick was pushed for the arming
delay and one frame more has come, counted over the frames in which the machine is stepped;
apart from that, entering KILL stops them.
-/

namespace Paparazzi.Rotorcraft.YawGesture

open Paparazzi.Library.Machine
open Paparazzi.Rotorcraft.Arming
open Paparazzi.Rotorcraft.Arming.Yaw
open Paparazzi.Rotorcraft.Autopilot

/-- What an RC frame does to the machine: a step, or `autopilot_set_motors_on(FALSE)`. -/
inductive MotorsEvent where
  | stepped (rc : RcValues)
  | killed
  deriving DecidableEq, Repr

/-- The machine and `autopilot_motors_on`. -/
abbrev Motors := Yaw.Machine × Bool

def react (cfg : ArmingConfig) (m : Motors) : MotorsEvent → Motors
  | .stepped rc => Yaw.autopilotArmingCheckMotorsOn cfg rc apModeNav m.1 m.2
  | .killed => (Yaw.autopilotArmingSet false m.1, false)

/-- The last `n` events are steps with the stick pushed. -/
def Pushed (n : Nat) (events : List MotorsEvent) : Prop :=
  ∃ (before : List MotorsEvent) (frames : List RcValues),
    events = before ++ frames.map .stepped ∧ frames.length = n ∧
    ∀ rc ∈ frames, stickPushed rc = true

/-- The gesture: the stick is pushed for `n` steps, and one more step follows. -/
def Gesture (n : Nat) (events : List MotorsEvent) : Prop :=
  ∃ pushed rc, events = pushed ++ [.stepped rc] ∧ Pushed n pushed

theorem Pushed.zero (events : List MotorsEvent) : Pushed 0 events :=
  ⟨events, [], by simp, rfl, nofun⟩

theorem Pushed.next {n : Nat} {events : List MotorsEvent} {rc : RcValues} (h : Pushed n events)
    (hrc : stickPushed rc = true) : Pushed (n + 1) (events ++ [.stepped rc]) := by
  obtain ⟨before, frames, rfl, hlen, hpushed⟩ := h
  refine ⟨before, frames ++ [rc], by simp, by simp [hlen], ?_⟩
  intro rc' hrc'
  rcases List.mem_append.mp hrc' with hrc' | hrc'
  · exact hpushed rc' hrc'
  · rw [List.mem_singleton.mp hrc']
    exact hrc

/-- The last of the frames are enough for a shorter time. -/
theorem Pushed.of_le {k n : Nat} {events : List MotorsEvent} (h : Pushed n events) (hk : k ≤ n) :
    Pushed k events := by
  obtain ⟨before, frames, rfl, hlen, hpushed⟩ := h
  refine ⟨before ++ (frames.take (n - k)).map .stepped, frames.drop (n - k), ?_, ?_, ?_⟩
  · rw [List.append_assoc, ← List.map_append, List.take_append_drop]
  · rw [List.length_drop, hlen]
    omega
  · exact fun rc hrc => hpushed rc (List.mem_of_mem_drop hrc)

/-! ### The machine -/

/-- How far a gesture has come in a state of the machine. -/
def Progress (delay : Nat) (events : List MotorsEvent) (m : Motors) : Prop :=
  match m.1.checkMotorStatus with
  | .motorsOff => m.2 = false
  | .mOffStickPushed =>
      m.2 = false ∧ m.1.motorsOnCounter < max delay 1 ∧ Pushed (m.1.motorsOnCounter + 1) events
  | .startMotors => m.2 = false → Gesture delay events
  | .motorsOn => m.2 = true
  | .mOnStickPushed =>
      m.2 = true ∧ (delay = 0 ∨ 0 < m.1.motorsOnCounter ∧ m.1.motorsOnCounter ≤ delay ∧
        Pushed (delay - m.1.motorsOnCounter + 1) events)
  | .stopMotors => m.2 = true → Gesture delay events

section

variable {cfg : ArmingConfig} {events : List MotorsEvent} {m : Motors}

theorem progress_stepped (hdelay : cfg.motorArmingDelay < 2 ^ 32)
    (h : Progress cfg.motorArmingDelay events m) (rc : RcValues) :
    Progress cfg.motorArmingDelay (events ++ [.stepped rc]) (react cfg m (.stepped rc)) := by
  have hmode : apModeNav > apModeKill := by decide
  obtain ⟨⟨counter, status⟩, on⟩ := m
  cases status with
  | motorsOff =>
      simp only [react, Yaw.autopilotArmingCheckMotorsOn, hmode, if_true]
      by_cases hrc : stickPushed rc = true
      · simp only [Progress, hrc, if_true]
        exact ⟨trivial, by omega, (Pushed.zero events).next hrc⟩
      · simp [Progress, hrc]
  | mOffStickPushed =>
      obtain ⟨-, hcounter, hpushed⟩ := h
      dsimp only at hcounter hpushed
      simp only [react, Yaw.autopilotArmingCheckMotorsOn, hmode, if_true]
      have hsmall : (counter + 1) % 2 ^ 32 = counter + 1 := Nat.mod_eq_of_lt (by omega)
      simp only [hsmall]
      by_cases hend : counter + 1 ≥ cfg.motorArmingDelay
      · simp only [Progress, hend, if_true]
        exact fun _ => ⟨events, rc, rfl, hpushed.of_le hend⟩
      · by_cases hrc : stickPushed rc = true
        · simp only [Progress, hend, hrc, if_false, Bool.not_true, Bool.false_eq_true]
          exact ⟨trivial, by omega, hpushed.next hrc⟩
        · simp [Progress, hend, hrc]
  | startMotors =>
      simp only [react, Yaw.autopilotArmingCheckMotorsOn, hmode, if_true]
      by_cases hrc : stickPushed rc = true <;> simp [Progress, hrc]
  | motorsOn =>
      simp only [react, Yaw.autopilotArmingCheckMotorsOn, hmode, if_true]
      by_cases hrc : stickPushed rc = true
      · simp only [Progress, hrc, if_true]
        refine ⟨trivial, ?_⟩
        rcases Nat.eq_zero_or_pos cfg.motorArmingDelay with hzero | hpos
        · exact Or.inl hzero
        · refine Or.inr ⟨hpos, Nat.le_refl _, ?_⟩
          rw [Nat.sub_self]
          exact (Pushed.zero events).next hrc
      · simp [Progress, hrc]
  | mOnStickPushed =>
      simp only [react, Yaw.autopilotArmingCheckMotorsOn, hmode, if_true]
      -- the sum is kept from being unfolded
      generalize hnext : (counter + (2 ^ 32 - 1)) % 2 ^ 32 = next
      by_cases hzero : cfg.motorArmingDelay = 0
      · have hgesture : Gesture cfg.motorArmingDelay (events ++ [.stepped rc]) := by
          rw [hzero]
          exact ⟨events, rc, rfl, Pushed.zero events⟩
        split_ifs
        · exact fun _ => hgesture
        · exact rfl
        · exact ⟨rfl, Or.inl hzero⟩
      · obtain ⟨hpos, hle, hpushed⟩ := h.2.resolve_left hzero
        dsimp only at hpos hle hpushed
        obtain rfl : next = counter - 1 := by omega
        by_cases hend : counter - 1 = 0
        · simp only [Progress, hend, if_true]
          rintro -
          refine ⟨events, rc, rfl, ?_⟩
          rwa [show cfg.motorArmingDelay - counter + 1 = cfg.motorArmingDelay by omega] at hpushed
        · by_cases hrc : stickPushed rc = true
          · simp only [Progress, hend, hrc, if_false, Bool.not_true, Bool.false_eq_true]
            refine ⟨trivial, Or.inr ⟨by omega, by omega, ?_⟩⟩
            rw [show cfg.motorArmingDelay - (counter - 1) + 1 =
              cfg.motorArmingDelay - counter + 1 + 1 by omega]
            exact hpushed.next hrc
          · simp [Progress, hend, hrc]
  | stopMotors =>
      simp only [react, Yaw.autopilotArmingCheckMotorsOn, hmode, if_true]
      by_cases hrc : stickPushed rc = true <;> simp [Progress, hrc]

theorem progress_react (hdelay : cfg.motorArmingDelay < 2 ^ 32) (e : MotorsEvent)
    (h : Progress cfg.motorArmingDelay events m) :
    Progress cfg.motorArmingDelay (events ++ [e]) (react cfg m e) := by
  cases e with
  | stepped rc => exact progress_stepped hdelay h rc
  | killed => rfl

/-- The machine changes the motors in two of its states only. -/
theorem status_of_change {rc : RcValues} (h : Progress cfg.motorArmingDelay events m)
    (hchange : (react cfg m (.stepped rc)).2 ≠ m.2) :
    (m.2 = false ∧ m.1.checkMotorStatus = .startMotors) ∨
      (m.2 = true ∧ m.1.checkMotorStatus = .stopMotors) := by
  have hmode : apModeNav > apModeKill := by decide
  obtain ⟨⟨counter, status⟩, on⟩ := m
  simp only [react, Yaw.autopilotArmingCheckMotorsOn, hmode, if_true] at hchange
  cases status <;> cases on <;> simp_all [Progress]

theorem gesture_of_change {rc : RcValues} (h : Progress cfg.motorArmingDelay events m)
    (hchange : (react cfg m (.stepped rc)).2 ≠ m.2) : Gesture cfg.motorArmingDelay events := by
  rcases status_of_change h hchange with ⟨hoff, hstatus⟩ | ⟨hon, hstatus⟩
  · simp only [Progress, hstatus] at h
    exact h hoff
  · simp only [Progress, hstatus] at h
    exact h hon

/-- While the stick stays pushed, the two states are kept. -/
theorem react_pushed (cfg : ArmingConfig) {rc : RcValues} (hrc : stickPushed rc = true)
    (hstatus : m.1.checkMotorStatus = .startMotors ∨ m.1.checkMotorStatus = .stopMotors) :
    (react cfg m (.stepped rc)).1.checkMotorStatus = m.1.checkMotorStatus := by
  have hmode : apModeNav > apModeKill := by decide
  obtain ⟨⟨counter, status⟩, on⟩ := m
  rcases hstatus with rfl | rfl <;>
    simp [react, Yaw.autopilotArmingCheckMotorsOn, hmode, hrc]

theorem react_snd (cfg : ArmingConfig) (rc : RcValues)
    (hstatus : m.1.checkMotorStatus = .startMotors ∨ m.1.checkMotorStatus = .stopMotors) :
    (react cfg m (.stepped rc)).2 = decide (m.1.checkMotorStatus = .startMotors) := by
  have hmode : apModeNav > apModeKill := by decide
  obtain ⟨⟨counter, status⟩, on⟩ := m
  rcases hstatus with rfl | rfl <;>
    simp [react, Yaw.autopilotArmingCheckMotorsOn, hmode]

theorem run_pushed (hstatus : m.1.checkMotorStatus = .startMotors ∨
      m.1.checkMotorStatus = .stopMotors)
    (hall : ∀ e ∈ events, ∃ rc, e = .stepped rc ∧ stickPushed rc = true) :
    (run (react cfg) m events).1.checkMotorStatus = m.1.checkMotorStatus ∧
      (m.2 = decide (m.1.checkMotorStatus = .startMotors) →
        (run (react cfg) m events).2 = m.2) := by
  induction events generalizing m with
  | nil => exact ⟨rfl, fun _ => rfl⟩
  | cons e events ih =>
      obtain ⟨rc, rfl, hrc⟩ := hall e (by simp)
      have hkeep := react_pushed cfg hrc hstatus
      have hsnd := react_snd cfg rc hstatus
      obtain ⟨hrun, hon⟩ := ih (hkeep ▸ hstatus) fun e he => hall e (by simp [he])
      refine ⟨hrun.trans hkeep, ?_⟩
      rintro hm
      refine (hon ?_).trans (hsnd.trans hm.symm)
      rw [hkeep]
      exact hsnd

/-- Once the motors have changed, steps with the stick pushed change nothing. -/
theorem no_change_of_pushed {e : MotorsEvent} (hstatus : m.1.checkMotorStatus = .startMotors ∨
      m.1.checkMotorStatus = .stopMotors)
    (hall : ∀ e' ∈ e :: events, ∃ rc, e' = .stepped rc ∧ stickPushed rc = true) (rc : RcValues) :
    (react cfg (run (react cfg) m (e :: events)) (.stepped rc)).2 =
      (run (react cfg) m (e :: events)).2 := by
  obtain ⟨rc₁, rfl, hrc₁⟩ := hall e (by simp)
  have hkeep := react_pushed cfg hrc₁ hstatus
  have hsnd := react_snd cfg rc₁ hstatus
  obtain ⟨hrun, hon⟩ := run_pushed (hkeep ▸ hstatus) fun e' he' =>
    hall e' (List.mem_cons_of_mem _ he')
  rw [run_cons, react_snd cfg rc ((hrun.trans hkeep) ▸ hstatus), hrun, hkeep, ← hsnd]
  exact (hon (by rw [hkeep]; exact hsnd)).symm

end

/-! ### RC frames of the autopilot -/

section

variable (cfg : Config)

/-- The mode has changed to one that stops the motors. -/
def enteredKill (s s' : ApState) : Bool :=
  s'.autopilotMode ≠ s.autopilotMode && stopsMotors cfg s'.autopilotMode

/-- What a frame does to the arming machine: the machine is not stepped in FAILSAFE and KILL. -/
def frameEvents (rc : RcValues) (s : ApState) : List MotorsEvent :=
  if enteredKill cfg s (rcSetMode cfg rc s) then [.killed]
  else if (rcSetMode cfg rc s).autopilotMode > apModeKill then [.stepped rc]
  else []

def motorsEvents (s : ApState) : ApEvent → List MotorsEvent
  | .rcFrame rc => frameEvents cfg rc s
  | _ => []

/-- What the frames of a run do to the arming machine. -/
def trace : ApState → List ApEvent → List MotorsEvent
  | _, [] => []
  | s, e :: es => motorsEvents cfg s e ++ trace (step cfg s e) es

/-- Only RC frames touch the motors and the arming machine. -/
def NoMotorsCall (s : ApState) : ApEvent → Prop
  | .rcFrame _ => True
  | e => (step cfg s e).arming = s.arming ∧ (step cfg s e).autopilotMotorsOn = s.autopilotMotorsOn

def View (s : ApState) (m : Motors) : Prop :=
  s.arming = .yaw m.1 ∧ s.autopilotMotorsOn = m.2

theorem trace_append (s : ApState) (es es' : List ApEvent) :
    trace cfg s (es ++ es') = trace cfg s es ++ trace cfg (run (step cfg) s es) es' := by
  induction es generalizing s with
  | nil => rfl
  | cons e es ih =>
      rw [List.cons_append, trace, trace, ih, List.append_assoc]
      rfl

end

section

variable {cfg : Config} {s : ApState} {m : Motors}

theorem setModeHorizontal_motors {new : ApMode} (hstop : ¬ stopsMotors cfg new = true) :
    (setModeHorizontal cfg new s).autopilotMotorsOn = s.autopilotMotorsOn ∧
      (setModeHorizontal cfg new s).arming = s.arming := by
  obtain ⟨mode, heq⟩ := @setModeHorizontal_eq cfg s new hstop
  rw [heq]
  exact ⟨rfl, rfl⟩

@[simp] theorem checkInFlight_arming (idle lift motorsOn : Bool) :
    (checkInFlight idle lift motorsOn s).arming = s.arming := by
  unfold checkInFlight
  split_ifs <;> rfl

theorem view_setMode (cfg : Config) (h : View s m) (new : ApMode) :
    View (autopilotSetMode cfg new s)
      (if enteredKill cfg s (autopilotSetMode cfg new s) then react cfg.toArmingConfig m .killed
        else m) := by
  unfold enteredKill
  rw [setMode_mode]
  by_cases hsame : forcedMode cfg new s = s.autopilotMode
  · rw [setMode_of_eq hsame, hsame]
    simpa using h
  · by_cases hstop : stopsMotors cfg (forcedMode cfg new s) = true
    · obtain ⟨hoff, harming⟩ := setMode_stops hsame hstop
      rw [if_pos (by simp [hsame, hstop])]
      refine ⟨?_, hoff⟩
      rw [harming, h.1]
      rfl
    · obtain ⟨hoff, harming⟩ := setModeHorizontal_motors (s := s) hstop
      rw [if_neg (by simp [hstop])]
      unfold autopilotSetMode
      simp only [ne_eq, hsame, not_false_eq_true, if_true]
      exact ⟨(setModeVertical_arming _).trans (harming.trans h.1),
        (setModeVertical_motorsOn _).trans (hoff.trans h.2)⟩

theorem view_rcSetMode (cfg : Config) (h : View s m) (rc : RcValues) :
    View (rcSetMode cfg rc s)
      (if enteredKill cfg s (rcSetMode cfg rc s) then react cfg.toArmingConfig m .killed
        else m) := by
  unfold rcSetMode
  by_cases hswitch : killSwitchIsOn cfg.toArmingConfig rc = true
  · rw [if_pos hswitch]
    exact view_setMode cfg h apModeKill
  · rw [if_neg hswitch]
    by_cases hrefused : (!navRefused cfg (apModeOfPprz cfg rc s) s) = true
    · rw [if_pos hrefused]
      exact view_setMode cfg h _
    · rw [if_neg hrefused]
      simpa [enteredKill] using h

theorem check_eq (cfg : ArmingConfig) (rc : RcValues) (mode : ApMode) (m : Motors) :
    Yaw.autopilotArmingCheckMotorsOn cfg rc mode m.1 m.2 =
      if mode > apModeKill then react cfg m (.stepped rc) else m := by
  have hmode : apModeNav > apModeKill := by decide
  unfold react Yaw.autopilotArmingCheckMotorsOn
  by_cases h : mode > apModeKill
  · simp only [h, hmode, if_true]
  · simp only [h, if_false]

theorem view_rcCheckMotors (cfg : Config) (h : View s m) (rc : RcValues) :
    View (rcCheckMotors cfg rc s)
      (if s.autopilotMode > apModeKill then react cfg.toArmingConfig m (.stepped rc) else m) := by
  unfold rcCheckMotors
  by_cases hfailsafe : s.autopilotMode > apModeFailsafe
  · rw [if_pos hfailsafe]
    have hcheck := check_eq cfg.toArmingConfig rc s.autopilotMode m
    simp only [View, autopilotCheckInFlight, checkInFlight_arming, checkInFlight_motorsOn, h.1, h.2,
      Arming.autopilotArmingCheckMotorsOn, hcheck]
    exact ⟨trivial, trivial⟩
  · have hkill : ¬ s.autopilotMode > apModeKill := by
      intro hkill
      apply hfailsafe
      exact UInt8.lt_trans (by decide : apModeFailsafe < apModeKill) hkill
    rw [if_neg hfailsafe, if_neg hkill]
    exact h

theorem not_flying_of_stopsMotors {mode : ApMode} (h : stopsMotors cfg mode = true) :
    ¬ mode > apModeKill := by
  simp only [stopsMotors, Bool.or_eq_true, decide_eq_true_eq, Bool.and_eq_true] at h
  rcases h with rfl | ⟨rfl, -⟩ <;> decide

/-- A frame acts on the machine as its events do. -/
theorem view_rcFrame (cfg : Config) (h : View s m) (rc : RcValues) :
    View (autopilotOnRcFrame cfg rc s) (run (react cfg.toArmingConfig) m (frameEvents cfg rc s)) := by
  have hmode := view_rcSetMode cfg h rc
  unfold autopilotOnRcFrame frameEvents
  by_cases hkill : enteredKill cfg s (rcSetMode cfg rc s) = true
  · rw [if_pos hkill] at hmode ⊢
    have hcheck := view_rcCheckMotors cfg hmode rc
    simp only [enteredKill, Bool.and_eq_true] at hkill
    rwa [if_neg (not_flying_of_stopsMotors hkill.2)] at hcheck
  · rw [if_neg hkill] at hmode ⊢
    have hcheck := view_rcCheckMotors cfg hmode rc
    split_ifs at hcheck ⊢ with hflying
    · exact hcheck
    · exact hcheck

theorem view_run (h : View s m) {es : List ApEvent}
    (hno : RunOk (step cfg) (NoMotorsCall cfg) s es) :
    View (run (step cfg) s es) (run (react cfg.toArmingConfig) m (trace cfg s es)) := by
  induction es generalizing s m with
  | nil => exact h
  | cons e es ih =>
      obtain ⟨hcall, hno⟩ := hno
      rw [run_cons, trace, run_append]
      apply ih _ hno
      cases e with
      | rcFrame rc => exact view_rcFrame cfg h rc
      | rcStatus | gps | ahrs | failsafeCheck | periodic | setMode | setAuto2 | detectGround =>
          exact ⟨hcall.1.trans h.1, hcall.2.trans h.2⟩

theorem view_init (hvariant : cfg.variant = .yaw) (ahrsRunning rcOk gpsLost : Bool) :
    View (autopilotInit cfg ahrsRunning rcOk gpsLost) (Yaw.autopilotArmingInit, false) := by
  unfold autopilotInit
  have hset := view_setMode cfg (m := (Yaw.autopilotArmingInit, false))
    (s := { autopilotMode := apModeNav
            autopilotModeAuto2 := cfg.modeAuto2
            autopilotMotorsOn := false
            killThrottle := true
            autopilotInFlight := false
            autopilotInFlightCounter := 0
            autopilotDetectGround := false
            autopilotDetectGroundOnce := false
            arming := Arming.autopilotArmingInit cfg.variant
            guidanceHMode := .kill
            guidanceVMode := .kill
            ahrsRunning := ahrsRunning
            rcOk := rcOk
            gpsLost := gpsLost })
    ⟨by rw [hvariant]; rfl, rfl⟩ cfg.modeStartup
  split_ifs at hset
  · exact hset
  · exact hset

/-- A frame that changes the motors steps the machine or enters KILL. -/
theorem frameEvents_of_change {rc : RcValues} (h : View s m)
    (hchange : (autopilotOnRcFrame cfg rc s).autopilotMotorsOn ≠ s.autopilotMotorsOn) :
    (frameEvents cfg rc s = [.killed] ∧ s.autopilotMotorsOn = true ∧
      enteredKill cfg s (rcSetMode cfg rc s) = true) ∨
    (frameEvents cfg rc s = [.stepped rc] ∧
      (react cfg.toArmingConfig m (.stepped rc)).2 ≠ m.2) := by
  have hframe := (view_rcFrame cfg h rc).2
  rw [hframe, h.2] at hchange
  unfold frameEvents at hchange ⊢
  split_ifs at hchange ⊢ with hkill hflying
  · refine Or.inl ⟨rfl, ?_, hkill⟩
    rw [h.2]
    exact (Bool.not_eq_false _).mp fun hoff => hchange hoff.symm
  · exact Or.inr ⟨rfl, hchange⟩
  · exact absurd rfl hchange

end

/-- The frame changes the motors. -/
def Changes (cfg : Config) (s : ApState) (rc : RcValues) : Prop :=
  (autopilotOnRcFrame cfg rc s).autopilotMotorsOn ≠ s.autopilotMotorsOn

/-- From `autopilot_init` and with nothing but RC frames touching the motors, a frame changes
them only by entering KILL or after the gesture; and between two frames that change them,
if none of the frames from the first to the second enters KILL, there is a step with the
stick released. -/
theorem motors_change_only_by_gesture (cfg : Config) (hvariant : cfg.variant = .yaw)
    (hdelay : cfg.motorArmingDelay < 2 ^ 32) (s₀ : ApState)
    (hinit : ∃ ahrsRunning rcOk gpsLost, s₀ = autopilotInit cfg ahrsRunning rcOk gpsLost)
    (es : List ApEvent) (hno : RunOk (step cfg) (NoMotorsCall cfg) s₀ es) (rc : RcValues)
    (hchange : Changes cfg (run (step cfg) s₀ es) rc) :
    (((run (step cfg) s₀ es).autopilotMotorsOn = true ∧
        enteredKill cfg (run (step cfg) s₀ es) (rcSetMode cfg rc (run (step cfg) s₀ es)) = true) ∨
      Gesture cfg.motorArmingDelay (trace cfg s₀ es)) ∧
    ∀ es' rc', RunOk (step cfg) (NoMotorsCall cfg) (run (step cfg) s₀ es) (.rcFrame rc :: es') →
      Changes cfg (run (step cfg) s₀ (es ++ .rcFrame rc :: es')) rc' →
      .killed ∉ trace cfg (run (step cfg) s₀ es) (.rcFrame rc :: es' ++ [.rcFrame rc']) →
      ∃ x, .stepped x ∈ trace cfg (run (step cfg) s₀ es) (.rcFrame rc :: es') ∧
        stickPushed x = false := by
  obtain ⟨ahrsRunning, rcOk, gpsLost, rfl⟩ := hinit
  have hview := view_run (view_init hvariant ahrsRunning rcOk gpsLost) hno
  have hzero : Progress cfg.motorArmingDelay [] (Yaw.autopilotArmingInit, false) :=
    show (false : Bool) = false from rfl
  have hprogress := run_history (Progress cfg.motorArmingDelay)
    (fun _ _ e h => progress_react hdelay e h) hzero
    (trace cfg (autopilotInit cfg ahrsRunning rcOk gpsLost) es)
  have hcases := frameEvents_of_change hview hchange
  constructor
  · rcases hcases with ⟨-, hon, hkill⟩ | ⟨-, hstep⟩
    · exact Or.inl ⟨hon, hkill⟩
    · exact Or.inr (gesture_of_change hprogress hstep)
  · intro es' rc' hno' hchange' hnokill
    rw [trace_append, List.mem_append, not_or] at hnokill
    obtain ⟨hnokill, hnokill'⟩ := hnokill
    have hview' := view_run hview hno'
    rw [← run_append] at hview' hnokill'
    rcases hcases with ⟨hframe, -⟩ | ⟨hframe, hstep⟩
    · exact absurd (by simp [trace, motorsEvents, hframe]) hnokill
    rcases frameEvents_of_change hview' hchange' with ⟨hframe', -⟩ | ⟨-, hstep'⟩
    · exact absurd (by simp [trace, motorsEvents, hframe']) hnokill'
    by_contra hnone
    have hpushed : ∀ e ∈ trace cfg (run (step cfg) (autopilotInit cfg ahrsRunning rcOk gpsLost) es)
        (.rcFrame rc :: es'), ∃ x, e = .stepped x ∧ stickPushed x = true := by
      rintro (x | -) he
      · refine ⟨x, rfl, ?_⟩
        by_contra hx
        exact hnone ⟨x, he, Bool.eq_false_iff.mpr hx⟩
      · exact absurd he hnokill
    have hstatus := status_of_change hprogress hstep
    simp only [trace, motorsEvents, hframe, List.singleton_append] at hpushed hstep'
    exact hstep' (no_change_of_pushed (hstatus.imp And.right And.right) hpushed rc')

/-! ### Runs -/

/-- A frame with the throttle down and the mode switch in the middle. -/
def frame (yaw killSwitch mode : Int) : RcValues :=
  { throttle := 0, roll := 0, pitch := 0, yaw := yaw, mode := mode, killSwitch := killSwitch }

def pushedFrame : RcValues := frame 9600 1 0

def releasedFrame : RcValues := frame 0 1 0

/-- The whole gesture: forty frames with the stick pushed, and one more. -/
def gestureRun (last : RcValues) : List ApEvent :=
  List.replicate 40 (.rcFrame pushedFrame) ++ [.rcFrame last]

theorem noMotorsCall_gestureRun (last : RcValues) (s : ApState) :
    RunOk (step {}) (NoMotorsCall {}) s (gestureRun last) := by
  have hframes : ∀ (es : List ApEvent) (s : ApState), (∀ e ∈ es, ∃ rc, e = .rcFrame rc) →
      RunOk (step {}) (NoMotorsCall {}) s es := by
    intro es
    induction es with
    | nil => exact fun _ _ => trivial
    | cons e es ih =>
        rintro s h
        obtain ⟨rc, rfl⟩ := h e (by simp)
        exact ⟨trivial, ih _ fun e' he' => h e' (List.mem_cons_of_mem _ he')⟩
  refine hframes _ s fun e he => ?_
  rcases List.mem_append.mp he with he | he
  · exact ⟨_, List.eq_of_mem_replicate he⟩
  · exact ⟨_, List.mem_singleton.mp he⟩

theorem motors_start_after_gesture :
    Gesture 40 (trace {} (autopilotInit {} true true false) (gestureRun releasedFrame)) := by
  have hchange : Changes {} (run (step {}) (autopilotInit {} true true false)
      (gestureRun releasedFrame)) releasedFrame := by
    unfold Changes
    decide +kernel
  have h := motors_change_only_by_gesture {} rfl (by decide) (autopilotInit {} true true false)
    ⟨true, true, false, rfl⟩ (gestureRun releasedFrame) (noMotorsCall_gestureRun _ _) releasedFrame
    hchange
  exact h.1.resolve_left (by decide +kernel)

/-- Twenty frames with the stick pushed, a released one in FAILSAFE whose mode switch asks
for NAV without GPS, and the rest of the gesture. -/
def excursionRun : List ApEvent :=
  List.replicate 20 (.rcFrame pushedFrame) ++
    [.rcStatus false, .failsafeCheck, .gps true, .rcFrame (frame 0 1 9600)] ++
    List.replicate 21 (.rcFrame pushedFrame)

/-- The frame before the change may be a released one; so may a frame in the middle, in
FAILSAFE; and the kill switch stops the motors with the stick never released. -/
theorem change_without_gesture :
    (stickPushed releasedFrame = false ∧
      (run (step {}) (autopilotInit {} true true false)
        (gestureRun releasedFrame)).autopilotMotorsOn = false ∧
      Changes {} (run (step {}) (autopilotInit {} true true false) (gestureRun releasedFrame))
        pushedFrame) ∧
    (stickPushed (frame 0 1 9600) = false ∧
      (run (step { modeAuto2 := apModeNav })
        (autopilotInit { modeAuto2 := apModeNav } true true false)
        excursionRun).autopilotMotorsOn = false ∧
      Changes { modeAuto2 := apModeNav } (run (step { modeAuto2 := apModeNav })
        (autopilotInit { modeAuto2 := apModeNav } true true false) excursionRun) pushedFrame) ∧
    (stickPushed (frame 9600 (-1) 0) = true ∧
      Changes {} (run (step {}) (autopilotInit {} true true false) (gestureRun pushedFrame))
        pushedFrame ∧
      Changes {} (run (step {}) (autopilotInit {} true true false)
        (gestureRun pushedFrame ++ [.rcFrame pushedFrame])) (frame 9600 (-1) 0)) := by
  unfold Changes
  decide +kernel

end Paparazzi.Rotorcraft.YawGesture
