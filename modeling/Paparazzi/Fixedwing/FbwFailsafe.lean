import Mathlib
import Paparazzi.Fixedwing.FlyByWire
import Paparazzi.Library.Numerals

/-!
The failsafe of the fly-by-wire loop, over every order of its calls: the failsafe commands in
FAILSAFE, the watchdog on the autopilot, the loss of the radio in MANUAL, and what a message of
the autopilot can do in MANUAL.
-/

namespace Paparazzi.Fixedwing.FbwFailsafe

open Paparazzi.Library.Machine
open Paparazzi.Fixedwing.FlyByWire

attribute [local instance] Library.Numerals.neZero_two Library.Numerals.neZero_three

variable {n m : Nat}

/-! ### The failsafe commands -/

section

variable (cfg : FbwConfig n m)

/-- With `RC_LOST_NO_AP`, a message in FAILSAFE leaves the mode and sets the AP-only commands. -/
def SetInFailsafe (i : Fin n) : Prop :=
  cfg.rcLostNoAp = true ∧ cfg.apOnlyCommands i = true

/-- The failsafe commands, but for those that the autopilot sets in FAILSAFE too. -/
def FailsafeCommands (commands : Commands n) : Prop :=
  ∀ i, ¬ SetInFailsafe cfg i → commands i = cfg.commandsFailsafe i

def FailsafeSafe (s : Fbw n m) : Prop :=
  s.fbwMode = .failsafe → FailsafeCommands cfg s.commands

/-- The loop only halts in FAILSAFE. -/
structure Safe (s : Fbw n m) : Prop where
  failsafe : FailsafeSafe cfg s
  halted : s.halted = true → s.fbwMode = .failsafe

end

section

variable {cfg : FbwConfig n m} {s : Fbw n m}

@[simp] theorem setActuators_mode (crash : Bool) :
    (setActuators cfg crash s).fbwMode = s.fbwMode := by
  unfold setActuators
  split_ifs <;> rfl

@[simp] theorem setActuators_commands (crash : Bool) :
    (setActuators cfg crash s).commands = s.commands := by
  unfold setActuators
  split_ifs <;> rfl

theorem failsafeSafe_setFailsafeMode (cfg : FbwConfig n m) (s : Fbw n m) :
    FailsafeSafe cfg (setFailsafeMode cfg s) :=
  fun _ _ _ => rfl

theorem fbwModeOfPprz_ne_failsafe (mode : Int16) : fbwModeOfPprz mode ≠ .failsafe := by
  unfold fbwModeOfPprz
  split_ifs <;> nofun

theorem handleRcFrame_mode :
    (handleRcFrame cfg s).fbwMode = fbwModeOfPprz (s.radioControl.values cfg.radioMode) := by
  unfold handleRcFrame
  dsimp only
  split_ifs <;> rfl

theorem failsafeSafe_onRadioEvent (h : FailsafeSafe cfg s) (frame : Option (Fin m → Int16)) :
    FailsafeSafe cfg (onRadioEvent cfg frame s) := by
  cases frame with
  | none => exact h
  | some values =>
      unfold onRadioEvent
      dsimp only
      split_ifs
      · intro hmode
        rw [handleRcFrame_mode] at hmode
        exact absurd hmode (fbwModeOfPprz_ne_failsafe _)
      · exact h

theorem mode_of_modeForAp {mode : FbwMode} (h : modeForAp cfg mode = .failsafe) :
    mode = .failsafe ∧ cfg.rcLostNoAp = true := by
  unfold modeForAp at h
  split_ifs at h with hauto
  refine ⟨h, ?_⟩
  by_contra hap
  exact hauto ⟨by simpa using hap, h⟩

theorem failsafeSafe_onApMessage (h : FailsafeSafe cfg s) (message : Option (ApState n)) :
    FailsafeSafe cfg (onApMessage cfg message s) := by
  cases message with
  | none => exact h
  | some ap =>
      intro hmode i hi
      obtain ⟨hfailsafe, hno⟩ := mode_of_modeForAp hmode
      have hap : ¬ cfg.apOnlyCommands i = true := fun hap => hi ⟨hno, hap⟩
      have hauto : modeForAp cfg s.fbwMode ≠ .auto := by
        rw [show modeForAp cfg s.fbwMode = .failsafe from hmode]
        nofun
      simp only [onApMessage, if_neg hauto, setApOnlyCommands, if_neg hap]
      exact h hfailsafe i hi

theorem onRadioEvent_halted (frame : Option (Fin m → Int16)) :
    (onRadioEvent cfg frame s).halted = s.halted := by
  cases frame with
  | none => rfl
  | some values =>
      unfold onRadioEvent handleRcFrame
      dsimp only
      split_ifs <;> rfl

theorem onApMessage_halted (message : Option (ApState n)) :
    (onApMessage cfg message s).halted = s.halted := by
  cases message <;> rfl

theorem safe_eventTaskFbw (h : FailsafeSafe cfg s) (hrunning : s.halted = false)
    (frame : Option (Fin m → Int16)) (message : Option (ApState n)) :
    Safe cfg (eventTaskFbw cfg frame message s) := by
  unfold eventTaskFbw
  dsimp only
  split_ifs with hcrash
  · refine ⟨?_, fun _ => setActuators_mode true⟩
    intro hmode
    rw [setActuators_commands]
    exact failsafeSafe_setFailsafeMode cfg _ rfl
  · constructor
    · intro hmode
      rw [setActuators_mode] at hmode
      rw [setActuators_commands]
      exact failsafeSafe_onApMessage (failsafeSafe_onRadioEvent h frame) message hmode
    · intro hhalted
      unfold setActuators at hhalted
      split_ifs at hhalted
      rw [onApMessage_halted, onRadioEvent_halted, hrunning] at hhalted
      cases hhalted

theorem failsafeSafe_checkRcLost (h : FailsafeSafe cfg s) :
    FailsafeSafe cfg (checkRcLost cfg s) := by
  unfold checkRcLost
  split_ifs
  · exact failsafeSafe_setFailsafeMode cfg s
  · nofun
  · exact h

theorem failsafeSafe_interMcuPeriodicTask (h : FailsafeSafe cfg s) :
    FailsafeSafe cfg (interMcuPeriodicTask s) := by
  unfold interMcuPeriodicTask
  split_ifs <;> exact h

theorem failsafeSafe_checkApLost (h : FailsafeSafe cfg s) :
    FailsafeSafe cfg (checkApLost cfg s) := by
  unfold checkApLost
  split_ifs
  · exact failsafeSafe_setFailsafeMode cfg s
  · exact h

@[simp] theorem checkRcLost_halted : (checkRcLost cfg s).halted = s.halted := by
  unfold checkRcLost
  split_ifs <;> rfl

@[simp] theorem interMcuPeriodicTask_halted : (interMcuPeriodicTask s).halted = s.halted := by
  unfold interMcuPeriodicTask
  split_ifs <;> rfl

@[simp] theorem checkApLost_halted : (checkApLost cfg s).halted = s.halted := by
  unfold checkApLost
  split_ifs <;> rfl

theorem safe_periodicTaskFbw (h : FailsafeSafe cfg s) (hrunning : s.halted = false) :
    Safe cfg (periodicTaskFbw cfg s) := by
  constructor
  · exact failsafeSafe_checkApLost
      (failsafeSafe_interMcuPeriodicTask (failsafeSafe_checkRcLost h))
  · intro hhalted
    simp [periodicTaskFbw, hrunning] at hhalted

theorem step_of_running (hrunning : s.halted = false) (e : FbwEvent n m) :
    step cfg s e = match e with
      | .event frame message => eventTaskFbw cfg frame message s
      | .periodic => periodicTaskFbw cfg s := by
  unfold step
  rw [hrunning]
  rfl

theorem step_of_halted (hhalted : s.halted = true) (e : FbwEvent n m) : step cfg s e = s := by
  unfold step
  rw [if_pos hhalted]

theorem safe_step (h : Safe cfg s) (e : FbwEvent n m) : Safe cfg (step cfg s e) := by
  cases hhalted : s.halted with
  | true => rwa [step_of_halted hhalted]
  | false =>
      rw [step_of_running hhalted]
      cases e with
      | event frame message => exact safe_eventTaskFbw h.failsafe hhalted frame message
      | periodic => exact safe_periodicTaskFbw h.failsafe hhalted

end

theorem safe_initFbw (cfg : FbwConfig n m) : Safe cfg (initFbw cfg) :=
  ⟨fun _ _ _ => rfl, nofun⟩

theorem safe_run (cfg : FbwConfig n m) (es : List (FbwEvent n m)) :
    Safe cfg (run (step cfg) (initFbw cfg) es) :=
  run_history (fun _ => Safe cfg) (fun _ _ e h => safe_step h e) (safe_initFbw cfg) es

/-! ### The watchdog on the autopilot -/

/-- The call handles no message of the autopilot. -/
def NoMessage : FbwEvent n m → Prop
  | .event _ (some _) => False
  | _ => True

def isPeriodic : FbwEvent n m → Bool
  | .periodic => true
  | .event _ _ => false

/-- What the watchdog knows after `k` periodic calls without a message. -/
def Unheard (k : Nat) (s : Fbw n m) : Prop :=
  s.halted = true ∨
    min k apStalledTime ≤ s.timeSinceLastAp ∧ (apStalledTime < k → s.apOk = false)

section

variable {cfg : FbwConfig n m} {s : Fbw n m}

/-- The part of the state that the watchdog on the autopilot owns. -/
def watchdog (s : Fbw n m) : Nat × Bool := (s.timeSinceLastAp, s.apOk)

theorem watchdog_onRadioEvent (frame : Option (Fin m → Int16)) :
    watchdog (onRadioEvent cfg frame s) = watchdog s := by
  cases frame with
  | none => rfl
  | some values =>
      unfold onRadioEvent handleRcFrame
      dsimp only
      split_ifs <;> rfl

theorem watchdog_setActuators (crash : Bool) :
    watchdog (setActuators cfg crash s) = watchdog s := by
  unfold setActuators
  split_ifs <;> rfl

theorem watchdog_eventTaskFbw (frame : Option (Fin m → Int16)) :
    watchdog (eventTaskFbw cfg frame none s) = watchdog s := by
  unfold eventTaskFbw
  dsimp only
  split_ifs
  · rw [watchdog_setActuators]
    exact watchdog_onRadioEvent frame
  · rw [watchdog_setActuators]
    exact watchdog_onRadioEvent frame

theorem watchdog_checkRcLost : watchdog (checkRcLost cfg s) = watchdog s := by
  unfold checkRcLost
  split_ifs <;> rfl

theorem watchdog_checkApLost : watchdog (checkApLost cfg s) = watchdog s := by
  unfold checkApLost
  split_ifs <;> rfl

theorem watchdog_interMcuPeriodicTask :
    watchdog (interMcuPeriodicTask s) =
      if s.timeSinceLastAp ≥ apStalledTime then (s.timeSinceLastAp, false)
      else (s.timeSinceLastAp + 1, s.apOk) := by
  unfold interMcuPeriodicTask
  split_ifs <;> rfl

theorem watchdog_periodicTaskFbw :
    watchdog (periodicTaskFbw cfg s) =
      if s.timeSinceLastAp ≥ apStalledTime then (s.timeSinceLastAp, false)
      else (s.timeSinceLastAp + 1, s.apOk) := by
  have hrc := @watchdog_checkRcLost _ _ cfg
    { s with radioControl := radioControlPeriodicTask s.radioControl }
  simp only [watchdog, Prod.mk.injEq] at hrc
  unfold periodicTaskFbw
  rw [watchdog_checkApLost, watchdog_interMcuPeriodicTask, hrc.1, hrc.2]

theorem unheard_step {k : Nat} (h : Unheard k s) {e : FbwEvent n m} (he : NoMessage e) :
    Unheard (k + (if isPeriodic e then 1 else 0)) (step cfg s e) := by
  cases hhalted : s.halted with
  | true =>
      rw [step_of_halted hhalted]
      exact Or.inl hhalted
  | false =>
      obtain ⟨htime, hok⟩ := h.resolve_left (by simp [hhalted])
      rw [step_of_running hhalted]
      refine Or.inr ?_
      cases e with
      | event frame message =>
          cases message with
          | some ap => exact he.elim
          | none =>
              have hsame := @watchdog_eventTaskFbw _ _ cfg s frame
              simp only [watchdog, Prod.mk.injEq] at hsame
              dsimp only [isPeriodic]
              rw [hsame.1, hsame.2]
              exact ⟨htime, hok⟩
      | periodic =>
          have hnext := @watchdog_periodicTaskFbw _ _ cfg s
          simp only [watchdog] at hnext
          simp only [isPeriodic, if_true]
          split_ifs at hnext with hstalled
          · obtain ⟨htime', hok'⟩ := Prod.mk.inj hnext
            rw [htime', hok']
            exact ⟨(Nat.min_le_right _ _).trans hstalled, fun _ => rfl⟩
          · obtain ⟨htime', hok'⟩ := Prod.mk.inj hnext
            rw [htime', hok']
            exact ⟨by omega, by omega⟩

theorem unheard_run {k : Nat} (h : Unheard k s) {es : List (FbwEvent n m)}
    (hes : ∀ e ∈ es, NoMessage e) :
    Unheard (k + es.countP isPeriodic) (run (step cfg) s es) := by
  induction es generalizing k s with
  | nil => exact h
  | cons e es ih =>
      have hstep := @unheard_step _ _ cfg _ _ h _ (hes e (by simp))
      have hrun := ih hstep fun e' he' => hes e' (List.mem_cons_of_mem _ he')
      rwa [List.countP_cons, Nat.add_comm (es.countP isPeriodic), ← Nat.add_assoc]

theorem mode_periodicTaskFbw_of_stalled (hok : (periodicTaskFbw cfg s).apOk = false) :
    (periodicTaskFbw cfg s).fbwMode ≠ .auto := by
  unfold periodicTaskFbw at hok ⊢
  dsimp only at hok ⊢
  unfold checkApLost at hok ⊢
  split_ifs at hok ⊢ with hlost
  · nofun
  · exact fun hauto => hlost ⟨hauto, hok⟩

@[simp] theorem checkApLost_radioControl :
    (checkApLost cfg s).radioControl = s.radioControl := by
  unfold checkApLost
  split_ifs <;> rfl

@[simp] theorem interMcuPeriodicTask_radioControl :
    (interMcuPeriodicTask s).radioControl = s.radioControl := by
  unfold interMcuPeriodicTask
  split_ifs <;> rfl

@[simp] theorem checkRcLost_radioControl :
    (checkRcLost cfg s).radioControl = s.radioControl := by
  unfold checkRcLost
  split_ifs <;> rfl

@[simp] theorem interMcuPeriodicTask_mode : (interMcuPeriodicTask s).fbwMode = s.fbwMode := by
  unfold interMcuPeriodicTask
  split_ifs <;> rfl

theorem mode_of_checkApLost (h : (checkApLost cfg s).fbwMode = .manual) :
    s.fbwMode = .manual := by
  unfold checkApLost at h
  split_ifs at h
  · cases h
  · exact h

theorem mode_checkRcLost (hlost : s.radioControl.status = .reallyLost) :
    (checkRcLost cfg s).fbwMode ≠ .manual := by
  unfold checkRcLost
  split_ifs with hmanual
  · nofun
  · nofun
  · exact fun hmode => hmanual ⟨hmode, hlost⟩

theorem mode_periodicTaskFbw_of_reallyLost
    (hlost : (periodicTaskFbw cfg s).radioControl.status = .reallyLost) :
    (periodicTaskFbw cfg s).fbwMode ≠ .manual := by
  simp only [periodicTaskFbw, checkApLost_radioControl, interMcuPeriodicTask_radioControl,
    checkRcLost_radioControl] at hlost
  intro hmanual
  have hmode := mode_of_checkApLost hmanual
  rw [interMcuPeriodicTask_mode] at hmode
  exact mode_checkRcLost hlost hmode

theorem mode_step_of_stalled (h : Safe cfg s) {k : Nat} (hk : apStalledTime < k)
    (hunheard : Unheard k (step cfg s .periodic)) : (step cfg s .periodic).fbwMode ≠ .auto := by
  cases hhalted : s.halted with
  | true =>
      rw [step_of_halted hhalted, h.halted hhalted]
      nofun
  | false =>
      rcases hunheard with hhalted' | ⟨-, hok⟩
      · rw [(safe_step h .periodic).halted hhalted']
        nofun
      · rw [step_of_running hhalted] at hok ⊢
        exact mode_periodicTaskFbw_of_stalled (hok hk)

theorem mode_step_of_reallyLost (h : Safe cfg s)
    (hlost : (step cfg s .periodic).radioControl.status = .reallyLost) :
    (step cfg s .periodic).fbwMode ≠ .manual := by
  cases hhalted : s.halted with
  | true =>
      rw [step_of_halted hhalted, h.halted hhalted]
      nofun
  | false =>
      rw [step_of_running hhalted] at hlost ⊢
      exact mode_periodicTaskFbw_of_reallyLost hlost

end

/-! ### Messages in MANUAL -/

/-- Two events that differ at most in the commands of a message that is handled in MANUAL; the
AP-only commands and the trims are the same. -/
inductive SameButManual (cfg : FbwConfig n m) (s : Fbw n m) : FbwEvent n m → FbwEvent n m → Prop
  | same (e : FbwEvent n m) : SameButManual cfg s e e
  | manual (frame : Option (Fin m → Int16)) (ap : ApState n) (commands : Commands n)
      (hmode : (onRadioEvent cfg frame s).fbwMode = .manual)
      (hapOnly : ∀ i, cfg.apOnlyCommands i = true → commands i = ap.commands i) :
      SameButManual cfg s (.event frame (some ap))
        (.event frame (some { ap with commands := commands }))

section

variable {cfg : FbwConfig n m} {s : Fbw n m}

theorem onApMessage_manual (hmode : s.fbwMode = .manual) (ap : ApState n) {commands : Commands n}
    (hapOnly : ∀ i, cfg.apOnlyCommands i = true → commands i = ap.commands i) :
    onApMessage cfg (some ap) s = onApMessage cfg (some { ap with commands := commands }) s := by
  have hset : setApOnlyCommands cfg ap.commands s.commands =
      setApOnlyCommands cfg commands s.commands := by
    funext i
    unfold setApOnlyCommands
    split_ifs with hi
    · exact (hapOnly i hi).symm
    · rfl
  have hap : modeForAp cfg s.fbwMode = .manual := by
    rw [hmode]
    unfold modeForAp
    rw [if_neg (by simp)]
  have hauto : modeForAp cfg s.fbwMode ≠ .auto := by
    rw [hap]
    nofun
  simp only [onApMessage, if_neg hauto, hset]

theorem step_sameButManual (s : Fbw n m) (e e' : FbwEvent n m) (h : SameButManual cfg s e e') :
    step cfg s e = step cfg s e' := by
  cases h with
  | same => rfl
  | manual frame ap commands hmode hapOnly =>
      unfold step
      dsimp only
      unfold eventTaskFbw
      rw [onApMessage_manual hmode ap hapOnly]

end

/-- In every run from `init_fbw`:
(a) after a periodic call before which the autopilot was silent for `AP_STALLED_TIME + 1`
periodic calls, the mode is not AUTO, and unless it is MANUAL the commands are the failsafe ones;
(b) after a periodic call with the radio really lost, the mode is not MANUAL;
(c) in FAILSAFE the commands are the failsafe ones;
(d) the commands of messages handled in MANUAL, but for the AP-only ones, have no effect on what
the actuators are given. -/
theorem fbw_failsafe (cfg : FbwConfig n m) (es : List (FbwEvent n m)) :
    (∀ es₁ es₂ : List (FbwEvent n m), es = es₁ ++ es₂ → (∀ e ∈ es₂, NoMessage e) →
      apStalledTime + 1 ≤ es₂.countP isPeriodic →
      (run (step cfg) (initFbw cfg) (es ++ [FbwEvent.periodic])).fbwMode ≠ .auto ∧
      ((run (step cfg) (initFbw cfg) (es ++ [FbwEvent.periodic])).fbwMode ≠ .manual →
        FailsafeCommands cfg (run (step cfg) (initFbw cfg) (es ++ [FbwEvent.periodic])).commands)) ∧
    ((run (step cfg) (initFbw cfg) (es ++ [FbwEvent.periodic])).radioControl.status = .reallyLost →
      (run (step cfg) (initFbw cfg) (es ++ [FbwEvent.periodic])).fbwMode ≠ .manual) ∧
    ((run (step cfg) (initFbw cfg) es).fbwMode = .failsafe →
      FailsafeCommands cfg (run (step cfg) (initFbw cfg) es).commands) ∧
    (∀ es' : List (FbwEvent n m),
      EventsRelated (step cfg) (SameButManual cfg) (initFbw cfg) es es' →
      (run (step cfg) (initFbw cfg) es').given = (run (step cfg) (initFbw cfg) es).given) := by
  refine ⟨?_, ?_, (safe_run cfg es).failsafe, ?_⟩
  · rintro es₁ es₂ rfl hsilent hcount
    have hunheard : Unheard (0 + es₂.countP isPeriodic)
        (run (step cfg) (initFbw cfg) (es₁ ++ es₂)) := by
      rw [run_append]
      exact unheard_run (Or.inr ⟨by simp, fun h => absurd h (Nat.not_lt_zero _)⟩) hsilent
    have hauto := mode_step_of_stalled (safe_run cfg (es₁ ++ es₂)) (by simp [isPeriodic]; omega)
      (unheard_step hunheard (e := .periodic) trivial)
    rw [run_append, run_cons, run_nil]
    refine ⟨hauto, fun hmanual => (safe_step (safe_run cfg _) .periodic).failsafe ?_⟩
    cases hmode : (step cfg (run (step cfg) (initFbw cfg) (es₁ ++ es₂)) .periodic).fbwMode with
    | manual => exact absurd hmode hmanual
    | auto => exact absurd hmode hauto
    | failsafe => rfl
  · rw [run_append, run_cons, run_nil]
    exact mode_step_of_reallyLost (safe_run cfg es)
  · intro es' hrelated
    rw [run_eq_of_related step_sameButManual hrelated]

/-! ### Runs -/

/-- Two commands, set from the two channels beside the mode switch; the second one is the roll
command. -/
def twoCommands : FbwConfig 2 3 :=
  { commandsFailsafe := ![0, 0]
    setCommandsFromRC := fun values _ => ![values 0, values 1]
    commandRoll := some 1
    radioMode := 2 }

/-- The camera follows the autopilot in every mode, and the radio lost is the failsafe. -/
def cameraFromAp : FbwConfig 2 3 :=
  { twoCommands with apOnlyCommands := ![false, true], rcLostNoAp := true }

def manualFrame : FbwEvent 2 3 := .event (some ![5000, -700, -9600]) none

def apMessage (rollTrim : Int16) : FbwEvent 2 3 :=
  .event none (some ⟨![1000, 2000], rollTrim, 0, 0⟩)

theorem fbw_failsafe_after_silence :
    (run (step twoCommands) (initFbw twoCommands)
      ([apMessage 0] ++ List.replicate 31 FbwEvent.periodic ++ [FbwEvent.periodic])).fbwMode ≠ .auto ∧
    FailsafeCommands twoCommands (run (step twoCommands) (initFbw twoCommands)
      ([apMessage 0] ++ List.replicate 31 FbwEvent.periodic ++ [FbwEvent.periodic])).commands := by
  have hsilent : ∀ e ∈ List.replicate 31 (.periodic : FbwEvent 2 3), NoMessage e := by
    intro e he
    rw [List.eq_of_mem_replicate he]
    trivial
  have h := (fbw_failsafe twoCommands ([apMessage 0] ++ List.replicate 31 FbwEvent.periodic)).1
    [apMessage 0] (List.replicate 31 FbwEvent.periodic) rfl hsilent (by decide)
  exact ⟨h.1, h.2 (by decide +kernel)⟩

/-- A MANUAL frame before the silence: the pilot's commands stay, with the radio not yet really
lost. AP-only commands in FAILSAFE. And in MANUAL the trims of the autopilot are added to the
pilot's commands. -/
theorem silent_autopilot_in_manual :
    ((run (step twoCommands) (initFbw twoCommands)
        ([manualFrame] ++ List.replicate 31 FbwEvent.periodic ++ [FbwEvent.periodic])).commands 0 = 5000 ∧
      twoCommands.commandsFailsafe 0 = 0) ∧
    ((run (step cameraFromAp) (initFbw cameraFromAp)
        ([apMessage 0] ++ List.replicate 31 FbwEvent.periodic ++ [FbwEvent.periodic])).fbwMode = .failsafe ∧
      (run (step cameraFromAp) (initFbw cameraFromAp)
        ([apMessage 0] ++ List.replicate 31 FbwEvent.periodic ++ [FbwEvent.periodic])).commands 1 = 2000 ∧
      cameraFromAp.commandsFailsafe 1 = 0) ∧
    ((run (step twoCommands) (initFbw twoCommands) [manualFrame]).fbwMode = .manual ∧
      (run (step twoCommands) (initFbw twoCommands) [manualFrame, apMessage 0]).given.map (· 1) =
        [-700, -700] ∧
      (run (step twoCommands) (initFbw twoCommands) [manualFrame, apMessage 90]).given.map (· 1) =
        [-700, -610]) := by
  decide +kernel

end Paparazzi.Fixedwing.FbwFailsafe
