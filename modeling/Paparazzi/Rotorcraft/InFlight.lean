import Paparazzi.Rotorcraft.Autopilot

/-!
The in-flight detection of the rotorcraft: one counter and one flag, which the checks of the RC
frames and those of the periodic task without RC share, and which a kill resets.
-/

namespace Paparazzi.Rotorcraft.InFlight

open Paparazzi.Library.Machine (run run_append run_history)
open Paparazzi.Rotorcraft.Arming
open Paparazzi.Rotorcraft.Autopilot

/-- What the rest of the autopilot does: it writes neither the flag nor the counter. -/
structure Elsewhere where
  write : ApState → ApState
  inFlight_eq : ∀ s, (write s).autopilotInFlight = s.autopilotInFlight
  counter_eq : ∀ s, (write s).autopilotInFlightCounter = s.autopilotInFlightCounter

inductive Op where
  | checkInFlight (rc : RcValues) (motorsOn : Bool)
  | checkInFlightNoRc (thrust : Int) (motorsOn : Bool)
  | setMode (mode : ApMode)
  | elsewhere (other : Elsewhere)

/-- What the detection is told. -/
inductive Note where
  | check (down up motorsOn : Bool)
  | kill
  deriving DecidableEq, Repr

namespace Note

def motorsOn : Note → Bool
  | check _ _ on => on
  | kill => false

/-- A check with the throttle down. -/
def IsDown : Note → Prop
  | check down _ _ => down = true
  | kill => False

/-- A check with the motors on and the throttle up. -/
def IsUp : Note → Prop
  | check _ up on => up = true ∧ on = true
  | kill => False

/-- A check that does not end a take-off: the throttle is up, or the motors are off. -/
def Passes : Note → Prop
  | check _ up on => on = true → up = true
  | kill => False

instance (n : Note) : Decidable n.IsUp :=
  match n with
  | check _ _ _ => inferInstanceAs (Decidable (_ ∧ _))
  | kill => isFalse id

end Note

section

variable (cfg : Config)

def opStep (s : ApState) : Op → ApState
  | .checkInFlight rc motorsOn => autopilotCheckInFlight rc motorsOn s
  | .checkInFlightNoRc thrust motorsOn => autopilotCheckInFlightNoRc thrust motorsOn s
  | .setMode mode => autopilotSetMode cfg mode s
  | .elsewhere other => other.write s

/-- A change to a mode that stops the motors. -/
def Kills (s : ApState) (mode : ApMode) : Prop :=
  forcedMode cfg mode s ≠ s.autopilotMode ∧ stopsMotors cfg (forcedMode cfg mode s) = true

instance (s : ApState) (mode : ApMode) : Decidable (Kills cfg s mode) :=
  inferInstanceAs (Decidable (_ ∧ _))

def noted (s : ApState) : Op → List Note
  | .checkInFlight rc motorsOn => [.check (throttleStickDown rc) (!throttleStickDown rc) motorsOn]
  | .checkInFlightNoRc thrust motorsOn => [.check (thrust = 0) (thrust > 0) motorsOn]
  | .setMode mode => if Kills cfg s mode then [.kill] else []
  | .elsewhere _ => []

def notes : ApState → List Op → List Note
  | _, [] => []
  | s, op :: ops => noted cfg s op ++ notes (opStep cfg s op) ops

end

/-! ### What is asked -/

/-- The last 40 checks had the throttle down. -/
def Lowered (notes : List Note) : Prop :=
  ∃ before downs, notes = before ++ downs ∧ downs.length = autopilotInFlightTime ∧
    ∀ n ∈ downs, n.IsDown

/-- The last 40 checks had the motors on and the throttle up. -/
def RaisedAtOnce (notes : List Note) : Prop :=
  ∃ before ups, notes = before ++ ups ∧ ups.length = autopilotInFlightTime ∧ ∀ n ∈ ups, n.IsUp

/-- The last 40 checks with the motors on had the throttle up, and only checks with the motors off
came between them. -/
def Raised (notes : List Note) : Prop :=
  ∃ before ups last, notes = before ++ ups ++ [last] ∧ (∀ n ∈ ups, n.Passes) ∧ last.IsUp ∧
    (ups.filter Note.motorsOn).length + 1 = autopilotInFlightTime

section

variable (cfg : Config) (raised : List Note → Prop)

/-- The detection does not stick, and the flag changes after the checks that it should. -/
structure Detects (start : ApState) (ops : List Op) : Prop where
  counts : (run (opStep cfg) start ops).autopilotInFlight = true →
    0 < (run (opStep cfg) start ops).autopilotInFlightCounter
  waits : (run (opStep cfg) start ops).autopilotInFlight = false →
    (run (opStep cfg) start ops).autopilotInFlightCounter < autopilotInFlightTime
  takesOff : ∀ op, (run (opStep cfg) start ops).autopilotInFlight = false →
    (opStep cfg (run (opStep cfg) start ops) op).autopilotInFlight = true →
      raised (notes cfg start (ops ++ [op]))
  lands : ∀ op, (run (opStep cfg) start ops).autopilotInFlight = true →
    (opStep cfg (run (opStep cfg) start ops) op).autopilotInFlight = false →
      (∃ mode, op = .setMode mode ∧ Kills cfg (run (opStep cfg) start ops) mode) ∨
        Lowered (notes cfg start (ops ++ [op]))

end

/-! ### The invariant -/

/-- What the counter has counted of the notes. -/
structure Counts (ns : List Note) (s : ApState) : Prop where
  flying : s.autopilotInFlight = true →
    0 < s.autopilotInFlightCounter ∧ ∃ before downs, ns = before ++ downs ∧
      downs.length + s.autopilotInFlightCounter = autopilotInFlightTime ∧ ∀ n ∈ downs, n.IsDown
  grounded : s.autopilotInFlight = false →
    s.autopilotInFlightCounter < autopilotInFlightTime ∧ ∃ before ups, ns = before ++ ups ∧
      (∀ n ∈ ups, n.Passes) ∧ (ups.filter Note.motorsOn).length = s.autopilotInFlightCounter

section

variable {ns : List Note} {s : ApState}

theorem Counts.of_zero (hflag : s.autopilotInFlight = false)
    (hcounter : s.autopilotInFlightCounter = 0) : Counts ns s where
  flying h := Bool.noConfusion (h.symm.trans hflag)
  grounded _ := by
    rw [hcounter]
    exact ⟨by decide, ns, [], (List.append_nil ns).symm, fun _ h => absurd h List.not_mem_nil, rfl⟩

theorem Counts.of_full (hflag : s.autopilotInFlight = true)
    (hcounter : s.autopilotInFlightCounter = autopilotInFlightTime) : Counts ns s where
  flying _ := by
    rw [hcounter]
    exact ⟨by decide, ns, [], (List.append_nil ns).symm, rfl, fun _ h => absurd h List.not_mem_nil⟩
  grounded h := Bool.noConfusion (hflag.symm.trans h)

/-- Nothing is asked where the flag stays. -/
theorem of_flag_eq {flag flag' : Bool} {p q : Prop} (h : flag' = flag) :
    (flag = false → flag' = true → p) ∧ (flag = true → flag' = false → q) := by
  rw [h]
  exact ⟨fun hfalse htrue => Bool.noConfusion (hfalse.symm.trans htrue),
    fun htrue hfalse => Bool.noConfusion (hfalse.symm.trans htrue)⟩

/-- A check, by the cases of the code. -/
theorem counts_checkInFlight (h : Counts ns s) (down up motorsOn : Bool) :
    Counts (ns ++ [.check down up motorsOn]) (checkInFlight down up motorsOn s) ∧
      (s.autopilotInFlight = false →
        (checkInFlight down up motorsOn s).autopilotInFlight = true →
          Raised (ns ++ [.check down up motorsOn])) ∧
      (s.autopilotInFlight = true →
        (checkInFlight down up motorsOn s).autopilotInFlight = false →
          Lowered (ns ++ [.check down up motorsOn])) := by
  rw [checkInFlight]
  split_ifs with hfly hpos hdown hcan hup
  · -- One check less to the landing.
    obtain ⟨-, before, downs, rfl, hlen, hdowns⟩ := h.flying hfly
    have hall : ∀ n ∈ downs ++ [Note.check down up motorsOn], n.IsDown :=
      List.forall_mem_append.mpr ⟨hdowns, List.forall_mem_singleton.mpr hdown⟩
    have hlength : (downs ++ [Note.check down up motorsOn]).length +
        (s.autopilotInFlightCounter - 1) = autopilotInFlightTime := by
      rw [List.length_append, List.length_singleton]
      omega
    rcases Nat.eq_zero_or_pos (s.autopilotInFlightCounter - 1) with hzero | hmore
    · refine ⟨Counts.of_zero (decide_eq_false (not_not.mpr hzero)) hzero, fun hnot => ?_,
        fun _ _ => ?_⟩
      · exact Bool.noConfusion (hfly.symm.trans hnot)
      · rw [hzero, Nat.add_zero] at hlength
        exact ⟨before, _, List.append_assoc _ _ _, hlength, hall⟩
    · have hstill : decide (s.autopilotInFlightCounter - 1 ≠ 0) = true :=
        decide_eq_true (Nat.ne_of_gt hmore)
      refine ⟨⟨fun _ => ⟨hmore, before, _, List.append_assoc _ _ _, hlength, hall⟩, fun hnot => ?_⟩,
        of_flag_eq (hstill.trans hfly.symm)⟩
      exact Bool.noConfusion (hstill.symm.trans hnot)
  · exact ⟨Counts.of_full hfly rfl, of_flag_eq rfl⟩
  · exact absurd (h.flying hfly).1 hpos
  · -- One check more to the take-off.
    rw [Bool.not_eq_true] at hfly
    obtain ⟨-, before, ups, rfl, hups, hcount⟩ := h.grounded hfly
    rcases Nat.lt_or_ge (s.autopilotInFlightCounter + 1) autopilotInFlightTime with hmore | hlast
    · have hstill : decide (s.autopilotInFlightCounter + 1 = autopilotInFlightTime) = false :=
        decide_eq_false (Nat.ne_of_lt hmore)
      have hon : (Note.check down up motorsOn).motorsOn = true := hcan.2
      refine ⟨⟨fun hnow => ?_, fun _ => ⟨hmore, before, _, List.append_assoc _ _ _, ?_, ?_⟩⟩,
        of_flag_eq (hstill.trans hfly.symm)⟩
      · exact Bool.noConfusion (hstill.symm.trans hnow)
      · exact List.forall_mem_append.mpr ⟨hups, List.forall_mem_singleton.mpr fun _ => hup⟩
      · rw [List.filter_append, List.length_append, hcount, List.filter_cons_of_pos hon]
        rfl
    · have hfull : s.autopilotInFlightCounter + 1 = autopilotInFlightTime :=
        Nat.le_antisymm hcan.1 hlast
      refine ⟨Counts.of_full (decide_eq_true hfull) hfull, fun _ _ => ?_, fun hnow => ?_⟩
      · exact ⟨before, ups, _, rfl, hups, ⟨hup, hcan.2⟩, by rw [hcount, hfull]⟩
      · exact Bool.noConfusion (hfly.symm.trans hnow)
  · rw [Bool.not_eq_true] at hfly
    exact ⟨Counts.of_zero hfly rfl, of_flag_eq rfl⟩
  · -- The motors are off: the check is passed over.
    rw [Bool.not_eq_true] at hfly
    obtain ⟨hlt, before, ups, rfl, hups, hcount⟩ := h.grounded hfly
    have hoff : ¬(Note.check down up motorsOn).motorsOn = true := fun hon => hcan ⟨hlt, hon⟩
    refine ⟨⟨fun hnow => ?_, fun _ => ⟨hlt, before, _, List.append_assoc _ _ _, ?_, ?_⟩⟩,
      of_flag_eq rfl⟩
    · exact Bool.noConfusion (hfly.symm.trans hnow)
    · exact List.forall_mem_append.mpr
        ⟨hups, List.forall_mem_singleton.mpr fun hon => absurd hon hoff⟩
    · rw [List.filter_append, List.length_append, hcount, List.filter_cons_of_neg hoff]
      rfl

/-- The invariant is about the flag and the counter alone. -/
theorem Counts.congr {s' : ApState} (h : Counts ns s)
    (hflag : s'.autopilotInFlight = s.autopilotInFlight)
    (hcounter : s'.autopilotInFlightCounter = s.autopilotInFlightCounter) : Counts ns s' where
  flying := by
    rw [hflag, hcounter]
    exact h.flying
  grounded := by
    rw [hflag, hcounter]
    exact h.grounded

section

variable {cfg : Config}

theorem setMode_of_ne {mode : ApMode} (h : forcedMode cfg mode s ≠ s.autopilotMode) :
    autopilotSetMode cfg mode s =
      { setModeVertical cfg (forcedMode cfg mode s)
          (setModeHorizontal cfg (forcedMode cfg mode s) s) with
        autopilotMode := forcedMode cfg mode s } := if_pos h

/-- A change of the mode, by what it does to the detection. -/
theorem setMode_of_kills {mode : ApMode} (h : Kills cfg s mode) :
    (autopilotSetMode cfg mode s).autopilotInFlight = false ∧
      (autopilotSetMode cfg mode s).autopilotInFlightCounter = 0 := by
  obtain ⟨vertical, hvertical⟩ := @setModeVertical_eq cfg
    (setModeHorizontal cfg (forcedMode cfg mode s) s) (forcedMode cfg mode s)
  rw [setMode_of_ne h.1, hvertical, setModeHorizontal, if_pos h.2]
  exact ⟨rfl, rfl⟩

theorem setMode_of_not_kills {mode : ApMode} (h : ¬Kills cfg s mode) :
    (autopilotSetMode cfg mode s).autopilotInFlight = s.autopilotInFlight ∧
      (autopilotSetMode cfg mode s).autopilotInFlightCounter = s.autopilotInFlightCounter := by
  rcases eq_or_ne (forcedMode cfg mode s) s.autopilotMode with heq | hne
  · rw [setMode_of_eq heq]
    exact ⟨rfl, rfl⟩
  · obtain ⟨horizontal, hhorizontal⟩ := @setModeHorizontal_eq cfg s (forcedMode cfg mode s)
      fun hstop => h ⟨hne, hstop⟩
    obtain ⟨vertical, hvertical⟩ := @setModeVertical_eq cfg { s with guidanceHMode := horizontal }
      (forcedMode cfg mode s)
    rw [setMode_of_ne hne, hhorizontal, hvertical]
    exact ⟨rfl, rfl⟩

theorem setMode_grounded {mode : ApMode} (hflag : s.autopilotInFlight = false)
    (hcounter : s.autopilotInFlightCounter = 0) :
    (autopilotSetMode cfg mode s).autopilotInFlight = false ∧
      (autopilotSetMode cfg mode s).autopilotInFlightCounter = 0 := by
  rcases Classical.em (Kills cfg s mode) with hkills | hnot
  · exact setMode_of_kills hkills
  · rw [(setMode_of_not_kills hnot).1, (setMode_of_not_kills hnot).2]
    exact ⟨hflag, hcounter⟩

theorem autopilotInit_grounded {ahrsRunning rcOk gpsLost : Bool} :
    (autopilotInit cfg ahrsRunning rcOk gpsLost).autopilotInFlight = false ∧
      (autopilotInit cfg ahrsRunning rcOk gpsLost).autopilotInFlightCounter = 0 :=
  setMode_grounded rfl rfl

theorem counts_opStep (h : Counts ns s) (op : Op) :
    Counts (ns ++ noted cfg s op) (opStep cfg s op) ∧
      (s.autopilotInFlight = false → (opStep cfg s op).autopilotInFlight = true →
        Raised (ns ++ noted cfg s op)) ∧
      (s.autopilotInFlight = true → (opStep cfg s op).autopilotInFlight = false →
        (∃ mode, op = .setMode mode ∧ Kills cfg s mode) ∨ Lowered (ns ++ noted cfg s op)) := by
  cases op with
  | checkInFlight rc motorsOn =>
      obtain ⟨hcounts, hup, hdown⟩ := counts_checkInFlight h (throttleStickDown rc)
        (!throttleStickDown rc) motorsOn
      exact ⟨hcounts, hup, fun hfly hland => Or.inr (hdown hfly hland)⟩
  | checkInFlightNoRc thrust motorsOn =>
      obtain ⟨hcounts, hup, hdown⟩ := counts_checkInFlight h (thrust = 0) (thrust > 0) motorsOn
      exact ⟨hcounts, hup, fun hfly hland => Or.inr (hdown hfly hland)⟩
  | setMode mode =>
      rw [opStep, noted]
      split_ifs with hkills
      · obtain ⟨hflag, hcounter⟩ := setMode_of_kills hkills
        refine ⟨Counts.of_zero hflag hcounter, fun _ hnow => ?_,
          fun _ _ => Or.inl ⟨mode, rfl, hkills⟩⟩
        exact Bool.noConfusion (hflag.symm.trans hnow)
      · obtain ⟨hflag, hcounter⟩ := setMode_of_not_kills hkills
        rw [List.append_nil]
        exact ⟨h.congr hflag hcounter, of_flag_eq hflag⟩
  | elsewhere other =>
      rw [noted, List.append_nil]
      exact ⟨h.congr (other.inFlight_eq s) (other.counter_eq s), of_flag_eq (other.inFlight_eq s)⟩

theorem notes_concat (ops : List Op) (op : Op) :
    notes cfg s (ops ++ [op]) = notes cfg s ops ++ noted cfg (run (opStep cfg) s ops) op := by
  induction ops generalizing s with
  | nil => exact List.append_nil _
  | cons first ops ih =>
      rw [List.cons_append, notes, notes, ih, List.append_assoc]
      rfl

theorem counts_run (hflag : s.autopilotInFlight = false) (hcounter : s.autopilotInFlightCounter = 0)
    (ops : List Op) : Counts (notes cfg s ops) (run (opStep cfg) s ops) := by
  have h := @run_history _ _ (opStep cfg)
    (fun ops s' => s' = run (opStep cfg) s ops ∧ Counts (notes cfg s ops) s')
    (fun ops s' op => by
      rintro ⟨rfl, hcounts⟩
      rw [notes_concat, run_append]
      exact ⟨rfl, (counts_opStep hcounts op).1⟩)
    s ⟨rfl, Counts.of_zero hflag hcounter⟩ ops
  exact h.2

end

end

/-- Over every run from `autopilot_init` the detection does not stick, and the flag changes after
the checks that it should; checks with the motors off neither count nor start again. -/
theorem inFlight_detected (cfg : Config) (ahrsRunning rcOk gpsLost : Bool) (ops : List Op) :
    Detects cfg Raised (autopilotInit cfg ahrsRunning rcOk gpsLost) ops := by
  obtain ⟨hflag, hcounter⟩ := @autopilotInit_grounded cfg ahrsRunning rcOk gpsLost
  have hcounts := @counts_run _ cfg hflag hcounter ops
  refine ⟨fun hfly => (hcounts.flying hfly).1, fun hnot => (hcounts.grounded hnot).1,
    fun op hnot hfly => ?_, fun op hfly hnot => ?_⟩
  · rw [notes_concat]
    exact (counts_opStep hcounts op).2.1 hnot hfly
  · rw [notes_concat]
    exact (counts_opStep hcounts op).2.2 hfly hnot

/-- 39 checks that count, and one with the motors off and the throttle down. -/
def interrupted : List Op :=
  List.replicate 39 (.checkInFlightNoRc 100 true) ++ [.checkInFlightNoRc 0 false]

/-- One more check makes it 40, but not in a row. -/
theorem takesOff_interrupted :
    ¬Detects {} RaisedAtOnce (autopilotInit {} true true false) interrupted := by
  intro h
  obtain ⟨before, ups, heq, hlen, hups⟩ :=
    h.takesOff (.checkInFlightNoRc 100 true) (by decide +kernel) (by decide +kernel)
  have hone : before.length = 1 := by
    have hall := congrArg List.length heq
    rw [List.length_append, hlen] at hall
    exact Nat.add_right_cancel hall.symm
  have hdrop := congrArg (List.drop 1) heq
  rw [List.drop_left' hone] at hdrop
  have hoff : Note.check true false false ∈ ups := by
    rw [← hdrop]
    decide
  exact absurd (hups _ hoff).2 Bool.false_ne_true

/-! ### The autopilot -/

section

variable {cfg : Config} {s t : ApState}

/-- One state comes from another by operations on the detection. -/
def Runs (cfg : Config) (s t : ApState) : Prop := ∃ ops, run (opStep cfg) s ops = t

theorem Runs.refl (s : ApState) : Runs cfg s s := ⟨[], rfl⟩

theorem Runs.trans {u : ApState} : Runs cfg s t → Runs cfg t u → Runs cfg s u := by
  rintro ⟨ops, rfl⟩ ⟨ops', rfl⟩
  exact ⟨ops ++ ops', run_append _ _ _ _⟩

theorem Runs.op (op : Op) : Runs cfg s (opStep cfg s op) := ⟨[op], rfl⟩

theorem Runs.of_eq (hflag : t.autopilotInFlight = s.autopilotInFlight)
    (hcounter : t.autopilotInFlightCounter = s.autopilotInFlightCounter) : Runs cfg s t := by
  refine ⟨[.elsewhere ⟨fun s => { t with
    autopilotInFlight := s.autopilotInFlight
    autopilotInFlightCounter := s.autopilotInFlightCounter }, fun _ => rfl, fun _ => rfl⟩], ?_⟩
  change { t with
    autopilotInFlight := s.autopilotInFlight
    autopilotInFlightCounter := s.autopilotInFlightCounter } = t
  rw [← hflag, ← hcounter]

theorem Runs.ite {c : Prop} [Decidable c] (ht : Runs cfg s t) :
    Runs cfg s (if c then t else s) := by
  split_ifs
  · exact ht
  · exact Runs.refl s

theorem runs_navAction (action : NavAction) : Runs cfg s (navAction cfg s action) := by
  cases action with
  | killThrottle => exact Runs.ite (Runs.of_eq rfl rfl)
  | resurrect => exact Runs.ite (Runs.of_eq rfl rfl)
  | setMode mode => exact Runs.op (.setMode mode)
  | startDetectGround => exact Runs.of_eq rfl rfl
  | detectGround => exact Runs.of_eq rfl rfl

theorem runs_navActions (actions : List NavAction) :
    Runs cfg s (actions.foldl (navAction cfg) s) := by
  induction actions generalizing s with
  | nil => exact Runs.refl s
  | cons action actions ih => exact (runs_navAction action).trans ih

theorem runs_rcCheckMotors (rc : RcValues) : Runs cfg s (rcCheckMotors cfg rc s) := by
  let checked := autopilotArmingCheckMotorsOn cfg.toArmingConfig rc s.autopilotMode s.arming
    s.autopilotMotorsOn
  have hset : Runs cfg s
      { s with
        arming := checked.1
        autopilotMotorsOn := checked.2
        killThrottle := !checked.2 } := Runs.of_eq rfl rfl
  exact Runs.ite (hset.trans (Runs.op (.checkInFlight rc checked.2)))

theorem runs_step (e : ApEvent) : Runs cfg s (step cfg s e) := by
  cases e with
  | rcFrame rc =>
      have hmode : Runs cfg s (rcSetMode cfg rc s) := by
        rw [rcSetMode]
        split_ifs
        · exact Runs.op (.setMode _)
        · exact Runs.op (.setMode _)
        · exact Runs.refl s
      exact hmode.trans (runs_rcCheckMotors rc)
  | rcStatus ok => exact Runs.of_eq rfl rfl
  | gps lost => exact Runs.of_eq rfl rfl
  | ahrs running => exact Runs.of_eq rfl rfl
  | failsafeCheck =>
      exact (Runs.ite (Runs.op (.setMode _))).trans (Runs.ite (Runs.op (.setMode _)))
  | periodic actions thrust =>
      have hground (s : ApState) : Runs cfg s (killOnGround cfg s) :=
        Runs.ite ((Runs.op (.setMode _)).trans (Runs.of_eq rfl rfl))
      exact ((runs_navActions actions).trans (hground _)).trans
        (Runs.ite (Runs.op (.checkInFlightNoRc thrust _)))
  | setMode mode => exact Runs.op (.setMode mode)
  | setAuto2 mode => exact Runs.of_eq rfl rfl
  | detectGround hit => exact Runs.ite (Runs.of_eq rfl rfl)

theorem runs_run (events : List ApEvent) : Runs cfg s (run (step cfg) s events) := by
  induction events generalizing s with
  | nil => exact Runs.refl s
  | cons e events ih => exact (runs_step e).trans ih

end

/-- The autopilot as a whole: its flag and its counter agree in every state that it reaches. -/
theorem counter_of_inFlight (cfg : Config) (ahrsRunning rcOk gpsLost : Bool)
    (events : List ApEvent) :
    let s := run (step cfg) (autopilotInit cfg ahrsRunning rcOk gpsLost) events
    (s.autopilotInFlight = true → 0 < s.autopilotInFlightCounter) ∧
      (s.autopilotInFlight = false → s.autopilotInFlightCounter < autopilotInFlightTime) := by
  obtain ⟨hflag, hcounter⟩ := @autopilotInit_grounded cfg ahrsRunning rcOk gpsLost
  obtain ⟨ops, hops⟩ := @runs_run cfg (autopilotInit cfg ahrsRunning rcOk gpsLost) events
  have hcounts := @counts_run _ cfg hflag hcounter ops
  rw [hops] at hcounts
  exact ⟨fun hfly => (hcounts.flying hfly).1, fun hnot => (hcounts.grounded hnot).1⟩

end Paparazzi.Rotorcraft.InFlight
