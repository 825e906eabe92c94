import Paparazzi.Library.Imperative
import Paparazzi.Multi.Tcas

/-!
The monitoring of the conflicts: when an aircraft is announced as resolved, and what becomes of
the resolves that are stored.
-/

namespace Paparazzi.Multi.TcasMonitoring

open Paparazzi.Library.Machine
open Paparazzi.Library.EntryLoop
open Paparazzi.Multi.TrafficInfo
open Paparazzi.Multi.Tcas

/-! ### What a call should do -/

/-- The slot goes from TA or RA to NO_ALARM. -/
def Ended (a a' : TcasAcStatus) : Prop := a.status ≠ .noAlarm ∧ a'.status = .noAlarm

/-- The aircraft is too close in time or in space. -/
def IsClose (cfg : TcasConfig) (s : TcasState) (env : Env) (i : Nat) : Prop :=
  tau cfg env i < s.tauRa ∨ isInside s env i = true

/-- The call sends the RA of the slot. -/
def Consumed (sent : List (Nat × Downlink)) (i : Nat) : Prop :=
  ∃ id resolve, (i, Downlink.tcasRa id resolve) ∈ sent

/-- A call resolves exactly the conflicts that end, raises the alarms and keeps the resolves that
are stored. -/
structure MonitorsExactly (cfg : TcasConfig) (s : TcasState) (env : Env) (s' : TcasState)
    (sent : List (Nat × Downlink)) : Prop where
  resolved : ∀ i < nbAcs, (i, .tcasResolved (env.traffic.theAcs i).acId) ∈ sent ↔
    Ended (s.acsStatus i) (s'.acsStatus i)
  reset : ∀ i < nbAcs, Ended (s.acsStatus i) (s'.acsStatus i) → (s'.acsStatus i).resolve = .none
  kept : ∀ i < nbAcs, ¬Ended (s.acsStatus i) (s'.acsStatus i) →
    (s'.acsStatus i).resolve = (s.acsStatus i).resolve ∨
      Consumed sent i ∧ (s'.acsStatus i).resolve = .level
  alarm : ∀ i < nbAcs, 2 ≤ i → ¬isLow cfg env → isMonitored cfg env i → IsClose cfg s env i →
    (s.acsStatus i).status ≠ .ra → (s'.acsStatus i).status = .ra

/-! ### Where it fails -/

/-- A TA goes on: the slot is monitored, and neither close nor far. -/
def Lingers (cfg : TcasConfig) (s : TcasState) (env : Env) (i : Nat) : Prop :=
  2 ≤ i ∧ ¬isLow cfg env ∧ isMonitored cfg env i ∧ (s.acsStatus i).status = .ta ∧
    ¬IsClose cfg s env i ∧ tau cfg env i ≤ s.tauTa

/-- An alarm is dropped under the security height, or by the timeout of its data. -/
def Dropped (cfg : TcasConfig) (s : TcasState) (env : Env) (i : Nat) : Prop :=
  (s.acsStatus i).status ≠ .noAlarm ∧
    (isLow cfg env ∨
      2 ≤ i ∧ (env.traffic.theAcs i).acId ≠ 0 ∧ dt env i > 3 * cfg.dtMax)

def CallOk (cfg : TcasConfig) (s : TcasState) (env : Env) : Prop :=
  ∀ i < nbAcs, ¬Lingers cfg s env i ∧ ¬Dropped cfg s env i

/-! ### One slot -/

section

variable {cfg : TcasConfig} {s : TcasState} {env : Env}

/-- A slot that is not in the loop, or whose data are not recent, is left alone. -/
theorem monitorSlot_of_not_monitored {i : Nat} {a : TcasAcStatus}
    (hdropped : ¬((env.traffic.theAcs i).acId ≠ 0 ∧ dt env i > 3 * cfg.dtMax))
    (hmonitored : ¬isMonitored cfg env i) : monitorSlot cfg s env i a = (a, []) := by
  unfold monitorSlot
  by_cases hid : (env.traffic.theAcs i).acId = 0
  · rw [if_pos hid]
  · rw [if_neg hid]
    have hage : ¬dt env i > 3 * cfg.dtMax := fun hage => hdropped ⟨hid, hage⟩
    have hold : dt env i > cfg.dtMax := by
      by_contra hnew
      exact hmonitored ⟨hid, hage, hnew⟩
    rw [if_neg hage, if_pos hold]

theorem monitorSlot_of_monitored {i : Nat} {a : TcasAcStatus} (h : isMonitored cfg env i) :
    monitorSlot cfg s env i a =
      monitorConflict cfg s (tau cfg env i) (isInside s env i) (env.traffic.theAcs i).acId a := by
  unfold monitorSlot
  rw [if_neg h.1, if_neg h.2.1, if_neg h.2.2]

theorem monitorSlot_of_old {i : Nat} {a : TcasAcStatus} (hid : (env.traffic.theAcs i).acId ≠ 0)
    (hold : dt env i > 3 * cfg.dtMax) :
    monitorSlot cfg s env i a = ({ a with status := .noAlarm }, []) := by
  unfold monitorSlot
  rw [if_neg hid, if_pos hold]

/-- What the `switch` does, but for a TA that goes on. -/
theorem monitorConflict_exact {t : ℚ} {inside : Bool} {acId : UInt8} {a : TcasAcStatus}
    (hlinger : ¬(a.status = .ta ∧ ¬(t < s.tauRa ∨ inside = true) ∧ t ≤ s.tauTa)) :
    (.tcasResolved acId ∈ (monitorConflict cfg s t inside acId a).2 ↔
        Ended a (monitorConflict cfg s t inside acId a).1) ∧
      (Ended a (monitorConflict cfg s t inside acId a).1 →
        (monitorConflict cfg s t inside acId a).1.resolve = .none) ∧
      (¬Ended a (monitorConflict cfg s t inside acId a).1 →
        (monitorConflict cfg s t inside acId a).1.resolve = a.resolve) := by
  unfold monitorConflict Ended
  cases hstatus : a.status with
  | ra =>
      dsimp only
      split_ifs <;> simp [hstatus]
  | ta =>
      dsimp only
      by_cases hclose : t < s.tauRa ∨ inside = true
      · simp [if_pos hclose]
      · have hfar : t > s.tauTa := by
          by_contra hnear
          exact hlinger ⟨hstatus, hclose, not_lt.1 hnear⟩
        have hinside : inside = false := by
          simpa using fun h => hclose (Or.inr h)
        rw [if_neg hclose, if_pos ⟨hfar, hinside⟩]
        simp
  | noAlarm =>
      dsimp only
      split_ifs <;> simp

theorem monitorConflict_lingers {t : ℚ} {inside : Bool} {acId : UInt8} {a : TcasAcStatus}
    (hstatus : a.status = .ta) (hclose : ¬(t < s.tauRa ∨ inside = true)) (hnear : t ≤ s.tauTa) :
    monitorConflict cfg s t inside acId a = ({ a with resolve := .none }, [.tcasResolved acId]) := by
  obtain ⟨status, resolve⟩ := a
  obtain rfl : status = .ta := hstatus
  unfold monitorConflict
  dsimp only
  rw [if_neg hclose, if_neg fun h => absurd h.1 (not_lt.2 hnear)]

theorem monitorConflict_close {t : ℚ} {inside : Bool} {acId : UInt8} {a : TcasAcStatus}
    (hclose : t < s.tauRa ∨ inside = true) (hstatus : a.status ≠ .ra) :
    (monitorConflict cfg s t inside acId a).1.status = .ra := by
  unfold monitorConflict
  cases hs : a.status with
  | ra => exact absurd hs hstatus
  | ta => simp only [if_pos hclose]
  | noAlarm =>
      dsimp only
      rw [if_pos hclose]

/-! ### The loop -/

/-- The status of a slot and the messages sent for it. -/
def entry (l : Loop) (i : Nat) : TcasAcStatus × List Downlink :=
  (l.acsStatus i, (l.sent.filter fun message => message.1 = i).map Prod.snd)

def monitorEntry (cfg : TcasConfig) (s : TcasState) (env : Env) (i : Nat)
    (e : TcasAcStatus × List Downlink) : TcasAcStatus × List Downlink :=
  ((monitorSlot cfg s env i e.1).1, e.2 ++ (monitorSlot cfg s env i e.1).2)

theorem entry_monitor_self (l : Loop) (i : Nat) :
    entry (monitor cfg s env l i) i = monitorEntry cfg s env i (entry l i) := by
  simp [entry, monitor, monitorEntry, List.filter_append, List.filter_map, Function.comp_def]

theorem entry_monitor_of_ne (l : Loop) (i j : Nat) (hne : j ≠ i) :
    entry (monitor cfg s env l i) j = entry l j := by
  simp [entry, monitor, List.filter_append, List.filter_map, Function.comp_def,
    Function.update_of_ne hne, hne.symm]

theorem mem_slots {i : Nat} : i ∈ slots ↔ 2 ≤ i ∧ i < nbAcs := by
  simp [slots, nbAcs, List.mem_range'_1]

theorem entry_monitorAll {i : Nat} (hi : i ∈ slots) :
    entry (monitorAll cfg s env) i = monitorSlot cfg s env i (s.acsStatus i) := by
  have h := @foldl_of_mem _ _ _ entry (monitor cfg s env) (monitorEntry cfg s env)
    entry_monitor_self entry_monitor_of_ne slots List.nodup_range' i hi
    { acsStatus := s.acsStatus, tauMin := s.tauTa, acIdClose := cfg.acId, sent := [] }
  exact h.trans (by simp [monitorEntry, entry])

theorem entry_monitorAll_of_not_mem {i : Nat} (hi : i ∉ slots) :
    entry (monitorAll cfg s env) i = (s.acsStatus i, []) :=
  @foldl_of_not_mem _ _ _ entry (monitor cfg s env) entry_monitor_of_ne slots i hi _

theorem mem_sent_iff {l : Loop} {i : Nat} {message : Downlink} :
    (i, message) ∈ l.sent ↔ message ∈ (entry l i).2 := by
  simp [entry]

/-- A call above the security height does to the slots what the loop does, and consumes one
resolve at most. -/
theorem periodic_of_not_low (hlow : ¬isLow cfg env) (i : Nat) :
    ((tcasPeriodicTask1Hz cfg s env).1.acsStatus i).status =
        ((monitorAll cfg s env).acsStatus i).status ∧
      (∀ acId, (i, .tcasResolved acId) ∈ (tcasPeriodicTask1Hz cfg s env).2 ↔
        (i, .tcasResolved acId) ∈ (monitorAll cfg s env).sent) ∧
      (((tcasPeriodicTask1Hz cfg s env).1.acsStatus i).resolve =
          ((monitorAll cfg s env).acsStatus i).resolve ∨
        Consumed (tcasPeriodicTask1Hz cfg s env).2 i ∧
          ((monitorAll cfg s env).acsStatus i).status = .ra ∧
          ((tcasPeriodicTask1Hz cfg s env).1.acsStatus i).resolve = .level) := by
  unfold tcasPeriodicTask1Hz
  rw [if_neg hlow]
  dsimp only
  generalize hslot : env.traffic.theAcsId (conflictWith cfg s env (monitorAll cfg s env)) = slot
  split_ifs with hra
  · by_cases hi : i = slot
    · subst hi
      refine ⟨by simp, by simp, ?_⟩
      by_cases hnone : ((monitorAll cfg s env).acsStatus i).resolve = .none
      · exact Or.inl (by simp [resolveConflict, hnone])
      · exact Or.inr ⟨⟨_, _, List.mem_append_right _ (List.mem_singleton.2 rfl)⟩, hra,
          by simp [resolveConflict, hnone]⟩
    · simp [Function.update_of_ne hi]
  · simp

/-- The loop does the right thing to a slot but for the two kinds of failures. -/
theorem monitorAll_exact (hlow : ¬isLow cfg env) {i : Nat} (hlingers : ¬Lingers cfg s env i)
    (hdropped : ¬Dropped cfg s env i) (acId : UInt8)
    (hacId : acId = (env.traffic.theAcs i).acId) :
    (.tcasResolved acId ∈ (entry (monitorAll cfg s env) i).2 ↔
        Ended (s.acsStatus i) ((monitorAll cfg s env).acsStatus i)) ∧
      (Ended (s.acsStatus i) ((monitorAll cfg s env).acsStatus i) →
        ((monitorAll cfg s env).acsStatus i).resolve = .none) ∧
      (¬Ended (s.acsStatus i) ((monitorAll cfg s env).acsStatus i) →
        ((monitorAll cfg s env).acsStatus i).resolve = (s.acsStatus i).resolve) := by
  subst hacId
  rw [show (monitorAll cfg s env).acsStatus i = (entry (monitorAll cfg s env) i).1 from rfl]
  have hsame : ¬Ended (s.acsStatus i) (s.acsStatus i) := fun h => h.1 h.2
  by_cases hslot : i ∈ slots
  · rw [entry_monitorAll hslot]
    have htwo : 2 ≤ i := (mem_slots.1 hslot).1
    by_cases hmonitored : isMonitored cfg env i
    · rw [monitorSlot_of_monitored hmonitored]
      apply monitorConflict_exact
      rintro ⟨hta, hclose, hnear⟩
      exact hlingers ⟨htwo, hlow, hmonitored, hta, hclose, hnear⟩
    · by_cases hold : (env.traffic.theAcs i).acId ≠ 0 ∧ dt env i > 3 * cfg.dtMax
      · rw [monitorSlot_of_old hold.1 hold.2]
        have hstatus : (s.acsStatus i).status = .noAlarm := by
          by_contra hne
          exact hdropped ⟨hne, Or.inr ⟨htwo, hold⟩⟩
        simp [Ended, hstatus]
      · rw [monitorSlot_of_not_monitored hold hmonitored]
        simp [hsame]
  · rw [entry_monitorAll_of_not_mem hslot]
    simp [hsame]

/-- Under the security height the call lowers every slot and sends nothing. -/
theorem periodic_of_low (hlow : isLow cfg env) :
    tcasPeriodicTask1Hz cfg s env =
      ({ s with
          acsStatus := fun i =>
            if i < nbAcs then { s.acsStatus i with status := .noAlarm } else s.acsStatus i },
        []) := by
  unfold tcasPeriodicTask1Hz
  rw [if_pos hlow]

theorem monitorsExactly_iff_of_low (hlow : isLow cfg env) :
    MonitorsExactly cfg s env (tcasPeriodicTask1Hz cfg s env).1 (tcasPeriodicTask1Hz cfg s env).2 ↔
      CallOk cfg s env := by
  rw [periodic_of_low hlow]
  constructor
  · intro h i hi
    refine ⟨fun hlingers => hlingers.2.1 hlow, fun hdropped => ?_⟩
    exact absurd ((h.resolved i hi).2 ⟨hdropped.1, by simp [hi]⟩) List.not_mem_nil
  · intro hok
    have hended : ∀ i < nbAcs, ¬Ended (s.acsStatus i) { s.acsStatus i with status := .noAlarm } :=
      fun i hi h => (hok i hi).2 ⟨h.1, Or.inl hlow⟩
    refine ⟨?_, ?_, ?_, ?_⟩
    · intro i hi
      simp [hi, hended i hi]
    · intro i hi h
      simp only [hi, if_true] at h
      exact absurd h (hended i hi)
    · intro i hi _
      simp [hi]
    · intro i _ _ hhigh
      exact absurd hlow hhigh

/-- A TA that goes on is announced as resolved. -/
theorem entry_of_lingers {i : Nat} (hi : i < nbAcs) (hlingers : Lingers cfg s env i) :
    entry (monitorAll cfg s env) i =
      ({ s.acsStatus i with resolve := .none },
        [.tcasResolved (env.traffic.theAcs i).acId]) := by
  obtain ⟨htwo, -, hmonitored, hta, hclose, hnear⟩ := hlingers
  rw [entry_monitorAll (mem_slots.2 ⟨htwo, hi⟩), monitorSlot_of_monitored hmonitored]
  exact monitorConflict_lingers hta hclose hnear

/-- A slot whose data are too old is lowered without a word. -/
theorem entry_of_old {i : Nat} (htwo : 2 ≤ i) (hi : i < nbAcs)
    (hid : (env.traffic.theAcs i).acId ≠ 0) (hold : dt env i > 3 * cfg.dtMax) :
    entry (monitorAll cfg s env) i = ({ s.acsStatus i with status := .noAlarm }, []) := by
  rw [entry_monitorAll (mem_slots.2 ⟨htwo, hi⟩)]
  exact monitorSlot_of_old hid hold

theorem callOk_of_monitorsExactly (hhigh : ¬isLow cfg env)
    (h : MonitorsExactly cfg s env (tcasPeriodicTask1Hz cfg s env).1
      (tcasPeriodicTask1Hz cfg s env).2) : CallOk cfg s env := by
  intro i hi
  have hresolved := h.resolved i hi
  obtain ⟨hstatus, hsent, -⟩ := @periodic_of_not_low cfg s env hhigh i
  rw [hsent, mem_sent_iff, Ended, hstatus] at hresolved
  constructor
  · intro hlingers
    have hentry := entry_of_lingers hi hlingers
    have hended := (hresolved.1 (by simp [hentry])).2
    rw [show (monitorAll cfg s env).acsStatus i = _ from congrArg Prod.fst hentry] at hended
    cases hlingers.2.2.2.1.symm.trans hended
  · rintro ⟨hne, hlow | ⟨htwo, hid, hold⟩⟩
    · exact hhigh hlow
    · have hentry := @entry_of_old cfg s env i htwo hi hid hold
      have hended : ((monitorAll cfg s env).acsStatus i).status = .noAlarm := by
        rw [show (monitorAll cfg s env).acsStatus i = _ from congrArg Prod.fst hentry]
      have hmem := hresolved.2 ⟨hne, hended⟩
      rw [hentry] at hmem
      exact List.not_mem_nil hmem

theorem ended_periodic_iff (hhigh : ¬isLow cfg env) (i : Nat) :
    Ended (s.acsStatus i) ((tcasPeriodicTask1Hz cfg s env).1.acsStatus i) ↔
      Ended (s.acsStatus i) ((monitorAll cfg s env).acsStatus i) := by
  rw [Ended, Ended, (periodic_of_not_low hhigh i).1]

theorem monitorsExactly_of_callOk (hhigh : ¬isLow cfg env) (hok : CallOk cfg s env) :
    MonitorsExactly cfg s env (tcasPeriodicTask1Hz cfg s env).1
      (tcasPeriodicTask1Hz cfg s env).2 := by
  refine ⟨?_, ?_, ?_, ?_⟩
  · intro i hi
    obtain ⟨hmem, -, -⟩ :=
      monitorAll_exact hhigh (hok i hi).1 (hok i hi).2 (env.traffic.theAcs i).acId rfl
    rw [(periodic_of_not_low hhigh i).2.1, mem_sent_iff, hmem, ended_periodic_iff hhigh]
  · intro i hi hended
    rw [ended_periodic_iff hhigh] at hended
    obtain ⟨-, hreset, -⟩ := monitorAll_exact hhigh (hok i hi).1 (hok i hi).2 _ rfl
    rcases (@periodic_of_not_low cfg s env hhigh i).2.2 with hsame | ⟨-, hra, -⟩
    · rw [hsame]
      exact hreset hended
    · cases hra.symm.trans hended.2
  · intro i hi hended
    rw [ended_periodic_iff hhigh] at hended
    obtain ⟨-, -, hkept⟩ := monitorAll_exact hhigh (hok i hi).1 (hok i hi).2 _ rfl
    rcases (@periodic_of_not_low cfg s env hhigh i).2.2 with hsame | ⟨hconsumed, -, hlevel⟩
    · exact Or.inl (hsame.trans (hkept hended))
    · exact Or.inr ⟨hconsumed, hlevel⟩
  · intro i hi htwo _ hmonitored hclose hne
    have hentry := @entry_monitorAll cfg s env i (mem_slots.2 ⟨htwo, hi⟩)
    rw [monitorSlot_of_monitored hmonitored] at hentry
    rw [(periodic_of_not_low hhigh i).1,
      show (monitorAll cfg s env).acsStatus i = _ from congrArg Prod.fst hentry]
    exact monitorConflict_close hclose hne

/-- A call does what it should exactly where no slot lingers in TA and no alarm is dropped. -/
theorem monitorsExactly_iff :
    MonitorsExactly cfg s env (tcasPeriodicTask1Hz cfg s env).1 (tcasPeriodicTask1Hz cfg s env).2 ↔
      CallOk cfg s env := by
  by_cases hlow : isLow cfg env
  · exact monitorsExactly_iff_of_low hlow
  · exact ⟨callOk_of_monitorsExactly hlow, monitorsExactly_of_callOk hlow⟩

end

/-! ### Runs -/

/-- The event is a call that does what it should. -/
def EventExact (cfg : TcasConfig) (s : TcasState) : TcasEvent → Prop
  | .periodic1Hz env =>
      MonitorsExactly cfg s env (tcasPeriodicTask1Hz cfg s env).1 (tcasPeriodicTask1Hz cfg s env).2
  | _ => True

def EventOk (cfg : TcasConfig) (s : TcasState) : TcasEvent → Prop
  | .periodic1Hz env => CallOk cfg s env
  | _ => True

/-- The calls of a run from `tcas_init` resolve exactly the conflicts that end, raise the alarms
and keep the stored resolves, exactly where in none of them a slot lingers in TA or an alarm is
dropped. -/
theorem tcas_monitoring (cfg : TcasConfig) (es : List TcasEvent) :
    RunOk (step cfg) (EventExact cfg) (tcasInit cfg) es ↔
      RunOk (step cfg) (EventOk cfg) (tcasInit cfg) es := by
  apply runOk_congr
  intro s e
  cases e with
  | periodic1Hz env => exact monitorsExactly_iff
  | periodic4Hz env navAltitude => exact Iff.rfl
  | resolve acId acIdConflict resolve traffic => exact Iff.rfl
  | settings tauTa tauRa dmod alim => exact Iff.rfl

/-! ### A TA that goes on -/

/-- Aircraft 1, with a carrot of 5 seconds. -/
def carrotConfig : TcasConfig where
  acId := 1
  groundAlt := 0
  securityHeight := 50
  tauTa := 10
  tauRa := 5
  sinf := fun _ => 1
  cosf := fun _ => 0

/-- Aircraft 2 is `distance` metres ahead at the same altitude and stands still. -/
def ahead (distance : ℚ) : Env where
  x := 0
  y := 0
  z := 100
  horizontalSpeedNorm := 10
  horizontalSpeedDir := 0
  speedUp := 0
  tow := 0
  traffic :=
    setAcInfo 2
      { utmX := distance, utmY := 0, course := 0, alt := 100, gspeed := 0, climb := 0, itow := 0,
        navUtmEast0 := 0, navUtmNorth0 := 0 } (start 1)

/-- Nine seconds ahead, then eight: still a TA, but it is announced as resolved, and the resolve
that was received meanwhile is gone. -/
theorem resolved_in_ta :
    (run (step carrotConfig) (tcasInit carrotConfig)
        [.periodic1Hz (ahead 90), .resolve 1 2 .climb (ahead 90).traffic]).acsStatus 2 =
      { status := .ta, resolve := .climb } ∧
    ((tcasPeriodicTask1Hz carrotConfig
        (run (step carrotConfig) (tcasInit carrotConfig)
          [.periodic1Hz (ahead 90), .resolve 1 2 .climb (ahead 90).traffic]) (ahead 80)).1.acsStatus 2 =
        { status := .ta, resolve := .none } ∧
      (tcasPeriodicTask1Hz carrotConfig
        (run (step carrotConfig) (tcasInit carrotConfig)
          [.periodic1Hz (ahead 90), .resolve 1 2 .climb (ahead 90).traffic]) (ahead 80)).2 =
        [(2, .tcasResolved 2)]) := by
  decide +kernel

end Paparazzi.Multi.TcasMonitoring
