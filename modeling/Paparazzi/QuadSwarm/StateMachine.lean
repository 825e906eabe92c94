import Paparazzi.QuadSwarm.Airborne

/-!
The state machine of the swarm protocol on board, whatever the autopilot, the
navigation and the estimation do between the calls of the module.
-/

namespace Paparazzi.QuadSwarm.StateMachine

open Paparazzi.Library
open Paparazzi.Math.GeodeticInt
open Paparazzi.Rotorcraft.Arming
open Paparazzi.Rotorcraft.Autopilot
open Paparazzi.Rotorcraft.Navigation
open Paparazzi.QuadSwarm.Airborne

/-- The calls of the module, and what happens between them: the rest of the
firmware leaves the agent with any values in what the module does not own. -/
inductive Event where
  | periodic
  | message (m : SwarmMessage)
  | rest (b : Agent)
  deriving DecidableEq, Repr

def Event.ofModule : Event → Bool
  | .rest _ => false
  | _ => true

/-- The acknowledgement that resets the module. -/
def Event.isReset : Event → Bool
  | .message (.ackForwarded m) => m.ack = 0xfe
  | _ => false

def step (cfg : AgentConfig) (a : Agent) : Event → Agent
  | .periodic => (quadSwarmPeriodic cfg a).1
  | .message m => process cfg m a
  | .rest b =>
      { b with
        quadSwarmState := a.quadSwarmState
        quadSwarmTarget := a.quadSwarmTarget
        quadSwarmInitilized := a.quadSwarmInitilized }

/-- The steps of the machine on board are among them. -/
theorem step_airborne (cfg : AgentConfig) (a : Agent) (e : AgentEvent) :
    ∃ e', Airborne.step cfg a e = step cfg a e' := by
  cases e with
  | periodic => exact ⟨.periodic, rfl⟩
  | message m => exact ⟨.message m, rfl⟩
  | autopilot e =>
      exact ⟨.rest { a with autopilot := Rotorcraft.Autopilot.step cfg.ap a.autopilot e }, rfl⟩
  | gotoBlock position b =>
      exact ⟨.rest { a with nav := navGotoBlock cfg.plan position b a.nav }, rfl⟩

/-- The edges of the protocol, with the block of the flight plan that the landing
states follow. -/
inductive Edge (navBlock : UInt8) : SwarmPhase → SwarmPhase → Prop where
  | negotiate : Edge navBlock .init .negotiateRef
  | negotiated : Edge navBlock .negotiateRef .waitCmd
  | startEngine : Edge navBlock .waitCmd .waitCmdStartEngine
  | takeoff : Edge navBlock .waitCmdStartEngine .waitCmdTakeoff
  | target : Edge navBlock .waitCmdTakeoff .waitExecAck
  | exec : Edge navBlock .waitExecAck .execCmd
  | report : Edge navBlock .execCmd .reportState
  | nextTarget : Edge navBlock .reportState .waitExecAck
  | landHere (p : SwarmPhase) (h : navBlock = 11) : Edge navBlock p .landHere
  | landed (p : SwarmPhase) (h : navBlock = 12) : Edge navBlock p .landed
  | killed (p : SwarmPhase) : Edge navBlock p .killed

/-! ### The periodic task -/

/-- The agent before the `switch` of `quad_swarm_periodic`. -/
def overridden (a : Agent) : Agent :=
  followBlock
    (if a.quadSwarmInitilized = false ∨ a.autopilot.autopilotMode ≠ apModeNav then
      quadSwarmInit a else a)

/-- The position in the report that ends a periodic call. -/
def reportedPos (b : Agent) : EcefCoorI :=
  if b.quadSwarmState = .negotiateRef then b.nedOriginI else b.ecefPosI

theorem quadSwarmPeriodic_eq (cfg : AgentConfig) (a : Agent) :
    quadSwarmPeriodic cfg a =
      ({ overridden a with quadSwarmState := nextPhase (overridden a) },
        (if a.quadSwarmInitilized then []
          else [sendReport cfg a.ecefPosI (quadSwarmInit a)]) ++
        [sendReport cfg (reportedPos (overridden a)) (overridden a)]) := by
  cases hinit : a.quadSwarmInitilized with
  | true =>
      by_cases hmode : a.autopilot.autopilotMode = apModeNav <;>
        simp [quadSwarmPeriodic, overridden, reportedPos, hinit, hmode]
  | false =>
      by_cases hmode : a.autopilot.autopilotMode = apModeNav <;>
        simp [quadSwarmPeriodic, overridden, reportedPos, quadSwarmInit, hinit, hmode]

theorem quadSwarmPeriodic_fst (cfg : AgentConfig) (a : Agent) :
    (quadSwarmPeriodic cfg a).1 =
      { overridden a with quadSwarmState := nextPhase (overridden a) } := by
  rw [quadSwarmPeriodic_eq]

@[simp] theorem overridden_nav (a : Agent) : (overridden a).nav = a.nav := by
  unfold overridden followBlock quadSwarmInit
  split_ifs <;> rfl

/-- The overrides in the order of the source: the block of the flight plan comes last. -/
theorem overridden_state (a : Agent) :
    (overridden a).quadSwarmState =
      if a.nav.navBlock = 11 then .landHere
      else if a.nav.navBlock = 12 then .landed
      else if a.quadSwarmInitilized = false ∨ a.autopilot.autopilotMode ≠ apModeNav then .killed
      else a.quadSwarmState := by
  unfold overridden followBlock quadSwarmInit
  split_ifs <;> rfl

theorem nextPhase_edge (b : Agent) (navBlock : UInt8) :
    nextPhase b = b.quadSwarmState ∨ Edge navBlock b.quadSwarmState (nextPhase b) := by
  unfold nextPhase
  split
  · rename_i hstate
    rw [hstate]
    split_ifs
    · exact Or.inr .negotiate
    · exact Or.inl rfl
  · rename_i hstate
    rw [hstate]
    split_ifs
    · exact Or.inr .startEngine
    · exact Or.inl rfl
  · rename_i hstate
    rw [hstate]
    split_ifs
    · exact Or.inr .takeoff
    · exact Or.inl rfl
  · rename_i hstate
    rw [hstate]
    split_ifs
    · exact Or.inr .report
    · exact Or.inl rfl
  · exact Or.inl rfl

theorem periodic_edge (cfg : AgentConfig) (a : Agent) :
    (quadSwarmPeriodic cfg a).1.quadSwarmState = a.quadSwarmState ∨
      Edge a.nav.navBlock a.quadSwarmState (quadSwarmPeriodic cfg a).1.quadSwarmState := by
  rw [quadSwarmPeriodic_fst]
  have hstate := overridden_state a
  split_ifs at hstate with hland hlanded hkill
  · right
    simp only [nextPhase, hstate]
    exact .landHere _ hland
  · right
    simp only [nextPhase, hstate]
    exact .landed _ hlanded
  · right
    simp only [nextPhase, hstate]
    exact .killed _
  · have hnext := nextPhase_edge (overridden a) a.nav.navBlock
    rwa [hstate] at hnext

/-- After a periodic call outside NAV mode the state is KILLED, or the landing
state of the block; this is the state reported last. -/
theorem periodic_not_nav (cfg : AgentConfig) {a : Agent}
    (hmode : a.autopilot.autopilotMode ≠ apModeNav) :
    (quadSwarmPeriodic cfg a).1.quadSwarmState =
        (if a.nav.navBlock = 11 then .landHere
        else if a.nav.navBlock = 12 then .landed
        else .killed) ∧
      ∃ pos before, (quadSwarmPeriodic cfg a).2 =
        before ++ [sendReport cfg pos (quadSwarmPeriodic cfg a).1] := by
  have hstate := overridden_state a
  rw [if_pos (Or.inr hmode)] at hstate
  have hsame : { overridden a with quadSwarmState := nextPhase (overridden a) } =
      overridden a := by
    have hnext : nextPhase (overridden a) = (overridden a).quadSwarmState := by
      unfold nextPhase
      split_ifs at hstate <;> simp only [hstate]
    rw [hnext]
  rw [quadSwarmPeriodic_eq, hsame]
  exact ⟨hstate, reportedPos (overridden a), _, rfl⟩

/-! ### The messages -/

theorem message_edge (cfg : AgentConfig) (a : Agent) (m : SwarmMessage) :
    (process cfg m a).quadSwarmState = a.quadSwarmState ∨
      Edge a.nav.navBlock a.quadSwarmState (process cfg m a).quadSwarmState ∨
      ((Event.message m).isReset ∧ (process cfg m a).quadSwarmState = .init) := by
  cases m with
  | msg m =>
      simp only [process, quadSwarmDatalink]
      split_ifs with haccept
      · right
        left
        have hphase : a.quadSwarmState = .waitCmdTakeoff ∨ a.quadSwarmState = .reportState := by
          simpa [acceptsTarget] using (Bool.and_eq_true_iff.mp haccept).2
        rcases hphase with hphase | hphase <;> rw [hphase] <;> constructor
      · exact Or.inl rfl
  | ackForwarded m =>
      simp only [process, quadSwarmAckDatalink, Event.isReset, decide_eq_true_eq]
      split_ifs with hkill hreset hnegotiate hexec
      · exact Or.inr (Or.inl (.killed _))
      · exact Or.inr (Or.inr ⟨hreset, rfl⟩)
      · rw [hnegotiate.2]
        exact Or.inr (Or.inl .negotiated)
      · rw [hexec.2]
        exact Or.inr (Or.inl .exec)
      · exact Or.inl rfl

/-! ### The target -/

/-- The agent with the target received since the last execution, which no step reads. -/
structure Tracked where
  agent : Agent
  received : Option EcefCoorI

def track (cfg : AgentConfig) (s : Tracked) (e : Event) : Tracked where
  agent := step cfg s.agent e
  received :=
    match e with
    | .message (.msg m) =>
        if cfg.acId = m.acId ∧ acceptsTarget s.agent.quadSwarmState then some m.tarEcefPos
        else s.received
    | .message (.ackForwarded m) =>
        if m.ack = 0xfd ∧ s.agent.quadSwarmState = .waitExecAck then none else s.received
    | _ => s.received

/-- While the acknowledgement is awaited, the stored target is the one received. -/
def TargetReceived (s : Tracked) : Prop :=
  s.agent.quadSwarmState = .waitExecAck → s.received = some s.agent.quadSwarmTarget

theorem periodic_waitExecAck {cfg : AgentConfig} {a : Agent}
    (h : (quadSwarmPeriodic cfg a).1.quadSwarmState = .waitExecAck) :
    a.quadSwarmState = .waitExecAck ∧
      (quadSwarmPeriodic cfg a).1.quadSwarmTarget = a.quadSwarmTarget := by
  rw [quadSwarmPeriodic_fst] at h ⊢
  have hbefore : (overridden a).quadSwarmState = .waitExecAck := by
    simp only [nextPhase] at h
    cases hstate : (overridden a).quadSwarmState <;> simp only [hstate] at h <;>
      first
      | rfl
      | split_ifs at h
      | exact absurd h (by decide)
  have hstate := overridden_state a
  rw [hbefore] at hstate
  split_ifs at hstate with hland hlanded hkill
  refine ⟨hstate.symm, ?_⟩
  simp only [overridden, if_neg hkill, followBlock, if_neg hland, if_neg hlanded]

theorem targetReceived_step {cfg : AgentConfig} {s : Tracked} (h : TargetReceived s) (e : Event) :
    TargetReceived (track cfg s e) := by
  intro hafter
  cases e with
  | periodic =>
      obtain ⟨hbefore, htarget⟩ := periodic_waitExecAck hafter
      exact (h hbefore).trans (congrArg some htarget.symm)
  | rest b => exact h hafter
  | message m =>
      cases m with
      | msg m =>
          by_cases haccept : cfg.acId = m.acId ∧ acceptsTarget s.agent.quadSwarmState
          · simp [track, step, process, quadSwarmDatalink, haccept]
          · have hsame : process cfg (.msg m) s.agent = s.agent := by
              have hnot : (decide (cfg.acId = m.acId) &&
                  acceptsTarget s.agent.quadSwarmState) = false := by simpa using haccept
              simp [process, quadSwarmDatalink, hnot]
            simp only [track, step, hsame, if_neg haccept] at hafter ⊢
            exact h hafter
      | ackForwarded m =>
          simp only [track, step, process, quadSwarmAckDatalink] at hafter ⊢
          split_ifs at hafter ⊢ with hkill hreset hnegotiate hexec
          all_goals first | exact h hafter | cases hafter

/-! ### What the module writes in the navigation -/

/-- The horizontal coordinates of the target, in the local frame, written to a set point. -/
def moveTo (a : Agent) (target : EcefCoorI) (p : EnuCoorI) : EnuCoorI :=
  { p with
    x := (enuOfEcefPosI a.insLtpDef target).x
    y := (enuOfEcefPosI a.insLtpDef target).y }

/-- The execution of a target: the only edge on which it is written. -/
def Executes (s s' : Tracked) : Prop :=
  s.agent.quadSwarmState = .waitExecAck ∧ s'.agent.quadSwarmState = .execCmd ∧
    ∃ target, s.received = some target ∧
      s'.agent.nav.navigationTarget = moveTo s.agent target s.agent.nav.navigationTarget ∧
      s'.agent.nav.waypoints =
        s.agent.nav.waypoints.modify swarmWpForUse (moveTo s.agent target)

/-- A step leaves the target of the navigation and its waypoints as they are. -/
def KeepsTarget (s s' : Tracked) : Prop :=
  s'.agent.nav.navigationTarget = s.agent.nav.navigationTarget ∧
    s'.agent.nav.waypoints = s.agent.nav.waypoints

theorem module_writes (cfg : AgentConfig) {s : Tracked} (h : TargetReceived s) {e : Event}
    (hmodule : e.ofModule) :
    KeepsTarget s (track cfg s e) ∨ Executes s (track cfg s e) ∨
      (e.isReset ∧ (track cfg s e).agent.nav = navInit cfg.plan s.agent.nav) := by
  cases e with
  | rest b => cases hmodule
  | periodic =>
      left
      simp [KeepsTarget, track, step, quadSwarmPeriodic_fst]
  | message m =>
      cases m with
      | msg m =>
          left
          simp only [KeepsTarget, track, step, process, quadSwarmDatalink]
          split_ifs <;> exact ⟨rfl, rfl⟩
      | ackForwarded m =>
          simp only [KeepsTarget, Executes, Event.isReset, track, step, process,
            quadSwarmAckDatalink]
          split_ifs with hkill hreset hnegotiate hexec
          · exact Or.inl ⟨rfl, rfl⟩
          · exact Or.inr (Or.inr ⟨by simpa using hreset, rfl⟩)
          · exact Or.inl ⟨rfl, rfl⟩
          · exact Or.inr (Or.inl ⟨hexec.2, rfl, s.agent.quadSwarmTarget, h hexec.2, rfl, rfl⟩)
          · exact Or.inl ⟨rfl, rfl⟩

/-! ### Runs -/

/-- The agent after a run, with what it has received. -/
def afterEvents (cfg : AgentConfig) (a : Agent) (events : List Event) : Tracked :=
  Machine.run (track cfg) ⟨a, none⟩ events

theorem targetReceived_afterEvents {cfg : AgentConfig} {a : Agent}
    (ha : a.quadSwarmState ≠ .waitExecAck) (events : List Event) :
    TargetReceived (afterEvents cfg a events) :=
  Machine.run_history (fun _ => TargetReceived)
    (fun _ _ e h => targetReceived_step h e) (fun h => absurd h ha) events

theorem step_edge (cfg : AgentConfig) (a : Agent) (e : Event) :
    (step cfg a e).quadSwarmState = a.quadSwarmState ∨
      Edge a.nav.navBlock a.quadSwarmState (step cfg a e).quadSwarmState ∨
      (e.isReset ∧ (step cfg a e).quadSwarmState = .init) := by
  cases e with
  | periodic =>
      rcases periodic_edge cfg a with hsame | hedge
      · exact Or.inl hsame
      · exact Or.inr (Or.inl hedge)
  | message m => exact message_edge cfg a m
  | rest b => exact Or.inl rfl

/-- In every run of the module: the state changes along the edges of the protocol
or by the reset acknowledgement; the target of the navigation and the waypoints
are written only when a received target is executed, with its conversion, or by
the reset; and a periodic call outside NAV mode ends, and reports last, in KILLED
or in the landing state of the block. -/
theorem swarm_state_machine (cfg : AgentConfig) (a : Agent) (events : List Event) (e : Event)
    (ha : a.quadSwarmState ≠ .waitExecAck) :
    ((track cfg (afterEvents cfg a events) e).agent.quadSwarmState =
          (afterEvents cfg a events).agent.quadSwarmState ∨
        Edge (afterEvents cfg a events).agent.nav.navBlock
          (afterEvents cfg a events).agent.quadSwarmState
          (track cfg (afterEvents cfg a events) e).agent.quadSwarmState ∨
        (e.isReset ∧
          (track cfg (afterEvents cfg a events) e).agent.quadSwarmState = .init)) ∧
      (e.ofModule →
        KeepsTarget (afterEvents cfg a events) (track cfg (afterEvents cfg a events) e) ∨
        Executes (afterEvents cfg a events) (track cfg (afterEvents cfg a events) e) ∨
        (e.isReset ∧ (track cfg (afterEvents cfg a events) e).agent.nav =
          navInit cfg.plan (afterEvents cfg a events).agent.nav)) ∧
      (e = .periodic → (afterEvents cfg a events).agent.autopilot.autopilotMode ≠ apModeNav →
        (track cfg (afterEvents cfg a events) e).agent.quadSwarmState =
            (if (afterEvents cfg a events).agent.nav.navBlock = 11 then .landHere
            else if (afterEvents cfg a events).agent.nav.navBlock = 12 then .landed
            else .killed) ∧
          ∃ pos before, (quadSwarmPeriodic cfg (afterEvents cfg a events).agent).2 =
            before ++ [sendReport cfg pos (track cfg (afterEvents cfg a events) e).agent]) := by
  refine ⟨step_edge cfg _ e, ?_, ?_⟩
  · intro hmodule
    exact module_writes cfg (targetReceived_afterEvents ha events) hmodule
  · rintro rfl hmode
    exact periodic_not_nav cfg hmode

/-! ### A run -/

/-- The booted agent with its autopilot in a mode and its flight plan in a block. -/
def bootedIn (mode : ApMode) (navBlock : UInt8) : Agent :=
  { bootedAgent with
    autopilot := { bootedAgent.autopilot with autopilotMode := mode }
    nav := { bootedAgent.nav with navBlock := navBlock } }

/-- Reset, negotiation, engine start and takeoff, and the first target. -/
def targetEvents : List Event :=
  [.rest (bootedIn apModeNav 2), .message (.ackForwarded ⟨3, 0xfe⟩), .rest (bootedIn apModeNav 2),
    .periodic, .message (.ackForwarded ⟨3, 2⟩), .rest (bootedIn apModeNav 3), .periodic,
    .rest (bootedIn apModeNav 4), .periodic, .message (.msg ⟨3, 0, ⟨100, 200, 300⟩⟩)]

theorem target_executed :
    (afterEvents bootedConfig bootedAgent targetEvents).agent.quadSwarmState = .waitExecAck ∧
      (KeepsTarget (afterEvents bootedConfig bootedAgent targetEvents)
          (track bootedConfig (afterEvents bootedConfig bootedAgent targetEvents)
            (.message (.ackForwarded ⟨3, 0xfd⟩))) ∨
        Executes (afterEvents bootedConfig bootedAgent targetEvents)
          (track bootedConfig (afterEvents bootedConfig bootedAgent targetEvents)
            (.message (.ackForwarded ⟨3, 0xfd⟩)))) := by
  refine ⟨by decide +kernel, ?_⟩
  have hwrites := (swarm_state_machine bootedConfig bootedAgent targetEvents
    (.message (.ackForwarded ⟨3, 0xfd⟩)) (by decide)).2.1 rfl
  rcases hwrites with hkeeps | hexec | ⟨hreset, -⟩
  · exact Or.inl hkeeps
  · exact Or.inr hexec
  · exact absurd hreset (by decide)

/-- The reset changes the state along no edge of the protocol and writes the target
of the navigation and the waypoints; a killed aircraft in a landing block is
reported as landing. -/
theorem reset_and_landing_overrides :
    (¬ ∀ (cfg : AgentConfig) (a : Agent) (events : List Event) (e : Event),
      a.quadSwarmState ≠ .waitExecAck →
      (track cfg (afterEvents cfg a events) e).agent.quadSwarmState =
          (afterEvents cfg a events).agent.quadSwarmState ∨
        Edge (afterEvents cfg a events).agent.nav.navBlock
          (afterEvents cfg a events).agent.quadSwarmState
          (track cfg (afterEvents cfg a events) e).agent.quadSwarmState) ∧
    (¬ ∀ (cfg : AgentConfig) (a : Agent) (events : List Event) (e : Event),
      a.quadSwarmState ≠ .waitExecAck → e.ofModule →
      KeepsTarget (afterEvents cfg a events) (track cfg (afterEvents cfg a events) e) ∨
        Executes (afterEvents cfg a events) (track cfg (afterEvents cfg a events) e)) ∧
    ¬ ∀ (cfg : AgentConfig) (a : Agent) (events : List Event), a.quadSwarmState ≠ .waitExecAck →
      (afterEvents cfg a events).agent.autopilot.autopilotMode ≠ apModeNav →
      (track cfg (afterEvents cfg a events) .periodic).agent.quadSwarmState = .killed := by
  refine ⟨?_, ?_, ?_⟩
  · intro h
    rcases h bootedConfig bootedAgent [] (.message (.ackForwarded ⟨3, 0xfe⟩)) (by decide)
      with hsame | hedge
    · exact absurd hsame (by decide)
    · have hbefore : (afterEvents bootedConfig bootedAgent []).agent.quadSwarmState =
          .killed := by decide
      have hafter : (track bootedConfig (afterEvents bootedConfig bootedAgent [])
          (.message (.ackForwarded ⟨3, 0xfe⟩))).agent.quadSwarmState = .init := by decide
      rw [hbefore, hafter] at hedge
      cases hedge
  · intro h
    let moved : Agent :=
      { bootedAgent with
        nav := { bootedAgent.nav with navigationTarget := ⟨256, 0, 0⟩ } }
    rcases h bootedConfig bootedAgent [.rest moved] (.message (.ackForwarded ⟨3, 0xfe⟩))
      (by decide) rfl with hkeeps | hexec
    · exact absurd hkeeps.1 (by decide)
    · exact absurd hexec.1 (by decide)
  · intro h
    exact absurd (h bootedConfig bootedAgent [.rest (bootedIn apModeKill 11)] (by decide)
      (by decide)) (by decide)

end Paparazzi.QuadSwarm.StateMachine
