import Paparazzi.Rotorcraft.Autopilot
import Paparazzi.Rotorcraft.Navigation

/-!
The `quad_swarm` module on board: the agent's state machine, its periodic task,
and the handlers of the two datalink messages of the ground station. The
messages are decoded; the periodic task and the handlers return what they send.
-/

namespace Paparazzi.QuadSwarm.Airborne

open Paparazzi.Library.Machine
open Paparazzi.Math.GeodeticInt
open Paparazzi.Rotorcraft.Arming
open Paparazzi.Rotorcraft.Autopilot
open Paparazzi.Rotorcraft.Navigation

/-- The values of `quad_swarm_state`. -/
inductive SwarmPhase where
  | init | negotiateRef | waitCmd | waitCmdStartEngine | waitCmdTakeoff | waitExecAck
  | execCmd | reportState | landHere | landed | killed
  deriving DecidableEq, Repr

/-- What is fixed for an aircraft: its id, which `quad_swarm_id` always equals,
the autopilot's configuration and the flight plan with the waypoint
`SWARM_WP_FOR_USE`. -/
structure AgentConfig where
  acId : UInt8
  ap : Config
  plan : FlightPlan
  swarmWp_lt : 2 < plan.nbWaypoint

def swarmWpForUse : Nat := 2

structure Agent where
  quadSwarmState : SwarmPhase
  quadSwarmTarget : EcefCoorI
  quadSwarmInitilized : Bool
  autopilot : ApState
  nav : NavState
  insLtpDef : LtpDefI
  /-- `state.ned_origin_i.ecef`. -/
  nedOriginI : EcefCoorI
  /-- The position that `stateGetPositionEcef_i` returns. -/
  ecefPosI : EcefCoorI
  gpsPacc : UInt32
  deriving DecidableEq, Repr

/-- `quad_swarm_msg`. -/
structure SwarmMsg where
  acId : UInt8
  dummy : UInt8
  tarEcefPos : EcefCoorI
  deriving DecidableEq, Repr

/-- `quad_swarm_ack_forwarded`. -/
structure AckForwarded where
  acId : UInt8
  ack : UInt8
  deriving DecidableEq, Repr

/-- `quad_swarm_report`. -/
structure Report where
  acId : UInt8
  pos : EcefCoorI
  state : SwarmPhase
  apMode : ApMode
  pacc : UInt32
  deriving DecidableEq, Repr

inductive Downlink where
  | report (r : Report)
  | dlValue (acId ack : UInt8)
  deriving DecidableEq, Repr

section

variable (cfg : AgentConfig)

def quadSwarmInit (a : Agent) : Agent :=
  { a with
    quadSwarmState := .killed
    quadSwarmTarget := { x := 0, y := 0, z := 0 }
    quadSwarmInitilized := true }

def sendReport (pos : EcefCoorI) (a : Agent) : Downlink :=
  .report
    { acId := cfg.acId
      pos := pos
      state := a.quadSwarmState
      apMode := a.autopilot.autopilotMode
      pacc := a.gpsPacc }

/-! ### Periodic task -/

/-- The first half of `quad_swarm_periodic`: initialisation, and the states that
follow from the block of the flight plan. -/
def followBlock (a : Agent) : Agent :=
  if a.nav.navBlock = 11 then { a with quadSwarmState := .landHere }
  else if a.nav.navBlock = 12 then { a with quadSwarmState := .landed }
  else a

def quadSwarmReachTar : Bool := true

/-- The state after the `switch` of `quad_swarm_periodic`. -/
def nextPhase (a : Agent) : SwarmPhase :=
  match a.quadSwarmState with
  | .init =>
      if a.nav.navBlock = 2 ∧ a.autopilot.autopilotMode = apModeNav then .negotiateRef else .init
  | .waitCmd => if a.nav.navBlock = 3 then .waitCmdStartEngine else .waitCmd
  | .waitCmdStartEngine =>
      if a.nav.navBlock = 4 then .waitCmdTakeoff else .waitCmdStartEngine
  | .execCmd => if quadSwarmReachTar then .reportState else .execCmd
  | phase => phase

def quadSwarmPeriodic (a : Agent) : Agent × List Downlink :=
  let (a, first) :=
    if !a.quadSwarmInitilized then
      let a := quadSwarmInit a
      (a, [sendReport cfg a.ecefPosI a])
    else (a, [])
  let a := if a.autopilot.autopilotMode ≠ apModeNav then quadSwarmInit a else a
  let a := followBlock a
  -- while the reference is negotiated the origin of the local frame is reported
  let pos := if a.quadSwarmState = .negotiateRef then a.nedOriginI else a.ecefPosI
  ({ a with quadSwarmState := nextPhase a }, first ++ [sendReport cfg pos a])

/-! ### Datalink -/

/-- `quad_swarm_target_to_waypoint`; the height references are kept. -/
def quadSwarmTargetToWaypoint (a : Agent) : Agent :=
  let tmp := enuOfEcefPosI a.insLtpDef a.quadSwarmTarget
  { a with
    nav :=
      { a.nav with
        navigationTarget := { a.nav.navigationTarget with x := tmp.x, y := tmp.y }
        waypoints := a.nav.waypoints.modify swarmWpForUse
          fun wp => { wp with x := tmp.x, y := tmp.y } } }

/-- The states in which a target is accepted. -/
def acceptsTarget (phase : SwarmPhase) : Bool :=
  phase = .waitCmdTakeoff || phase = .reportState

def quadSwarmDatalink (m : SwarmMsg) (a : Agent) : Agent :=
  if cfg.acId = m.acId && acceptsTarget a.quadSwarmState then
    { a with quadSwarmTarget := m.tarEcefPos, quadSwarmState := .waitExecAck }
  else a

def quadSwarmAckDatalink (m : AckForwarded) (a : Agent) : Agent × List Downlink :=
  let sent := [Downlink.dlValue m.acId m.ack]
  if m.ack = 0xff then
    ({ a with
        autopilot := autopilotSetMode cfg.ap apModeKill a.autopilot
        quadSwarmState := .killed }, sent)
  else if m.ack = 0xfe then
    ({ a with
        autopilot := autopilotSetMode cfg.ap apModeNav a.autopilot
        quadSwarmState := .init
        nav := navInit cfg.plan a.nav }, sent)
  else if m.ack = 2 ∧ a.quadSwarmState = .negotiateRef then
    ({ a with quadSwarmState := .waitCmd }, sent)
  else if m.ack = 0xfd ∧ a.quadSwarmState = .waitExecAck then
    (quadSwarmTargetToWaypoint { a with quadSwarmState := .execCmd }, sent)
  else (a, sent)

inductive SwarmMessage where
  | msg (m : SwarmMsg)
  | ackForwarded (m : AckForwarded)
  deriving DecidableEq, Repr

def SwarmMessage.acId : SwarmMessage → UInt8
  | .msg m => m.acId
  | .ackForwarded m => m.acId

def process : SwarmMessage → Agent → Agent
  | .msg m, a => quadSwarmDatalink cfg m a
  | .ackForwarded m, a => (quadSwarmAckDatalink cfg m a).1

/-! ### The machine -/

inductive AgentEvent where
  | periodic
  | message (m : SwarmMessage)
  | autopilot (e : ApEvent)
  | gotoBlock (position : EnuCoorI) (b : UInt8)
  deriving DecidableEq, Repr

def step (a : Agent) : AgentEvent → Agent
  | .periodic => (quadSwarmPeriodic cfg a).1
  | .message m => process cfg m a
  | .autopilot e => { a with autopilot := Rotorcraft.Autopilot.step cfg.ap a.autopilot e }
  | .gotoBlock position b => { a with nav := navGotoBlock cfg.plan position b a.nav }

end

/-! ### Addressing -/

/-- The state that a message for another aircraft must not touch. -/
structure SameControls (a b : Agent) : Prop where
  quadSwarmState : a.quadSwarmState = b.quadSwarmState
  autopilotMode : a.autopilot.autopilotMode = b.autopilot.autopilotMode
  motorsOn : a.autopilot.autopilotMotorsOn = b.autopilot.autopilotMotorsOn
  killThrottle : a.autopilot.killThrottle = b.autopilot.killThrottle
  navBlock : a.nav.navBlock = b.nav.navBlock
  quadSwarmTarget : a.quadSwarmTarget = b.quadSwarmTarget
  navigationTarget : a.nav.navigationTarget = b.nav.navigationTarget
  waypoints : a.nav.waypoints = b.nav.waypoints

theorem SameControls.refl (a : Agent) : SameControls a a :=
  ⟨rfl, rfl, rfl, rfl, rfl, rfl, rfl, rfl⟩

section

variable {cfg : AgentConfig}

/-- A message for another aircraft is harmless when it is a target, or an
acknowledgement whose effect the agent already shows or does not take in its
state. -/
def Harmless (cfg : AgentConfig) (a : Agent) : SwarmMessage → Prop
  | .msg _ => True
  | .ackForwarded m =>
      if m.ack = 0xff then
        a.autopilot.autopilotMode = apModeKill ∧ a.quadSwarmState = .killed
      else if m.ack = 0xfe then
        a.autopilot.autopilotMode = forcedMode cfg.ap apModeNav a.autopilot ∧
          a.quadSwarmState = .init ∧ a.nav.navBlock = 0 ∧
          a.nav.navigationTarget = cfg.plan.home ∧ a.nav.waypoints = cfg.plan.waypoints
      else if m.ack = 2 then a.quadSwarmState ≠ .negotiateRef
      else if m.ack = 0xfd then a.quadSwarmState ≠ .waitExecAck
      else True

theorem forcedMode_kill (cfg : Config) (s : ApState) :
    forcedMode cfg apModeKill s = apModeKill := by
  simp [forcedMode]

theorem sameControls_kill (a : Agent) (m : AckForwarded) (hack : m.ack = 0xff) :
    SameControls (quadSwarmAckDatalink cfg m a).1 a ↔
      a.autopilot.autopilotMode = apModeKill ∧ a.quadSwarmState = .killed := by
  simp only [quadSwarmAckDatalink, hack, if_true]
  constructor
  · intro h
    refine ⟨?_, h.quadSwarmState.symm⟩
    rw [← h.autopilotMode, setMode_mode, forcedMode_kill]
  · rintro ⟨hmode, hstate⟩
    have hsame : autopilotSetMode cfg.ap apModeKill a.autopilot = a.autopilot :=
      setMode_of_eq (by rw [forcedMode_kill, hmode])
    rw [hsame]
    exact ⟨hstate.symm, rfl, rfl, rfl, rfl, rfl, rfl, rfl⟩

theorem sameControls_init (a : Agent) (m : AckForwarded) (hack : m.ack = 0xfe) :
    SameControls (quadSwarmAckDatalink cfg m a).1 a ↔
      a.autopilot.autopilotMode = forcedMode cfg.ap apModeNav a.autopilot ∧
        a.quadSwarmState = .init ∧ a.nav.navBlock = 0 ∧
        a.nav.navigationTarget = cfg.plan.home ∧ a.nav.waypoints = cfg.plan.waypoints := by
  simp only [quadSwarmAckDatalink, hack, if_true, show (0xfe : UInt8) ≠ 0xff by decide, if_false]
  constructor
  · intro h
    refine ⟨?_, h.quadSwarmState.symm, h.navBlock.symm, h.navigationTarget.symm,
      h.waypoints.symm⟩
    rw [← h.autopilotMode, setMode_mode]
  · rintro ⟨hmode, hstate, hblock, htarget, hwaypoints⟩
    have hsame : autopilotSetMode cfg.ap apModeNav a.autopilot = a.autopilot :=
      setMode_of_eq hmode.symm
    rw [hsame]
    exact ⟨hstate.symm, rfl, rfl, rfl, hblock.symm, rfl, htarget.symm, hwaypoints.symm⟩

/-- A message for another aircraft leaves the controls as they are exactly when
it is harmless: the handler of acknowledgements does not look at the address. -/
theorem foreign_message_iff (cfg : AgentConfig) (a : Agent) (m : SwarmMessage)
    (hforeign : m.acId ≠ cfg.acId) :
    SameControls (process cfg m a) a ↔ Harmless cfg a m := by
  cases m with
  | msg m =>
      have hne : cfg.acId ≠ m.acId := fun h => hforeign h.symm
      simp only [process, quadSwarmDatalink, hne, decide_false, Bool.false_and,
        Bool.false_eq_true, if_false, Harmless]
      exact iff_of_true (SameControls.refl a) trivial
  | ackForwarded m =>
      change SameControls (quadSwarmAckDatalink cfg m a).1 a ↔ _
      simp only [Harmless]
      split_ifs with hkill hinit hnegotiate hexec
      · exact sameControls_kill a m hkill
      · exact sameControls_init a m hinit
      · by_cases hstate : a.quadSwarmState = .negotiateRef
        · refine iff_of_false ?_ (not_not_intro hstate)
          intro h
          have hwait := h.quadSwarmState
          simp [quadSwarmAckDatalink, hnegotiate, hstate] at hwait
        · refine iff_of_true ?_ hstate
          simpa [quadSwarmAckDatalink, hnegotiate, hstate] using SameControls.refl a
      · by_cases hstate : a.quadSwarmState = .waitExecAck
        · refine iff_of_false ?_ (not_not_intro hstate)
          intro h
          have hwait := h.quadSwarmState
          simp [quadSwarmAckDatalink, quadSwarmTargetToWaypoint, hexec, hstate] at hwait
        · refine iff_of_true ?_ hstate
          simpa [quadSwarmAckDatalink, hexec, hstate] using SameControls.refl a
      · refine iff_of_true ?_ trivial
        simpa [quadSwarmAckDatalink, hkill, hinit, hnegotiate, hexec] using SameControls.refl a

end

/-- An agent of aircraft 3 after start-up, with the autopilot in KILL. -/
def bootedConfig : AgentConfig where
  acId := 3
  ap := {}
  plan :=
    { waypoints := [⟨0, 0, 0⟩, ⟨0, 0, 0⟩, ⟨256, 256, 512⟩]
      wpHome := 1
      nbBlock := 13
      groundAlt := 0
      securityHeight := 0
      wpHome_lt := by decide }
  swarmWp_lt := by decide

def bootedAgent : Agent :=
  quadSwarmInit
    { quadSwarmState := .init
      quadSwarmTarget := ⟨0, 0, 0⟩
      quadSwarmInitilized := false
      autopilot := autopilotInit bootedConfig.ap false true false
      nav :=
        navInit bootedConfig.plan
          { navBlock := 0, navStage := 0, lastBlock := 0, lastStage := 0, blockTime := 0,
            stageTime := 0, waypoints := [], navigationTarget := ⟨0, 0, 0⟩,
            navigationCarrot := ⟨0, 0, 0⟩, navLastPoint := ⟨0, 0, 0⟩, groundAlt := 0,
            navAltitude := 0, navFlightAltitude := 0, horizontalMode := .waypoint,
            verticalMode := .alt, navCircleRadians := 0 }
      insLtpDef := ⟨⟨0, 0, 0⟩, ⟨0, 0, 0⟩, ⟨0, 0, 0, 0, 0, 0, 0, 0, 0⟩, 0⟩
      nedOriginI := ⟨0, 0, 0⟩
      ecefPosI := ⟨0, 0, 0⟩
      gpsPacc := 0 }

theorem foreign_message_iff_booted :
    SameControls (process bootedConfig (.msg ⟨4, 0, ⟨1, 2, 3⟩⟩) bootedAgent) bootedAgent ↔
      Harmless bootedConfig bootedAgent (.msg ⟨4, 0, ⟨1, 2, 3⟩⟩) :=
  foreign_message_iff bootedConfig bootedAgent (.msg ⟨4, 0, ⟨1, 2, 3⟩⟩) (by decide)

/-- Aircraft 3, initialised by its own acknowledgement and negotiating the
reference, goes on at an acknowledgement for aircraft 4. -/
theorem foreign_ack_taken :
    ¬ SameControls
      (run (step bootedConfig) bootedAgent
        [.autopilot (.ahrs true), .message (.ackForwarded ⟨3, 0xfe⟩), .gotoBlock ⟨0, 0, 0⟩ 2,
          .periodic, .message (.ackForwarded ⟨4, 2⟩)])
      (run (step bootedConfig) bootedAgent
        [.autopilot (.ahrs true), .message (.ackForwarded ⟨3, 0xfe⟩), .gotoBlock ⟨0, 0, 0⟩ 2,
          .periodic]) := by
  intro h
  exact absurd h.quadSwarmState (by decide)

end Paparazzi.QuadSwarm.Airborne
