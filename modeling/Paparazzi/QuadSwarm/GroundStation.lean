import Mathlib
import Paparazzi.Library.FifoLink
import Paparazzi.QuadSwarm.Airborne

/-!
The ground station's `go_*` and `send_exec_cmd_ack` threads with the quads and
the links between them. Only one of these threads runs at a time (`GCS_busy`); it
reads the state of one quad at a step, while reports arrive. `DL_VALUE` frames are
only printed and left out.

Targets, packets and reports carry their provenance: for which quad and by which
command a target was computed. No step of the threads or the quads reads it.
-/

namespace Paparazzi.QuadSwarm.GroundStation

open Paparazzi.Library
open Paparazzi.Math.GeodeticInt
open Paparazzi.Rotorcraft.Arming
open Paparazzi.QuadSwarm.Airborne

/-- An entry of `target[]`. -/
structure Target (n : Nat) where
  pos : EcefCoorI
  command : Nat
  quad : Fin (n + 1)
  deriving DecidableEq

/-- A frame on its way to a quad: `send_target`, from the loop of the `go_*` thread
or from `wait_all_quads`, or `send_ack` with 0xfd after so many commands. -/
inductive Packet (n : Nat) where
  | target (t : Target n) (fromLoop : Bool)
  | exec (command : Nat)
  deriving DecidableEq

/-- A report on its way to the ground station, with the command whose target the
quad had stored. -/
structure UpReport where
  report : Report
  stored : Nat
  deriving DecidableEq

/-- Quad ids count from 1. -/
def acIdOf {n : Nat} (i : Fin (n + 1)) : UInt8 := UInt8.ofNat (i + 1)

/-- `QUAD_NB` aircraft; the loops of the ground station count them in a
`uint8_t`. -/
structure Fleet (n : Nat) where
  cfg : Fin (n + 1) → AgentConfig
  acId_eq : ∀ i, (cfg i).acId = acIdOf i
  quadNb_le : n + 1 ≤ 254

local instance (priority := high) neZero_succ {n : Nat} : NeZero (n + 1) := ⟨Nat.succ_ne_zero n⟩

/-- `leader_id`. -/
def leader {n : Nat} : Fin (n + 1) := 0

/-- The place of the thread that holds `GCS_busy`; the number is the quad that the
running loop, or the running `all_in_state`, has come to. -/
inductive Pc where
  | idle
  | goCheckTakeoff (k : Nat)
  | goCheckReport (k : Nat)
  | goLoop (k : Nat)
  | waitCheck (k : Nat)
  | waitRead (k : Nat)
  | waitResend (k : Nat)
  | returned
  | execCheck (k : Nat)
  | execWait (k : Nat)
  | execReport (k : Nat)
  | execSend (k : Nat)
  deriving DecidableEq, Repr

/-- A quad, its links, and what the ground station records of it. -/
structure Quad (n : Nat) where
  agent : Agent
  down : List (Packet n)
  up : List UpReport
  /-- `Swarm::state`. -/
  state : SwarmPhase
  /-- `Swarm::timestamp`. -/
  timestamp : UInt64
  lastTimestamp : UInt64
  /-- The provenance of `quad_swarm_target`, of the target that `SWARM_WP` was moved
  to last, and of `state`. -/
  stored : Option (Target n)
  executed : Option (Target n)
  stateStored : Nat

structure World (n : Nat) where
  quad : Fin (n + 1) → Quad n
  target : Fin (n + 1) → Target n
  pc : Pc
  /-- The number of `go_*` commands begun. -/
  command : Nat
  /-- The last command whose first message of the loop reached the leader. -/
  heard : Nat

/-- The command whose target a quad has stored. -/
def Quad.storedCommand {n : Nat} (q : Quad n) : Nat :=
  match q.stored with
  | some t => t.command
  | none => 0

def Packet.frame {n : Nat} (i : Fin (n + 1)) : Packet n → SwarmMessage
  | .target t _ => .msg { acId := acIdOf i, dummy := 0, tarEcefPos := t.pos }
  | .exec _ => .ackForwarded { acId := acIdOf i, ack := 0xfd }

section

variable {n : Nat}

def World.modifyQuad (s : World n) (i : Fin (n + 1)) (f : Quad n → Quad n) : World n :=
  { s with quad := Function.update s.quad i (f (s.quad i)) }

/-- `XBEE_send_msg` to a quad. -/
def World.send (s : World n) (i : Fin (n + 1)) (p : Packet n) : World n :=
  s.modifyQuad i fun q => { q with down := q.down ++ [p] }

/-- `compute_go_direction`, whatever position it finds. -/
def World.computeTarget (s : World n) (i : Fin (n + 1)) (pos : EcefCoorI) : World n :=
  { s with target := Function.update s.target i ⟨pos, s.command, i⟩ }

def quadAt (k : Nat) : Option (Fin (n + 1)) := if h : k < n + 1 then some ⟨k, h⟩ else none

/-- A step of the thread that holds `GCS_busy`. The position is what the
computation of a target finds, and `elapsed` whether two seconds have passed since
0xfd was sent. -/
def threadStep (s : World n) (pos : EcefCoorI) (elapsed : Bool) : World n :=
  match s.pc with
  | .idle => s
  | .goCheckTakeoff k =>
      match quadAt k with
      | some i =>
          if (s.quad i).state = .waitCmdTakeoff then { s with pc := .goCheckTakeoff (k + 1) }
          else { s with pc := .goCheckReport 0 }
      | none => { s with pc := .goLoop 0, command := s.command + 1 }
  | .goCheckReport k =>
      match quadAt k with
      | some i =>
          if (s.quad i).state = .reportState then { s with pc := .goCheckReport (k + 1) }
          else { s with pc := .idle }
      | none => { s with pc := .goLoop 0, command := s.command + 1 }
  | .goLoop k =>
      match quadAt k with
      | some i =>
          let s := s.computeTarget i pos
          -- every target goes to the leader
          let s := s.send leader (.target (s.target i) true)
          { s with pc := .goLoop (k + 1) }
      | none =>
          { s with
            pc := .waitCheck 0
            quad := fun i => { s.quad i with lastTimestamp := 0 } }
  | .waitCheck k =>
      match quadAt k with
      | some i =>
          if (s.quad i).state = .waitExecAck then { s with pc := .waitCheck (k + 1) }
          else { s with pc := .waitRead 0 }
      | none => { s with pc := .returned }
  | .waitRead k =>
      match quadAt k with
      | some i =>
          if (s.quad i).state ≠ .waitExecAck then { s with pc := .waitResend k }
          else { s with pc := .waitRead (k + 1) }
      | none => { s with pc := .waitCheck 0 }
  | .waitResend k =>
      match quadAt k with
      | some i =>
          if (s.quad i).lastTimestamp < (s.quad i).timestamp then
            let s := s.modifyQuad i fun q => { q with lastTimestamp := q.timestamp }
            let s := s.send i (.target (s.target i) false)
            { s with pc := .waitRead (k + 1) }
          else { s with pc := .waitRead (k + 1) }
      | none => { s with pc := .waitCheck 0 }
  | .returned => { s with pc := .idle }
  | .execCheck k =>
      match quadAt k with
      | some i =>
          if (s.quad i).state = .waitExecAck then { s with pc := .execCheck (k + 1) }
          else { s with pc := .idle }
      | none => { s with pc := .execWait 0 }
  | .execWait k =>
      match quadAt k with
      | some i =>
          if (s.quad i).state = .execCmd then { s with pc := .execWait (k + 1) }
          else { s with pc := .execReport 0 }
      | none => { s with pc := .idle }
  | .execReport k =>
      match quadAt k with
      | some i =>
          if (s.quad i).state = .reportState then { s with pc := .execReport (k + 1) }
          else { s with pc := .execSend 0 }
      | none => { s with pc := .idle }
  | .execSend k =>
      match quadAt k with
      | some i =>
          -- the test of the quad's state is a disjunction that always holds
          if elapsed then { s.send i (.exec s.command) with pc := .execSend (k + 1) }
          else { s with pc := .execSend (k + 1) }
      | none => { s with pc := .execWait 0 }

/-- A quad receives a packet. -/
def Quad.receive (cfg : AgentConfig) (i : Fin (n + 1)) (p : Packet n) (q : Quad n) : Quad n :=
  { q with
    agent := process cfg (p.frame i) q.agent
    stored :=
      match p with
      | .target t _ => if acceptsTarget q.agent.quadSwarmState then some t else q.stored
      | .exec _ => q.stored
    executed :=
      match p with
      | .target _ _ => q.executed
      | .exec _ => if q.agent.quadSwarmState = .waitExecAck then q.stored else q.executed }

def heardAfter (i : Fin (n + 1)) (p : Packet n) (heard : Nat) : Nat :=
  match p with
  | .target t fromLoop => if i = leader ∧ fromLoop ∧ t.quad = leader then t.command else heard
  | .exec _ => heard

def Downlink.report? : Downlink → Option Report
  | .report r => some r
  | .dlValue _ _ => none

def Quad.periodic (cfg : AgentConfig) (q : Quad n) : Quad n :=
  let (agent, sent) := quadSwarmPeriodic cfg q.agent
  { q with
    agent := agent
    up := q.up ++ (sent.filterMap Downlink.report?).map fun r => ⟨r, q.storedCommand⟩ }

/-- `set_quad_state`. -/
def Quad.setState (r : UpReport) (q : Quad n) : Quad n :=
  { q with
    timestamp := if q.timestamp < 0xffffffffffffffff then q.timestamp + 1 else 0
    state := r.report.state
    stateStored := r.stored }

inductive Event (n : Nat) where
  | startGo
  | startExec
  | thread (pos : EcefCoorI) (elapsed : Bool)
  | periodic (i : Fin (n + 1))
  | gotoBlock (i : Fin (n + 1)) (position : EnuCoorI) (b : UInt8)
  | receive (i : Fin (n + 1))
  | lose (i : Fin (n + 1)) (k : Nat)
  | duplicate (i : Fin (n + 1)) (k : Nat)
  | report (i : Fin (n + 1))
  | loseReport (i : Fin (n + 1)) (k : Nat)
  | duplicateReport (i : Fin (n + 1)) (k : Nat)

def step (fleet : Fleet n) (s : World n) : Event n → World n
  | .startGo => if s.pc = .idle then { s with pc := .goCheckTakeoff 0 } else s
  | .startExec => if s.pc = .idle then { s with pc := .execCheck 0 } else s
  | .thread pos elapsed => threadStep s pos elapsed
  | .periodic i => s.modifyQuad i (Quad.periodic (fleet.cfg i))
  | .gotoBlock i position b =>
      s.modifyQuad i fun q =>
        { q with agent := Airborne.step (fleet.cfg i) q.agent (.gotoBlock position b) }
  | .receive i =>
      match (s.quad i).down with
      | [] => s
      | p :: rest =>
          { s.modifyQuad i fun q => ({ q with down := rest }).receive (fleet.cfg i) i p with
            heard := heardAfter i p s.heard }
  | .lose i k => s.modifyQuad i fun q => { q with down := FifoLink.lose k q.down }
  | .duplicate i k => s.modifyQuad i fun q => { q with down := FifoLink.duplicate k q.down }
  | .report i =>
      match (s.quad i).up with
      | [] => s
      | r :: rest =>
          let s := s.modifyQuad i fun q => { q with up := rest }
          { s with
            quad := fun j =>
              if acIdOf j = r.report.acId then (s.quad j).setState r else s.quad j }
  | .loseReport i k => s.modifyQuad i fun q => { q with up := FifoLink.lose k q.up }
  | .duplicateReport i k => s.modifyQuad i fun q => { q with up := FifoLink.duplicate k q.up }

end

end Paparazzi.QuadSwarm.GroundStation
