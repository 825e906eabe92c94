import Mathlib.Tactic.SplitIfs
import Paparazzi.QuadSwarm.GroundStation

/-!
`wait_all_quads`, the loop that a ground-station thread runs until every quad reports the
state of the phase, with the reports that arrive meanwhile. A step of the thread reads the
state or the stamp of one quad, or sends one command.
-/

namespace Paparazzi.QuadSwarm.WaitAllQuads

open Paparazzi.Library.Machine
open Paparazzi.QuadSwarm.GroundStation (quadAt)

/-! ### The loop -/

/-- The byte `state` of a report; the names below are the values of `SWARM_*`. -/
abbrev SwarmState := UInt8

def swarmInit : SwarmState := 0
def swarmNegotiateRef : SwarmState := 1
def swarmWaitCmd : SwarmState := 2
def swarmWaitCmdStartEngine : SwarmState := 3
def swarmWaitCmdTakeoff : SwarmState := 4
def swarmWaitExecAck : SwarmState := 5
def swarmExecCmd : SwarmState := 6
def swarmReportState : SwarmState := 7
def swarmLandHere : SwarmState := 8
def swarmLanded : SwarmState := 9
def swarmKilled : SwarmState := 10

/-- What a phase sends to a quad. -/
inductive Command where
  | apKillQuadcopter
  | sendAck (ack : UInt8)
  | navStartEngine
  | navTakeoff
  | sendTarget
  | sendBlockLandHere
  deriving DecidableEq, Repr

/-- How the loop over the quads goes in a phase. -/
inductive Body where
  /-- Nothing is sent. -/
  | idle
  /-- A command for every new report of a quad in another state than `skip`. -/
  | resend (skip : SwarmState) (command : Command)
  /-- The same with NEGOTIATE_REF left out, and the stamps compared first. -/
  | initialise
  /-- A command every two seconds. -/
  | execute
  deriving DecidableEq, Repr

/-- The `switch` of `wait_all_quads`. -/
def bodyOf (s : SwarmState) : Body :=
  if s = swarmKilled then .resend swarmKilled .apKillQuadcopter
  else if s = swarmInit then .initialise
  else if s = swarmWaitCmd then .resend swarmWaitCmd (.sendAck 2)
  else if s = swarmWaitCmdStartEngine then .resend swarmWaitCmdStartEngine .navStartEngine
  else if s = swarmWaitCmdTakeoff then .resend swarmWaitCmdTakeoff .navTakeoff
  else if s = swarmWaitExecAck then .resend swarmWaitExecAck .sendTarget
  else if s = swarmExecCmd then .execute
  -- the test of the landing phase is against the state before LANDED
  else if s = swarmLanded then .resend swarmLandHere .sendBlockLandHere
  else .idle

def Body.command : Body → Option Command
  | .idle => none
  | .resend _ command => some command
  | .initialise => some (.sendAck 0xfe)
  | .execute => some (.sendAck 0xfd)

/-- Where the thread is; the number is the quad that its loop, or the running `all_in_state`,
has come to. -/
inductive Pc where
  | start
  | check (k : Nat)
  | checkReport (k : Nat)
  | visit (k : Nat)
  | readStamp (k : Nat)
  | readState (k : Nat)
  | readStateAgain (k : Nat)
  | readTime (k : Nat) (quadState : SwarmState)
  | stamp (k : Nat)
  | command (k : Nat)
  deriving DecidableEq, Repr

/-- A command, with the last report of the quad when it was sent. -/
structure Sent (n : Nat) where
  quad : Fin (n + 1)
  command : Command
  state : SwarmState
  deriving DecidableEq, Repr

/-- The ground station's record of the quads, and the thread. -/
structure World (n : Nat) where
  state : Fin (n + 1) → SwarmState
  timestamp : Fin (n + 1) → UInt64
  /-- The calls of `wait_all_quads` that the thread has to make, the running one first. -/
  waits : List SwarmState
  pc : Pc
  lastTimestamp : Fin (n + 1) → UInt64
  /-- `last_time.tv_sec`. -/
  lastTime : Nat
  /-- The reports received; no step of the thread reads their number. -/
  received : Fin (n + 1) → Nat
  sent : List (Sent n)

section

variable {n : Nat}

/-- A thread that waits for the phases of the list, one after the other. -/
def begin (state : Fin (n + 1) → SwarmState) (timestamp : Fin (n + 1) → UInt64)
    (received : Fin (n + 1) → Nat) (waits : List SwarmState) : World n :=
  { state := state, timestamp := timestamp, waits := waits, pc := .start
    lastTimestamp := fun _ => 0, lastTime := 0, received := received, sent := [] }

/-- The head of the loop over the quads, or that of the `while` where a phase has none. -/
def bodyStart (s : SwarmState) : Pc := if bodyOf s = .idle then .check 0 else .visit 0

/-- A step inside `wait_all_quads(s)`; `now` is what `gettimeofday` finds. -/
def waitStep (now : Nat) (s : SwarmState) (x : World n) : World n :=
  match x.pc with
  | .start => { x with lastTimestamp := fun _ => 0, lastTime := now, pc := .check 0 }
  | .check k =>
      match quadAt k with
      | some i =>
          if x.state i = s then { x with pc := .check (k + 1) }
          else if s = swarmExecCmd then { x with pc := .checkReport 0 }
          else { x with pc := bodyStart s }
      | none => { x with waits := x.waits.tail, pc := .start }
  | .checkReport k =>
      match quadAt k with
      | some i =>
          if x.state i = swarmReportState then { x with pc := .checkReport (k + 1) }
          else { x with pc := bodyStart s }
      | none => { x with waits := x.waits.tail, pc := .start }
  | .visit k =>
      match quadAt k with
      | some i =>
          match bodyOf s with
          | .idle => { x with pc := .check 0 }
          | .resend skip _ =>
              if x.state i ≠ skip then { x with pc := .readStamp k }
              else { x with pc := .visit (k + 1) }
          | .initialise =>
              if x.lastTimestamp i < x.timestamp i then { x with pc := .readState k }
              else { x with pc := .visit (k + 1) }
          | .execute => { x with pc := .readTime k (x.state i) }
      | none => { x with pc := .check 0 }
  | .readStamp k =>
      match quadAt k with
      | some i =>
          if x.lastTimestamp i < x.timestamp i then { x with pc := .stamp k }
          else { x with pc := .visit (k + 1) }
      | none => { x with pc := .check 0 }
  | .readState k =>
      match quadAt k with
      | some i =>
          if x.state i = swarmNegotiateRef then { x with pc := .visit (k + 1) }
          else { x with pc := .readStateAgain k }
      | none => { x with pc := .check 0 }
  | .readStateAgain k =>
      match quadAt k with
      | some i =>
          if x.state i ≠ swarmInit then { x with pc := .stamp k }
          else { x with pc := .visit (k + 1) }
      | none => { x with pc := .check 0 }
  | .readTime k quadState =>
      match (quadAt k : Option (Fin (n + 1))) with
      | some _ =>
          if (quadState ≠ swarmExecCmd ∨ quadState ≠ swarmReportState) ∧
              x.lastTime + 2 < now then
            { x with lastTime := now, pc := .command k }
          else { x with pc := .visit (k + 1) }
      | none => { x with pc := .check 0 }
  | .stamp k =>
      match quadAt k with
      | some i =>
          { x with
            lastTimestamp := Function.update x.lastTimestamp i (x.timestamp i)
            pc := .command k }
      | none => { x with pc := .check 0 }
  | .command k =>
      match quadAt k, (bodyOf s).command with
      | some i, some command =>
          { x with sent := x.sent ++ [⟨i, command, x.state i⟩], pc := .visit (k + 1) }
      | _, _ => { x with pc := .check 0 }

def threadStep (now : Nat) (x : World n) : World n :=
  match x.waits with
  | [] => x
  | s :: _ => waitStep now s x

def setQuadState (i : Fin (n + 1)) (s : SwarmState) (x : World n) : World n :=
  { x with
    timestamp := Function.update x.timestamp i
      (if x.timestamp i < 0xffffffffffffffff then x.timestamp i + 1 else 0)
    state := Function.update x.state i s
    received := Function.update x.received i (x.received i + 1) }

inductive Event (n : Nat) where
  | thread (now : Nat)
  | report (i : Fin (n + 1)) (s : SwarmState)
  deriving DecidableEq, Repr

def step (x : World n) : Event n → World n
  | .thread now => threadStep now x
  | .report i s => setQuadState i s x

end

/-! ### What a step of the thread can do -/

section

variable {n : Nat}

/-- The thread is between two quads. -/
def Quiet : Pc → Prop
  | .check _ => True
  | .checkReport _ => True
  | .visit _ => True
  | _ => False

inductive Move (now : Nat) (s : SwarmState) (x : World n) : World n → Prop
  | quiet (pc : Pc) (hpc : Quiet pc) : Move now s x { x with pc := pc }
  | begin (hpc : x.pc = .start) :
      Move now s x { x with lastTimestamp := fun _ => 0, lastTime := now, pc := .check 0 }
  | finish : Move now s x { x with waits := x.waits.tail, pc := .start }
  | look (i : Fin (n + 1)) (skip : SwarmState) (command : Command)
      (hbody : bodyOf s = .resend skip command) (hne : x.state i ≠ skip) :
      Move now s x { x with pc := .readStamp i }
  | lookInit (i : Fin (n + 1)) (hbody : bodyOf s = .initialise)
      (hfresh : x.lastTimestamp i < x.timestamp i) : Move now s x { x with pc := .readState i }
  | lookTime (i : Fin (n + 1)) (hbody : bodyOf s = .execute) :
      Move now s x { x with pc := .readTime i (x.state i) }
  | lookAgain (i : Fin (n + 1)) (hpc : x.pc = .readState i) :
      Move now s x { x with pc := .readStateAgain i }
  | decide (i : Fin (n + 1)) (hpc : x.pc = .readStamp i)
      (hfresh : x.lastTimestamp i < x.timestamp i) : Move now s x { x with pc := .stamp i }
  | decideInit (i : Fin (n + 1)) (hpc : x.pc = .readStateAgain i) (hne : x.state i ≠ swarmInit) :
      Move now s x { x with pc := .stamp i }
  | decideTime (i : Fin (n + 1)) (quadState : SwarmState) (hpc : x.pc = .readTime i quadState)
      (helapsed : x.lastTime + 2 < now) :
      Move now s x { x with lastTime := now, pc := .command i }
  | stamp (i : Fin (n + 1)) (hpc : x.pc = .stamp i) :
      Move now s x
        { x with
          lastTimestamp := Function.update x.lastTimestamp i (x.timestamp i)
          pc := .command i }
  | send (i : Fin (n + 1)) (command : Command) (hpc : x.pc = .command i) :
      Move now s x { x with sent := x.sent ++ [⟨i, command, x.state i⟩], pc := .visit (i + 1) }

theorem quadAt_eq_some {k : Nat} {i : Fin (n + 1)} (h : quadAt k = some i) : k = i := by
  unfold quadAt at h
  split_ifs at h
  rw [← Option.some.inj h]

theorem quiet_bodyStart (s : SwarmState) : Quiet (bodyStart s) := by
  unfold bodyStart
  split_ifs <;> trivial

theorem move_waitStep (now : Nat) (s : SwarmState) (x : World n) :
    Move now s x (waitStep now s x) := by
  unfold waitStep
  cases hpc : x.pc with
  | start => exact .begin hpc
  | check k =>
      dsimp only
      cases hk : quadAt k with
      | none => exact .finish
      | some i =>
          dsimp only
          split_ifs
          · exact .quiet _ trivial
          · exact .quiet _ trivial
          · exact .quiet _ (quiet_bodyStart s)
  | checkReport k =>
      dsimp only
      cases hk : quadAt k with
      | none => exact .finish
      | some i =>
          dsimp only
          split_ifs
          · exact .quiet _ trivial
          · exact .quiet _ (quiet_bodyStart s)
  | visit k =>
      dsimp only
      cases hk : quadAt k with
      | none => exact .quiet _ trivial
      | some i =>
          obtain rfl := quadAt_eq_some hk
          dsimp only
          cases hbody : bodyOf s with
          | idle => exact .quiet _ trivial
          | resend skip command =>
              dsimp only
              split_ifs with hne
              · exact .look i skip command hbody hne
              · exact .quiet _ trivial
          | initialise =>
              dsimp only
              split_ifs with hfresh
              · exact .lookInit i hbody hfresh
              · exact .quiet _ trivial
          | execute => exact .lookTime i hbody
  | readStamp k =>
      dsimp only
      cases hk : quadAt k with
      | none => exact .quiet _ trivial
      | some i =>
          obtain rfl := quadAt_eq_some hk
          dsimp only
          split_ifs with hfresh
          · exact .decide i hpc hfresh
          · exact .quiet _ trivial
  | readState k =>
      dsimp only
      cases hk : quadAt k with
      | none => exact .quiet _ trivial
      | some i =>
          obtain rfl := quadAt_eq_some hk
          dsimp only
          split_ifs
          · exact .quiet _ trivial
          · exact .lookAgain i hpc
  | readStateAgain k =>
      dsimp only
      cases hk : quadAt k with
      | none => exact .quiet _ trivial
      | some i =>
          obtain rfl := quadAt_eq_some hk
          dsimp only
          split_ifs with hne
          · exact .decideInit i hpc hne
          · exact .quiet _ trivial
  | readTime k quadState =>
      dsimp only
      cases hk : (quadAt k : Option (Fin (n + 1))) with
      | none => exact .quiet _ trivial
      | some i =>
          obtain rfl := quadAt_eq_some hk
          dsimp only
          split_ifs with htime
          · exact .decideTime i quadState hpc htime.2
          · exact .quiet _ trivial
  | stamp k =>
      dsimp only
      cases hk : quadAt k with
      | none => exact .quiet _ trivial
      | some i =>
          obtain rfl := quadAt_eq_some hk
          exact .stamp i hpc
  | command k =>
      dsimp only
      cases hk : quadAt k with
      | none => exact .quiet _ trivial
      | some i =>
          obtain rfl := quadAt_eq_some hk
          cases (bodyOf s).command with
          | none => exact .quiet _ trivial
          | some command => exact .send i command hpc

end

end Paparazzi.QuadSwarm.WaitAllQuads
