import Mathlib.Logic.Function.Basic
import Paparazzi.Library.Machine
import Paparazzi.Link.GroundXBeeParser
import Paparazzi.QuadSwarm.PprzMsg

/-!
`periodic_data_handle`: the ground station takes the received frames out of the queue and stores
the reports of the quads.
-/

namespace Paparazzi.QuadSwarm.DataHandle

open Paparazzi.Library.Machine
open Paparazzi.Link.GroundXBee
open Paparazzi.Link.GroundXBeeParser (Recv RecvEvent step)
open Paparazzi.QuadSwarm.GroundMessages

/-! ### The data of a frame -/

def frameRecvDataOffset : Nat := 12

/-- `get_pprz_msg`; a frame that ends before the offset gives no bytes. -/
def getPprzMsg (msg : XBeeMsg) : PprzMsg :=
  (List.range (msg.frameLength - frameRecvDataOffset)).foldl
    (fun p count => pprzPutByte (msg.frame (frameRecvDataOffset + count)) p) newMsg

/-! ### The arrays -/

structure EcefCoorI where
  x : Int32
  y : Int32
  z : Int32
  deriving DecidableEq

/-- The arrays with an entry for each quad. -/
inductive Table where
  | state
  | pos
  | pacc
  | timestamp
  | nedPos
  deriving DecidableEq

/-- The class `Swarm` and `ned_pos`. An array is given with what lies behind it; the indices it
was accessed with are recorded. -/
structure Station (N : Type*) where
  state : UInt8 → UInt8
  pos : UInt8 → EcefCoorI
  pacc : UInt8 → Int32
  timestamp : UInt8 → UInt64
  nedPos : UInt8 → N
  accesses : List (Table × UInt8)

section

variable {N : Type*}

def Station.access (table : Table) (acId : UInt8) (s : Station N) : Station N :=
  { s with accesses := s.accesses ++ [(table, acId)] }

def setQuadState (acId state : UInt8) (s : Station N) : Station N :=
  let s := s.access .timestamp acId
  let timestamp := if s.timestamp acId < 0xffffffffffffffff then s.timestamp acId + 1 else 0
  let s := { s with timestamp := Function.update s.timestamp acId timestamp }
  let s := s.access .state acId
  { s with state := Function.update s.state acId state }

def setQuadEcef (acId : UInt8) (pos : EcefCoorI) (s : Station N) : Station N :=
  let s := s.access .pos acId
  { s with pos := Function.update s.pos acId pos }

def setQuadPacc (acId : UInt8) (pacc : Int32) (s : Station N) : Station N :=
  let s := s.access .pacc acId
  { s with pacc := Function.update s.pacc acId pacc }

/-- `struct EcefCoor_i pos`, from the fields without a sign. -/
def ecefOfReport (report : QuadSwarmReport) : EcefCoorI :=
  ⟨report.x.toInt32, report.y.toInt32, report.z.toInt32⟩

def updateOnQuadSwarmReport (report : QuadSwarmReport) (s : Station N) : Station N :=
  setQuadPacc report.acId report.pacc (setQuadEcef report.acId (ecefOfReport report) s)

/-- `nedOfEcefPosI` is the conversion with the reference `ref`. -/
def updateNedCoorByEcefCoor (nedOfEcefPosI : EcefCoorI → N) (acId : UInt8) (s : Station N) :
    Station N :=
  let s := s.access .pos acId
  let pos := s.pos acId
  let s := s.access .nedPos acId
  { s with nedPos := Function.update s.nedPos acId (nedOfEcefPosI pos) }

/-- The positions and accuracies that are printed after a report. -/
def printDistance (quadNb : Nat) (acId : UInt8) (s : Station N) : Station N :=
  let s := s.access .nedPos acId
  if quadNb ≥ 2 then
    ((((s.access .nedPos 1).access .nedPos 2).access .pacc 1).access .pacc 2)
  else s

def recvMsgIdQuadSwarmReport : UInt8 := 222

/-- One turn of the inner loop; the other messages are only printed. -/
def handleFrame (quadNb : Nat) (nedOfEcefPosI : EcefCoorI → N) (s : Station N) (msg : XBeeMsg) :
    Station N :=
  let data := getPprzMsg msg
  if pprzGetMsgId data = recvMsgIdQuadSwarmReport then
    let report := (pprzGetQuadSwarmReport data).1
    let s := updateOnQuadSwarmReport report s
    let s := setQuadState report.acId report.state s
    let s := setQuadPacc report.acId report.pacc s
    let s := updateNedCoorByEcefCoor nedOfEcefPosI report.acId s
    printDistance quadNb report.acId s
  else s

/-- What the thread works on: the class `XBEE`, as far as it receives, and the arrays. -/
structure Ground (N : Type*) where
  com : Recv
  station : Station N

/-- The queue after the reads and the call of the parser in an iteration; while the call waits for
bytes there is nothing to handle. -/
def queueAfter (useXBeeEsc : Bool) (fresh : Nat → Nat → UInt8) (com : Recv)
    (es : List RecvEvent) : List XBeeMsg :=
  let com := run (step useXBeeEsc fresh) com es
  match com.control with
  | .returned => com.msg
  | _ => []

/-- An iteration of `periodic_data_handle`, in which `es` happens at the port. -/
def periodicDataHandle (useXBeeEsc : Bool) (fresh : Nat → Nat → UInt8) (quadNb : Nat)
    (nedOfEcefPosI : EcefCoorI → N) (g : Ground N) (es : List RecvEvent) : Ground N :=
  let com := run (step useXBeeEsc fresh) g.com es
  { com :=
      match com.control with
      | .returned => { com with msg := [] }
      | _ => com
    station :=
      run (handleFrame quadNb nedOfEcefPosI) g.station (queueAfter useXBeeEsc fresh g.com es) }

end

end Paparazzi.QuadSwarm.DataHandle
