import Mathlib.Tactic.SplitIfs
import Paparazzi.Library.Bytes
import Paparazzi.QuadSwarm.DataHandle

/-!
What a frame must be for the ground station to store a report.
-/

namespace Paparazzi.QuadSwarm.DataHandle

open Paparazzi.Library
open Paparazzi.Library.Machine
open Paparazzi.Link.GroundXBee
open Paparazzi.Link.GroundXBeeParser (Recv RecvEvent initialRecv)
open Paparazzi.QuadSwarm.GroundMessages

/-! ### The data of a frame -/

/-- What a frame carries behind the header of a received packet. -/
def frameData (msg : XBeeMsg) : List UInt8 := msg.contents.drop frameRecvDataOffset

/-- The id of the message and the id of the quad in the data, if they reach that far. -/
def messageId (msg : XBeeMsg) : UInt8 := (frameData msg).getD 1 0

def reportedId (msg : XBeeMsg) : UInt8 := (frameData msg).getD 2 0

/-- The frame is taken for a report. -/
def IsReport (msg : XBeeMsg) : Prop :=
  2 < (frameData msg).length ∧ messageId msg = recvMsgIdQuadSwarmReport

instance (msg : XBeeMsg) : Decidable (IsReport msg) := by
  unfold IsReport
  infer_instance

theorem data_foldl_pprzPutByte (bytes : List UInt8) {p : PprzMsg}
    (h : p.data.length ≤ pprzMsgMaxSize) :
    bytes.foldl (fun p b => pprzPutByte b p) p =
      { p with data := (p.data ++ bytes).take pprzMsgMaxSize } := by
  induction bytes generalizing p with
  | nil =>
      rw [List.append_nil, List.take_of_length_le h]
      rfl
  | cons b bytes ih =>
      rw [List.foldl_cons, pprzPutByte]
      by_cases hfull : p.data.length + 1 > pprzMsgMaxSize
      · have hlen : p.data.length = pprzMsgMaxSize := by omega
        rw [if_pos hfull, ih h, ← hlen, List.take_left, List.take_left]
      · rw [if_neg hfull, ih (by rw [List.length_append, List.length_singleton]; omega)]
        simp only [List.append_assoc, List.singleton_append]

theorem frameData_eq (msg : XBeeMsg) :
    frameData msg = (List.range (msg.frameLength - frameRecvDataOffset)).map
      fun count => msg.frame (frameRecvDataOffset + count) := by
  have hlen : msg.frameLength - frameRecvDataOffset = (frameData msg).length := by
    simp [frameData, XBeeMsg.contents]
  apply List.ext_getElem
  · simp [frameData, XBeeMsg.contents]
  · intro i hi hi'
    simp [frameData, XBeeMsg.contents]

theorem getPprzMsg_eq (msg : XBeeMsg) :
    getPprzMsg msg = ⟨(frameData msg).take pprzMsgMaxSize, 0⟩ := by
  have hmap : getPprzMsg msg = (frameData msg).foldl (fun p b => pprzPutByte b p) newMsg := by
    rw [getPprzMsg, frameData_eq, List.foldl_map]
  rw [hmap, data_foldl_pprzPutByte _ (Nat.zero_le _)]
  rfl

theorem getD_take_frameData (msg : XBeeMsg) {i : Nat} (hi : i < pprzMsgMaxSize) :
    ((frameData msg).take pprzMsgMaxSize).getD i 0 = (frameData msg).getD i 0 := by
  simp only [List.getD_eq_getElem?_getD, List.getElem?_take, if_pos hi]

theorem lt_length_take (msg : XBeeMsg) {i : Nat} (hi : i < pprzMsgMaxSize) :
    i < ((frameData msg).take pprzMsgMaxSize).length ↔ i < (frameData msg).length := by
  rw [List.length_take]
  omega

theorem isReport_iff (msg : XBeeMsg) :
    pprzGetMsgId (getPprzMsg msg) = recvMsgIdQuadSwarmReport ↔ IsReport msg := by
  rw [getPprzMsg_eq, pprzGetMsgId, IsReport, messageId]
  have hlen := lt_length_take msg (by decide : 2 < pprzMsgMaxSize)
  have hid := getD_take_frameData msg (by decide : 1 < pprzMsgMaxSize)
  by_cases h : 2 < (frameData msg).length
  · rw [if_pos (hlen.mpr h), hid]
    simp only [h, true_and]
  · rw [if_neg (fun hgt => h (hlen.mp hgt))]
    exact iff_of_false (by decide) fun hreport => h hreport.1

/-- The report that is read from a frame. -/
def readReport (msg : XBeeMsg) : QuadSwarmReport := (pprzGetQuadSwarmReport (getPprzMsg msg)).1

theorem pprzReadByte_of_lt {m : PprzMsg} (h : m.pos < m.data.length) :
    pprzReadByte m = (m.data.getD m.pos 0, { m with pos := m.pos + 1 }) := by
  rw [pprzReadByte, if_neg (Nat.not_le.mpr h)]

theorem acId_pprzGetQuadSwarmReport {m : PprzMsg} (hpos : m.pos = 0) (hlen : 2 < m.data.length) :
    (pprzGetQuadSwarmReport m).1.acId = m.data.getD 2 0 := by
  have hread : (pprzGetQuadSwarmReport m).1.acId =
      (pprzReadByte (pprzReadByte (pprzReadByte m).2).2).1 := by
    unfold pprzGetQuadSwarmReport
    generalize pprzReadByte = readByte
    generalize pprzRead4bytes = read4bytes
    rfl
  have hfirst : pprzReadByte m = (m.data.getD 0 0, ⟨m.data, 1⟩) := by
    rw [pprzReadByte_of_lt (by omega), hpos]
  have hsecond : pprzReadByte ⟨m.data, 1⟩ = (m.data.getD 1 0, ⟨m.data, 2⟩) :=
    pprzReadByte_of_lt (Nat.lt_of_succ_lt hlen)
  have hthird : pprzReadByte ⟨m.data, 2⟩ = (m.data.getD 2 0, ⟨m.data, 3⟩) :=
    pprzReadByte_of_lt hlen
  rw [hread, hfirst, hsecond, hthird]

theorem acId_readReport {msg : XBeeMsg} (h : IsReport msg) :
    (readReport msg).acId = reportedId msg := by
  have hlen : 2 < ((frameData msg).take pprzMsgMaxSize).length :=
    (lt_length_take msg (by decide)).mpr h.1
  rw [readReport, getPprzMsg_eq, acId_pprzGetQuadSwarmReport rfl hlen]
  exact getD_take_frameData msg (by decide)

/-! ### What a frame does -/

/-- What is kept of a quad. -/
structure QuadStatus (N : Type*) where
  state : UInt8
  pos : EcefCoorI
  pacc : Int32
  nedPos : N

section

variable {N : Type*} (quadNb : Nat) (nedOfEcefPosI : EcefCoorI → N)

def Station.status (s : Station N) (acId : UInt8) : QuadStatus N :=
  ⟨s.state acId, s.pos acId, s.pacc acId, s.nedPos acId⟩

/-- The status that a report stands for. -/
def reportedStatus (report : QuadSwarmReport) : QuadStatus N :=
  ⟨report.state, ecefOfReport report, report.pacc, nedOfEcefPosI (ecefOfReport report)⟩

theorem state_reportedStatus (report : QuadSwarmReport) :
    (reportedStatus nedOfEcefPosI report).state = report.state := rfl

/-- The accesses while a report of a quad is handled. -/
def reportAccesses (acId : UInt8) : List (Table × UInt8) :=
  [(.pos, acId), (.pacc, acId), (.timestamp, acId), (.state, acId), (.pacc, acId), (.pos, acId),
    (.nedPos, acId), (.nedPos, acId)] ++
  if quadNb ≥ 2 then [(.nedPos, 1), (.nedPos, 2), (.pacc, 1), (.pacc, 2)] else []

theorem handleFrame_of_not_isReport {msg : XBeeMsg} (h : ¬ IsReport msg) (s : Station N) :
    handleFrame quadNb nedOfEcefPosI s msg = s := by
  rw [handleFrame, if_neg (mt (isReport_iff msg).mp h)]

/-- What is done with a report before it is printed. -/
def store (report : QuadSwarmReport) (s : Station N) : Station N :=
  updateNedCoorByEcefCoor nedOfEcefPosI report.acId
    (setQuadPacc report.acId report.pacc (setQuadState report.acId report.state
      (updateOnQuadSwarmReport report s)))

theorem accesses_store (report : QuadSwarmReport) (s : Station N) :
    (store nedOfEcefPosI report s).accesses =
      s.accesses ++ [(.pos, report.acId), (.pacc, report.acId), (.timestamp, report.acId),
        (.state, report.acId), (.pacc, report.acId), (.pos, report.acId),
        (.nedPos, report.acId)] := by
  simp [store, updateNedCoorByEcefCoor, setQuadPacc, setQuadState, updateOnQuadSwarmReport,
    setQuadEcef, Station.access]

theorem status_store (report : QuadSwarmReport) (s : Station N) (i : UInt8) :
    (store nedOfEcefPosI report s).status i =
      if i = report.acId then reportedStatus nedOfEcefPosI report else s.status i := by
  by_cases hi : i = report.acId
  · subst hi
    simp [store, updateNedCoorByEcefCoor, setQuadPacc, setQuadState, updateOnQuadSwarmReport,
      setQuadEcef, Station.access, Station.status, reportedStatus]
  · simp [store, updateNedCoorByEcefCoor, setQuadPacc, setQuadState, updateOnQuadSwarmReport,
      setQuadEcef, Station.access, Station.status, hi]

theorem accesses_printDistance (acId : UInt8) (s : Station N) :
    (printDistance quadNb acId s).accesses = s.accesses ++ ([(.nedPos, acId)] ++
      if quadNb ≥ 2 then [(.nedPos, 1), (.nedPos, 2), (.pacc, 1), (.pacc, 2)] else []) := by
  rw [printDistance]
  split_ifs <;> simp [Station.access]

theorem status_printDistance (acId : UInt8) (s : Station N) (i : UInt8) :
    (printDistance quadNb acId s).status i = s.status i := by
  rw [printDistance]
  split_ifs <;> rfl

theorem handleFrame_of_isReport {msg : XBeeMsg} (h : IsReport msg) (s : Station N) :
    handleFrame quadNb nedOfEcefPosI s msg =
      printDistance quadNb (readReport msg).acId (store nedOfEcefPosI (readReport msg) s) := by
  rw [handleFrame, if_pos ((isReport_iff msg).mpr h), store, readReport]

theorem accesses_handleFrame {msg : XBeeMsg} (h : IsReport msg) (s : Station N) :
    (handleFrame quadNb nedOfEcefPosI s msg).accesses =
      s.accesses ++ reportAccesses quadNb (reportedId msg) := by
  rw [handleFrame_of_isReport quadNb nedOfEcefPosI h, accesses_printDistance, accesses_store,
    acId_readReport h, List.append_assoc]
  rfl

theorem status_handleFrame {msg : XBeeMsg} (h : IsReport msg) (s : Station N) (i : UInt8) :
    (handleFrame quadNb nedOfEcefPosI s msg).status i =
      if i = reportedId msg then reportedStatus nedOfEcefPosI (readReport msg) else s.status i := by
  rw [handleFrame_of_isReport quadNb nedOfEcefPosI h, status_printDistance, status_store,
    acId_readReport h]

/-! ### The frames that are stored -/

/-- A received-data frame with a correct checksum that carries a complete report of the quad. -/
structure Authentic (msg : XBeeMsg) (acId : UInt8) : Prop where
  frameType : msg.frame 0 = 0x90
  checkSum : Checksum.sum 0 msg.contents + msg.recvCheckSum = 0xff
  complete : 21 ≤ (frameData msg).length
  messageId : messageId msg = recvMsgIdQuadSwarmReport
  reportedId : reportedId msg = acId

def IsQuad (acId : UInt8) : Prop := 1 ≤ acId.toNat ∧ acId.toNat ≤ quadNb

theorem isQuad_of_mem_reportAccesses {acId : UInt8} (hquad : IsQuad quadNb acId)
    {a : Table × UInt8} (ha : a ∈ reportAccesses quadNb acId) : IsQuad quadNb a.2 := by
  rw [reportAccesses, List.mem_append] at ha
  rcases ha with hown | hprinted
  · have hid : a.2 = acId := by
      simp only [List.mem_cons, List.not_mem_nil, or_false] at hown
      rcases hown with rfl | rfl | rfl | rfl | rfl | rfl | rfl | rfl <;> rfl
    rw [hid]
    exact hquad
  · split_ifs at hprinted with htwo
    · simp only [List.mem_cons, List.not_mem_nil, or_false] at hprinted
      rcases hprinted with rfl | rfl | rfl | rfl
      · exact ⟨by decide, Nat.le_of_succ_le htwo⟩
      · exact ⟨by decide, htwo⟩
      · exact ⟨by decide, Nat.le_of_succ_le htwo⟩
      · exact ⟨by decide, htwo⟩
    · cases hprinted

/-- The accesses for a frame are to entries of the arrays, and a quad whose status changes is the
one of an authentic frame. -/
structure FrameSafe (s : Station N) (msg : XBeeMsg) : Prop where
  indices : ∀ a ∈ (handleFrame quadNb nedOfEcefPosI s msg).accesses.drop s.accesses.length,
    IsQuad quadNb a.2
  changes : ∀ acId, IsQuad quadNb acId →
    (handleFrame quadNb nedOfEcefPosI s msg).status acId ≠ s.status acId → Authentic msg acId

/-- A frame that is taken for a report is of a quad, and authentic unless it repeats the status. -/
def Genuine (s : Station N) (msg : XBeeMsg) : Prop :=
  IsReport msg →
    IsQuad quadNb (reportedId msg) ∧
      (Authentic msg (reportedId msg) ∨
        s.status (reportedId msg) = reportedStatus nedOfEcefPosI (readReport msg))

theorem frameSafe_iff (s : Station N) (msg : XBeeMsg) :
    FrameSafe quadNb nedOfEcefPosI s msg ↔ Genuine quadNb nedOfEcefPosI s msg := by
  by_cases h : IsReport msg
  · constructor
    · intro hsafe _
      have hquad : IsQuad quadNb (reportedId msg) := by
        refine hsafe.indices (.pos, reportedId msg) ?_
        rw [accesses_handleFrame quadNb nedOfEcefPosI h, List.drop_left]
        exact List.mem_append_left _ List.mem_cons_self
      refine ⟨hquad, ?_⟩
      by_cases hsame : s.status (reportedId msg) = reportedStatus nedOfEcefPosI (readReport msg)
      · exact Or.inr hsame
      · left
        refine hsafe.changes _ hquad ?_
        rw [status_handleFrame quadNb nedOfEcefPosI h, if_pos rfl]
        exact Ne.symm hsame
    · intro hgenuine
      obtain ⟨hquad, hstatus⟩ := hgenuine h
      constructor
      · intro a ha
        rw [accesses_handleFrame quadNb nedOfEcefPosI h, List.drop_left] at ha
        exact isQuad_of_mem_reportAccesses quadNb hquad ha
      · intro acId hacId hchanged
        rw [status_handleFrame quadNb nedOfEcefPosI h] at hchanged
        by_cases hreported : acId = reportedId msg
        · subst hreported
          rw [if_pos rfl] at hchanged
          rcases hstatus with hauthentic | hsame
          · exact hauthentic
          · exact absurd hsame.symm hchanged
        · rw [if_neg hreported] at hchanged
          exact absurd rfl hchanged
  · have hsame : handleFrame quadNb nedOfEcefPosI s msg = s :=
      handleFrame_of_not_isReport quadNb nedOfEcefPosI h s
    refine iff_of_true ⟨?_, ?_⟩ fun hreport => absurd hreport h
    · intro a ha
      rw [hsame, List.drop_length] at ha
      cases ha
    · intro acId _ hchanged
      rw [hsame] at hchanged
      exact absurd rfl hchanged

/-! ### Iterations -/

variable (useXBeeEsc : Bool) (fresh : Nat → Nat → UInt8)

def IterationSafe (g : Ground N) (es : List RecvEvent) : Prop :=
  RunOk (handleFrame quadNb nedOfEcefPosI) (FrameSafe quadNb nedOfEcefPosI) g.station
    (queueAfter useXBeeEsc fresh g.com es)

def IterationGenuine (g : Ground N) (es : List RecvEvent) : Prop :=
  RunOk (handleFrame quadNb nedOfEcefPosI) (Genuine quadNb nedOfEcefPosI) g.station
    (queueAfter useXBeeEsc fresh g.com es)

/-- The thread keeps to the arrays and changes a quad only by authentic frames, exactly when every
frame that is taken for a report is of a quad, and authentic unless it repeats the status. -/
theorem receive_path_iff (g : Ground N) (iterations : List (List RecvEvent)) :
    RunOk (periodicDataHandle useXBeeEsc fresh quadNb nedOfEcefPosI)
        (IterationSafe quadNb nedOfEcefPosI useXBeeEsc fresh) g iterations ↔
      RunOk (periodicDataHandle useXBeeEsc fresh quadNb nedOfEcefPosI)
        (IterationGenuine quadNb nedOfEcefPosI useXBeeEsc fresh) g iterations := by
  apply runOk_congr
  intro g es
  exact runOk_congr (frameSafe_iff quadNb nedOfEcefPosI) g.station _

end

/-- All quads are in `SWARM_KILLED`, as `Swarm` leaves them. -/
def initialGround : Ground EcefCoorI :=
  ⟨initialRecv, ⟨fun _ => 10, fun _ => ⟨0, 0, 0⟩, fun _ => 0, fun _ => 0, fun _ => ⟨0, 0, 0⟩, []⟩⟩

/-- A frame of another type with a wrong checksum that carries three bytes. -/
def foreignBytes : List UInt8 :=
  [0x7e, 0, 15, 0x88, 0, 0, 0, 0, 0, 0, 0, 0, 0, 0, 0, 1, 222, 1, 0]

/-- It puts the first quad into `SWARM_INIT`. -/
theorem foreign_frame_stored :
    ¬ RunOk (periodicDataHandle true (fun _ _ => 0) 3 id)
      (IterationSafe 3 id true fun _ _ => 0) initialGround
      [[.read foreignBytes, .parse]] := by
  rintro ⟨hiteration, -⟩
  have htypes : (queueAfter true (fun _ _ => 0) initialGround.com
      [.read foreignBytes, .parse]).map (fun msg => msg.frame 0) = [0x88] := by decide
  have hdatas : (queueAfter true (fun _ _ => 0) initialGround.com
      [.read foreignBytes, .parse]).map frameData = [[1, 222, 1]] := by decide
  rw [IterationSafe] at hiteration
  obtain ⟨msg, rest, hqueue, htype, -⟩ := List.map_eq_cons_iff.mp htypes
  rw [hqueue] at hiteration hdatas
  have hdata : frameData msg = [1, 222, 1] := (List.cons.inj hdatas).1
  have hid : reportedId msg = 1 := by rw [reportedId, hdata]; rfl
  have hreport : IsReport msg := by
    rw [IsReport, messageId, hdata]
    decide
  rcases ((frameSafe_iff 3 id _ msg).mp hiteration.1 hreport).2 with hauthentic | hsame
  · exact absurd (htype.symm.trans hauthentic.frameType) (by decide)
  · have hstate : (readReport msg).state = 0 := by
      rw [readReport, getPprzMsg_eq, hdata]
      decide
    have hkilled : (initialGround.station.status (reportedId msg)).state = 10 := rfl
    rw [hsame, state_reportedStatus, hstate] at hkilled
    exact absurd hkilled (by decide)

end Paparazzi.QuadSwarm.DataHandle
