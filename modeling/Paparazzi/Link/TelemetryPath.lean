import Paparazzi.Library.Liveness
import Paparazzi.Link.Downlink
import Paparazzi.Link.UplinkDelivery
import Paparazzi.Messages.CodecAgreement

/-!
Telemetry from the autopilot to the ground: the message macros reserve and write the frames, the
driver and its interrupt send them, and the ground reads the line in pieces, finds the frames and
decodes the values.
-/

namespace Paparazzi.Link.TelemetryPath

open Paparazzi.Library
open Paparazzi.Library.Liveness
open Paparazzi.Library.Machine
open Paparazzi.Link.Downlink
open Paparazzi.McuPeriph
open Paparazzi.Messages.Codec
open Paparazzi.Messages.CodecAgreement
open Paparazzi.Messages.CodecEncoding

/-- `Syntax.sizeof` of a field, with the length of an array put in. -/
def fieldSize (t : ScalarType) : CObject → Nat
  | .scalar _ => t.sizeof
  | .array xs => 1 + xs.length * t.sizeof

/-- A use of the macro `DOWNLINK_SEND_<name>`: a message of the table and the variables that hold
its values. -/
structure Report (messages : MessageTable) where
  id : UInt8
  message : Message
  listed : messages id = some message
  values : Assignment message
  args : List (Field × CObject)
  holds : Messages.CodecAgreement.Holds args values
  codable : ∀ e ∈ values.entries, ReadingCodable e.1.type.element e.2.reading

section

variable {messages : MessageTable}

/-- `size_fields` -/
def Report.size (r : Report messages) : Nat :=
  (r.args.map fun a => fieldSize a.1.type.element a.2).sum

/-- The bytes between the header and the trailer. -/
def Report.put (acId : UInt8) (r : Report messages) : List UInt8 :=
  (downlinkSend acId r.id r.args).getD []

def Report.frame (acId : UInt8) (r : Report messages) : List UInt8 :=
  PprzTransport.airborneFrame (r.put acId)

theorem length_encodeObject (t : ScalarType) (o : CObject) :
    (encodeObject t o).length = fieldSize t o := by
  cases o with
  | scalar x => exact length_memory t x
  | array xs => simp [encodeObject, fieldSize, length_memory, Nat.add_comm]

theorem Report.put_eq (acId : UInt8) (r : Report messages) :
    r.put acId = acId :: r.id :: encodeArgs r.args := by
  have h8 : ∀ x ∈ r.args, x.1.type ≠ .array .int8 := fun x hx =>
    not_int8Array_of_codable (r.holds.1 x hx) (r.holds.codable r.codable x hx)
  rw [put, downlinkSend_eq r.holds.1 h8, Option.getD_some]

theorem Report.length_put (acId : UInt8) (r : Report messages) :
    (r.put acId).length = r.size + 2 := by
  simp [put_eq, encodeArgs, size, List.length_flatMap, length_encodeObject]

theorem Report.length_frame (acId : UInt8) (r : Report messages) :
    (r.frame acId).length = downlinkSizeOf .pprz r.size := by
  simp [frame, PprzTransport.airborneFrame_eq, PprzTransport.frameOf, length_put, downlinkSizeOf,
    pprzTransportSizeOf, downlinkIDsSize]

/-- The ground decodes what the macro was given. -/
theorem Report.returns (acId : UInt8) (r : Report messages) :
    Returns (valuesOfPayload messages (r.put acId)) r.id acId r.values.values := by
  rw [put_eq]
  exact returns_encode r.listed r.holds r.codable

/-- The check of the free space tests the whole size. -/
def Report.Sized (r : Report messages) : Prop := downlinkSizeOf .pprz r.size < 256

theorem Report.carries (acId : UInt8) {r : Report messages} (h : r.Sized) :
    Serial.Carries GroundReader.pprz (r.frame acId) (r.put acId) := by
  have hsize : (r.put acId).length ≤ 251 := by
    have hframe := r.length_frame acId
    rw [Sized, ← hframe, frame, PprzTransport.airborneFrame_eq, PprzTransport.frameOf] at h
    simp at h
    omega
  have hpacket : Uplink.pprzPacket (r.put acId) = some (r.frame acId) := by
    have hsame : Uplink.pprzPacket (r.put acId) = PprzTransport.packet (r.put acId) := by
      simp [Uplink.pprzPacket, Uplink.packetBase, PprzTransport.packet]
    rw [hsame, frame]
    exact PprzTransport.packet_eq_airborneFrame hsize
  have hframe : Uplink.IsFrame
      (GroundLink.pprzTransportBase PprzTransport.stx 2 4 (by decide)) (r.frame acId) (r.put acId) :=
    Uplink.isFrame_packetBase hpacket rfl rfl
  rw [← GroundLink.pprz_eq] at hframe
  refine ⟨hframe.scan_eq, ?_⟩
  rw [Serial.deliver, hframe.checksum_eq, hframe.payload_eq]
  rfl

/-! ### The system -/

variable (messages)

/-- The driver with the bytes that the running macro has still to write, the counters of the
downlink, the pieces that the ground has read, and the messages that were sent or refused; no
step reads these two. -/
structure State where
  sending : Sending
  downlinkNbOvrn : UInt8
  downlinkNbBytes : UInt16
  downlinkNbMsgs : UInt16
  reads : List (List UInt8)
  sent : List (Report messages)
  refused : List (Report messages)

inductive Event where
  | send (r : Report messages)
  | driver (e : Downlink.Event)
  /-- The ground reads at most `n` bytes. -/
  | read (n : Nat)

variable {messages}

def State.line (s : State messages) : List UInt8 := s.sending.driver.usart.line

/-- `DOWNLINK_SEND_<name>`, from the test to the first byte. -/
def send (acId : UInt8) (r : Report messages) (s : State messages) : State messages :=
  let size := downlinkSizeOf .pprz r.size
  if downlinkCheckFreeSpace s.sending.driver.uart size then
    { s with
      sending := { s.sending with todo := r.frame acId }
      downlinkNbBytes := s.downlinkNbBytes + UInt16.ofNat size
      downlinkNbMsgs := s.downlinkNbMsgs + 1
      sent := s.sent ++ [r] }
  else { s with downlinkNbOvrn := s.downlinkNbOvrn + 1, refused := s.refused ++ [r] }

/-- A macro starts when the one before has ended. -/
def step (acId : UInt8) (s : State messages) : Event messages → State messages
  | .send r => if s.sending.driver.pc = .idle ∧ s.sending.todo = [] then send acId r s else s
  | .driver e => { s with sending := Downlink.step s.sending e }
  | .read n => { s with reads := s.reads ++ [(s.line.drop s.reads.flatten.length).take n] }

def initial (rxBuf txBuf : Nat → UInt8) (rxneie : Bool) : State messages where
  sending := ⟨Uart.initial rxBuf txBuf rxneie, []⟩
  downlinkNbOvrn := 0
  downlinkNbBytes := 0
  downlinkNbMsgs := 0
  reads := []
  sent := []
  refused := []

/-! ### The invariant -/

structure Inv (acId : UInt8) (s : State messages) : Prop where
  fits : Fits s.sending
  written : s.sending.driver.accepted ++ untested s.sending.driver.pc ++ s.sending.todo =
    s.sent.flatMap (Report.frame acId)
  read : s.reads.flatten <+: s.line
  sized : ∀ r ∈ s.sent, r.Sized
  nbMsgs : s.downlinkNbMsgs = UInt16.ofNat s.sent.length
  nbBytes : s.downlinkNbBytes = UInt16.ofNat (s.sent.flatMap (Report.frame acId)).length
  nbOvrn : s.downlinkNbOvrn = UInt8.ofNat s.refused.length

theorem line_mainStep (d : Uart.State) : (Uart.mainStep d).usart.line = d.usart.line := by
  unfold Uart.mainStep
  split <;> try split_ifs
  all_goals rfl

theorem line_step (s : Sending) (e : Downlink.Event) :
    s.driver.usart.line <+: (Downlink.step s e).driver.usart.line := by
  cases e with
  | main =>
      simp only [Downlink.step]
      split
      · exact List.prefix_refl _
      · exact List.prefix_refl _
      · rw [line_mainStep]
  | isr r =>
      obtain ⟨-, -, husart, -⟩ := Uart.usartIsrRx_frame r (Uart.usartIsrTx s.driver)
      rw [Downlink.step, Uart.usartIsr, husart]
      unfold Uart.usartIsrTx
      split_ifs <;> exact List.prefix_refl _
  | shift => exact List.prefix_append _ _

/-- The line carries a beginning of the frames of the messages sent. -/
theorem Inv.line_prefix {acId : UInt8} {s : State messages} (h : Inv acId s) :
    s.line <+: s.sent.flatMap (Report.frame acId) := by
  rw [← h.written, ← h.fits.inv.fifo]
  simp only [List.append_assoc]
  exact List.prefix_append _ _

theorem inv_initial (acId : UInt8) (rxBuf txBuf : Nat → UInt8) (rxneie : Bool) :
    Inv acId (initial rxBuf txBuf rxneie : State messages) where
  fits := ⟨Uart.txInv_initial rxBuf txBuf rxneie, by
    simp [initial, Uart.initial, Ring.count, Uart.Pc.inFlight, untested]⟩
  written := by simp [initial, Uart.initial, untested]
  read := List.nil_prefix
  sized := by simp [initial]
  nbMsgs := rfl
  nbBytes := rfl
  nbOvrn := rfl

theorem inv_send {acId : UInt8} {s : State messages} (h : Inv acId s) {r : Report messages}
    (hr : r.Sized) (hpc : s.sending.driver.pc = .idle) (htodo : s.sending.todo = []) :
    Inv acId (send acId r s) := by
  have hlength := r.length_frame acId
  unfold send
  dsimp only
  split_ifs with hcheck
  · have hfree := (uartCheckFreeSpace_iff h.fits.inv.ok _).mp hcheck
    rw [UInt8.toNat_ofNat_of_lt' (by exact hr)] at hfree
    have hwritten := h.written
    rw [htodo, List.append_nil] at hwritten
    refine ⟨⟨h.fits.inv, ?_⟩, ?_, h.read, ?_, ?_, ?_, h.nbOvrn⟩
    · simp only [hpc, Uart.Pc.inFlight, untested, List.length_nil, hlength]
      omega
    · rw [List.flatMap_append, ← hwritten]
      simp
    · intro r' hr'
      rcases List.mem_append.mp hr' with hold | hnew
      · exact h.sized r' hold
      · rwa [List.mem_singleton.mp hnew]
    · simp [h.nbMsgs, UInt16.ofNat_add]
    · simp [h.nbBytes, UInt16.ofNat_add, hlength]
  · refine ⟨h.fits, h.written, h.read, h.sized, h.nbMsgs, h.nbBytes, ?_⟩
    simp [h.nbOvrn, UInt8.ofNat_add]

theorem inv_driver {acId : UInt8} {s : State messages} (h : Inv acId s) (e : Downlink.Event) :
    Inv acId { s with sending := Downlink.step s.sending e } := by
  obtain ⟨hfits, hwritten⟩ := fits_step h.fits e
  exact ⟨hfits, hwritten.trans h.written, h.read.trans (line_step s.sending e), h.sized, h.nbMsgs,
    h.nbBytes, h.nbOvrn⟩

theorem inv_read {acId : UInt8} {s : State messages} (h : Inv acId s) (n : Nat) :
    Inv acId { s with reads := s.reads ++ [(s.line.drop s.reads.flatten.length).take n] } := by
  refine ⟨h.fits, h.written, ?_, h.sized, h.nbMsgs, h.nbBytes, h.nbOvrn⟩
  obtain ⟨rest, hrest⟩ := h.read
  have hdrop : s.line.drop s.reads.flatten.length = rest := by
    rw [← hrest, List.drop_left]
  rw [List.flatten_append, List.flatten_singleton, hdrop]
  change _ <+: s.line
  rw [← hrest, List.prefix_append_right_inj]
  exact List.take_prefix n rest

/-- The messages that the macros are used for. -/
def Event.Sized : Event messages → Prop
  | .send r => r.Sized
  | _ => True

theorem inv_step {acId : UInt8} {s : State messages} (h : Inv acId s) {e : Event messages}
    (he : e.Sized) : Inv acId (step acId s e) := by
  cases e with
  | send r =>
      rw [step]
      split_ifs with hidle
      · exact inv_send h he hidle.1 hidle.2
      · exact h
  | driver e => exact inv_driver h e
  | read n => exact inv_read h n

/-- Nothing is left in the running macro, the ring, the data register or on the line. -/
structure Drained (s : State messages) : Prop where
  todo : s.sending.todo = []
  pc : s.sending.driver.pc = .idle
  stopped : s.sending.driver.uart.txRunning = false
  read : s.reads.flatten = s.line

theorem line_of_drained {acId : UInt8} {s : State messages} (h : Inv acId s) (hs : Drained s) :
    s.reads.flatten = s.sent.flatMap (Report.frame acId) := by
  obtain ⟨hempty, hdr⟩ := h.fits.inv.stopped hs.stopped
  have hnil := (Ring.contents_eq_nil_iff h.fits.inv.ok).mpr hempty
  have hfifo := h.fits.inv.fifo
  rw [hdr, hnil, hs.pc] at hfifo
  have hwritten := h.written
  rw [hs.todo, hs.pc, ← hfifo] at hwritten
  rw [← hwritten, hs.read]
  simp [State.line, Uart.Pc.inFlight, untested]

/-- What the handler of the ground gets. -/
theorem handled_eq {acId : UInt8} {s : State messages} (h : Inv acId s) :
    ∃ k pending, Serial.input GroundReader.pprz [] s.reads =
        some ((s.sent.take k).map (Report.put acId), pending) ∧
      (Drained s → s.sent.take k = s.sent) := by
  obtain ⟨k, pending, hk, hinput, -, hnext⟩ := Serial.input_of_frames GroundReader.stable_pprz
    (fun a b hnone => GroundReader.index_append_of_none hnone b)
    (fun r hr => r.carries acId (h.sized r hr)) (h.read.trans h.line_prefix)
    (GroundReader.fitsBuffer_pprz s.reads.flatten)
  refine ⟨k, pending, hinput, fun hs => ?_⟩
  rw [line_of_drained h hs] at hnext
  refine List.take_of_length_le (Nat.le_of_not_lt fun hlt => ?_)
  have hpart : (s.sent.take (k + 1)).flatMap (Report.frame acId) <+:
      s.sent.flatMap (Report.frame acId) := (List.take_prefix _ _).flatMap _
  exact absurd hpart.length_le (Nat.not_le_of_lt (hnext hlt))

theorem returns_map (acId : UInt8) (reports : List (Report messages)) :
    List.Forall₂ (fun r p => Returns (valuesOfPayload messages p) r.id acId r.values.values)
      reports (reports.map (Report.put acId)) := by
  rw [List.forall₂_map_right_iff, List.forall₂_same]
  intro r _
  exact r.returns acId

/-- The accesses that the running call still makes. -/
def toIdle : Uart.Pc → Nat
  | .idle => 0
  | .testRoom _ _ => 8
  | .readCr1 _ _ => 7
  | .maskTx _ _ _ => 6
  | .testRunning _ _ => 5
  | .storeByte _ _ => 4
  | .moveInsert _ _ => 3
  | .setRunning _ => 4
  | .send _ => 3
  | .readCr1Again => 2
  | .unmaskTx _ => 1
  | .loadByte => 2
  | .moveExtract _ => 1

/-- What is in the transmitter, weighed by the steps that it still needs. -/
def rankOut (d : Uart.State) : Nat :=
  3 * d.uart.tx.count Uart.bufferSize + 2 * d.usart.dr.toList.length +
    if d.uart.txRunning then 1 else 0

def rank (s : State messages) : Nat :=
  4 * (toIdle s.sending.driver.pc + 9 * s.sending.todo.length) + rankOut s.sending.driver +
    (s.line.length - s.reads.flatten.length)

inductive Kind where
  | main
  | shift
  | isr
  | read
  deriving DecidableEq

def Event.kind : Event messages → Option Kind
  | .send _ => none
  | .driver .main => some .main
  | .driver .shift => some .shift
  | .driver (.isr _) => some .isr
  | .read n => if n = 0 then none else some .read

/-- The macro or a call of `uart_transmit` is running. -/
def Busy (s : Sending) : Prop := s.driver.pc ≠ .idle ∨ s.todo ≠ []

instance (s : Sending) : Decidable (Busy s) := inferInstanceAs (Decidable (_ ∨ _))

/-- What has to happen next. -/
def helpful (s : State messages) : Kind :=
  if Busy s.sending then .main
  else if s.sending.driver.usart.dr.isSome then .shift
  else if s.sending.driver.uart.txRunning then .isr
  else .read

theorem rank_mainStep {d : Uart.State} (h : Uart.TxInv d) (hpc : d.pc ≠ .idle) :
    4 * toIdle (Uart.mainStep d).pc + rankOut (Uart.mainStep d) < 4 * toIdle d.pc + rankOut d := by
  have htested := h.tested
  have htemp := h.room
  unfold Uart.mainStep
  cases hcase : d.pc <;> rw [hcase] at htested htemp <;> dsimp only
  case idle => exact absurd hcase hpc
  case storeByte data temp =>
    have hsame := congrArg List.length (Ring.contents_store h.ok data)
    rw [Ring.length_contents, Ring.length_contents] at hsame
    simp only [rankOut, toIdle, hsame]
    omega
  case moveInsert data temp =>
    obtain ⟨rfl, hne⟩ := htemp temp rfl
    have hadd : Ring.count Uart.bufferSize
        { d.uart.tx with insertIdx := Ring.next Uart.bufferSize d.uart.tx.insertIdx } =
        d.uart.tx.count Uart.bufferSize + 1 := Ring.count_advance h.ok hne
    simp only [rankOut, toIdle, hadd]
    omega
  case setRunning data =>
    simp only [rankOut, toIdle]
    split_ifs <;> omega
  case send data =>
    simp only [rankOut, toIdle, Uart.usartSend, htested.2.1, Option.toList_none, Option.toList_some,
      List.length_nil, List.length_singleton]
    omega
  all_goals
    try split_ifs
    all_goals
      simp only [rankOut, toIdle]
      omega

/-- An event brings what was sent nearer to the ground, or it leaves open what has to happen next
and is not it. -/
def Progress (acId : UInt8) (s : State messages) (e : Event messages) : Prop :=
  rank (step acId s e) < rank s ∨
    rank (step acId s e) = rank s ∧ helpful (step acId s e) = helpful s ∧
      ¬ e.kind = some (helpful s)

section

variable {acId : UInt8} {s : State messages}

theorem progress_main (h : Inv acId s) : Progress acId s (.driver .main) := by
  by_cases hbusy : Busy s.sending
  · left
    obtain ⟨⟨d, todo⟩, _, _, _, reads, _, _⟩ := s
    by_cases hpc : d.pc = .idle
    · obtain ⟨data, todo, rfl⟩ := List.exists_cons_of_ne_nil (hbusy.resolve_left (not_not.mpr hpc))
      simp only [rank, State.line, step, step_main_idle hpc, Uart.uartTransmit, hpc, toIdle, rankOut,
        List.length_cons]
      omega
    · have hless := rank_mainStep h.fits.inv hpc
      simp only [rank, State.line, step, step_main (s := ⟨d, todo⟩) hpc, line_mainStep]
      simp only at hless
      omega
  · right
    obtain ⟨hpc, htodo⟩ := not_or.mp hbusy
    have hstep : step acId s (.driver .main) = s := by
      rw [step, step_main_done (not_not.mp hpc) (not_not.mp htodo)]
    rw [hstep]
    refine ⟨rfl, rfl, ?_⟩
    simp only [helpful, if_neg hbusy, Event.kind]
    split_ifs <;> simp

theorem progress_shift (h : Inv acId s) : Progress acId s (.driver .shift) := by
  have hread := h.read.length_le
  cases hdr : s.sending.driver.usart.dr with
  | some data =>
      left
      simp only [State.line] at hread
      simp only [rank, State.line, step, Downlink.step, Uart.shiftOut, rankOut, hdr,
        Option.toList_some, Option.toList_none, List.length_append, List.length_singleton,
        List.length_nil]
      omega
  | none =>
      right
      have hstep : step acId s (.driver .shift) = s := by
        obtain ⟨⟨⟨uart, ⟨cr1, dr, line⟩, pc, accepted, received, taken⟩, todo⟩, _⟩ := s
        simp only at hdr
        simp [step, Downlink.step, Uart.shiftOut, hdr]
      rw [hstep]
      refine ⟨rfl, rfl, ?_⟩
      simp only [helpful, hdr, Event.kind]
      split_ifs <;> simp_all

theorem idle_of_helpful_isr (hs : helpful s = .isr) :
    s.sending.driver.pc = .idle ∧ s.sending.driver.usart.dr = none ∧
      s.sending.driver.uart.txRunning = true := by
  unfold helpful at hs
  split_ifs at hs with hbusy hdr hrun
  exact ⟨not_not.mp (not_or.mp hbusy).1, by simpa using hdr, hrun⟩

theorem progress_isr (h : Inv acId s) (r : Uart.RxReads) : Progress acId s (.driver (.isr r)) := by
  obtain ⟨htx, hrunning, husart, hpc, -, -⟩ :=
    Uart.usartIsrRx_frame r (Uart.usartIsrTx s.sending.driver)
  by_cases hserve : (s.sending.driver.usart.cr1.txeie && s.sending.driver.usart.txe) = true
  · have hempty : s.sending.driver.usart.dr = none :=
      Option.isNone_iff_eq_none.mp (Bool.and_eq_true_iff.mp hserve).2
    by_cases hne : s.sending.driver.uart.tx.insertIdx ≠ s.sending.driver.uart.tx.extractIdx
    · left
      have hcons := congrArg List.length (Ring.contents_eq_cons h.fits.inv.ok hne)
      rw [List.length_cons, Ring.length_contents, Ring.length_contents] at hcons
      simp only [rank, State.line, step, Downlink.step, Uart.usartIsr, rankOut, htx, hrunning,
        husart, hpc]
      rw [Uart.usartIsrTx, if_pos hserve, if_pos hne]
      simp only [Uart.usartSend, hempty, hcons, Option.toList_some, Option.toList_none,
        List.length_singleton, List.length_nil]
      omega
    · simp only [Progress, rank, helpful, Busy, State.line, step, Downlink.step, Uart.usartIsr,
        rankOut, htx, hrunning, husart, hpc]
      rw [Uart.usartIsrTx, if_pos hserve, if_neg hne]
      cases hrun : s.sending.driver.uart.txRunning with
      | true => simp
      | false =>
          right
          refine ⟨rfl, rfl, ?_⟩
          simp only [Event.kind, hempty]
          split_ifs <;> simp_all
  · right
    have hsame : Uart.usartIsrTx s.sending.driver = s.sending.driver := by
      rw [Uart.usartIsrTx, if_neg hserve]
    rw [hsame] at htx hrunning husart hpc
    refine ⟨?_, ?_, fun hkind => ?_⟩
    · simp only [rank, State.line, step, Downlink.step, Uart.usartIsr, rankOut, hsame, htx, hrunning,
        husart, hpc]
    · have hbusy : Busy (step acId s (.driver (.isr r))).sending ↔ Busy s.sending := by
        simp only [Busy, step, Downlink.step, Uart.usartIsr, hsame, hpc]
      simp only [helpful, hbusy]
      simp only [step, Downlink.step, Uart.usartIsr, hsame, hrunning, husart]
    · -- a running transmitter between two calls has its interrupt unmasked
      obtain ⟨hidle, hdr, hrun⟩ := idle_of_helpful_isr (Option.some.inj hkind).symm
      have hserved := h.fits.inv.served
      rw [hidle] at hserved
      simp [hserved rfl hrun, Uart.Usart.txe, hdr] at hserve

theorem progress_read (h : Inv acId s) (hs : ¬ Drained s) (n : Nat) :
    Progress acId s (.read n) := by
  obtain ⟨rest, hrest⟩ := h.read
  have hline : s.line.length = s.reads.flatten.length + rest.length := by
    rw [← hrest, List.length_append]
  have hdrop : s.line.drop s.reads.flatten.length = rest := by
    rw [← hrest, List.drop_left]
  have hstep : rank (step acId s (.read n)) + min n rest.length = rank s := by
    simp only [rank, step, hdrop]
    simp only [State.line] at hline
    simp only [State.line, hline, List.flatten_append, List.flatten_singleton, List.length_append,
      List.length_take]
    omega
  by_cases hnone : min n rest.length = 0
  · right
    refine ⟨by omega, rfl, ?_⟩
    by_cases hn : n = 0
    · simp [Event.kind, hn]
    · simp only [Event.kind, if_neg hn, helpful]
      split_ifs with hbusy hdr hrun
      · simp
      · simp
      · simp
      · -- all that was written has been read
        have hempty : rest = [] := List.length_eq_zero_iff.mp (by omega)
        obtain ⟨hpc, htodo⟩ := not_or.mp hbusy
        refine absurd ⟨not_not.mp htodo, not_not.mp hpc, ?_, ?_⟩ hs
        · simpa using hrun
        · rw [← hrest, hempty, List.append_nil]
  · left
    omega

theorem progress (h : Inv acId s) (hs : ¬ Drained s) {e : Event messages}
    (he : ∀ r, e ≠ .send r) : Progress acId s e := by
  cases e with
  | send r => exact absurd rfl (he r)
  | read n => exact progress_read h hs n
  | driver e =>
      cases e with
      | main => exact progress_main h
      | isr r => exact progress_isr h r
      | shift => exact progress_shift h

theorem drained_step (h : Inv acId s) (hs : Drained s) {e : Event messages}
    (he : ∀ r, e ≠ .send r) : Drained (step acId s e) ∧ (step acId s e).sent = s.sent := by
  obtain ⟨-, hdr⟩ := h.fits.inv.stopped hs.stopped
  cases e with
  | send r => exact absurd rfl (he r)
  | read n =>
      refine ⟨⟨hs.todo, hs.pc, hs.stopped, ?_⟩, rfl⟩
      simp [step, hs.read, State.line]
  | driver e =>
      refine ⟨?_, rfl⟩
      cases e with
      | main =>
          rw [step, step_main_done hs.pc hs.todo]
          exact hs
      | shift =>
          refine ⟨hs.todo, hs.pc, hs.stopped, hs.read.trans ?_⟩
          simp [State.line, step, Downlink.step, Uart.shiftOut, hdr]
      | isr r =>
          obtain ⟨-, hrunning, husart, hpc, -, -⟩ :=
            Uart.usartIsrRx_frame r (Uart.usartIsrTx s.sending.driver)
          obtain ⟨hempty, -⟩ := h.fits.inv.stopped hs.stopped
          have htx : (Uart.usartIsrTx s.sending.driver).pc = s.sending.driver.pc ∧
              (Uart.usartIsrTx s.sending.driver).uart.txRunning = false ∧
              (Uart.usartIsrTx s.sending.driver).usart.line = s.line := by
            unfold Uart.usartIsrTx
            split_ifs with hserve hne
            · exact absurd hempty hne
            · exact ⟨rfl, rfl, rfl⟩
            · exact ⟨rfl, hs.stopped, rfl⟩
          refine ⟨hs.todo, ?_, ?_, hs.read.trans ?_⟩
          · exact (hpc.trans htx.1).trans hs.pc
          · exact hrunning.trans htx.2.1
          · exact htx.2.2.symm.trans (congrArg Uart.Usart.line husart).symm

end

end

/-! ### A report -/

theorem counterIs_fits : ∀ e ∈ (counterIs .uint32 5 trivial).entries,
    ReadingFits e.1.type.element e.2.reading := by
  intro e he
  cases List.mem_singleton.mp he
  exact ⟨by decide, by decide⟩

def counterReport : Report (counterTable .uint32) where
  id := 7
  message := counterMessage .uint32
  listed := rfl
  values := counterIs .uint32 5 trivial
  args := (counterIs .uint32 5 trivial).objects
  holds := Assignment.holds_objects _ counterIs_fits
  codable := by
    intro e he
    cases List.mem_singleton.mp he
    exact ⟨by decide, fun _ => by decide⟩

theorem counterReport_sized : counterReport.Sized := by
  unfold Report.Sized Report.size
  decide

/-- One message, and then everybody's turn, round after round. -/
def rounds (t : Nat) : Event (counterTable .uint32) :=
  if t = 0 then .send counterReport
  else if t % 4 = 0 then .driver .main
  else if t % 4 = 1 then .driver .shift
  else if t % 4 = 2 then .driver (.isr ⟨false, false, false, false, false, false, false, 0⟩)
  else .read 64

end Paparazzi.Link.TelemetryPath
