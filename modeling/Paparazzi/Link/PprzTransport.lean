import Mathlib.Tactic.SplitIfs
import Paparazzi.Library.Bytes
import Paparazzi.Library.Machine
import Paparazzi.Link.Transport

/-!
Pprz frames: the writers of the ground (`Pprz.Transport.packet`) and of the air
(`PprzTransportHeader`, the `Put` macros, `PprzTransportTrailer`), and the
airborne parser `parse_pprz`.
-/

namespace Paparazzi.Link.PprzTransport

open Paparazzi.Library

def stx : UInt8 := 0x99

/-! ### Writers -/

/-- `compute_checksum` of `PprzTransportBase`: over the bytes 1 to `l - 3`. -/
def computeChecksum (msg : List UInt8) : UInt8 × UInt8 :=
  Checksum.fletcher 0 0 ((msg.drop 1).take (msg.length - 3))

/-- `packet` of `PprzTransportBase`; `none` where it raises `Invalid_argument`. -/
def packet (payload : List UInt8) : Option (List UInt8) :=
  let msgLength := payload.length + 4
  if msgLength ≥ 256 then none
  else
    let m := [stx, UInt8.ofNat msgLength] ++ payload
    let ck := computeChecksum (m ++ [0, 0])
    some (m ++ [ck.1, ck.2])

/-- The bytes put on the device, with the running checksum. -/
structure Writer where
  out : List UInt8
  ckA : UInt8
  ckB : UInt8
  deriving DecidableEq, Repr

/-- `PprzTransportHeader(_dev, payload_len)`. -/
def pprzTransportHeader (payloadLen : UInt8) : Writer where
  out := [stx, payloadLen + 4]
  ckA := payloadLen + 4
  ckB := payloadLen + 4

/-- `PprzTransportPutUint8(_dev, _byte)`. -/
def pprzTransportPutUint8 (w : Writer) (byte : UInt8) : Writer where
  out := w.out ++ [byte]
  ckA := w.ckA + byte
  ckB := w.ckB + (w.ckA + byte)

/-- `PprzTransportTrailer(_dev)`. -/
def pprzTransportTrailer (w : Writer) : List UInt8 :=
  w.out ++ [w.ckA, w.ckB]

/-- The bytes that the autopilot writes for a payload. -/
def airborneFrame (payload : List UInt8) : List UInt8 :=
  pprzTransportTrailer
    (payload.foldl pprzTransportPutUint8 (pprzTransportHeader (UInt8.ofNat payload.length)))

/-- A frame with length byte `len`. -/
def frameOf (len : UInt8) (data : List UInt8) : List UInt8 :=
  [stx, len] ++ data ++ [(Checksum.fletcher len len data).1, (Checksum.fletcher len len data).2]

theorem foldl_put (w : Writer) (payload : List UInt8) :
    payload.foldl pprzTransportPutUint8 w =
      { out := w.out ++ payload
        ckA := (Checksum.fletcher w.ckA w.ckB payload).1
        ckB := (Checksum.fletcher w.ckA w.ckB payload).2 } := by
  induction payload generalizing w with
  | nil => simp
  | cons c payload ih => simp [ih, pprzTransportPutUint8]

theorem airborneFrame_eq (payload : List UInt8) :
    airborneFrame payload = frameOf (UInt8.ofNat payload.length + 4) payload := by
  simp [airborneFrame, foldl_put, pprzTransportHeader, pprzTransportTrailer, frameOf]

/-- The two writers agree on the payloads that the ground accepts. -/
theorem packet_eq_airborneFrame {payload : List UInt8} (h : payload.length ≤ 251) :
    packet payload = some (airborneFrame payload) := by
  have hlt : ¬ payload.length + 4 ≥ 256 := by omega
  have hlen : UInt8.ofNat (payload.length + 4) = UInt8.ofNat payload.length + 4 := by
    rw [UInt8.ofNat_add]
    rfl
  simp only [packet, if_neg hlt, airborneFrame_eq, frameOf, computeChecksum, hlen]
  simp

/-! ### The parser -/

inductive Status where
  | uninit
  | gotStx
  | gotLength
  | gotPayload
  | gotCrc1
  deriving DecidableEq, Repr

/-- `struct pprz_transport`. -/
structure Parser where
  trans : Transport
  status : Status
  payloadIdx : UInt8
  ckA : UInt8
  ckB : UInt8

/-- The label `error` of `parse_pprz`. -/
def parseError (t : Parser) : Parser :=
  { t with trans := { t.trans with error := t.trans.error + 1 }, status := .uninit }

def parsePprz (t : Parser) (c : UInt8) : Parser :=
  match t.status with
  | .uninit => if c = stx then { t with status := .gotStx } else t
  | .gotStx =>
      if t.trans.msgReceived then
        parseError { t with trans := { t.trans with ovrn := t.trans.ovrn + 1 } }
      else
        { t with
          trans := { t.trans with payloadLen := c - 4 }
          ckA := c
          ckB := c
          status := .gotLength
          payloadIdx := 0 }
  | .gotLength =>
      { t with
        trans := { t.trans with payload := Function.update t.trans.payload t.payloadIdx c }
        ckA := t.ckA + c
        ckB := t.ckB + (t.ckA + c)
        payloadIdx := t.payloadIdx + 1
        status := if t.payloadIdx + 1 = t.trans.payloadLen then .gotPayload else .gotLength }
  | .gotPayload => if c ≠ t.ckA then parseError t else { t with status := .gotCrc1 }
  | .gotCrc1 =>
      if c ≠ t.ckB then parseError t
      else { t with trans := { t.trans with msgReceived := true }, status := .uninit }

section Steps

variable {t : Parser}

theorem parse_stx (hstatus : t.status = .uninit) : parsePprz t stx = { t with status := .gotStx } := by
  simp [parsePprz, hstatus]

theorem parse_length (hstatus : t.status = .gotStx) (hreceived : t.trans.msgReceived = false)
    (len : UInt8) :
    parsePprz t len =
      { t with
        trans := { t.trans with payloadLen := len - 4 }
        ckA := len
        ckB := len
        status := .gotLength
        payloadIdx := 0 } := by
  simp [parsePprz, hstatus, hreceived]

theorem parse_ckA (hstatus : t.status = .gotPayload) :
    parsePprz t t.ckA = { t with status := .gotCrc1 } := by
  simp [parsePprz, hstatus]

theorem parse_ckB (hstatus : t.status = .gotCrc1) :
    parsePprz t t.ckB =
      { t with trans := { t.trans with msgReceived := true }, status := .uninit } := by
  simp [parsePprz, hstatus]

end Steps

/-- The parser after a byte string. -/
def feed (t : Parser) (bytes : List UInt8) : Parser := bytes.foldl parsePprz t

/-- `msg_received` after each byte of a byte string. -/
def trace : Parser → List UInt8 → List Bool
  | _, [] => []
  | t, c :: bytes => (parsePprz t c).trans.msgReceived :: trace (parsePprz t c) bytes

@[simp] theorem feed_nil (t : Parser) : feed t [] = t := rfl

@[simp] theorem feed_cons (t : Parser) (c : UInt8) (bytes : List UInt8) :
    feed t (c :: bytes) = feed (parsePprz t c) bytes := rfl

theorem feed_append (t : Parser) (bytes bytes' : List UInt8) :
    feed t (bytes ++ bytes') = feed (feed t bytes) bytes' := by
  simp [feed]

theorem trace_append (t : Parser) (bytes bytes' : List UInt8) :
    trace t (bytes ++ bytes') = trace t bytes ++ trace (feed t bytes) bytes' := by
  induction bytes generalizing t with
  | nil => rfl
  | cons c bytes ih => simp [trace, ih]

/-! ### The payload phase -/

/-- The payload bytes that `parse_pprz` waits for: an 8-bit index that counts to
zero takes a whole turn. -/
def expected (payloadLen : UInt8) : Nat :=
  if payloadLen = 0 then 256 else payloadLen.toNat

/-- The parser has read the length byte `len` and the payload bytes `data`. -/
structure Reading (t : Parser) (len : UInt8) (data : List UInt8) : Prop where
  payloadLen : t.trans.payloadLen = len - 4
  received : t.trans.msgReceived = false
  checksum : (t.ckA, t.ckB) = Checksum.fletcher len len data
  holds : Holds t.trans.payload data

theorem index_eq_iff {n : Nat} {payloadLen : UInt8} (hn : n < expected payloadLen) :
    UInt8.ofNat n + 1 = payloadLen ↔ n + 1 = expected payloadLen := by
  have hlt := payloadLen.toNat_lt
  rw [← UInt8.toNat_inj]
  unfold expected at *
  by_cases hzero : payloadLen = 0
  · subst hzero
    simp only [if_pos, UInt8.toNat_add, UInt8.toNat_ofNat'] at hn ⊢
    simp
    omega
  · simp only [if_neg hzero] at hn ⊢
    have hpos : payloadLen.toNat ≠ 0 := by
      intro h
      exact hzero (UInt8.toNat_inj.mp h)
    simp only [UInt8.toNat_add, UInt8.toNat_ofNat']
    simp
    omega

/-- One payload byte: the next phase starts with the last of them. -/
theorem reading_step {t : Parser} {len : UInt8} {data : List UInt8} (h : Reading t len data)
    (hstatus : t.status = .gotLength) (hidx : t.payloadIdx = UInt8.ofNat data.length)
    (hlt : data.length < expected (len - 4)) (c : UInt8) :
    Reading (parsePprz t c) len (data ++ [c]) ∧
      (parsePprz t c).payloadIdx = UInt8.ofNat (data ++ [c]).length ∧
      (parsePprz t c).status =
        if (data ++ [c]).length = expected (len - 4) then .gotPayload else .gotLength := by
  have hsmall : data.length < 256 := by
    have := (len - 4).toNat_lt
    unfold expected at hlt
    split_ifs at hlt <;> omega
  have hck : (t.ckA + c, t.ckB + (t.ckA + c)) = Checksum.fletcher len len (data ++ [c]) := by
    rw [Checksum.fletcher_concat, ← h.checksum]
  have hnext : t.payloadIdx + 1 = UInt8.ofNat (data ++ [c]).length := by
    rw [hidx, List.length_append, List.length_singleton, UInt8.ofNat_add]
    rfl
  have hlast : t.payloadIdx + 1 = t.trans.payloadLen ↔
      (data ++ [c]).length = expected (len - 4) := by
    rw [hidx, h.payloadLen, index_eq_iff hlt, List.length_append, List.length_singleton]
  simp only [parsePprz, hstatus]
  refine ⟨⟨h.payloadLen, h.received, hck, ?_⟩, hnext, ?_⟩
  · rw [hidx]
    exact h.holds.update hsmall c
  · simp only [hlast]

/-! ### What was read since the start of the frame -/

/-- What happens to the parser: a byte, or the message is taken (`msg_received = FALSE`). -/
inductive Event where
  | byte (c : UInt8)
  | take
  deriving DecidableEq, Repr

/-- The parser with the bytes read since the last `STX` accepted. -/
structure Tracked where
  parser : Parser
  frame : List UInt8

def track (s : Tracked) : Event → Tracked
  | .byte c =>
      { parser := parsePprz s.parser c
        frame :=
          if s.parser.status = .uninit then if c = stx then [c] else [] else s.frame ++ [c] }
  | .take =>
      { s with
        parser := { s.parser with trans := { s.parser.trans with msgReceived := false } } }

/-- The bytes read since the last `STX` are the beginning of a frame. -/
def FrameSoFar (s : Tracked) : Prop :=
  match s.parser.status with
  | .uninit => True
  | .gotStx => s.frame = [stx]
  | .gotLength => ∃ len data, s.frame = [stx, len] ++ data ∧ Reading s.parser len data ∧
      s.parser.payloadIdx = UInt8.ofNat data.length ∧ data.length < expected (len - 4)
  | .gotPayload => ∃ len data, s.frame = [stx, len] ++ data ∧ Reading s.parser len data ∧
      data.length = expected (len - 4)
  | .gotCrc1 => ∃ len data, s.frame = [stx, len] ++ data ++ [s.parser.ckA] ∧
      Reading s.parser len data ∧ data.length = expected (len - 4)

theorem expected_pos (payloadLen : UInt8) : 0 < expected payloadLen := by
  unfold expected
  split_ifs with hzero
  · omega
  · have hne : payloadLen.toNat ≠ 0 := fun h => hzero (UInt8.toNat_inj.mp h)
    omega

theorem frameSoFar_byte {s : Tracked} (h : FrameSoFar s) (c : UInt8) :
    FrameSoFar (track s (.byte c)) := by
  cases hstatus : s.parser.status with
  | uninit =>
      by_cases hc : c = stx <;> simp [FrameSoFar, track, parsePprz, hstatus, hc]
  | gotStx =>
      simp only [FrameSoFar, hstatus] at h
      cases hreceived : s.parser.trans.msgReceived with
      | true => simp [FrameSoFar, track, parsePprz, parseError, hstatus, hreceived]
      | false =>
          simp only [FrameSoFar, track, parse_length hstatus hreceived]
          refine ⟨c, [], ?_, ⟨rfl, hreceived, rfl, holds_nil _⟩, rfl, expected_pos _⟩
          simp [h, hstatus]
  | gotLength =>
      simp only [FrameSoFar, hstatus] at h
      obtain ⟨len, data, hframe, hreading, hidx, hlt⟩ := h
      obtain ⟨hreading', hidx', hstatus'⟩ := reading_step hreading hstatus hidx hlt c
      have hframe' : (track s (.byte c)).frame = [stx, len] ++ (data ++ [c]) := by
        simp [track, hstatus, hframe]
      by_cases hlast : (data ++ [c]).length = expected (len - 4)
      · rw [if_pos hlast] at hstatus'
        simp only [FrameSoFar, track, hstatus']
        exact ⟨len, data ++ [c], hframe', hreading', hlast⟩
      · rw [if_neg hlast] at hstatus'
        simp only [FrameSoFar, track, hstatus']
        refine ⟨len, data ++ [c], hframe', hreading', hidx', ?_⟩
        rw [List.length_append, List.length_singleton] at hlast ⊢
        omega
  | gotPayload =>
      simp only [FrameSoFar, hstatus] at h
      obtain ⟨len, data, hframe, hreading, hlen⟩ := h
      by_cases hc : c = s.parser.ckA
      · subst hc
        simp only [FrameSoFar, track, parse_ckA hstatus]
        refine ⟨len, data, ?_, ⟨hreading.payloadLen, hreading.received, hreading.checksum,
          hreading.holds⟩, hlen⟩
        simp [hframe, hstatus]
      · simp [FrameSoFar, track, parsePprz, parseError, hstatus, hc]
  | gotCrc1 =>
      by_cases hc : c = s.parser.ckB <;>
        simp [FrameSoFar, track, parsePprz, parseError, hstatus, hc]

theorem frameSoFar_take {s : Tracked} (h : FrameSoFar s) : FrameSoFar (track s .take) := by
  cases hstatus : s.parser.status with
  | uninit => simp [FrameSoFar, track, hstatus]
  | gotStx => simpa [FrameSoFar, track, hstatus] using h
  | gotLength =>
      simp only [FrameSoFar, track, hstatus] at h ⊢
      obtain ⟨len, data, hframe, hreading, hidx, hlt⟩ := h
      exact ⟨len, data, hframe, ⟨hreading.payloadLen, rfl, hreading.checksum, hreading.holds⟩,
        hidx, hlt⟩
  | gotPayload =>
      simp only [FrameSoFar, track, hstatus] at h ⊢
      obtain ⟨len, data, hframe, hreading, hlen⟩ := h
      exact ⟨len, data, hframe, ⟨hreading.payloadLen, rfl, hreading.checksum, hreading.holds⟩, hlen⟩
  | gotCrc1 =>
      simp only [FrameSoFar, track, hstatus] at h ⊢
      obtain ⟨len, data, hframe, hreading, hlen⟩ := h
      exact ⟨len, data, hframe, ⟨hreading.payloadLen, rfl, hreading.checksum, hreading.holds⟩, hlen⟩

/-- What `parse_pprz` accepts: the message becomes available with this byte. -/
def Accepts (t : Parser) (c : UInt8) : Prop :=
  t.trans.msgReceived = false ∧ (parsePprz t c).trans.msgReceived = true

theorem status_of_accepts {t : Parser} {c : UInt8} (h : Accepts t c) :
    t.status = .gotCrc1 ∧ c = t.ckB := by
  obtain ⟨hbefore, hafter⟩ := h
  cases hstatus : t.status with
  | uninit => by_cases hc : c = stx <;> simp_all [parsePprz]
  | gotStx => simp_all [parsePprz]
  | gotLength => simp_all [parsePprz]
  | gotPayload => by_cases hc : c = t.ckA <;> simp_all [parsePprz, parseError]
  | gotCrc1 => by_cases hc : c = t.ckB <;> simp_all [parsePprz, parseError]

/-- The bytes of an accepted frame, with a checksum pair and a payload of the
length that the parser waited for. -/
theorem frame_of_accepts {s : Tracked} {c : UInt8} (h : FrameSoFar s) (hc : Accepts s.parser c) :
    ∃ len data, (track s (.byte c)).frame = frameOf len data ∧
      data.length = expected (len - 4) ∧
      (parsePprz s.parser c).trans.payloadLen = len - 4 ∧
      Holds (parsePprz s.parser c).trans.payload data := by
  obtain ⟨hstatus, rfl⟩ := status_of_accepts hc
  simp only [FrameSoFar, hstatus] at h
  obtain ⟨len, data, hframe, hreading, hlen⟩ := h
  refine ⟨len, data, ?_, hlen, ?_, ?_⟩
  · simp only [track, hstatus, hframe, frameOf, ← hreading.checksum]
    simp
  · rw [parse_ckB hstatus]
    exact hreading.payloadLen
  · rw [parse_ckB hstatus]
    exact hreading.holds

/-- The frames of the format: what the writers make of a payload. -/
def IsFrame (frame : List UInt8) : Prop :=
  ∃ payload, packet payload = some frame

theorem expected_eq {len : UInt8} (hlen : 5 ≤ len) : expected (len - 4) = len.toNat - 4 := by
  have h5 : 5 ≤ len.toNat := UInt8.le_iff_toNat_le.mp hlen
  have hsub : (len - 4).toNat = len.toNat - 4 :=
    UInt8.toNat_sub_of_le len 4 (UInt8.le_iff_toNat_le.mpr (by simp; omega))
  have hne : len - 4 ≠ 0 := by
    intro h
    rw [h] at hsub
    simp at hsub
    omega
  rw [expected, if_neg hne, hsub]

theorem length_of_short {len : UInt8} (hlen : ¬ 5 ≤ len) : 252 ≤ expected (len - 4) := by
  have h5 : len.toNat < 5 := by
    rw [UInt8.le_iff_toNat_le] at hlen
    simpa using hlen
  unfold expected
  split_ifs with hzero
  · omega
  · have hne : len.toNat ≠ 4 := by
      intro h
      apply hzero
      apply UInt8.toNat_inj.mp
      rw [UInt8.toNat_sub, h]
      rfl
    rw [UInt8.toNat_sub]
    simp
    omega

/-- A frame with a consistent length is one of the format unless its length byte
is below five. -/
theorem isFrame_frameOf_iff {len : UInt8} {data : List UInt8}
    (hlen : data.length = expected (len - 4)) : IsFrame (frameOf len data) ↔ 5 ≤ len := by
  constructor
  · rintro ⟨payload, hpacket⟩
    by_contra hshort
    have hlong := length_of_short hshort
    have hsize : (frameOf len data).length = data.length + 4 := by simp [frameOf]
    simp only [packet] at hpacket
    split_ifs at hpacket with hlt
    have hframe := congrArg List.length (Option.some.inj hpacket)
    rw [hsize] at hframe
    simp at hframe
    omega
  · intro h5
    have hexp := expected_eq h5
    have hlt := len.toNat_lt
    refine ⟨data, ?_⟩
    rw [packet_eq_airborneFrame (by omega), airborneFrame_eq]
    congr 2
    apply UInt8.toNat_inj.mp
    have h5' : 5 ≤ len.toNat := UInt8.le_iff_toNat_le.mp h5
    rw [hlen, hexp]
    simp only [UInt8.toNat_add, UInt8.toNat_ofNat']
    simp
    omega

/-! ### Delivery -/

/-- Waiting for a frame, with no message pending. -/
def Idle (t : Parser) : Prop := t.status = .uninit ∧ t.trans.msgReceived = false

/-- The frame is received with its last byte and not before, with its payload. -/
def Delivered (payload frame : List UInt8) : Prop :=
  ∀ t, Idle t → trace t frame = List.replicate (frame.length - 1) false ++ [true] ∧
    (feed t frame).trans.contents = payload

/-- Reading the payload bytes up to the expected number. -/
theorem feed_data {t : Parser} {len : UInt8} {data rest : List UInt8} (h : Reading t len data)
    (hstatus : t.status = .gotLength) (hidx : t.payloadIdx = UInt8.ofNat data.length)
    (hrest : rest ≠ []) (hlt : (data ++ rest).length ≤ expected (len - 4)) :
    Reading (feed t rest) len (data ++ rest) ∧ trace t rest = List.replicate rest.length false ∧
      (feed t rest).status =
        if (data ++ rest).length = expected (len - 4) then .gotPayload else .gotLength := by
  induction rest generalizing t data with
  | nil => exact absurd rfl hrest
  | cons c rest ih =>
      have hlt' : data.length < expected (len - 4) := by
        simp at hlt
        omega
      obtain ⟨hreading, hidx', hstatus'⟩ := reading_step h hstatus hidx hlt' c
      cases rest with
      | nil => exact ⟨hreading, by simp [trace, hreading.received], hstatus'⟩
      | cons c' rest =>
          have hnot : (data ++ [c]).length ≠ expected (len - 4) := by
            simp at hlt ⊢
            omega
          rw [if_neg hnot] at hstatus'
          have hall : data ++ c :: c' :: rest = (data ++ [c]) ++ c' :: rest := by simp
          obtain ⟨hreading'', htrace, hstatus''⟩ := ih hreading hstatus' hidx' (by simp)
            (by rw [← hall]; exact hlt)
          rw [hall]
          refine ⟨hreading'', ?_, hstatus''⟩
          rw [trace, htrace, hreading.received]
          rfl

/-- From an idle parser, the two first bytes of a frame start its payload. -/
theorem feed_start {t : Parser} (ht : Idle t) (len : UInt8) :
    Reading (feed t [stx, len]) len [] ∧ (feed t [stx, len]).status = .gotLength ∧
      (feed t [stx, len]).payloadIdx = 0 ∧ trace t [stx, len] = [false, false] := by
  obtain ⟨hstatus, hreceived⟩ := ht
  have hfeed : feed t [stx, len] =
      { t with
        trans := { t.trans with payloadLen := len - 4 }
        ckA := len
        ckB := len
        status := .gotLength
        payloadIdx := 0 } := by
    simp [parse_stx hstatus, parse_length (t := { t with status := .gotStx }) rfl hreceived]
  have htrace : trace t [stx, len] = [false, false] := by
    simp [trace, parse_stx hstatus, parse_length (t := { t with status := .gotStx }) rfl hreceived,
      hreceived]
  rw [hfeed]
  exact ⟨⟨rfl, hreceived, rfl, holds_nil _⟩, rfl, rfl, htrace⟩

/-- A frame whose length byte announces its payload is delivered. -/
theorem delivered_frameOf {len : UInt8} {data : List UInt8} (hdata : data ≠ [])
    (hlen : data.length = expected (len - 4)) (hsize : data.length ≤ 251) :
    Delivered data (frameOf len data) := by
  intro t ht
  obtain ⟨hstart, hstatus, hidx, htrace⟩ := feed_start ht len
  obtain ⟨hreading, hdatatrace, hend⟩ := feed_data hstart hstatus hidx hdata
    (by simpa using Nat.le_of_eq hlen)
  rw [List.nil_append, if_pos hlen] at hend
  rw [List.nil_append] at hreading
  have hframe : frameOf len data = [stx, len] ++ (data ++ [(feed (feed t [stx, len]) data).ckA,
      (feed (feed t [stx, len]) data).ckB]) := by
    simp [frameOf, ← hreading.checksum]
  rw [hframe, feed_append, feed_append, trace_append, trace_append, htrace, hdatatrace]
  generalize hu : feed (feed t [stx, len]) data = u at hreading hend ⊢
  have hckA := parse_ckA hend
  have hckB : parsePprz { u with status := .gotCrc1 } u.ckB =
      { u with trans := { u.trans with msgReceived := true }, status := .uninit } :=
    parse_ckB (t := { u with status := .gotCrc1 }) rfl
  constructor
  · simp only [trace, hckA, hckB, hreading.received, List.length_append, List.length_cons,
      List.length_nil]
    rw [show (0 + 1 + 1 + (data.length + (0 + 1 + 1)) - 1) = 2 + (data.length + 1) by omega,
      List.replicate_add, List.replicate_add]
    simp [List.replicate]
  · simp only [feed_cons, feed_nil, hckA, hckB]
    apply contents_eq_of_holds hreading.holds
    have hne : len - 4 ≠ 0 := by
      intro hzero
      rw [expected, if_pos hzero] at hlen
      omega
    rw [expected, if_neg hne] at hlen
    simp only [hreading.payloadLen]
    exact hlen.symm

/-- The frame of the empty payload is not delivered: its first checksum byte is
taken for a payload byte. -/
theorem not_delivered_nil : ¬ Delivered [] (airborneFrame []) := by
  intro h
  let t : Parser := ⟨⟨fun _ => 0, 0, false, 0, 0⟩, .uninit, 0, 0, 0⟩
  obtain ⟨htrace, -⟩ := h t ⟨rfl, rfl⟩
  exact absurd htrace (by decide)

theorem delivered_airborneFrame_iff {payload : List UInt8} (h : payload.length ≤ 251) :
    Delivered payload (airborneFrame payload) ↔ payload ≠ [] := by
  constructor
  · rintro hdelivered rfl
    exact not_delivered_nil hdelivered
  · intro hne
    rw [airborneFrame_eq]
    have hpos : 0 < payload.length := List.length_pos_iff.mpr hne
    have hback : (UInt8.ofNat payload.length + 4 - 4) = UInt8.ofNat payload.length := by
      rw [UInt8.add_sub_cancel]
    apply delivered_frameOf hne ?_ h
    rw [hback, expected, if_neg]
    · simp only [UInt8.toNat_ofNat']
      omega
    · intro hzero
      have := congrArg UInt8.toNat hzero
      simp only [UInt8.toNat_ofNat'] at this
      simp at this
      omega

/-! ### The round trip -/

/-- The parser and the history from its start. -/
def afterEvents (t : Parser) (events : List Event) : Tracked :=
  Machine.run track ⟨t, []⟩ events

theorem frameSoFar_afterEvents {t : Parser} (ht : t.status = .uninit) (events : List Event) :
    FrameSoFar (afterEvents t events) := by
  have hok : Machine.RunOk track (fun _ _ => True) ⟨t, []⟩ events := by
    generalize (⟨t, []⟩ : Tracked) = s
    induction events generalizing s with
    | nil => trivial
    | cons e events ih => exact ⟨trivial, ih _⟩
  refine Machine.run_invariant FrameSoFar ?_ (by simp [FrameSoFar, ht]) hok
  intro s e hs _
  cases e with
  | byte c => exact frameSoFar_byte hs c
  | take => exact frameSoFar_take hs

/-- What the parser makes available is a frame of the format with its payload. -/
def AcceptsFrame (s : Tracked) (c : UInt8) : Prop :=
  ∃ payload, packet payload = some (track s (.byte c)).frame ∧
    (track s (.byte c)).parser.trans.contents = payload

theorem acceptsFrame_iff {s : Tracked} {c : UInt8} (h : FrameSoFar s) (hc : Accepts s.parser c) :
    AcceptsFrame s c ↔ 5 ≤ (track s (.byte c)).frame.getD 1 0 := by
  obtain ⟨len, data, hframe, hlen, hpayloadLen, hholds⟩ := frame_of_accepts h hc
  have hlenByte : (track s (.byte c)).frame.getD 1 0 = len := by simp [hframe, frameOf]
  rw [hlenByte, ← isFrame_frameOf_iff hlen, AcceptsFrame, hframe]
  constructor
  · rintro ⟨payload, hpacket, -⟩
    exact ⟨payload, hpacket⟩
  · intro hframe
    have h5 := (isFrame_frameOf_iff hlen).mp hframe
    have hexp := expected_eq h5
    have hne : len - 4 ≠ 0 := by
      intro hzero
      rw [hzero] at hlen hexp
      rw [UInt8.le_iff_toNat_le] at h5
      simp [expected] at hexp
      have := len.toNat_lt
      omega
    rw [expected, if_neg hne] at hlen
    obtain ⟨payload, hpacket⟩ := hframe
    have hsame : payload = data := by
      have hshort : payload.length ≤ 251 := by
        simp only [packet] at hpacket
        split_ifs at hpacket
        omega
      rw [packet_eq_airborneFrame hshort, airborneFrame_eq] at hpacket
      have hbytes := Option.some.inj hpacket
      have hsize := congrArg List.length hbytes
      have htail := congrArg (fun f => (f.drop 2).take data.length) hbytes
      simp only [frameOf, List.length_append, List.length_cons, List.length_nil] at hsize
      have hequal : payload.length = data.length := by omega
      simpa [frameOf, hequal] using htail
    refine ⟨payload, hpacket, ?_⟩
    rw [hsame]
    apply contents_eq_of_holds hholds
    rw [hpayloadLen, hlen]

/-- The two writers agree and the airborne parser delivers what they write exactly
where the payload is not empty; what it accepts is a frame of the format exactly
where its length byte is at least five. -/
theorem pprz_round_trip_iff (payload : List UInt8) (t : Parser) (events : List Event)
    (c : UInt8) :
    (payload.length ≤ 251 →
      packet payload = some (airborneFrame payload) ∧
        (Delivered payload (airborneFrame payload) ↔ payload ≠ [])) ∧
    (Idle t → Accepts (afterEvents t events).parser c →
      (AcceptsFrame (afterEvents t events) c ↔
        5 ≤ (track (afterEvents t events) (.byte c)).frame.getD 1 0)) := by
  constructor
  · intro h
    exact ⟨packet_eq_airborneFrame h, delivered_airborneFrame_iff h⟩
  · intro ht hc
    exact acceptsFrame_iff (frameSoFar_afterEvents ht.1 events) hc

/-- A parser that has read nothing. -/
def initialParser : Parser := ⟨⟨fun _ => 0, 0, false, 0, 0⟩, .uninit, 0, 0, 0⟩

theorem one_byte_payload_round_trip :
    Delivered [7] (airborneFrame [7]) ∧
      AcceptsFrame (afterEvents initialParser
        [.byte 0x99, .byte 5, .byte 7, .byte 12]) 17 := by
  have h := pprz_round_trip_iff [7] initialParser [.byte 0x99, .byte 5, .byte 7, .byte 12] 17
  exact ⟨((h.1 (by decide)).2).mpr (by decide),
    (h.2 ⟨rfl, rfl⟩ ⟨by decide, by decide⟩).mpr (by decide)⟩

theorem empty_payload_not_round_trip :
    ¬ ((∀ payload : List UInt8, payload.length ≤ 251 → Delivered payload (airborneFrame payload)) ∧
      ∀ (t : Parser) (events : List Event) (c : UInt8), Idle t →
        Accepts (afterEvents t events).parser c → AcceptsFrame (afterEvents t events) c) := by
  intro h
  exact not_delivered_nil (h.1 [] (by decide))

end Paparazzi.Link.PprzTransport
