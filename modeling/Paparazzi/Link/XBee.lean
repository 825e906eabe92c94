import Mathlib.Tactic.SplitIfs
import Paparazzi.Library.Bytes
import Paparazzi.Link.Transport

/-!
XBee API frames on board: the writer `XBeeTransportHeader` .. `XBeeTransportTrailer`
of each module variant, the parser `parse_xbee` and `xbee_parse_payload`.
-/

namespace Paparazzi.Link.XBee

open Paparazzi.Library

/-- The headers that configure a module: `xbee24.h`, `xbee868.h`, `xbee_pro_s2b.h`. -/
inductive Variant where
  | xbee24
  | xbee868
  | xbeeProS2b
  deriving DecidableEq, Repr

def xbeeStart : UInt8 := 0x7e

/-- `XBEE_TX_ID`. -/
def Variant.txId : Variant → UInt8
  | .xbee24 => 0x01
  | .xbee868 => 0x10
  | .xbeeProS2b => 0x10

/-- `XBEE_RX_ID`. -/
def Variant.rxId : Variant → UInt8
  | .xbee24 => 0x81
  | .xbee868 => 0x90
  | .xbeeProS2b => 0x90

/-- `XBEE_RFDATA_OFFSET`. -/
def Variant.rfdataOffset : Variant → Nat
  | .xbee24 => 5
  | .xbee868 => 12
  | .xbeeProS2b => 12

/-! ### The writer -/

/-- The bytes put on the device and `xbee_cs`. -/
structure Writer where
  out : List UInt8
  cs : UInt8
  deriving DecidableEq, Repr

/-- `XBeeTransportPut1Byte`. -/
def Writer.put1Byte (w : Writer) (x : UInt8) : Writer := { w with out := w.out ++ [x] }

/-- `XBeeTransportPutUint8`. -/
def Writer.putUint8 (w : Writer) (x : UInt8) : Writer :=
  { w with cs := w.cs + x }.put1Byte x

/-- `XBeeTransportPut2Bytes`. -/
def Writer.put2Bytes (w : Writer) (x : UInt16) : Writer :=
  (w.put1Byte (x >>> 8).toUInt8).put1Byte (x &&& 0xff).toUInt8

/-- The bytes of `XBeeTransportPutTXHeader`; `addr` is `GROUND_STATION_ADDR`. -/
def Variant.txHeader (addr : UInt64) : Variant → List UInt8
  | .xbee24 => [0x01, 0, (addr >>> 8).toUInt8, (addr &&& 0xff).toUInt8, 0]
  | .xbee868 =>
      [0x10, 0, 0, 0, 0, 0, 0, 0, (addr >>> 8).toUInt8, (addr &&& 0xff).toUInt8,
        0xff, 0xfe, 0, 0]
  | .xbeeProS2b =>
      [0x10, 0, ((addr >>> 56) &&& 0xff).toUInt8, ((addr >>> 48) &&& 0xff).toUInt8,
        ((addr >>> 40) &&& 0xff).toUInt8, ((addr >>> 32) &&& 0xff).toUInt8,
        ((addr >>> 24) &&& 0xff).toUInt8, ((addr >>> 16) &&& 0xff).toUInt8,
        ((addr >>> 8) &&& 0xff).toUInt8, (addr &&& 0xff).toUInt8, 0xff, 0xfe, 0, 0]

def xbeeAPISizeOf (x : Nat) : Nat := x + 1

def Variant.xbeeTransportSizeOf (x : Nat) : Variant → Nat
  | .xbee24 => xbeeAPISizeOf (x + 4)
  | .xbee868 => xbeeAPISizeOf (x + 13)
  | .xbeeProS2b => xbeeAPISizeOf (x + 13)

/-- `XBeeTransportHeader(_dev, _len)`; `payload_len` is a `uint8_t`. -/
def xbeeTransportHeader (v : Variant) (addr : UInt64) (len : Nat) : Writer :=
  let w : Writer := Writer.put1Byte ⟨[], 0⟩ xbeeStart
  let payloadLen := UInt8.ofNat (v.xbeeTransportSizeOf len)
  let w := w.put2Bytes payloadLen.toUInt16
  (v.txHeader addr).foldl Writer.putUint8 { w with cs := 0 }

/-- `XBeeTransportTrailer(_dev)`. -/
def xbeeTransportTrailer (w : Writer) : List UInt8 :=
  (w.put1Byte (0xff - w.cs)).out

/-- The bytes that the autopilot writes for a payload. -/
def sentFrame (v : Variant) (addr : UInt64) (payload : List UInt8) : List UInt8 :=
  xbeeTransportTrailer (payload.foldl Writer.putUint8 (xbeeTransportHeader v addr payload.length))

/-- A frame with the given length bytes. -/
def frameOf (msb lsb : UInt8) (data : List UInt8) : List UInt8 :=
  [xbeeStart, msb, lsb] ++ data ++ [0xff - Checksum.sum 0 data]

/-- An API frame: the 16-bit length counts the bytes between it and the checksum. -/
def IsApiFrame (frame : List UInt8) : Prop :=
  ∃ msb lsb data, frame = frameOf msb lsb data ∧ data.length = msb.toNat * 256 + lsb.toNat

theorem foldl_putUint8 (w : Writer) (bytes : List UInt8) :
    bytes.foldl Writer.putUint8 w =
      { out := w.out ++ bytes, cs := Checksum.sum w.cs bytes } := by
  induction bytes generalizing w with
  | nil => simp
  | cons c bytes ih => simp [ih, Writer.putUint8, Writer.put1Byte]

theorem length_txHeader (v : Variant) (addr : UInt64) (n : Nat) :
    (v.txHeader addr).length + n = v.xbeeTransportSizeOf n := by
  cases v <;> simp [Variant.txHeader, Variant.xbeeTransportSizeOf, xbeeAPISizeOf] <;> omega

theorem msb_toUInt16 (x : UInt8) : (x.toUInt16 >>> 8).toUInt8 = 0 := by
  apply UInt8.toNat_inj.mp
  have hlt := x.toNat_lt
  simp [Nat.shiftRight_eq_div_pow]
  omega

theorem lsb_toUInt16 (x : UInt8) : (x.toUInt16 &&& 0xff).toUInt8 = x := by
  apply UInt8.toNat_inj.mp
  have hand := Nat.and_two_pow_sub_one_eq_mod x.toNat 8
  simp at hand ⊢
  exact hand

theorem sentFrame_eq (v : Variant) (addr : UInt64) (payload : List UInt8) :
    sentFrame v addr payload =
      frameOf 0 (UInt8.ofNat (v.xbeeTransportSizeOf payload.length))
        (v.txHeader addr ++ payload) := by
  simp only [sentFrame, xbeeTransportHeader, foldl_putUint8, xbeeTransportTrailer, frameOf,
    Writer.put1Byte, Writer.put2Bytes, msb_toUInt16, lsb_toUInt16, Checksum.sum_append]
  simp

/-- What the autopilot writes is an API frame unless its length exceeds a byte. -/
theorem isApiFrame_sentFrame_iff (v : Variant) (addr : UInt64) (payload : List UInt8) :
    IsApiFrame (sentFrame v addr payload) ↔ v.xbeeTransportSizeOf payload.length ≤ 255 := by
  have hlen := length_txHeader v addr payload.length
  rw [sentFrame_eq]
  constructor
  · rintro ⟨msb, lsb, data, hframe, hdata⟩
    simp only [frameOf, List.cons_append, List.nil_append, List.cons.injEq, true_and] at hframe
    obtain ⟨rfl, rfl, hrest⟩ := hframe
    have hsame := congrArg List.length hrest
    simp only [List.length_append, List.length_singleton] at hsame
    rw [UInt8.toNat_ofNat'] at hdata
    simp at hdata
    omega
  · intro hsize
    refine ⟨_, _, _, rfl, ?_⟩
    rw [List.length_append, UInt8.toNat_ofNat']
    simp
    omega

/-! ### The parser -/

inductive Status where
  | uninit
  | gotStart
  | gotLengthMsb
  | gotLengthLsb
  | gotPayload
  deriving DecidableEq, Repr

/-- `struct xbee_transport`. -/
structure Parser where
  trans : Transport
  status : Status
  payloadIdx : UInt8
  cs : UInt8

/-- The label `error` of `parse_xbee`. -/
def parseError (t : Parser) : Parser :=
  { t with trans := { t.trans with error := t.trans.error + 1 }, status := .uninit }

/-- `parse_xbee`; `c<<8` does not fit the 8 bits of `payload_len`. -/
def parseXbee (t : Parser) (c : UInt8) : Parser :=
  match t.status with
  | .uninit => if c = xbeeStart then { t with status := .gotStart } else t
  | .gotStart =>
      if t.trans.msgReceived then
        parseError { t with trans := { t.trans with ovrn := t.trans.ovrn + 1 } }
      else
        { t with
          trans := { t.trans with payloadLen := (c.toUInt16 <<< 8).toUInt8 }
          status := .gotLengthMsb }
  | .gotLengthMsb =>
      { t with
        trans := { t.trans with payloadLen := t.trans.payloadLen ||| c }
        status := .gotLengthLsb
        payloadIdx := 0
        cs := 0 }
  | .gotLengthLsb =>
      { t with
        trans := { t.trans with payload := Function.update t.trans.payload t.payloadIdx c }
        cs := t.cs + c
        payloadIdx := t.payloadIdx + 1
        status := if t.payloadIdx + 1 = t.trans.payloadLen then .gotPayload else .gotLengthLsb }
  | .gotPayload =>
      if c.toNat + t.cs.toNat ≠ 0xff then parseError t
      else { t with trans := { t.trans with msgReceived := true }, status := .uninit }

/-- The parser after a byte string. -/
def feed (t : Parser) (bytes : List UInt8) : Parser := bytes.foldl parseXbee t

/-- Waiting for a frame, with no message pending. -/
def Idle (t : Parser) : Prop := t.status = .uninit ∧ t.trans.msgReceived = false

/-- A parser that has read nothing. -/
def initialParser : Parser := ⟨⟨fun _ => 0, 0, false, 0, 0⟩, .uninit, 0, 0⟩

@[simp] theorem feed_nil (t : Parser) : feed t [] = t := rfl

@[simp] theorem feed_cons (t : Parser) (c : UInt8) (bytes : List UInt8) :
    feed t (c :: bytes) = feed (parseXbee t c) bytes := rfl

theorem feed_append (t : Parser) (bytes bytes' : List UInt8) :
    feed t (bytes ++ bytes') = feed (feed t bytes) bytes' := by
  simp [feed]

/-- The parser is in the payload of `len` bytes and has read `data`. -/
structure Reading (t : Parser) (len : UInt8) (data : List UInt8) : Prop where
  payloadLen : t.trans.payloadLen = len
  received : t.trans.msgReceived = false
  checksum : t.cs = Checksum.sum 0 data
  holds : Holds t.trans.payload data

theorem feed_start {t : Parser} (ht : Idle t) (len : UInt8) :
    Reading (feed t [xbeeStart, 0, len]) len [] ∧
      (feed t [xbeeStart, 0, len]).status = .gotLengthLsb ∧
      (feed t [xbeeStart, 0, len]).payloadIdx = UInt8.ofNat 0 := by
  obtain ⟨hstatus, hreceived⟩ := ht
  have hfeed : feed t [xbeeStart, 0, len] =
      { t with
        trans := { t.trans with payloadLen := len }
        status := .gotLengthLsb
        payloadIdx := 0
        cs := 0 } := by
    simp [parseXbee, hstatus, hreceived]
  rw [hfeed]
  exact ⟨⟨rfl, hreceived, rfl, holds_nil _⟩, rfl, rfl⟩

/-- Reading the payload bytes up to the announced length. -/
theorem feed_data {t : Parser} {len : UInt8} {data rest : List UInt8} (h : Reading t len data)
    (hstatus : t.status = .gotLengthLsb) (hidx : t.payloadIdx = UInt8.ofNat data.length)
    (hrest : rest ≠ []) (hlen : (data ++ rest).length = len.toNat) :
    Reading (feed t rest) len (data ++ rest) ∧ (feed t rest).status = .gotPayload := by
  induction rest generalizing t data with
  | nil => exact absurd rfl hrest
  | cons c rest ih =>
      have hlt := len.toNat_lt
      rw [List.length_append, List.length_cons] at hlen
      have hnext : t.payloadIdx + 1 = UInt8.ofNat (data ++ [c]).length := by
        rw [hidx, List.length_append, List.length_singleton, UInt8.ofNat_add]
        rfl
      have hlast : t.payloadIdx + 1 = t.trans.payloadLen ↔ rest = [] := by
        rw [hnext, h.payloadLen, ← UInt8.toNat_inj, UInt8.toNat_ofNat', List.length_append,
          List.length_singleton, ← List.length_eq_zero_iff]
        omega
      have hreading : Reading (parseXbee t c) len (data ++ [c]) := by
        refine ⟨?_, ?_, ?_, ?_⟩ <;> simp only [parseXbee, hstatus]
        · exact h.payloadLen
        · exact h.received
        · rw [Checksum.sum_append, h.checksum]
          rfl
        · rw [hidx]
          exact h.holds.update (by omega) c
      cases rest with
      | nil =>
          refine ⟨hreading, ?_⟩
          simp only [feed_cons, feed_nil, parseXbee, hstatus, hlast, if_true]
      | cons c' rest =>
          have hstay : (parseXbee t c).status = .gotLengthLsb := by
            simp [parseXbee, hstatus, hlast]
          have hidx' : (parseXbee t c).payloadIdx = UInt8.ofNat (data ++ [c]).length := by
            simpa [parseXbee, hstatus] using hnext
          have hall : data ++ c :: c' :: rest = (data ++ [c]) ++ c' :: rest := by simp
          rw [hall, feed_cons]
          refine ih hreading hstay hidx' (by simp) ?_
          simp at hlen ⊢
          omega

/-- A frame of 1 to 255 data bytes ends with the message received and the data in
the payload. -/
theorem feed_frameOf {t : Parser} (ht : Idle t) {data : List UInt8} (hpos : data ≠ [])
    (hlen : data.length ≤ 255) :
    (feed t (frameOf 0 (UInt8.ofNat data.length) data)).trans.msgReceived = true ∧
      (feed t (frameOf 0 (UInt8.ofNat data.length) data)).trans.contents = data := by
  have hlenNat : (UInt8.ofNat data.length).toNat = data.length := by
    rw [UInt8.toNat_ofNat']
    omega
  obtain ⟨hstart, hstatus, hidx⟩ := feed_start ht (UInt8.ofNat data.length)
  obtain ⟨hreading, hend⟩ := feed_data hstart hstatus hidx hpos (by simpa using hlenNat.symm)
  rw [List.nil_append] at hreading
  rw [frameOf, feed_append, feed_append]
  generalize feed (feed t [xbeeStart, 0, UInt8.ofNat data.length]) data = u at hreading hend ⊢
  have hck : (0xff - Checksum.sum 0 data).toNat + u.cs.toNat = 0xff := by
    have hlt := (Checksum.sum 0 data).toNat_lt
    rw [hreading.checksum, UInt8.toNat_sub_of_le]
    · simp
      omega
    · rw [UInt8.le_iff_toNat_le]
      simp
      omega
  have hlast : parseXbee u (0xff - Checksum.sum 0 data) =
      { u with trans := { u.trans with msgReceived := true }, status := .uninit } := by
    simp [parseXbee, hend, hck]
  rw [feed_cons, feed_nil, hlast]
  exact ⟨rfl, contents_eq_of_holds hreading.holds (by rw [hreading.payloadLen, hlenNat])⟩

/-! ### The payload -/

/-- `dl_buffer`, of `MSG_SIZE` bytes, `dl_msg_available` and `xbee_rssi`. -/
structure DlBuffer where
  bytes : List UInt8
  msgAvailable : Bool
  rssi : UInt8
  deriving DecidableEq, Repr

def msgSize : Nat := 128

/-- `XbeeGetRSSI`. -/
def Variant.getRSSI (payload : UInt8 → UInt8) (rssi : UInt8) : Variant → UInt8
  | .xbee24 => payload 3
  | .xbee868 => rssi
  | .xbeeProS2b => rssi

/-- `xbee_parse_payload`; `none` where it writes behind `dl_buffer`. -/
def xbeeParsePayload (v : Variant) (t : Transport) (dl : DlBuffer) : Option DlBuffer :=
  if t.payload 0 = v.rxId ∨ t.payload 0 = v.txId then
    let copied := t.contents.drop v.rfdataOffset
    if copied.length > msgSize then none
    else
      some
        { bytes := copied ++ dl.bytes.drop copied.length
          msgAvailable := true
          rssi := v.getRSSI t.payload dl.rssi }
  else some dl

/-- The header of the received frames in the API of the module: identifier, source
address, for the short addresses the signal strength, and options. -/
def Variant.IsRxHeader (header : List UInt8) (v : Variant) : Prop :=
  header.head? = some v.rxId ∧
    header.length = match v with
      | .xbee24 => 5
      | .xbee868 => 12
      | .xbeeProS2b => 12

/-- The header of the transmit requests, as long as the one that the autopilot writes. -/
def Variant.IsTxHeader (header : List UInt8) (v : Variant) : Prop :=
  header.head? = some v.txId ∧ header.length = (v.txHeader 0).length

/-- After the frame with these data, exactly its RF data are copied to the
datalink buffer. -/
def CopiesRfData (v : Variant) (header rf : List UInt8) : Prop :=
  ∀ (t : Parser) (dl : DlBuffer), Idle t → dl.bytes.length = msgSize →
    ∃ rssi, xbeeParsePayload v
        (feed t (frameOf 0 (UInt8.ofNat (header ++ rf).length) (header ++ rf))).trans dl =
      some { bytes := rf ++ dl.bytes.drop rf.length, msgAvailable := true, rssi := rssi }

/-- What is copied of a frame with an identifier that the parser knows. -/
theorem xbeeParsePayload_feed {v : Variant} {header rf : List UInt8}
    (hid : header.head? = some v.rxId ∨ header.head? = some v.txId)
    (hlen : (header ++ rf).length ≤ 255) {t : Parser} (ht : Idle t) (dl : DlBuffer) :
    ∃ rssi, xbeeParsePayload v
        (feed t (frameOf 0 (UInt8.ofNat (header ++ rf).length) (header ++ rf))).trans dl =
      if ((header ++ rf).drop v.rfdataOffset).length > msgSize then none
      else
        some
          { bytes := (header ++ rf).drop v.rfdataOffset ++
              dl.bytes.drop ((header ++ rf).drop v.rfdataOffset).length
            msgAvailable := true
            rssi := rssi } := by
  have hne : header ++ rf ≠ [] := by
    rintro h
    simp [(List.append_eq_nil_iff.mp h).1] at hid
  obtain ⟨-, hcontents⟩ := feed_frameOf ht hne hlen
  generalize (feed t (frameOf 0 (UInt8.ofNat (header ++ rf).length) (header ++ rf))).trans = u
    at hcontents ⊢
  have hfirst : some (u.payload 0) = header.head? := by
    cases header with
    | nil => simp at hid
    | cons c header =>
        have hhead := congrArg List.head? hcontents
        have hpos : u.payloadLen.toNat ≠ 0 := by
          intro hzero
          simp [Transport.contents, hzero] at hcontents
        simp only [Transport.contents, List.head?_map, List.cons_append, List.head?_cons] at hhead
        rw [List.head?_range, if_neg hpos] at hhead
        exact hhead
  have hknown : u.payload 0 = v.rxId ∨ u.payload 0 = v.txId := by
    rw [← hfirst] at hid
    simpa using hid
  refine ⟨v.getRSSI u.payload dl.rssi, ?_⟩
  simp only [xbeeParsePayload, if_pos hknown, hcontents]

/-- Where the header is as long as the offset, the RF data must fit the buffer. -/
theorem copiesRfData_iff {v : Variant} {header rf : List UInt8}
    (hid : header.head? = some v.rxId ∨ header.head? = some v.txId)
    (hoffset : header.length = v.rfdataOffset) (hlen : (header ++ rf).length ≤ 255) :
    CopiesRfData v header rf ↔ rf.length ≤ msgSize := by
  have hdrop : (header ++ rf).drop v.rfdataOffset = rf := by simp [← hoffset]
  constructor
  · intro h
    obtain ⟨rssi, hcopied⟩ := h initialParser
      ⟨List.replicate msgSize 0, false, 0⟩ ⟨rfl, rfl⟩ (by simp)
    obtain ⟨rssi', hresult⟩ := xbeeParsePayload_feed hid hlen
      (t := initialParser) ⟨rfl, rfl⟩
      ⟨List.replicate msgSize 0, false, 0⟩
    rw [hdrop, hcopied] at hresult
    by_contra hlong
    rw [if_pos (by omega)] at hresult
    exact Option.some_ne_none _ hresult
  · intro hfits t dl ht _
    obtain ⟨rssi, hresult⟩ := xbeeParsePayload_feed hid hlen ht dl
    refine ⟨rssi, ?_⟩
    rw [hresult, hdrop, if_neg (by omega)]

/-- With a header longer than the offset, the end of the header is copied too. -/
theorem not_copiesRfData {v : Variant} {header rf : List UInt8}
    (hid : header.head? = some v.rxId ∨ header.head? = some v.txId)
    (hoffset : v.rfdataOffset < header.length) (hlen : (header ++ rf).length ≤ 255) :
    ¬ CopiesRfData v header rf := by
  intro h
  have hall : ∀ x : UInt8, ((header ++ rf).drop v.rfdataOffset)[rf.length]? = some x := by
    intro x
    obtain ⟨rssi, hcopied⟩ := h initialParser
      ⟨List.replicate msgSize x, false, 0⟩ ⟨rfl, rfl⟩ (by simp)
    obtain ⟨rssi', hresult⟩ := xbeeParsePayload_feed hid hlen
      (t := initialParser) ⟨rfl, rfl⟩
      ⟨List.replicate msgSize x, false, 0⟩
    have hlong : rf.length < ((header ++ rf).drop v.rfdataOffset).length := by
      simp
      omega
    rw [hcopied] at hresult
    split_ifs at hresult with hfits
    have hbytes := congrArg (fun dl => dl.bytes[rf.length]?) (Option.some.inj hresult)
    simp only at hbytes
    rw [List.getElem?_append_left hlong] at hbytes
    have hshort : 0 < msgSize - rf.length := by omega
    rw [← hbytes, List.getElem?_append_right (Nat.le_refl _), Nat.sub_self]
    simp [hshort]
  have hsame := (hall 0).symm.trans (hall 1)
  exact absurd hsame (by decide)

theorem copiesRfData_rx_iff {v : Variant} {header rf : List UInt8} (hheader : v.IsRxHeader header)
    (hlen : (header ++ rf).length ≤ 255) : CopiesRfData v header rf ↔ rf.length ≤ msgSize := by
  obtain ⟨hid, hsize⟩ := hheader
  refine copiesRfData_iff (Or.inl hid) ?_ hlen
  cases v <;> exact hsize

theorem copiesRfData_tx_iff {v : Variant} {header rf : List UInt8} (hheader : v.IsTxHeader header)
    (hlen : (header ++ rf).length ≤ 255) :
    CopiesRfData v header rf ↔ v = .xbee24 ∧ rf.length ≤ msgSize := by
  obtain ⟨hid, hsize⟩ := hheader
  cases v with
  | xbee24 =>
      rw [copiesRfData_iff (Or.inr hid) hsize hlen]
      simp
  | xbee868 =>
      have hnot := not_copiesRfData (Or.inr hid) (by rw [hsize]; decide) hlen
      simp [hnot]
  | xbeeProS2b =>
      have hnot := not_copiesRfData (Or.inr hid) (by rw [hsize]; decide) hlen
      simp [hnot]

/-- The framing on board: what is written is an API frame exactly where its length
fits a byte, every frame of 1 to 255 data bytes is received, and its RF data are
copied exactly where they fit the buffer and the header has the length of received
frames. -/
theorem xbee_framing_iff (v : Variant) (addr : UInt64) (t : Parser)
    (payload data header rf : List UInt8) :
    (IsApiFrame (sentFrame v addr payload) ↔ v.xbeeTransportSizeOf payload.length ≤ 255) ∧
    (Idle t → data ≠ [] → data.length ≤ 255 →
      (feed t (frameOf 0 (UInt8.ofNat data.length) data)).trans.msgReceived = true ∧
        (feed t (frameOf 0 (UInt8.ofNat data.length) data)).trans.contents = data) ∧
    (v.IsRxHeader header → (header ++ rf).length ≤ 255 →
      (CopiesRfData v header rf ↔ rf.length ≤ msgSize)) ∧
    (v.IsTxHeader header → (header ++ rf).length ≤ 255 →
      (CopiesRfData v header rf ↔ v = .xbee24 ∧ rf.length ≤ msgSize)) := by
  refine ⟨isApiFrame_sentFrame_iff v addr payload, ?_, ?_, ?_⟩
  · intro ht hpos hlen
    exact feed_frameOf ht hpos hlen
  · intro hheader hlen
    exact copiesRfData_rx_iff hheader hlen
  · intro hheader hlen
    exact copiesRfData_tx_iff hheader hlen

theorem xbee24_framing :
    IsApiFrame (sentFrame .xbee24 0x100 [1, 2]) ∧
      (feed initialParser (frameOf 0 (UInt8.ofNat [7].length) [7])).trans.contents = [7] ∧
      CopiesRfData .xbee24 [0x81, 0, 1, 40, 0] [5, 6] ∧
      CopiesRfData .xbee24 [0x01, 0, 0, 1, 0] [5, 6] := by
  have hrx := xbee_framing_iff .xbee24 0x100 initialParser [1, 2] [7] [0x81, 0, 1, 40, 0] [5, 6]
  have htx := xbee_framing_iff .xbee24 0x100 initialParser [1, 2] [7] [0x01, 0, 0, 1, 0] [5, 6]
  refine ⟨hrx.1.mpr (by decide), (hrx.2.1 ⟨rfl, rfl⟩ (by decide) (by decide)).2, ?_, ?_⟩
  · exact (hrx.2.2.1 ⟨rfl, rfl⟩ (by decide)).mpr (by decide)
  · exact (htx.2.2.2 ⟨rfl, rfl⟩ (by decide)).mpr ⟨rfl, by decide⟩

/-- A transmit request read back from the cable of a long-address module: the two
last bytes of its header come before the RF data. -/
theorem tx_frame_not_copied :
    ¬ ∀ (v : Variant) (header rf : List UInt8), v.IsTxHeader header →
      (header ++ rf).length ≤ 255 → CopiesRfData v header rf := by
  intro h
  have hcopies := h .xbeeProS2b (Variant.xbeeProS2b.txHeader 0x100) [5, 6] ⟨rfl, rfl⟩ (by decide)
  exact not_copiesRfData (Or.inr rfl) (by decide) (by decide) hcopies

end Paparazzi.Link.XBee
