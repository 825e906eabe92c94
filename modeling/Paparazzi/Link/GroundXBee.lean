import Mathlib.Data.List.GetD
import Mathlib.Tactic.IntervalCases
import Paparazzi.Library.Machine
import Paparazzi.Link.XBee

/-!
XBee frames on the ground: the message object `XBEE_msg`, transmit requests and
`XBEE_send_msg`, with the airborne parser as their reader.
-/

namespace Paparazzi.Link.GroundXBee

open Paparazzi.Library
open Paparazzi.Library.Machine
open Paparazzi.Link.XBee

/-! ### `XBEE_msg` -/

def frameMaxSize : Nat := 512

def frameTranIdOffset : Nat := 1
def frameTranAddrOffset : Nat := 2
def frameTranNetAddrOffset : Nat := 10
def frameTranRadiusOffset : Nat := 12
def frameTranOptionOffset : Nat := 13
def frameTranDataOffset : Nat := 14

/-- `_frameptr` is `frame`: its first `FRAME_MAX_SIZE` bytes are the buffer, the others are
what lies behind it. -/
structure XBeeMsg where
  errorcode : UInt8
  lengthHI : UInt8
  lengthLO : UInt8
  checkSum : UInt8
  recvCheckSum : UInt8
  frame : Nat → UInt8
  /-- A `uint16_t`. -/
  frameLength : Nat

namespace XBeeMsg

/-- The constructor does not clear the buffer, which holds `fresh`. -/
def new (fresh : Nat → UInt8) : XBeeMsg :=
  { errorcode := 0, lengthHI := 0, lengthLO := 0, checkSum := 0, recvCheckSum := 0
    frame := fresh, frameLength := 0 }

/-- `*(_frameptr + i) = x`. -/
def setByte (i : Nat) (x : UInt8) (msg : XBeeMsg) : XBeeMsg :=
  { msg with frame := Function.update msg.frame i x }

/-- The frame, as `show_hex` prints it. -/
def contents (msg : XBeeMsg) : List UInt8 := (List.range msg.frameLength).map msg.frame

def setFrameLength (msg : XBeeMsg) : XBeeMsg :=
  { msg with frameLength := (msg.lengthHI.toNat * 2 ^ 8 + msg.lengthLO.toNat) % 2 ^ 16 }

/-- The sum in `set_CheckSum` and `verify_CheckSum`; it goes up to `frame_length` itself. -/
def sumOfFrame (msg : XBeeMsg) : UInt32 :=
  (List.range (msg.frameLength + 1)).foldl (fun sum count => sum + (msg.frame count).toUInt32) 0

def setCheckSum (msg : XBeeMsg) : XBeeMsg :=
  { msg with checkSum := (0xff : UInt8) - ((msg.sumOfFrame <<< 24) >>> 24).toUInt8 }

def setTranDestAddrHI (addr : UInt32) (msg : XBeeMsg) : XBeeMsg :=
  ((((msg.setByte frameTranAddrOffset (addr >>> 24).toUInt8).setByte
    (frameTranAddrOffset + 1) ((addr <<< 8) >>> 24).toUInt8).setByte
    (frameTranAddrOffset + 2) ((addr <<< 16) >>> 24).toUInt8).setByte
    (frameTranAddrOffset + 3) ((addr <<< 24) >>> 24).toUInt8)

def setTranDestAddrLO (addr : UInt32) (msg : XBeeMsg) : XBeeMsg :=
  ((((msg.setByte (frameTranAddrOffset + 4) (addr >>> 24).toUInt8).setByte
    (frameTranAddrOffset + 5) ((addr <<< 8) >>> 24).toUInt8).setByte
    (frameTranAddrOffset + 6) ((addr <<< 16) >>> 24).toUInt8).setByte
    (frameTranAddrOffset + 7) ((addr <<< 24) >>> 24).toUInt8)

def setTranNetDestAddrHI (x : UInt8) (msg : XBeeMsg) : XBeeMsg :=
  msg.setByte frameTranNetAddrOffset x

def setTranNetDestAddrLO (x : UInt8) (msg : XBeeMsg) : XBeeMsg :=
  msg.setByte (frameTranNetAddrOffset + 1) x

def setTranFrameId (x : UInt8) (msg : XBeeMsg) : XBeeMsg := msg.setByte frameTranIdOffset x

def setTranRadius (x : UInt8) (msg : XBeeMsg) : XBeeMsg := msg.setByte frameTranRadiusOffset x

def setTranOption (x : UInt8) (msg : XBeeMsg) : XBeeMsg := msg.setByte frameTranOptionOffset x

def setTranData (data : List UInt8) (msg : XBeeMsg) : XBeeMsg :=
  { msg with
    frame := fun i =>
      if i < frameTranDataOffset then msg.frame i
      else data.getD (i - frameTranDataOffset) (msg.frame i) }

/-- The lengths at the end of `set_tran_packet`. -/
def setTranLength (size : Nat) (msg : XBeeMsg) : XBeeMsg :=
  let length := (frameTranDataOffset + size) % 2 ^ 16
  { msg with lengthHI := UInt8.ofNat (length / 2 ^ 8), lengthLO := UInt8.ofNat length }

def setTranPacket (addrHI addrLO : UInt32) (netAddrHI netAddrLO : UInt8) (data : List UInt8)
    (msg : XBeeMsg) : XBeeMsg :=
  let msg := (msg.setByte 0 0x10).setTranFrameId 0
  let msg := (msg.setTranDestAddrHI addrHI).setTranDestAddrLO addrLO
  let msg := (msg.setTranNetDestAddrHI netAddrHI).setTranNetDestAddrLO netAddrLO
  let msg := (msg.setTranRadius 0).setTranOption 0
  let msg := (msg.setTranData data).setTranLength data.length
  msg.setFrameLength.setCheckSum

end XBeeMsg

/-! ### Sending -/

/-- What `write` does on the port: of `n` bytes it takes at least one, and at most all. -/
structure Port where
  accepted : Nat → Nat → Nat
  accepted_pos : ∀ call n, 0 < n → 0 < accepted call n
  accepted_le : ∀ call n, accepted call n ≤ n

/-- A port that takes all bytes at once. -/
def Port.greedy : Port :=
  { accepted := fun _ n => n, accepted_pos := fun _ _ h => h, accepted_le := fun _ n => Nat.le_refl n }

/-- The transmit buffer of the class `XBEE`. -/
structure Tran where
  tranBuff : Nat → UInt8
  tranPos : Nat

def initialTran : Tran := ⟨fun _ => 0, 0⟩

/-- `tran_buff[tran_pos++] = data`. -/
def Tran.put (t : Tran) (data : UInt8) : Tran :=
  { tranBuff := Function.update t.tranBuff t.tranPos data, tranPos := t.tranPos + 1 }

/-- The first `n` bytes of a buffer are cleared. -/
def memset (n : Nat) (buff : Nat → UInt8) : Nat → UInt8 := fun i => if i < n then 0 else buff i

/-- The loop of `XBEE_write`, from `byte_count` on; the result is what the port takes. -/
def writeLoop (port : Port) (buff : Nat → UInt8) (size call byteCount : Nat) : List UInt8 :=
  if byteCount < size then
    (List.range' byteCount (port.accepted call (size - byteCount))).map buff ++
      writeLoop port buff size (call + 1) (byteCount + port.accepted call (size - byteCount))
  else []
termination_by size - byteCount
decreasing_by
  have hpos := port.accepted_pos call (size - byteCount) (by omega)
  omega

/-- `XBEE_write(tran_buff, tran_pos)`; the parameter `size` is a `uint8_t`. -/
def xbeeWrite (port : Port) (t : Tran) : List UInt8 × Tran :=
  let size := t.tranPos % 2 ^ 8
  (writeLoop port t.tranBuff size 0 0, { tranBuff := memset size t.tranBuff, tranPos := 0 })

/-- The byte is escaped in the API mode with escapes. -/
def isSpecial (x : UInt8) : Bool := x = 0x7e || x = 0x7d || x = 0x11 || x = 0x13

/-- The second state of `XBEE_send_msg`, with `_USE_XBEE_ESC`. -/
def putLengthHI (useXBeeEsc : Bool) (data : UInt8) (t : Tran) : Tran :=
  if useXBeeEsc && isSpecial data then (t.put 0x7d).put (data ^^^ 0x20) else t.put data

/-- `tran_buff` at the end of the loop of `XBEE_send_msg`. -/
def fillTran (useXBeeEsc : Bool) (msg : XBeeMsg) (t : Tran) : Tran :=
  let t := t.put xbeeStart
  let t := putLengthHI useXBeeEsc msg.lengthHI t
  let t := t.put msg.lengthLO
  let t := msg.contents.foldl Tran.put t
  t.put msg.checkSum

def xbeeSendMsg (useXBeeEsc : Bool) (port : Port) (msg : XBeeMsg) (t : Tran) : List UInt8 × Tran :=
  let (out, t) := xbeeWrite port (fillTran useXBeeEsc msg t)
  (out, { tranBuff := memset (t.tranPos + 1) t.tranBuff, tranPos := 0 })

/-- The transmit buffer after the messages of the list. -/
def afterSending (useXBeeEsc : Bool) (earlier : List (Port × XBeeMsg)) : Tran :=
  run (fun t m => (xbeeSendMsg useXBeeEsc m.1 m.2 t).2) initialTran earlier

/-! ### The transmit request -/

def bigEndian (addr : UInt32) : List UInt8 :=
  [(addr >>> 24).toUInt8, (addr >>> 16).toUInt8, (addr >>> 8).toUInt8, addr.toUInt8]

/-- The frame of a transmit request: type, identifier, address, network address, radius,
option and data. -/
def requestFrame (addrHI addrLO : UInt32) (netAddrHI netAddrLO : UInt8) (data : List UInt8) :
    List UInt8 :=
  [0x10, 0] ++ bigEndian addrHI ++ bigEndian addrLO ++ [netAddrHI, netAddrLO, 0, 0] ++ data

/-- The bytes of an API frame with its 16-bit length and its checksum. -/
def apiFrame (frame : List UInt8) : List UInt8 :=
  frameOf (UInt8.ofNat (frame.length / 2 ^ 8)) (UInt8.ofNat frame.length) frame

section

variable {addrHI addrLO : UInt32} {netAddrHI netAddrLO : UInt8} {data : List UInt8}

theorem length_requestFrame :
    (requestFrame addrHI addrLO netAddrHI netAddrLO data).length = data.length + 14 := by
  simp [requestFrame, bigEndian]

end

theorem toUInt8_shiftLeft_shiftRight (x : UInt32) : ((x <<< 24) >>> 24).toUInt8 = x.toUInt8 := by
  apply UInt8.toNat_inj.mp
  have hlt := x.toNat_lt
  simp [Nat.shiftLeft_eq, Nat.shiftRight_eq_div_pow]
  omega

theorem toUInt8_byte2 (x : UInt32) : ((x <<< 8) >>> 24).toUInt8 = (x >>> 16).toUInt8 := by
  apply UInt8.toNat_inj.mp
  have hlt := x.toNat_lt
  simp [Nat.shiftLeft_eq, Nat.shiftRight_eq_div_pow]
  omega

theorem toUInt8_byte1 (x : UInt32) : ((x <<< 16) >>> 24).toUInt8 = (x >>> 8).toUInt8 := by
  apply UInt8.toNat_inj.mp
  have hlt := x.toNat_lt
  simp [Nat.shiftLeft_eq, Nat.shiftRight_eq_div_pow]
  omega

theorem toUInt8_foldl_add (sum : UInt32) (bytes : List UInt8) :
    (bytes.foldl (fun sum x => sum + x.toUInt32) sum).toUInt8 =
      Checksum.sum sum.toUInt8 bytes := by
  induction bytes generalizing sum with
  | nil => rfl
  | cons c bytes ih => simp [ih]

theorem checkSum_setCheckSum (msg : XBeeMsg) :
    msg.setCheckSum.checkSum =
      0xff - (Checksum.sum 0 msg.contents + msg.frame msg.frameLength) := by
  have hsum : msg.sumOfFrame = (msg.contents ++ [msg.frame msg.frameLength]).foldl
      (fun sum x => sum + x.toUInt32) 0 := by
    simp [XBeeMsg.sumOfFrame, XBeeMsg.contents, List.range_succ, List.foldl_map]
  rw [XBeeMsg.setCheckSum, toUInt8_shiftLeft_shiftRight, hsum, toUInt8_foldl_add,
    Checksum.sum_append]
  rfl

theorem checkSum_setCheckSum_twice (msg : XBeeMsg) :
    msg.setCheckSum.setCheckSum.checkSum = msg.setCheckSum.checkSum := rfl

/-- A new message object turned into a transmit request. -/
def requestMsg (fresh : Nat → UInt8) (addrHI addrLO : UInt32) (netAddrHI netAddrLO : UInt8)
    (data : List UInt8) : XBeeMsg :=
  (XBeeMsg.new fresh).setTranPacket addrHI addrLO netAddrHI netAddrLO data

section

variable {fresh : Nat → UInt8} {addrHI addrLO : UInt32} {netAddrHI netAddrLO : UInt8}
  {data : List UInt8}

theorem lengthHI_requestMsg (hsize : data.length ≤ frameMaxSize - frameTranDataOffset) :
    (requestMsg fresh addrHI addrLO netAddrHI netAddrLO data).lengthHI =
      UInt8.ofNat ((data.length + 14) / 2 ^ 8) := by
  simp only [frameMaxSize, frameTranDataOffset] at hsize
  have hsmall : (14 + data.length) % 2 ^ 16 = data.length + 14 := by omega
  simp only [requestMsg, XBeeMsg.setTranPacket, XBeeMsg.setCheckSum, XBeeMsg.setFrameLength,
    XBeeMsg.setTranLength, frameTranDataOffset, hsmall]

theorem lengthLO_requestMsg (hsize : data.length ≤ frameMaxSize - frameTranDataOffset) :
    (requestMsg fresh addrHI addrLO netAddrHI netAddrLO data).lengthLO =
      UInt8.ofNat (data.length + 14) := by
  simp only [frameMaxSize, frameTranDataOffset] at hsize
  have hsmall : (14 + data.length) % 2 ^ 16 = data.length + 14 := by omega
  simp only [requestMsg, XBeeMsg.setTranPacket, XBeeMsg.setCheckSum, XBeeMsg.setFrameLength,
    XBeeMsg.setTranLength, frameTranDataOffset, hsmall]

theorem frameLength_requestMsg (hsize : data.length ≤ frameMaxSize - frameTranDataOffset) :
    (requestMsg fresh addrHI addrLO netAddrHI netAddrLO data).frameLength = data.length + 14 := by
  have hlength : (requestMsg fresh addrHI addrLO netAddrHI netAddrLO data).frameLength =
      ((requestMsg fresh addrHI addrLO netAddrHI netAddrLO data).lengthHI.toNat * 2 ^ 8 +
        (requestMsg fresh addrHI addrLO netAddrHI netAddrLO data).lengthLO.toNat) % 2 ^ 16 := rfl
  rw [hlength, lengthHI_requestMsg hsize, lengthLO_requestMsg hsize, UInt8.toNat_ofNat',
    UInt8.toNat_ofNat']
  simp only [frameMaxSize, frameTranDataOffset] at hsize
  omega

theorem frame_setByte (i j : Nat) (x : UInt8) (msg : XBeeMsg) :
    (msg.setByte i x).frame j = if j = i then x else msg.frame j := by
  simp [XBeeMsg.setByte, Function.update_apply]

theorem frame_setTranData (msg : XBeeMsg) (header : List UInt8)
    (hlen : header.length = frameTranDataOffset)
    (hheader : ∀ i, msg.frame i = header.getD i (fresh i)) (i : Nat) :
    (msg.setTranData data).frame i = (header ++ data).getD i (fresh i) := by
  unfold XBeeMsg.setTranData
  by_cases hi : i < frameTranDataOffset
  · simp only [if_pos hi]
    rw [hheader, List.getD_append _ _ _ _ (by omega)]
  · simp only [if_neg hi]
    rw [hheader, List.getD_append_right _ _ _ _ (by omega), hlen,
      List.getD_eq_default header _ (by omega)]

/-- The buffer: the header, the data and what was behind them. -/
theorem frame_requestMsg (i : Nat) :
    (requestMsg fresh addrHI addrLO netAddrHI netAddrLO data).frame i =
      (requestFrame addrHI addrLO netAddrHI netAddrLO data).getD i (fresh i) := by
  refine frame_setTranData _ _ (by simp [bigEndian, frameTranDataOffset]) ?_ i
  intro i
  simp only [XBeeMsg.setTranOption, XBeeMsg.setTranRadius, XBeeMsg.setTranNetDestAddrLO,
    XBeeMsg.setTranNetDestAddrHI, XBeeMsg.setTranDestAddrLO, XBeeMsg.setTranDestAddrHI,
    XBeeMsg.setTranFrameId, frame_setByte, XBeeMsg.new, frameTranIdOffset, frameTranAddrOffset,
    frameTranNetAddrOffset, frameTranRadiusOffset, frameTranOptionOffset, toUInt8_byte2,
    toUInt8_byte1, toUInt8_shiftLeft_shiftRight, bigEndian]
  by_cases hi : i < 14
  · interval_cases i <;> rfl
  · rw [List.getD_eq_default _ _ (by simp; omega)]
    repeat rw [if_neg (by omega)]

theorem contents_requestMsg (hsize : data.length ≤ frameMaxSize - frameTranDataOffset) :
    (requestMsg fresh addrHI addrLO netAddrHI netAddrLO data).contents =
      requestFrame addrHI addrLO netAddrHI netAddrLO data := by
  rw [XBeeMsg.contents, frameLength_requestMsg hsize]
  apply List.ext_getElem
  · simp [length_requestFrame]
  · intro i hi hi'
    rw [List.getElem_map, List.getElem_range, frame_requestMsg, List.getD_eq_getElem _ _ hi']

/-- The sum takes in one byte too many, the one behind the frame. -/
theorem checkSum_requestMsg (hsize : data.length ≤ frameMaxSize - frameTranDataOffset) :
    (requestMsg fresh addrHI addrLO netAddrHI netAddrLO data).checkSum =
      0xff - (Checksum.sum 0 (requestFrame addrHI addrLO netAddrHI netAddrLO data) +
        fresh (data.length + 14)) := by
  have hck : (requestMsg fresh addrHI addrLO netAddrHI netAddrLO data).checkSum =
      (requestMsg fresh addrHI addrLO netAddrHI netAddrLO data).setCheckSum.checkSum := by
    rw [requestMsg, XBeeMsg.setTranPacket, checkSum_setCheckSum_twice]
  rw [hck, checkSum_setCheckSum, contents_requestMsg hsize, frameLength_requestMsg hsize,
    frame_requestMsg, List.getD_eq_default _ _ (by rw [length_requestFrame])]

end

/-! ### What the port takes -/

/-- The bytes put so far. -/
def Tran.bytes (t : Tran) : List UInt8 := (List.range t.tranPos).map t.tranBuff

@[simp] theorem length_bytes (t : Tran) : t.bytes.length = t.tranPos := by simp [Tran.bytes]

@[simp] theorem bytes_put (t : Tran) (x : UInt8) : (t.put x).bytes = t.bytes ++ [x] := by
  simp only [Tran.bytes, Tran.put, List.range_succ, List.map_append, List.map_singleton,
    Function.update_self]
  congr 1
  apply List.map_congr_left
  intro i hi
  exact Function.update_of_ne (Nat.ne_of_lt (List.mem_range.mp hi)) _ _

@[simp] theorem bytes_foldl_put (t : Tran) (bytes : List UInt8) :
    (bytes.foldl Tran.put t).bytes = t.bytes ++ bytes := by
  induction bytes generalizing t with
  | nil => simp
  | cons c bytes ih => simp [ih]

/-- However the port splits the bytes, it takes all of them in order. -/
theorem writeLoop_eq (port : Port) (buff : Nat → UInt8) (size call byteCount : Nat) :
    writeLoop port buff size call byteCount =
      (List.range' byteCount (size - byteCount)).map buff := by
  induction call, byteCount using writeLoop.induct port size with
  | case1 call byteCount hlt ih =>
      have hle := port.accepted_le call (size - byteCount)
      rw [writeLoop, if_pos hlt, ih, ← List.map_append, Nat.sub_add_eq]
      generalize port.accepted call (size - byteCount) = n at hle
      rw [List.range'_append_1, show n + (size - byteCount - n) = size - byteCount by omega]
  | case2 call byteCount hge =>
      rw [writeLoop, if_neg hge, show size - byteCount = 0 by omega]
      rfl

theorem xbeeWrite_fst (port : Port) (t : Tran) :
    (xbeeWrite port t).1 = t.bytes.take (t.tranPos % 2 ^ 8) := by
  rw [xbeeWrite, writeLoop_eq, Tran.bytes, ← List.map_take, List.take_range,
    Nat.min_eq_left (Nat.mod_le _ _), List.range_eq_range', Nat.sub_zero]

theorem tranPos_run (useXBeeEsc : Bool) {t : Tran} (ht : t.tranPos = 0)
    (earlier : List (Port × XBeeMsg)) :
    (run (fun t m => (xbeeSendMsg useXBeeEsc m.1 m.2 t).2) t earlier).tranPos = 0 := by
  induction earlier generalizing t with
  | nil => exact ht
  | cons m earlier ih => exact ih rfl

theorem tranPos_afterSending (useXBeeEsc : Bool) (earlier : List (Port × XBeeMsg)) :
    (afterSending useXBeeEsc earlier).tranPos = 0 :=
  tranPos_run useXBeeEsc rfl earlier

theorem bytes_fillTran {useXBeeEsc : Bool} {msg : XBeeMsg} {t : Tran} (ht : t.tranPos = 0)
    (hHI : isSpecial msg.lengthHI = false) :
    (fillTran useXBeeEsc msg t).bytes =
      [xbeeStart, msg.lengthHI, msg.lengthLO] ++ msg.contents ++ [msg.checkSum] := by
  have hnil : t.bytes = [] := List.eq_nil_of_length_eq_zero (by simp [ht])
  simp [fillTran, putLengthHI, hHI, hnil]

theorem xbeeSendMsg_fst {useXBeeEsc : Bool} {msg : XBeeMsg} {t : Tran} (port : Port)
    (ht : t.tranPos = 0) (hHI : isSpecial msg.lengthHI = false) :
    (xbeeSendMsg useXBeeEsc port msg t).1 =
      ([xbeeStart, msg.lengthHI, msg.lengthLO] ++ msg.contents ++ [msg.checkSum]).take
        ((msg.frameLength + 4) % 2 ^ 8) := by
  have hbytes := @bytes_fillTran useXBeeEsc _ _ ht hHI
  have hpos : (fillTran useXBeeEsc msg t).tranPos = msg.frameLength + 4 := by
    rw [← length_bytes, hbytes]
    simp [XBeeMsg.contents]
  have hout : (xbeeSendMsg useXBeeEsc port msg t).1 =
      (xbeeWrite port (fillTran useXBeeEsc msg t)).1 := rfl
  rw [hout, xbeeWrite_fst, hbytes, hpos]

/-! ### Requests on the port -/

/-- What a new transmit request puts on the port. -/
def sentRequest (useXBeeEsc : Bool) (port : Port) (earlier : List (Port × XBeeMsg))
    (fresh : Nat → UInt8) (addrHI addrLO : UInt32) (netAddrHI netAddrLO : UInt8)
    (data : List UInt8) : List UInt8 :=
  (xbeeSendMsg useXBeeEsc port (requestMsg fresh addrHI addrLO netAddrHI netAddrLO data)
    (afterSending useXBeeEsc earlier)).1

section

variable {fresh : Nat → UInt8} {addrHI addrLO : UInt32} {netAddrHI netAddrLO : UInt8}
  {data : List UInt8}

theorem sentRequest_eq (useXBeeEsc : Bool) (port : Port) (earlier : List (Port × XBeeMsg))
    (hsize : data.length ≤ frameMaxSize - frameTranDataOffset) :
    sentRequest useXBeeEsc port earlier fresh addrHI addrLO netAddrHI netAddrLO data =
      ([xbeeStart, UInt8.ofNat ((data.length + 14) / 2 ^ 8), UInt8.ofNat (data.length + 14)] ++
        requestFrame addrHI addrLO netAddrHI netAddrLO data ++
        [0xff - (Checksum.sum 0 (requestFrame addrHI addrLO netAddrHI netAddrLO data) +
          fresh (data.length + 14))]).take ((data.length + 18) % 2 ^ 8) := by
  have hHI : isSpecial (requestMsg fresh addrHI addrLO netAddrHI netAddrLO data).lengthHI = false := by
    rw [lengthHI_requestMsg hsize]
    simp only [frameMaxSize, frameTranDataOffset] at hsize
    have hsmall : (data.length + 14) / 2 ^ 8 < 3 := by omega
    generalize (data.length + 14) / 2 ^ 8 = n at hsmall
    interval_cases n <;> rfl
  rw [sentRequest, xbeeSendMsg_fst port (tranPos_afterSending _ _) hHI, lengthHI_requestMsg hsize,
    lengthLO_requestMsg hsize, frameLength_requestMsg hsize, contents_requestMsg hsize,
    checkSum_requestMsg hsize]

/-- The bytes are the request exactly where their number fits a byte and the byte behind
the frame adds nothing to the sum. -/
theorem sentRequest_eq_apiFrame_iff (useXBeeEsc : Bool) (port : Port)
    (earlier : List (Port × XBeeMsg)) (hsize : data.length ≤ frameMaxSize - frameTranDataOffset) :
    sentRequest useXBeeEsc port earlier fresh addrHI addrLO netAddrHI netAddrLO data =
        apiFrame (requestFrame addrHI addrLO netAddrHI netAddrLO data) ↔
      data.length + 18 ≤ 255 ∧ fresh (data.length + 14) = 0 := by
  rw [sentRequest_eq useXBeeEsc port earlier hsize, apiFrame, frameOf, length_requestFrame]
  have hlen := @length_requestFrame addrHI addrLO netAddrHI netAddrLO data
  generalize requestFrame addrHI addrLO netAddrHI netAddrLO data = frame at hlen ⊢
  simp only [frameMaxSize, frameTranDataOffset] at hsize
  constructor
  · intro h
    have hcount := congrArg List.length h
    simp only [List.length_take, List.length_append, List.length_cons, List.length_nil, hlen]
      at hcount
    have hfits : data.length + 18 ≤ 255 := by omega
    refine ⟨hfits, ?_⟩
    rw [List.take_of_length_le (by simp; omega)] at h
    have hck := List.append_inj_right h rfl
    rw [List.singleton_inj, UInt8.sub_right_inj] at hck
    exact (UInt8.add_eq_left).mp hck
  · rintro ⟨hfits, hzero⟩
    rw [List.take_of_length_le (by simp; omega), hzero, UInt8.add_zero]

theorem feed_apiFrame_requestFrame {t : Parser} (ht : Idle t) (hfits : data.length + 18 ≤ 255) :
    (feed t (apiFrame (requestFrame addrHI addrLO netAddrHI netAddrLO data))).trans.msgReceived =
        true ∧
      (feed t (apiFrame (requestFrame addrHI addrLO netAddrHI netAddrLO data))).trans.contents =
        requestFrame addrHI addrLO netAddrHI netAddrLO data := by
  have hlen := @length_requestFrame addrHI addrLO netAddrHI netAddrLO data
  generalize requestFrame addrHI addrLO netAddrHI netAddrLO data = frame at hlen ⊢
  have hHI : frame.length / 2 ^ 8 = 0 := by omega
  rw [apiFrame, hHI]
  apply feed_frameOf ht
  · rintro rfl
    simp at hlen
  · omega

end

/-- What is written is one complete transmit request, and `parse_xbee` accepts it. -/
def SendsRequest (useXBeeEsc : Bool) (port : Port) (earlier : List (Port × XBeeMsg))
    (fresh : Nat → UInt8) (addrHI addrLO : UInt32) (netAddrHI netAddrLO : UInt8)
    (data : List UInt8) : Prop :=
  sentRequest useXBeeEsc port earlier fresh addrHI addrLO netAddrHI netAddrLO data =
      apiFrame (requestFrame addrHI addrLO netAddrHI netAddrLO data) ∧
    ∀ t, Idle t →
      (feed t (sentRequest useXBeeEsc port earlier fresh addrHI addrLO netAddrHI netAddrLO
          data)).trans.msgReceived = true ∧
        (feed t (sentRequest useXBeeEsc port earlier fresh addrHI addrLO netAddrHI netAddrLO
          data)).trans.contents = requestFrame addrHI addrLO netAddrHI netAddrLO data

theorem sendsRequest_iff (useXBeeEsc : Bool) (port : Port) (earlier : List (Port × XBeeMsg))
    (fresh : Nat → UInt8) (addrHI addrLO : UInt32) (netAddrHI netAddrLO : UInt8)
    (data : List UInt8) (hsize : data.length ≤ frameMaxSize - frameTranDataOffset) :
    SendsRequest useXBeeEsc port earlier fresh addrHI addrLO netAddrHI netAddrLO data ↔
      data.length + 18 ≤ 255 ∧ fresh (data.length + 14) = 0 := by
  have hiff := @sentRequest_eq_apiFrame_iff fresh addrHI addrLO netAddrHI netAddrLO data useXBeeEsc
    port earlier hsize
  constructor
  · rintro ⟨hsent, -⟩
    exact hiff.mp hsent
  · intro hcond
    have hsent := hiff.mpr hcond
    refine ⟨hsent, ?_⟩
    rintro t ht
    rw [hsent]
    exact feed_apiFrame_requestFrame ht hcond.1

theorem sendsRequest_empty :
    SendsRequest true Port.greedy [] (fun _ => 0) 0x0013a200 0x40992206 0xff 0xfe [] :=
  (sendsRequest_iff true Port.greedy [] (fun _ => 0) 0x0013a200 0x40992206 0xff 0xfe []
    (by decide)).mpr ⟨by decide, rfl⟩

/-- A nonzero byte behind the frame spoils the checksum; a request of 256 bytes is not
written at all. -/
theorem request_not_sent :
    ¬ SendsRequest true Port.greedy [] (fun _ => 1) 0x0013a200 0x40992206 0xff 0xfe [] ∧
      sentRequest true Port.greedy [] (fun _ => 0) 0x0013a200 0x40992206 0xff 0xfe
        (List.replicate 238 0) = [] := by
  constructor
  · rintro ⟨hsent, -⟩
    have hcond := (sentRequest_eq_apiFrame_iff true Port.greedy [] (by decide)).mp hsent
    exact absurd hcond.2 (by decide)
  · rw [sentRequest_eq true Port.greedy [] (by rw [List.length_replicate]; decide),
      List.length_replicate]
    exact List.take_zero

end Paparazzi.Link.GroundXBee
