import Mathlib.Data.List.FinRange
import Paparazzi.Library.Machine
import Paparazzi.Link.Transport

/-!
The link between the fly-by-wire and the autopilot processors over a UART: the macros that
write the messages, the parser `intermcu_parse` and the readers of the messages.
-/

namespace Paparazzi.InterMcu.LinkMcuUsart

open Paparazzi.Library.Machine

/-! ### The shared data -/

structure ApState (commandsNb : Nat) where
  commands : Fin commandsNb → Int16
  commandRollTrim : Int16
  commandPitchTrim : Int16

structure FbwState (radioControlNbChannel : Nat) where
  channels : Fin radioControlNbChannel → Int16
  ppmCpt : UInt8
  status : UInt8
  nbErr : UInt8
  vsupply : UInt16
  current : Int32

/-- `*ap_state`, `*fbw_state` and the flags of the reception. -/
structure Shared (n k : Nat) where
  apState : ApState n
  fbwState : FbwState k
  interMcuReceivedAp : Bool
  interMcuReceivedFbw : Bool

/-! ### Writing -/

def intermcuSync1 : UInt8 := 0xB5
def intermcuSync2 : UInt8 := 0x62

def msgIntermcuId : UInt8 := 100
def msgIntermcuCommandId : UInt8 := 0x05
def msgIntermcuFbwId : UInt8 := 0x06
def msgIntermcuTrimId : UInt8 := 0x07
def msgIntermcuRadioId : UInt8 := 0x08

/-- The bytes sent so far, with `send_ck_a` and `send_ck_b`. -/
structure Sender where
  out : List UInt8
  sendCkA : UInt8
  sendCkB : UInt8

def interMcuUartSend1 (c : UInt8) (s : Sender) : Sender := { s with out := s.out ++ [c] }

def updateChecksum (c : UInt8) (s : Sender) : Sender :=
  { s with sendCkA := s.sendCkA + c, sendCkB := s.sendCkB + (s.sendCkA + c) }

def interMcuSend1 (c : UInt8) (s : Sender) : Sender := updateChecksum c (interMcuUartSend1 c s)

def lowByte (x : UInt16) : UInt8 := x.toUInt8

def highByte (x : UInt16) : UInt8 := (x >>> 8).toUInt8

def interMcuSend2 (c : UInt16) (s : Sender) : Sender :=
  interMcuSend1 (highByte c) (interMcuSend1 (lowByte c) s)

/-- The two bytes at the address of a word; the processors are little-endian. -/
def interMcuSend2ByAddr (x : UInt16) (s : Sender) : Sender :=
  interMcuSend1 (highByte x) (interMcuSend1 (lowByte x) s)

def interMcuInitCheksum (s : Sender) : Sender := { s with sendCkA := 0, sendCkB := 0 }

def interMcuHeader (navId msgId : UInt8) (len : UInt16) (s : Sender) : Sender :=
  interMcuSend2 len (interMcuSend1 msgId (interMcuSend1 navId
    (interMcuInitCheksum (interMcuUartSend1 intermcuSync2 (interMcuUartSend1 intermcuSync1 s)))))

def interMcuTrailer (s : Sender) : Sender :=
  interMcuUartSend1 s.sendCkB (interMcuUartSend1 s.sendCkA s)

/-- The loop over a vector of `pprz_t`. -/
def interMcuSendVector {n : Nat} (cmd : Fin n → Int16) (s : Sender) : Sender :=
  (List.finRange n).foldl (fun s i => interMcuSend2ByAddr (cmd i).toUInt16 s) s

section

variable {n k : Nat} (s : Sender)

/-- `InterMcuSend_INTERMCU_COMMAND`. -/
def interMcuSendCommand (cmd : Fin n → Int16) : Sender :=
  interMcuTrailer (interMcuSendVector cmd
    (interMcuHeader msgIntermcuId msgIntermcuCommandId (2 * UInt16.ofNat n) s))

/-- `InterMcuSend_INTERMCU_RADIO`. -/
def interMcuSendRadio (cmd : Fin k → Int16) : Sender :=
  interMcuTrailer (interMcuSendVector cmd
    (interMcuHeader msgIntermcuId msgIntermcuRadioId (2 * UInt16.ofNat k) s))

/-- `InterMcuSend_INTERMCU_FBW`; the current loses its high half. -/
def interMcuSendFbw (mod stat err : UInt8) (volt : UInt16) (current : Int32) : Sender :=
  interMcuTrailer (interMcuSend2ByAddr current.toUInt32.toUInt16 (interMcuSend2ByAddr volt
    (interMcuSend1 err (interMcuSend1 stat (interMcuSend1 mod
      (interMcuHeader msgIntermcuId msgIntermcuFbwId 6 s))))))

/-- `InterMcuSend_INTERMCU_TRIM`. -/
def interMcuSendTrim (roll pitch : Int16) : Sender :=
  interMcuTrailer (interMcuSend2ByAddr pitch.toUInt16 (interMcuSend2ByAddr roll.toUInt16
    (interMcuHeader msgIntermcuId msgIntermcuTrimId 4 s)))

end

/-! ### The parser -/

inductive Status where
  | uninit | gotSync1 | gotSync2 | gotClass | gotId | gotLen1 | gotLen2 | gotPayload | gotChecksum1
  deriving DecidableEq, Repr

/-- `status < GOT_PAYLOAD`. -/
def Status.beforePayload : Status → Bool
  | .gotPayload | .gotChecksum1 => false
  | _ => true

/-- The receiving fields of `struct InterMcuData`. -/
structure IntermcuData where
  msgAvailable : Bool
  msgBuf : UInt8 → UInt8
  msgId : UInt8
  msgClass : UInt8
  status : Status
  len : UInt16
  msgIdx : UInt8
  ckA : UInt8
  ckB : UInt8
  errorCnt : UInt8

def intermcuMaxPayload : UInt16 := 255

/-- The label `error`. -/
def parseError (d : IntermcuData) : IntermcuData :=
  { d with errorCnt := d.errorCnt + 1, status := .uninit }

def intermcuParse (d : IntermcuData) (c : UInt8) : IntermcuData :=
  let d := if d.status.beforePayload then { d with ckA := d.ckA + c, ckB := d.ckB + (d.ckA + c) } else d
  match d.status with
  | .uninit => if c = intermcuSync1 then { d with status := .gotSync1 } else d
  | .gotSync1 =>
      if c ≠ intermcuSync2 then parseError d
      else { d with ckA := 0, ckB := 0, status := .gotSync2 }
  | .gotSync2 =>
      -- the previous message has not been read: this one is dropped
      if d.msgAvailable then parseError d
      else { d with msgClass := c, status := .gotClass }
  | .gotClass => { d with msgId := c, status := .gotId }
  | .gotId => { d with len := c.toUInt16, status := .gotLen1 }
  | .gotLen1 =>
      let d := { d with len := d.len ||| (c.toUInt16 <<< 8) }
      if d.len > intermcuMaxPayload then parseError d
      else { d with msgIdx := 0, status := .gotLen2 }
  | .gotLen2 =>
      let d := { d with msgBuf := Function.update d.msgBuf d.msgIdx c, msgIdx := d.msgIdx + 1 }
      if d.msgIdx.toUInt16 ≥ d.len then { d with status := .gotPayload } else d
  | .gotPayload => if c ≠ d.ckA then parseError d else { d with status := .gotChecksum1 }
  | .gotChecksum1 =>
      if c ≠ d.ckB then parseError d else { d with msgAvailable := true, status := .uninit }

/-! ### Reading -/

def word (low high : UInt8) : UInt16 := low.toUInt16 ||| (high.toUInt16 <<< 8)

section

variable (msgBuf : UInt8 → UInt8)

/-- `MSG_INTERMCU_COMMAND`: the low byte is always that of the first command. -/
def msgIntermcuCommand (nr : Nat) : UInt16 := word (msgBuf 0) (msgBuf (UInt8.ofNat (1 + 2 * nr)))

/-- `MSG_INTERMCU_RADIO`: as `MSG_INTERMCU_COMMAND`. -/
def msgIntermcuRadio (nr : Nat) : UInt16 := word (msgBuf 0) (msgBuf (UInt8.ofNat (1 + 2 * nr)))

def msgIntermcuFbwMod : UInt8 := msgBuf 0
def msgIntermcuFbwStat : UInt8 := msgBuf 1
def msgIntermcuFbwErr : UInt8 := msgBuf 2
def msgIntermcuFbwVolt : UInt16 := word (msgBuf 3) (msgBuf 4)
def msgIntermcuFbwCurrent : UInt16 := word (msgBuf 5) (msgBuf 6)
def msgIntermcuTrimRoll : UInt16 := word (msgBuf 0) (msgBuf 1)
def msgIntermcuTrimPitch : UInt16 := word (msgBuf 2) (msgBuf 3)

end

def parseMavpilotMsg {n k : Nat} (d : IntermcuData) (m : Shared n k) : Shared n k :=
  if d.msgClass = msgIntermcuId then
    if d.msgId = msgIntermcuCommandId then
      { m with
        apState :=
          { m.apState with commands := fun i => (msgIntermcuCommand d.msgBuf i).toInt16 }
        interMcuReceivedAp := true }
    else if d.msgId = msgIntermcuRadioId then
      { m with
        fbwState := { m.fbwState with channels := fun i => (msgIntermcuRadio d.msgBuf i).toInt16 } }
    else if d.msgId = msgIntermcuTrimId then
      { m with
        apState :=
          { m.apState with
            commandRollTrim := (msgIntermcuTrimRoll d.msgBuf).toInt16
            commandPitchTrim := (msgIntermcuTrimPitch d.msgBuf).toInt16 } }
    else if d.msgId = msgIntermcuFbwId then
      { m with
        fbwState :=
          { m.fbwState with
            ppmCpt := msgIntermcuFbwMod d.msgBuf
            status := msgIntermcuFbwStat d.msgBuf
            nbErr := msgIntermcuFbwErr d.msgBuf
            vsupply := msgIntermcuFbwVolt d.msgBuf
            current := (msgIntermcuFbwCurrent d.msgBuf).toUInt32.toInt32 }
        interMcuReceivedFbw := true }
    else m
  else m

/-- A processor that receives, with the values that its calls of `parse_mavpilot_msg` stored. -/
structure Receiver (n k : Nat) where
  data : IntermcuData
  shared : Shared n k
  stored : List (Shared n k)

section

variable {n k : Nat}

/-- The last part of `link_mcu_event_task`. -/
def takeMessage (r : Receiver n k) : Receiver n k :=
  if r.data.msgAvailable then
    { data := { r.data with msgAvailable := false }
      shared := parseMavpilotMsg r.data r.shared
      stored := r.stored ++ [parseMavpilotMsg r.data r.shared] }
  else r

/-- The loop of `link_mcu_event_task` over the bytes that wait in the UART. -/
def parseWaiting : List UInt8 → IntermcuData → List UInt8 × IntermcuData
  | [], d => ([], d)
  | c :: rx, d => if d.msgAvailable then (c :: rx, d) else parseWaiting rx (intermcuParse d c)

/-- The bytes that are left in the UART and the processor after the call. -/
def linkMcuEventTask (rx : List UInt8) (r : Receiver n k) : List UInt8 × Receiver n k :=
  let (rest, d) := parseWaiting rx r.data
  (rest, takeMessage { r with data := d })

/-- One byte, and the message that it ends. -/
def receive (r : Receiver n k) (c : UInt8) : Receiver n k :=
  takeMessage { r with data := intermcuParse r.data c }

end

end Paparazzi.InterMcu.LinkMcuUsart
