import Paparazzi.Library.Machine
import Paparazzi.InterMcu.LinkMcuUsart

/-!
The UBX protocol of the GPS receiver on board: the macros that write a message, and the
parser `gps_ubx_parse`.
-/

namespace Paparazzi.Link.Ubx

open Paparazzi.Library.Machine
open Paparazzi.InterMcu.LinkMcuUsart (lowByte highByte)

def ubxSync1 : UInt8 := 0xB5
def ubxSync2 : UInt8 := 0x62

def gpsUbxMaxPayload : UInt16 := 255

/-! ### Writing -/

/-- The bytes sent so far, with `send_ck_a` and `send_ck_b`. -/
structure Sender where
  out : List UInt8
  sendCkA : UInt8
  sendCkB : UInt8

def gpsUartSend1 (c : UInt8) (s : Sender) : Sender := { s with out := s.out ++ [c] }

def ubxInitCheksum (s : Sender) : Sender := { s with sendCkA := 0, sendCkB := 0 }

def updateChecksum (c : UInt8) (s : Sender) : Sender :=
  { s with sendCkA := s.sendCkA + c, sendCkB := s.sendCkB + (s.sendCkA + c) }

def ubxTrailer (s : Sender) : Sender := gpsUartSend1 s.sendCkB (gpsUartSend1 s.sendCkA s)

def ubxSend1 (c : UInt8) (s : Sender) : Sender := updateChecksum c (gpsUartSend1 c s)

def ubxSend2 (c : UInt16) (s : Sender) : Sender := ubxSend1 (highByte c) (ubxSend1 (lowByte c) s)

/-- The macros that write the payload, with the bytes at the address that some of them read. -/
inductive Send where
  | send1 (c : UInt8)
  | send2 (c : UInt16)
  | send1ByAddr (x : UInt8)
  | send2ByAddr (x x1 : UInt8)
  | send4ByAddr (x x1 x2 x3 : UInt8)

def ubxSend : Send → Sender → Sender
  | .send1 c, s => ubxSend1 c s
  | .send2 c, s => ubxSend2 c s
  | .send1ByAddr x, s => ubxSend1 x s
  | .send2ByAddr x x1, s => ubxSend1 x1 (ubxSend1 x s)
  | .send4ByAddr x x1 x2 x3, s => ubxSend1 x3 (ubxSend1 x2 (ubxSend1 x1 (ubxSend1 x s)))

def ubxHeader (navId msgId : UInt8) (len : UInt16) (s : Sender) : Sender :=
  ubxSend2 len (ubxSend1 msgId (ubxSend1 navId
    (ubxInitCheksum (gpsUartSend1 ubxSync2 (gpsUartSend1 ubxSync1 s)))))

/-- The bytes of a message that is written by the header, some sends and the trailer. -/
def ubxMessage (navId msgId : UInt8) (len : UInt16) (sends : List Send) : List UInt8 :=
  (ubxTrailer (sends.foldl (fun s send => ubxSend send s)
    (ubxHeader navId msgId len ⟨[], 0, 0⟩))).out

/-! ### The parser -/

inductive Status where
  | uninit | gotSync1 | gotSync2 | gotClass | gotId | gotLen1 | gotLen2 | gotPayload | gotChecksum1
  deriving DecidableEq, Repr

/-- `status < GOT_PAYLOAD`. -/
def Status.beforePayload : Status → Bool
  | .gotPayload | .gotChecksum1 => false
  | _ => true

inductive Error where
  | none | overrun | msgTooLong | checksum | unexpected | outOfSync
  deriving DecidableEq, Repr

/-- The fields of `struct GpsUbx` that the parser uses. -/
structure GpsUbx where
  msgAvailable : Bool
  msgBuf : UInt8 → UInt8
  msgId : UInt8
  msgClass : UInt8
  status : Status
  len : UInt16
  msgIdx : UInt8
  ckA : UInt8
  ckB : UInt8
  errorCnt : UInt8
  errorLast : Error

/-- The label `error`. -/
def parseError (e : Error) (d : GpsUbx) : GpsUbx :=
  { d with errorLast := e, errorCnt := d.errorCnt + 1, status := .uninit }

def gpsUbxParse (d : GpsUbx) (c : UInt8) : GpsUbx :=
  let d :=
    if d.status.beforePayload then { d with ckA := d.ckA + c, ckB := d.ckB + (d.ckA + c) } else d
  match d.status with
  | .uninit => if c = ubxSync1 then { d with status := .gotSync1 } else d
  | .gotSync1 =>
      if c ≠ ubxSync2 then parseError .outOfSync d
      else { d with ckA := 0, ckB := 0, status := .gotSync2 }
  | .gotSync2 =>
      -- the previous message has not been read: this one is dropped
      if d.msgAvailable then parseError .overrun d
      else { d with msgClass := c, status := .gotClass }
  | .gotClass => { d with msgId := c, status := .gotId }
  | .gotId => { d with len := c.toUInt16, status := .gotLen1 }
  | .gotLen1 =>
      let d := { d with len := d.len ||| (c.toUInt16 <<< 8) }
      if d.len > gpsUbxMaxPayload then parseError .msgTooLong d
      else { d with msgIdx := 0, status := .gotLen2 }
  | .gotLen2 =>
      -- a byte is stored before the length is looked at
      let d := { d with msgBuf := Function.update d.msgBuf d.msgIdx c, msgIdx := d.msgIdx + 1 }
      if d.msgIdx.toUInt16 ≥ d.len then { d with status := .gotPayload } else d
  | .gotPayload =>
      if c ≠ d.ckA then parseError .checksum d else { d with status := .gotChecksum1 }
  | .gotChecksum1 =>
      if c ≠ d.ckB then parseError .checksum d
      else { d with msgAvailable := true, status := .uninit }

/-- The index of `msg_buf` that the next byte is stored at. -/
def storeIndex (d : GpsUbx) : Option UInt8 := if d.status = .gotLen2 then some d.msgIdx else none

/-- A byte of the link, or the event handler that has read the message. -/
inductive Event where
  | byte (c : UInt8)
  | messageRead

def step (d : GpsUbx) : Event → GpsUbx
  | .byte c => gpsUbxParse d c
  | .messageRead => { d with msgAvailable := false }

/-- The parser after a byte string. -/
def feed (d : GpsUbx) (bytes : List UInt8) : GpsUbx := run gpsUbxParse d bytes

/-- `msg_available` after each byte of a byte string. -/
def available : GpsUbx → List UInt8 → List Bool
  | _, [] => []
  | d, c :: bytes => (gpsUbxParse d c).msgAvailable :: available (gpsUbxParse d c) bytes

end Paparazzi.Link.Ubx
