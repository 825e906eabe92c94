import Mathlib
import Paparazzi.Link.PprzReceive

/-!
Datalink messages through the W5100: the receive memory of a socket in the chip, `w5100_receive`,
the loops of `w5100_read_buffer` and `W5100CheckAndParse`.
-/

namespace Paparazzi.Link.W5100

open Paparazzi.Library
open Paparazzi.Library.Machine
open Paparazzi.Link.PprzTransport (Parser Status parsePprz feed toIdle stx)

def w5100RxBufferSize : Nat := 80

def rsize : Nat := 2048

/-! ### The chip -/

/-- The socket `CMD_SOCKET` of the chip: its receive memory, the register `SOCK_RXRD` and the
received size `SOCK_RSR`. -/
structure Chip where
  mem : Nat → UInt8
  rxRd : UInt16
  rsr : Nat

/-- A UDP packet, with the address and the port that the chip puts in front of it. -/
structure Packet where
  source : List UInt8
  source_length : source.length = 6
  data : List UInt8

/-- The packet in the memory: source, length and data. -/
def Packet.bytes (p : Packet) : List UInt8 :=
  p.source ++ [UInt8.ofNat (p.data.length / 2 ^ 8), UInt8.ofNat p.data.length] ++ p.data

/-- The chip stores a packet behind those that it holds. -/
def Chip.store (chip : Chip) (p : Packet) : Chip :=
  { chip with
    mem := fun a =>
      let i := (a + 2 * rsize - (chip.rxRd.toNat + chip.rsr) % rsize) % rsize
      if a < rsize ∧ i < p.bytes.length then p.bytes.getD i 0 else chip.mem a
    rsr := chip.rsr + p.bytes.length }

/-- `w5100_read`, at an address relative to the start of the memory. -/
def w5100Read (mem : Nat → UInt8) (addr len : Nat) : List UInt8 :=
  (List.range len).map fun i => mem (addr + i)

def w5100ReadData (mem : Nat → UInt8) (src : UInt16) (len : Nat) : List UInt8 :=
  let srcMask := src.toNat % rsize
  if srcMask + len > rsize then
    w5100Read mem srcMask (rsize - srcMask) ++ w5100Read mem 0 (len - (rsize - srcMask))
  else w5100Read mem srcMask len

/-- The returned length, the buffer and the chip; the parameter `len` is not used. -/
def w5100Receive (chip : Chip) (buf : Nat → UInt8) : Nat × (Nat → UInt8) × Chip :=
  let head := w5100ReadData chip.mem chip.rxRd 8
  let ptr := chip.rxRd + 8
  let dataLen := (head.getD 6 0).toNat * 2 ^ 8 + (head.getD 7 0).toNat
  let data := w5100ReadData chip.mem ptr dataLen
  (dataLen, fun i => if i < dataLen then data.getD i 0 else buf i,
    { chip with rxRd := ptr + UInt16.ofNat dataLen, rsr := chip.rsr - (8 + dataLen) })

def w5100ChAvailable (chip : Chip) : Bool := 0 < chip.rsr

/-! ### The loops -/

/-- It is `parse_pprz` again, on a structure with the same fields. -/
def parseW5100 : Parser → UInt8 → Parser := parsePprz

/-- The bytes that the inner loop may still take. -/
def loopRank (t : Parser) : Nat := if t.status = .uninit then 260 else toIdle t

theorem toIdle_parse (t : Parser) (c : UInt8) :
    toIdle (parseW5100 t c) = toIdle (PprzTransport.consume t c) := rfl

theorem toIdle_parse_le (t : Parser) (c : UInt8) : toIdle (parseW5100 t c) ≤ 259 := by
  have hle := PprzTransport.expected_le
    ((parseW5100 t c).trans.payloadLen - (parseW5100 t c).payloadIdx)
  cases hstatus : (parseW5100 t c).status with
  | uninit => simp [toIdle, hstatus]
  | gotStx => simp [toIdle, hstatus]
  | gotLength =>
      simp only [toIdle, hstatus]
      omega
  | gotPayload => simp [toIdle, hstatus]
  | gotCrc1 => simp [toIdle, hstatus]

theorem loopRank_lt {t : Parser} {c : UInt8} (h : (parseW5100 t c).status ≠ .uninit) :
    loopRank (parseW5100 t c) < loopRank t := by
  rw [loopRank, if_neg h, loopRank]
  split_ifs with hidle
  · exact Nat.lt_succ_of_le (toIdle_parse_le t c)
  · rw [toIdle_parse]
    exact PprzTransport.toIdle_consume hidle c

/-- `do parse_w5100(t, rx_buf[c++]) while (status != UNINIT && !msg_received)`. -/
def parseLoop (rxBuf : Nat → UInt8) (t : Parser) (c : Nat) : Parser × Nat :=
  if h : (parseW5100 t (rxBuf c)).status ≠ .uninit ∧
      (parseW5100 t (rxBuf c)).trans.msgReceived = false then
    parseLoop rxBuf (parseW5100 t (rxBuf c)) (c + 1)
  else (parseW5100 t (rxBuf c), c + 1)
termination_by loopRank t
decreasing_by exact loopRank_lt h.1

/-- The chip, the buffers and the parser, with what happened: for each received packet its bytes
in `rx_buf` and the bytes that were passed to the parser, and the payloads that were copied to
`dl_buffer`. -/
structure Datalink where
  chip : Chip
  rxBuf : Nat → UInt8
  tp : Parser
  dlBuffer : Nat → UInt8
  dlMsgAvailable : Bool
  passed : List (List UInt8 × List UInt8)
  delivered : List (List UInt8)

/-- One round of `w5100_read_buffer`. -/
def readPacket (s : Datalink) : Datalink :=
  let (len, rxBuf, chip) := w5100Receive s.chip s.rxBuf
  let (tp, c) := parseLoop rxBuf s.tp 0
  { s with
    chip := chip
    rxBuf := rxBuf
    tp := tp
    passed := s.passed ++ [((List.range len).map rxBuf, (List.range c).map rxBuf)] }

theorem rsr_readPacket_lt {s : Datalink} (h : w5100ChAvailable s.chip = true) :
    (readPacket s).chip.rsr < s.chip.rsr := by
  have hpos : 0 < s.chip.rsr := by simpa [w5100ChAvailable] using h
  change s.chip.rsr - (8 + _) < s.chip.rsr
  omega

def w5100ReadBuffer (s : Datalink) : Datalink :=
  if _h : w5100ChAvailable s.chip = true then w5100ReadBuffer (readPacket s) else s
termination_by s.chip.rsr
decreasing_by exact rsr_readPacket_lt _h

def w5100ParsePayload (s : Datalink) : Datalink :=
  { s with
    dlBuffer := fun i =>
      if i < s.tp.trans.payloadLen.toNat then s.tp.trans.payload (UInt8.ofNat i) else s.dlBuffer i
    dlMsgAvailable := true
    delivered := s.delivered ++ [s.tp.trans.contents] }

def w5100CheckAndParse (s : Datalink) : Datalink :=
  if w5100ChAvailable s.chip then
    let s := w5100ReadBuffer s
    if s.tp.trans.msgReceived then { w5100ParsePayload s with tp := s.tp.taken } else s
  else s

/-- The packets that a call finds arrive before it; one that arrives during the call, before it
has looked for the last time, is as good as there from the start. -/
def mainLoop (s : Datalink) (packets : List Packet) : Datalink :=
  w5100CheckAndParse { s with chip := packets.foldl Chip.store s.chip }

end Paparazzi.Link.W5100
