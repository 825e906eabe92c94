import Mathlib.Data.List.Basic
import Mathlib.Tactic.SplitIfs
import Paparazzi.Library.Bytes

/-!
The telemetry link over UDP: a datagram is walked frame by frame, each frame by the fields of its
message, and every frame with a right checksum is sent on the bus as a text.
-/

namespace Paparazzi.Link.UdpLink

open Paparazzi.Library

def stx : UInt8 := 0x99

def stxTs : UInt8 := 0x98

/-! ### Values -/

/-- What `struct.unpack` gives: an integer, or the bits of a float. -/
inductive Value where
  | int (n : Int)
  | float (bits : Nat)
  deriving DecidableEq, Repr

/-- The dictionaries made from `messages.xml`, the size of `long` on the platform, and how Python
writes a float. -/
structure Env where
  messages : Nat → Option (String × List String)
  pong : Option Nat
  sizeofLong : Nat
  sizeofLong_eq : sizeofLong = 4 ∨ sizeofLong = 8
  strFloat : Nat → String

/-- `data_types`: the format and the size of a type. -/
def dataTypes (type : String) : Option (Char × Nat) :=
  [("float", 'f', 4), ("uint8", 'B', 1), ("uint16", 'H', 2), ("uint32", 'L', 4), ("int8", 'b', 1),
    ("int16", 'h', 2), ("int32", 'l', 4)].lookup type

/-- A number in two's complement. -/
def signed (bytes : List UInt8) : Int :=
  let n := LittleEndian.ofBytes bytes
  if 2 * n < 256 ^ bytes.length then n else n - 256 ^ bytes.length

/-- A field whose name ends with `[]`. -/
def isArray (field : String) : Bool := field.toList.reverse.take 2 = [']', '[']

/-- `field[:-2]` -/
def baseType (field : String) : String := String.ofList field.toList.dropLast.dropLast

namespace Env

variable (env : Env)

/-- `struct.unpack` in native mode: nothing where the number of bytes is not that of the format. -/
def unpack (format : Char) (bytes : List UInt8) : Option Value :=
  let exactly := fun (n : Nat) (v : Value) => if bytes.length = n then some v else none
  match format with
  | 'f' => exactly 4 (.float (LittleEndian.ofBytes bytes))
  | 'B' => exactly 1 (.int (LittleEndian.ofBytes bytes))
  | 'H' => exactly 2 (.int (LittleEndian.ofBytes bytes))
  | 'L' => exactly env.sizeofLong (.int (LittleEndian.ofBytes bytes))
  | 'b' => exactly 1 (.int (signed bytes))
  | 'h' => exactly 2 (.int (signed bytes))
  | 'l' => exactly env.sizeofLong (.int (signed bytes))
  | _ => none

def str : Value → String
  | .int n => toString n
  | .float bits => env.strFloat bits

end Env

/-! ### The walk -/

/-- The count of errors, the messages sent on the bus, and what `updateStatus` was called with:
aircraft, length byte, and whether the message is a PONG. -/
structure State where
  rxErr : Nat
  sent : List String
  updates : List (UInt8 × UInt8 × Bool)
  deriving DecidableEq

def start : State := ⟨0, [], []⟩

def calculateChecksum (bytes : List UInt8) : UInt8 × UInt8 := Checksum.fletcher 0 0 bytes.tail

section

variable (env : Env) (msg : List UInt8)

/-- `Unpack` of one byte. -/
def unpackByte (off : Nat) : Option UInt8 :=
  match LittleEndian.slice msg off 1 with
  | [b] => some b
  | _ => none

/-- One value and the offset behind it; nothing where an exception is raised. -/
def scalar (type : String) (off : Nat) : Option (Value × Nat) := do
  let (format, size) ← dataTypes type
  let value ← env.unpack format (LittleEndian.slice msg off size)
  return (value, off + size)

/-- The loop over the values of an array that are left. -/
def arrayValues (type : String) : Nat → Nat → String → Option (Nat × String)
  | 0, off, ivyMsg => some (off, ivyMsg)
  | n + 1, off, ivyMsg => do
      let (value, off) ← scalar env msg type off
      arrayValues type n off (ivyMsg ++ env.str value ++ if n = 0 then " " else ",")

def oneField (field : String) (off : Nat) (ivyMsg : String) : Option (Nat × String) := do
  if isArray field then
    let arrayLength ← unpackByte msg off
    arrayValues env msg (baseType field) arrayLength.toNat (off + 1) ivyMsg
  else
    let (value, off) ← scalar env msg field off
    return (off, ivyMsg ++ env.str value ++ " ")

/-- The loop over the fields of the message. -/
def fields : List String → Nat → String → Option (Nat × String)
  | [], off, ivyMsg => some (off, ivyMsg)
  | field :: rest, off, ivyMsg => do
      let (off, ivyMsg) ← oneField env msg field off ivyMsg
      if off > msg.length then some (off, ivyMsg) else fields rest off ivyMsg

/-- The offset behind the timestamp, which a frame has after `STX_TS`. -/
def skipTimestamp (startByte : UInt8) (off : Nat) : Option Nat :=
  if startByte = stxTs then
    (env.unpack 'L' (LittleEndian.slice msg off 4)).map fun _ => off + 4
  else some off

def header (acId : UInt8) (name : String) : String := toString acId.toNat ++ " " ++ name ++ " "

/-- A turn of the loop of `ProcessPacket`: the state and the next offset, if the loop goes on, or
nothing where an exception is raised. -/
def processFrame (off : Nat) (s : State) : Option (State × Option Nat) := do
  let startByte ← msg[off]?
  if startByte ≠ stx ∧ startByte ≠ stxTs then return ({ s with rxErr := s.rxErr + 1 }, none)
  let msgLength ← msg[off + 1]?
  let idOff ← skipTimestamp env msg startByte (off + 2)
  let acId ← msg[idOff]?
  let msgId ← msg[idOff + 1]?
  let (name, types) ← env.messages msgId.toNat
  let (ckOff, ivyMsg) ← fields env msg types (idOff + 2) (header acId name)
  let ck := calculateChecksum (LittleEndian.slice msg off (ckOff - off))
  let msgCkA ← unpackByte msg ckOff
  let msgCkB ← unpackByte msg (ckOff + 1)
  if ck = (msgCkA, msgCkB) then
    let pong ← env.pong
    return (
      { s with
        sent := s.sent ++ [String.ofList ivyMsg.toList.dropLast]
        updates := s.updates ++ [(acId, msgLength, decide (msgId.toNat = pong))] },
      some (ckOff + 2))
  else return (s, some (ckOff + 2))

end

/-! ### The loop -/

section

variable {env : Env} {msg : List UInt8}

theorem scalar_le {type : String} {off off' : Nat} {value : Value}
    (h : scalar env msg type off = some (value, off')) : off ≤ off' := by
  obtain ⟨⟨format, size⟩, -, h⟩ := Option.bind_eq_some_iff.1 h
  obtain ⟨value', -, h⟩ := Option.bind_eq_some_iff.1 h
  cases h
  exact Nat.le_add_right off size

theorem arrayValues_le {type : String} {n off off' : Nat} {text text' : String}
    (h : arrayValues env msg type n off text = some (off', text')) : off ≤ off' := by
  induction n generalizing off text with
  | zero =>
      cases h
      exact Nat.le_refl _
  | succ n ih =>
      obtain ⟨⟨value, next⟩, hscalar, h⟩ := Option.bind_eq_some_iff.1 h
      exact Nat.le_trans (scalar_le hscalar) (ih h)

theorem oneField_le {field : String} {off off' : Nat} {text text' : String}
    (h : oneField env msg field off text = some (off', text')) : off ≤ off' := by
  unfold oneField at h
  split_ifs at h
  · obtain ⟨arrayLength, -, h⟩ := Option.bind_eq_some_iff.1 h
    exact Nat.le_trans (Nat.le_succ off) (arrayValues_le h)
  · obtain ⟨⟨value, next⟩, hscalar, h⟩ := Option.bind_eq_some_iff.1 h
    cases h
    exact scalar_le hscalar

theorem fields_le {types : List String} {off off' : Nat} {text text' : String}
    (h : fields env msg types off text = some (off', text')) : off ≤ off' := by
  induction types generalizing off text with
  | nil =>
      cases h
      exact Nat.le_refl _
  | cons field rest ih =>
      obtain ⟨⟨next, text''⟩, hfield, h⟩ := Option.bind_eq_some_iff.1 h
      have hle := oneField_le hfield
      dsimp only at h
      split_ifs at h
      · cases h
        exact hle
      · exact Nat.le_trans hle (ih h)

theorem skipTimestamp_le {startByte : UInt8} {off off' : Nat}
    (h : skipTimestamp env msg startByte off = some off') : off ≤ off' := by
  unfold skipTimestamp at h
  split_ifs at h
  · obtain ⟨-, -, rfl⟩ := Option.map_eq_some_iff.1 h
    exact Nat.le_add_right off 4
  · cases h
    exact Nat.le_refl _

/-- Each turn of the loop goes forward. -/
theorem processFrame_lt {off off' : Nat} {s s' : State}
    (h : processFrame env msg off s = some (s', some off')) : off < off' := by
  obtain ⟨startByte, -, h⟩ := Option.bind_eq_some_iff.1 h
  split_ifs at h
  · cases h
  obtain ⟨msgLength, -, h⟩ := Option.bind_eq_some_iff.1 h
  obtain ⟨idOff, hskip, h⟩ := Option.bind_eq_some_iff.1 h
  obtain ⟨acId, -, h⟩ := Option.bind_eq_some_iff.1 h
  obtain ⟨msgId, -, h⟩ := Option.bind_eq_some_iff.1 h
  obtain ⟨⟨name, types⟩, -, h⟩ := Option.bind_eq_some_iff.1 h
  obtain ⟨⟨ckOff, ivyMsg⟩, hfields, h⟩ := Option.bind_eq_some_iff.1 h
  have hskipLe := skipTimestamp_le hskip
  have hfieldsLe := fields_le hfields
  obtain ⟨msgCkA, -, h⟩ := Option.bind_eq_some_iff.1 h
  obtain ⟨msgCkB, -, h⟩ := Option.bind_eq_some_iff.1 h
  split_ifs at h
  · obtain ⟨pong, -, h⟩ := Option.bind_eq_some_iff.1 h
    cases h
    omega
  · cases h
    omega

end

section

variable (env : Env) (msg : List UInt8)

/-- The loop of `ProcessPacket`: the state, and whether it ends without an exception. -/
def loop (off : Nat) (s : State) : State × Bool :=
  if off < msg.length then
    match _h : processFrame env msg off s with
    | none => (s, false)
    | some (s', none) => (s', true)
    | some (s', some off') => loop off' s'
  else (s, true)
termination_by msg.length - off
decreasing_by
  have hlt := processFrame_lt ‹processFrame env msg off s = _›
  omega

def processPacket (s : State) : State × Bool :=
  if msg.length < 4 then ({ s with rxErr := s.rxErr + 1 }, true) else loop env msg 0 s

end

end Paparazzi.Link.UdpLink
