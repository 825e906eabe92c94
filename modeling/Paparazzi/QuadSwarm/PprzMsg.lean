import Mathlib.Data.List.Basic

/-!
`pprz_msg` of the ground station: a message as a byte buffer with a reading position, and the
hand-written sequences of writes and reads for the messages of the swarm.
-/

namespace Paparazzi.QuadSwarm.GroundMessages

def pprzMsgMaxSize : Nat := 512

/-- The `_length` bytes of the message, and `_pos`. -/
structure PprzMsg where
  data : List UInt8
  pos : Nat

def newMsg : PprzMsg := ⟨[], 0⟩

/-! ### Writing -/

def pprzPutByte (value : UInt8) (m : PprzMsg) : PprzMsg :=
  if m.data.length + 1 > pprzMsgMaxSize then m else { m with data := m.data ++ [value] }

/-- The four bytes at the address of a word, on a little-endian machine. -/
def pprzPut4bytes (value : UInt32) (m : PprzMsg) : PprzMsg :=
  pprzPutByte (value >>> 24).toUInt8 (pprzPutByte (value >>> 16).toUInt8
    (pprzPutByte (value >>> 8).toUInt8 (pprzPutByte value.toUInt8 m)))

def forwardMsgIdBlock : UInt8 := 5
def forwardMsgIdQuadSwarmMsg : UInt8 := 15
def forwardMsgIdQuadSwarmAckForwarded : UInt8 := 18
def forwardMsgIdDlSetting : UInt8 := 4

def pprzSetBlock (acId blockId : UInt8) (m : PprzMsg) : PprzMsg :=
  pprzPutByte acId (pprzPutByte blockId (pprzPutByte forwardMsgIdBlock (pprzPutByte acId m)))

/-- A `float` is given by its 32 bits. -/
def pprzSetDlSetting (acId index : UInt8) (value : UInt32) (m : PprzMsg) : PprzMsg :=
  pprzPut4bytes value (pprzPutByte acId (pprzPutByte index
    (pprzPutByte forwardMsgIdDlSetting (pprzPutByte acId m))))

structure QuadSwarmMsg where
  acId : UInt8
  dummy : UInt8
  x : Int32
  y : Int32
  z : Int32

/-- Of the structure only the coordinates are sent. -/
def pprzSetMsg (acId : UInt8) (msg : QuadSwarmMsg) (m : PprzMsg) : PprzMsg :=
  pprzPut4bytes msg.z.toUInt32 (pprzPut4bytes msg.y.toUInt32 (pprzPut4bytes msg.x.toUInt32
    (pprzPutByte 0 (pprzPutByte acId
      (pprzPutByte forwardMsgIdQuadSwarmMsg (pprzPutByte acId m))))))

def pprzSetAck (acId ack : UInt8) (m : PprzMsg) : PprzMsg :=
  pprzPutByte ack (pprzPutByte acId
    (pprzPutByte forwardMsgIdQuadSwarmAckForwarded (pprzPutByte acId m)))

/-! ### Reading -/

/-- Behind the end a byte is 0, and the position stays. -/
def pprzReadByte : StateM PprzMsg UInt8 := fun m =>
  if m.pos ≥ m.data.length then (0, m) else (m.data.getD m.pos 0, { m with pos := m.pos + 1 })

def pprzRead2bytes : StateM PprzMsg UInt16 := do
  let lsb ← pprzReadByte
  let msb ← pprzReadByte
  return (msb.toUInt16 <<< 8) ||| lsb.toUInt16

def pprzRead4bytes : StateM PprzMsg UInt32 := do
  let b1 ← pprzReadByte
  let b2 ← pprzReadByte
  let b3 ← pprzReadByte
  let b4 ← pprzReadByte
  return (b4.toUInt32 <<< 24) ||| (b3.toUInt32 <<< 16) ||| (b2.toUInt32 <<< 8) ||| b1.toUInt32

/-- The bits of the `float`. -/
def pprzReadFloat : StateM PprzMsg UInt32 := fun m =>
  if m.pos + 3 ≥ m.data.length then (0, m)
  else
    ((m.data.getD m.pos 0).toUInt32 ||| ((m.data.getD (m.pos + 1) 0).toUInt32 <<< 8) |||
      ((m.data.getD (m.pos + 2) 0).toUInt32 <<< 16) |||
      ((m.data.getD (m.pos + 3) 0).toUInt32 <<< 24),
      { m with pos := m.pos + 4 })

def pprzGetMsgId (m : PprzMsg) : UInt8 := if m.data.length > 2 then m.data.getD 1 0 else 0

structure DlValue where
  acId : UInt8
  index : UInt8
  value : UInt32

def pprzGetDlValue : StateM PprzMsg DlValue := do
  let acId ← pprzReadByte
  let _ ← pprzReadByte
  let index ← pprzReadByte
  let value ← pprzReadFloat
  return { acId, index, value }

structure RotorcraftStatus where
  acId : UInt8
  linkImuNbErr : UInt32
  blmcNbErr : UInt8
  rcStatus : UInt8
  frameRate : UInt8
  gpsStatus : UInt8
  apMode : UInt8
  apInflight : UInt8
  apMotorsOn : UInt8
  apHMode : UInt8
  apVMode : UInt8
  vsupply : UInt8

def pprzGetRotorcraftStatus : StateM PprzMsg RotorcraftStatus := do
  let acId ← pprzReadByte
  let _ ← pprzReadByte
  let linkImuNbErr ← pprzRead4bytes
  let blmcNbErr ← pprzReadByte
  let rcStatus ← pprzReadByte
  let frameRate ← pprzReadByte
  let gpsStatus ← pprzReadByte
  let apMode ← pprzReadByte
  let apInflight ← pprzReadByte
  let apMotorsOn ← pprzReadByte
  let apHMode ← pprzReadByte
  let apVMode ← pprzReadByte
  let vsupply ← pprzReadByte
  return { acId, linkImuNbErr, blmcNbErr, rcStatus, frameRate, gpsStatus, apMode, apInflight,
           apMotorsOn, apHMode, apVMode, vsupply }

structure RotorcraftNavStatus where
  acId : UInt8
  blockTime : UInt16
  stageTime : UInt16
  curBlock : UInt8
  curStage : UInt8
  horizontalMode : UInt8

def pprzGetRotorcraftNavStatus : StateM PprzMsg RotorcraftNavStatus := do
  let acId ← pprzReadByte
  let _ ← pprzReadByte
  let blockTime ← pprzRead2bytes
  let stageTime ← pprzRead2bytes
  let curBlock ← pprzReadByte
  let curStage ← pprzReadByte
  let horizontalMode ← pprzReadByte
  return { acId, blockTime, stageTime, curBlock, curStage, horizontalMode }

/-- The coordinates are declared without a sign. -/
structure QuadSwarmReport where
  acId : UInt8
  x : UInt32
  y : UInt32
  z : UInt32
  state : UInt8
  apMode : UInt8
  pacc : Int32

/-- The id of the sender is overwritten by the first field. -/
def pprzGetQuadSwarmReport : StateM PprzMsg QuadSwarmReport := do
  let _ ← pprzReadByte
  let _ ← pprzReadByte
  let acId ← pprzReadByte
  let x ← pprzRead4bytes
  let y ← pprzRead4bytes
  let z ← pprzRead4bytes
  let state ← pprzReadByte
  let apMode ← pprzReadByte
  let pacc ← pprzRead4bytes
  return { acId, x, y, z, state, apMode, pacc := pacc.toInt32 }

end Paparazzi.QuadSwarm.GroundMessages
