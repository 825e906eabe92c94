import Mathlib.Tactic.SplitIfs
import Paparazzi.InterMcu.RoundTrip
import Paparazzi.Messages.Codec
import Paparazzi.QuadSwarm.PprzMsg

/-!
The messages of the ground station against the layouts of `messages.xml`.
-/

namespace Paparazzi.QuadSwarm.GroundMessages

open Paparazzi.Library
open Paparazzi.Messages.Codec (ScalarType signed signed_toUInt32)

/-! ### Layouts -/

/-- A message of `messages.xml`: the id, and the name and type of each field. -/
structure Layout where
  id : UInt8
  fields : List (String × ScalarType)

/-- The number that the bytes of a field stand for; for a `float`, its bits. -/
def fieldValue (t : ScalarType) (bytes : List UInt8) : Int :=
  match t with
  | .int8 | .int16 | .int32 => signed t.sizeof (LittleEndian.ofBytes bytes)
  | _ => LittleEndian.ofBytes bytes

def fieldBytes (t : ScalarType) (value : Int) : List UInt8 :=
  LittleEndian.toBytes t.sizeof (value % 256 ^ t.sizeof).toNat

/-- The values of the fields, when the bytes are exactly theirs. -/
def decodeFields : List (String × ScalarType) → List UInt8 → Option (List Int)
  | [], [] => some []
  | [], _ :: _ => none
  | (_, t) :: fields, bytes =>
      if bytes.length < t.sizeof then none
      else
        (decodeFields fields (bytes.drop t.sizeof)).map
          (fieldValue t (bytes.take t.sizeof) :: ·)

/-- The id of the sender, and the values. -/
def Layout.decode (l : Layout) : List UInt8 → Option (UInt8 × List Int)
  | sender :: id :: bytes =>
      if id = l.id then (decodeFields l.fields bytes).map fun values => (sender, values) else none
  | _ => none

def encodeFields (fields : List (String × ScalarType)) (values : List Int) : List UInt8 :=
  (List.zipWith (fun f value => fieldBytes f.2 value) fields values).flatten

def Layout.encode (l : Layout) (sender : UInt8) (values : List Int) : List UInt8 :=
  sender :: l.id :: encodeFields l.fields values

/-- Datalink `BLOCK`. -/
def block : Layout := ⟨5, [("block_id", .uint8), ("ac_id", .uint8)]⟩

/-- Datalink `SETTING`. -/
def setting : Layout := ⟨4, [("index", .uint8), ("ac_id", .uint8), ("value", .float)]⟩

/-- Datalink `quad_swarm_msg`. -/
def quadSwarmMsg : Layout :=
  ⟨15, [("ac_id", .uint8), ("dummy", .uint8), ("tar_ecef_pos_x", .int32),
    ("tar_ecef_pos_y", .int32), ("tar_ecef_pos_z", .int32)]⟩

/-- Datalink `quad_swarm_ack_forwarded`. -/
def quadSwarmAckForwarded : Layout := ⟨18, [("ac_id", .uint8), ("ack", .uint8)]⟩

/-- Telemetry `DL_VALUE`. -/
def dlValue : Layout := ⟨31, [("index", .uint8), ("value", .float)]⟩

/-- Telemetry `ROTORCRAFT_STATUS`. -/
def rotorcraftStatus : Layout :=
  ⟨231, [("link_imu_nb_err", .uint32), ("blmc_nb_err", .uint8), ("rc_status", .uint8),
    ("frame_rate", .uint8), ("gps_status", .uint8), ("ap_mode", .uint8), ("ap_in_flight", .uint8),
    ("ap_motors_on", .uint8), ("ap_h_mode", .uint8), ("ap_v_mode", .uint8), ("vsupply", .uint16),
    ("cpu_time", .uint16)]⟩

/-- Telemetry `ROTORCRAFT_NAV_STATUS`. -/
def rotorcraftNavStatus : Layout :=
  ⟨159, [("block_time", .uint16), ("stage_time", .uint16), ("cur_block", .uint8),
    ("cur_stage", .uint8), ("horizontal_mode", .uint8)]⟩

/-- Telemetry `quad_swarm_report`. -/
def quadSwarmReport : Layout :=
  ⟨222, [("AC_ID", .uint8), ("ecef_x", .int32), ("ecef_y", .int32), ("ecef_z", .int32),
    ("state", .uint8), ("ap_mode", .uint8), ("pacc", .int32)]⟩

/-- A message as it is read. -/
def received (bytes : List UInt8) : PprzMsg := ⟨bytes, 0⟩

/-! ### Words -/

/-- The bytes of a word, the lowest first. -/
def wordBytes (w : UInt32) : List UInt8 :=
  [w.toUInt8, (w >>> 8).toUInt8, (w >>> 16).toUInt8, (w >>> 24).toUInt8]

theorem ofBytes_wordBytes (w : UInt32) : LittleEndian.ofBytes (wordBytes w) = w.toNat := by
  have hw := w.toNat_lt
  simp only [wordBytes, LittleEndian.ofBytes, UInt32.toNat_toUInt8, UInt32.toNat_shiftRight,
    UInt32.toNat_ofNat, Nat.reduceMod, Nat.reducePow, Nat.shiftRight_eq_div_pow]
  omega

theorem toNat_shiftLeft_byte (b : UInt8) {k : UInt32} (hk : k.toNat ≤ 24) :
    (b.toUInt32 <<< k).toNat = b.toNat <<< k.toNat := by
  have hb := b.toNat_lt
  have hlt : b.toNat <<< k.toNat < 2 ^ 32 := by
    rw [Nat.shiftLeft_eq]
    calc b.toNat * 2 ^ k.toNat ≤ b.toNat * 2 ^ 24 :=
          Nat.mul_le_mul_left _ (Nat.pow_le_pow_right (by decide) hk)
      _ < 2 ^ 32 := by omega
  rw [UInt32.toNat_shiftLeft, UInt8.toNat_toUInt32, Nat.mod_eq_of_lt (by omega : k.toNat < 32),
    Nat.mod_eq_of_lt hlt]

/-- Four bytes put together. -/
def or4 (b1 b2 b3 b4 : UInt8) : UInt32 :=
  (b4.toUInt32 <<< 24) ||| (b3.toUInt32 <<< 16) ||| (b2.toUInt32 <<< 8) ||| b1.toUInt32

theorem toNat_or4 (b1 b2 b3 b4 : UInt8) :
    (or4 b1 b2 b3 b4).toNat = LittleEndian.ofBytes [b1, b2, b3, b4] := by
  have hfold := LittleEndian.foldl_or_shift [b1, b2, b3, b4] 0 4
  have hfield : LittleEndian.field [b1, b2, b3, b4] 0 4 =
      LittleEndian.ofBytes [b1, b2, b3, b4] := rfl
  rw [hfield] at hfold
  rw [← hfold]
  rw [or4, UInt32.toNat_or, UInt32.toNat_or, UInt32.toNat_or, toNat_shiftLeft_byte b4 (by decide),
    toNat_shiftLeft_byte b3 (by decide), toNat_shiftLeft_byte b2 (by decide), UInt8.toNat_toUInt32]
  change _ = (((0 ||| b1.toNat <<< 0) ||| b2.toNat <<< 8) ||| b3.toNat <<< 16) ||| b4.toNat <<< 24
  rw [Nat.zero_or, Nat.shiftLeft_zero]
  have hcomm : ∀ a b c d : Nat, a ||| b ||| c ||| d = d ||| c ||| b ||| a := by
    intro a b c d
    ac_rfl
  exact hcomm _ _ _ _

/-- The bytes of a word put together again. -/
def rejoined (w : UInt32) : UInt32 :=
  or4 w.toUInt8 (w >>> 8).toUInt8 (w >>> 16).toUInt8 (w >>> 24).toUInt8

theorem rejoined_eq (w : UInt32) : rejoined w = w := by
  apply UInt32.toNat_inj.mp
  rw [rejoined, toNat_or4]
  exact ofBytes_wordBytes w

/-- The two bytes of a short word put together. -/
theorem or2_bytes (w : UInt16) :
    ((w >>> 8).toUInt8.toUInt16 <<< 8) ||| w.toUInt8.toUInt16 = w := by
  rw [UInt16.or_comm]
  exact InterMcu.RoundTrip.word_lowByte_highByte w

/-! ### Fields -/

/-- The bytes of a field without a sign. -/
theorem fieldBytes_ofBytes {t : ScalarType} {bytes : List UInt8} (hlen : bytes.length = t.sizeof) :
    fieldBytes t (LittleEndian.ofBytes bytes) = bytes := by
  have hlt : LittleEndian.ofBytes bytes < 256 ^ t.sizeof := hlen ▸ LittleEndian.ofBytes_lt bytes
  have hmod : ((LittleEndian.ofBytes bytes : Int) % 256 ^ t.sizeof).toNat =
      LittleEndian.ofBytes bytes := by
    have hcast : (LittleEndian.ofBytes bytes : Int) < 256 ^ t.sizeof := by exact_mod_cast hlt
    rw [Int.emod_eq_of_lt (Int.natCast_nonneg _) hcast, Int.toNat_natCast]
  rw [fieldBytes, hmod, ← hlen, LittleEndian.toBytes_ofBytes]

theorem fieldBytes_uint8 (b : UInt8) : fieldBytes .uint8 b.toNat = [b] := by
  have hbytes : LittleEndian.ofBytes [b] = b.toNat := rfl
  rw [← hbytes]
  exact fieldBytes_ofBytes rfl

theorem fieldBytes_uint16 (w : UInt16) :
    fieldBytes .uint16 w.toNat = [w.toUInt8, (w >>> 8).toUInt8] := by
  have hbytes : LittleEndian.ofBytes [w.toUInt8, (w >>> 8).toUInt8] = w.toNat := by
    have hw := w.toNat_lt
    simp only [LittleEndian.ofBytes, UInt16.toNat_toUInt8, UInt16.toNat_shiftRight,
      UInt16.toNat_ofNat, Nat.reduceMod, Nat.reducePow, Nat.shiftRight_eq_div_pow]
    omega
  rw [← hbytes]
  exact fieldBytes_ofBytes rfl

theorem fieldBytes_uint32 (w : UInt32) : fieldBytes .uint32 w.toNat = wordBytes w := by
  rw [← ofBytes_wordBytes]
  exact fieldBytes_ofBytes rfl

theorem fieldBytes_float (w : UInt32) : fieldBytes .float w.toNat = wordBytes w :=
  fieldBytes_uint32 w

theorem fieldBytes_int32 (x : Int32) : fieldBytes .int32 x.toInt = wordBytes x.toUInt32 := by
  have hmod : x.toInt % 256 ^ 4 = ((x.toUInt32.toNat : Int) % 256 ^ 4) := by
    have hx : x.toInt = x.toBitVec.toInt := rfl
    have hnat : x.toUInt32.toNat = x.toBitVec.toNat := rfl
    rw [hx, hnat, BitVec.toInt_eq_toNat_cond]
    split_ifs <;> omega
  rw [← fieldBytes_uint32]
  change LittleEndian.toBytes 4 (x.toInt % 256 ^ 4).toNat = _
  rw [hmod]
  rfl

/-! ### Writing -/

theorem data_pprzPutByte {m : PprzMsg} (value : UInt8) (h : m.data.length < 512) :
    (pprzPutByte value m).data = m.data ++ [value] := by
  have hfull : ¬ m.data.length + 1 > pprzMsgMaxSize := by
    change ¬ m.data.length + 1 > 512
    omega
  rw [pprzPutByte, if_neg hfull]

theorem data_pprzPut4bytes {m : PprzMsg} (value : UInt32) (h : m.data.length < 509) :
    (pprzPut4bytes value m).data = m.data ++ wordBytes value := by
  have h₁ := data_pprzPutByte value.toUInt8 (by omega : m.data.length < 512)
  have h₂ := data_pprzPutByte (m := pprzPutByte value.toUInt8 m) (value >>> 8).toUInt8
    (by rw [h₁, List.length_append, List.length_singleton]; omega)
  rw [h₁] at h₂
  have h₃ := data_pprzPutByte (m := pprzPutByte (value >>> 8).toUInt8
    (pprzPutByte value.toUInt8 m)) (value >>> 16).toUInt8 (by
      rw [h₂]
      simp only [List.length_append, List.length_singleton]
      omega)
  rw [h₂] at h₃
  rw [pprzPut4bytes, data_pprzPutByte _ (by
    rw [h₃]
    simp only [List.length_append, List.length_singleton]
    omega), h₃]
  simp only [List.append_assoc, List.singleton_append]
  rfl

def decoded (sender : UInt8) (values : List Int) : Option (UInt8 × List Int) :=
  some (sender, values)

/-- The messages that are sent decode to the values that were given; `dummy` is always 0. -/
structure SettersAgree (acId blockId index ack : UInt8) (value : UInt32) (msg : QuadSwarmMsg) :
    Prop where
  block : block.decode (pprzSetBlock acId blockId newMsg).data =
    decoded acId [blockId.toNat, acId.toNat]
  setting : setting.decode (pprzSetDlSetting acId index value newMsg).data =
    decoded acId [index.toNat, acId.toNat, value.toNat]
  quadSwarmMsg : quadSwarmMsg.decode (pprzSetMsg acId msg newMsg).data =
    decoded acId [acId.toNat, 0, msg.x.toInt, msg.y.toInt, msg.z.toInt]
  quadSwarmAck : quadSwarmAckForwarded.decode (pprzSetAck acId ack newMsg).data =
    decoded acId [acId.toNat, ack.toNat]

theorem settersAgree (acId blockId index ack : UInt8) (value : UInt32) (msg : QuadSwarmMsg) :
    SettersAgree acId blockId index ack value msg where
  block := rfl
  setting := by
    have hdata : (pprzSetDlSetting acId index value newMsg).data =
        [acId, 4, index, acId] ++ wordBytes value :=
      data_pprzPut4bytes value (by decide : 4 < 509)
    have hdecode : setting.decode ([acId, 4, index, acId] ++ wordBytes value) =
        decoded acId [index.toNat, acId.toNat, LittleEndian.ofBytes (wordBytes value)] := rfl
    rw [hdata, hdecode, ofBytes_wordBytes]
  quadSwarmMsg := by
    have hdata : (pprzSetMsg acId msg newMsg).data =
        [acId, 15, acId, 0] ++ wordBytes msg.x.toUInt32 ++ wordBytes msg.y.toUInt32 ++
          wordBytes msg.z.toUInt32 := by
      have hx : (pprzPut4bytes msg.x.toUInt32 (pprzPutByte 0 (pprzPutByte acId
          (pprzPutByte forwardMsgIdQuadSwarmMsg (pprzPutByte acId newMsg))))).data =
          [acId, 15, acId, 0] ++ wordBytes msg.x.toUInt32 :=
        data_pprzPut4bytes _ (by decide : 4 < 509)
      rw [pprzSetMsg, data_pprzPut4bytes _ (by
        rw [data_pprzPut4bytes _ (by rw [hx]; exact (by decide : 8 < 509)), hx]
        exact (by decide : 12 < 509)), data_pprzPut4bytes _ (by
          rw [hx]
          exact (by decide : 8 < 509)), hx]
    have hdecode : quadSwarmMsg.decode ([acId, 15, acId, 0] ++ wordBytes msg.x.toUInt32 ++
          wordBytes msg.y.toUInt32 ++ wordBytes msg.z.toUInt32) =
        decoded acId [acId.toNat, 0, signed 4 (LittleEndian.ofBytes (wordBytes msg.x.toUInt32)),
          signed 4 (LittleEndian.ofBytes (wordBytes msg.y.toUInt32)),
          signed 4 (LittleEndian.ofBytes (wordBytes msg.z.toUInt32))] := rfl
    rw [hdata, hdecode]
    simp only [ofBytes_wordBytes, signed_toUInt32]
  quadSwarmAck := rfl

/-! ### Reading -/

/-- The values of `ROTORCRAFT_STATUS`. -/
structure StatusMessage where
  linkImuNbErr : UInt32
  blmcNbErr : UInt8
  rcStatus : UInt8
  frameRate : UInt8
  gpsStatus : UInt8
  apMode : UInt8
  apInFlight : UInt8
  apMotorsOn : UInt8
  apHMode : UInt8
  apVMode : UInt8
  vsupply : UInt16
  cpuTime : UInt16

def StatusMessage.values (m : StatusMessage) : List Int :=
  [m.linkImuNbErr.toNat, m.blmcNbErr.toNat, m.rcStatus.toNat, m.frameRate.toNat,
    m.gpsStatus.toNat, m.apMode.toNat, m.apInFlight.toNat, m.apMotorsOn.toNat, m.apHMode.toNat,
    m.apVMode.toNat, m.vsupply.toNat, m.cpuTime.toNat]

/-- The values of `quad_swarm_report`. -/
structure ReportMessage where
  acId : UInt8
  ecefX : Int32
  ecefY : Int32
  ecefZ : Int32
  state : UInt8
  apMode : UInt8
  pacc : Int32

def ReportMessage.values (m : ReportMessage) : List Int :=
  [m.acId.toNat, m.ecefX.toInt, m.ecefY.toInt, m.ecefZ.toInt, m.state.toNat, m.apMode.toNat,
    m.pacc.toInt]

def navValues (m : RotorcraftNavStatus) : List Int :=
  [m.blockTime.toNat, m.stageTime.toNat, m.curBlock.toNat, m.curStage.toNat,
    m.horizontalMode.toNat]

/-- Every field of the structure has the value of the field of the message. -/
structure StatusRead (r : RotorcraftStatus) (sender : UInt8) (m : StatusMessage) : Prop where
  acId : r.acId = sender
  linkImuNbErr : r.linkImuNbErr = m.linkImuNbErr
  blmcNbErr : r.blmcNbErr = m.blmcNbErr
  rcStatus : r.rcStatus = m.rcStatus
  frameRate : r.frameRate = m.frameRate
  gpsStatus : r.gpsStatus = m.gpsStatus
  apMode : r.apMode = m.apMode
  apInflight : r.apInflight = m.apInFlight
  apMotorsOn : r.apMotorsOn = m.apMotorsOn
  apHMode : r.apHMode = m.apHMode
  apVMode : r.apVMode = m.apVMode
  vsupply : r.vsupply.toNat = m.vsupply.toNat

/-- As `StatusRead`; the coordinates are taken out of the structure as signed numbers. -/
structure ReportRead (r : QuadSwarmReport) (m : ReportMessage) : Prop where
  acId : r.acId = m.acId
  x : r.x.toInt32 = m.ecefX
  y : r.y.toInt32 = m.ecefY
  z : r.z.toInt32 = m.ecefZ
  state : r.state = m.state
  apMode : r.apMode = m.apMode
  pacc : r.pacc = m.pacc

/-- The messages that are received give the values that were sent. -/
structure GettersAgree (sender index : UInt8) (value : UInt32) (nav : RotorcraftNavStatus)
    (report : ReportMessage) (status : StatusMessage) : Prop where
  dlValue : (pprzGetDlValue (received (dlValue.encode sender [index.toNat, value.toNat]))).1 =
    ⟨sender, index, value⟩
  navStatus : (pprzGetRotorcraftNavStatus
    (received (rotorcraftNavStatus.encode nav.acId (navValues nav)))).1 = nav
  report : ReportRead (pprzGetQuadSwarmReport
    (received (quadSwarmReport.encode sender report.values))).1 report
  status : StatusRead (pprzGetRotorcraftStatus
    (received (rotorcraftStatus.encode sender status.values))).1 sender status

theorem getDlValue_encode (sender index : UInt8) (value : UInt32) :
    (pprzGetDlValue (received (dlValue.encode sender [index.toNat, value.toNat]))).1 =
      ⟨sender, index, value⟩ := by
  have hbytes : dlValue.encode sender [index.toNat, value.toNat] =
      [sender, 31, index] ++ wordBytes value := by
    change sender :: 31 :: (fieldBytes .uint8 index.toNat ++
      (fieldBytes .float value.toNat ++ [])) = _
    rw [fieldBytes_uint8, fieldBytes_float]
    rfl
  have hread : (pprzGetDlValue (received ([sender, 31, index] ++ wordBytes value))).1 =
      ⟨sender, index, value.toUInt8.toUInt32 ||| ((value >>> 8).toUInt8.toUInt32 <<< 8) |||
        ((value >>> 16).toUInt8.toUInt32 <<< 16) |||
        ((value >>> 24).toUInt8.toUInt32 <<< 24)⟩ := rfl
  have hvalue : value.toUInt8.toUInt32 ||| ((value >>> 8).toUInt8.toUInt32 <<< 8) |||
      ((value >>> 16).toUInt8.toUInt32 <<< 16) ||| ((value >>> 24).toUInt8.toUInt32 <<< 24) =
        rejoined value := by
    have hcomm : ∀ a b c d : UInt32, a ||| b ||| c ||| d = d ||| c ||| b ||| a := by
      intro a b c d
      ac_rfl
    exact hcomm _ _ _ _
  rw [hbytes, hread, hvalue, rejoined_eq]

theorem getNavStatus_encode (nav : RotorcraftNavStatus) :
    (pprzGetRotorcraftNavStatus
      (received (rotorcraftNavStatus.encode nav.acId (navValues nav)))).1 = nav := by
  have hbytes : rotorcraftNavStatus.encode nav.acId (navValues nav) =
      [nav.acId, 159, nav.blockTime.toUInt8, (nav.blockTime >>> 8).toUInt8,
        nav.stageTime.toUInt8, (nav.stageTime >>> 8).toUInt8, nav.curBlock, nav.curStage,
        nav.horizontalMode] := by
    change nav.acId :: 159 :: (fieldBytes .uint16 nav.blockTime.toNat ++
      (fieldBytes .uint16 nav.stageTime.toNat ++ (fieldBytes .uint8 nav.curBlock.toNat ++
        (fieldBytes .uint8 nav.curStage.toNat ++
          (fieldBytes .uint8 nav.horizontalMode.toNat ++ []))))) = _
    simp only [fieldBytes_uint8, fieldBytes_uint16]
    rfl
  have hread : (pprzGetRotorcraftNavStatus (received [nav.acId, 159, nav.blockTime.toUInt8,
      (nav.blockTime >>> 8).toUInt8, nav.stageTime.toUInt8, (nav.stageTime >>> 8).toUInt8,
      nav.curBlock, nav.curStage, nav.horizontalMode])).1 =
      { nav with
        blockTime := ((nav.blockTime >>> 8).toUInt8.toUInt16 <<< 8) |||
          nav.blockTime.toUInt8.toUInt16
        stageTime := ((nav.stageTime >>> 8).toUInt8.toUInt16 <<< 8) |||
          nav.stageTime.toUInt8.toUInt16 } := rfl
  rw [hbytes, hread, or2_bytes, or2_bytes]

theorem getReport_encode (sender : UInt8) (m : ReportMessage) :
    ReportRead (pprzGetQuadSwarmReport
      (received (quadSwarmReport.encode sender m.values))).1 m := by
  have hbytes : quadSwarmReport.encode sender m.values =
      [sender, 222, m.acId] ++ wordBytes m.ecefX.toUInt32 ++ wordBytes m.ecefY.toUInt32 ++
        wordBytes m.ecefZ.toUInt32 ++ [m.state, m.apMode] ++ wordBytes m.pacc.toUInt32 := by
    change sender :: 222 :: (fieldBytes .uint8 m.acId.toNat ++
      (fieldBytes .int32 m.ecefX.toInt ++ (fieldBytes .int32 m.ecefY.toInt ++
        (fieldBytes .int32 m.ecefZ.toInt ++ (fieldBytes .uint8 m.state.toNat ++
          (fieldBytes .uint8 m.apMode.toNat ++
            (fieldBytes .int32 m.pacc.toInt ++ []))))))) = _
    rw [fieldBytes_int32, fieldBytes_int32, fieldBytes_int32, fieldBytes_int32, fieldBytes_uint8,
      fieldBytes_uint8, fieldBytes_uint8]
    rfl
  have hread : (pprzGetQuadSwarmReport (received ([sender, 222, m.acId] ++
      wordBytes m.ecefX.toUInt32 ++ wordBytes m.ecefY.toUInt32 ++ wordBytes m.ecefZ.toUInt32 ++
      [m.state, m.apMode] ++ wordBytes m.pacc.toUInt32))).1 =
      ⟨m.acId, rejoined m.ecefX.toUInt32, rejoined m.ecefY.toUInt32, rejoined m.ecefZ.toUInt32,
        m.state, m.apMode, (rejoined m.pacc.toUInt32).toInt32⟩ := rfl
  rw [hbytes, hread]
  simp only [rejoined_eq]
  exact ⟨rfl, rfl, rfl, rfl, rfl, rfl, rfl⟩

/-- Of the supply voltage the low byte is read. -/
theorem getStatus_encode (sender : UInt8) (m : StatusMessage) :
    (pprzGetRotorcraftStatus (received (rotorcraftStatus.encode sender m.values))).1 =
      { acId := sender, linkImuNbErr := m.linkImuNbErr, blmcNbErr := m.blmcNbErr,
        rcStatus := m.rcStatus, frameRate := m.frameRate, gpsStatus := m.gpsStatus,
        apMode := m.apMode, apInflight := m.apInFlight, apMotorsOn := m.apMotorsOn,
        apHMode := m.apHMode, apVMode := m.apVMode, vsupply := m.vsupply.toUInt8 } := by
  have hbytes : rotorcraftStatus.encode sender m.values =
      [sender, 231] ++ wordBytes m.linkImuNbErr ++ [m.blmcNbErr, m.rcStatus, m.frameRate,
        m.gpsStatus, m.apMode, m.apInFlight, m.apMotorsOn, m.apHMode, m.apVMode,
        m.vsupply.toUInt8, (m.vsupply >>> 8).toUInt8, m.cpuTime.toUInt8,
        (m.cpuTime >>> 8).toUInt8] := by
    change sender :: 231 :: (fieldBytes .uint32 m.linkImuNbErr.toNat ++
      (fieldBytes .uint8 m.blmcNbErr.toNat ++ (fieldBytes .uint8 m.rcStatus.toNat ++
      (fieldBytes .uint8 m.frameRate.toNat ++ (fieldBytes .uint8 m.gpsStatus.toNat ++
      (fieldBytes .uint8 m.apMode.toNat ++ (fieldBytes .uint8 m.apInFlight.toNat ++
      (fieldBytes .uint8 m.apMotorsOn.toNat ++ (fieldBytes .uint8 m.apHMode.toNat ++
      (fieldBytes .uint8 m.apVMode.toNat ++ (fieldBytes .uint16 m.vsupply.toNat ++
      (fieldBytes .uint16 m.cpuTime.toNat ++ [])))))))))))) = _
    simp only [fieldBytes_uint8, fieldBytes_uint16, fieldBytes_uint32]
    rfl
  have hread : (pprzGetRotorcraftStatus (received ([sender, 231] ++ wordBytes m.linkImuNbErr ++
      [m.blmcNbErr, m.rcStatus, m.frameRate, m.gpsStatus, m.apMode, m.apInFlight, m.apMotorsOn,
        m.apHMode, m.apVMode, m.vsupply.toUInt8, (m.vsupply >>> 8).toUInt8, m.cpuTime.toUInt8,
        (m.cpuTime >>> 8).toUInt8]))).1 =
      { acId := sender, linkImuNbErr := rejoined m.linkImuNbErr, blmcNbErr := m.blmcNbErr,
        rcStatus := m.rcStatus, frameRate := m.frameRate, gpsStatus := m.gpsStatus,
        apMode := m.apMode, apInflight := m.apInFlight, apMotorsOn := m.apMotorsOn,
        apHMode := m.apHMode, apVMode := m.apVMode, vsupply := m.vsupply.toUInt8 } := rfl
  rw [hbytes, hread, rejoined_eq]

theorem statusRead_iff (sender : UInt8) (m : StatusMessage) :
    StatusRead (pprzGetRotorcraftStatus
      (received (rotorcraftStatus.encode sender m.values))).1 sender m ↔
      m.vsupply.toNat < 256 := by
  rw [getStatus_encode]
  constructor
  · intro hread
    rw [← hread.vsupply]
    exact m.vsupply.toUInt8.toNat_lt
  · intro hlt
    refine ⟨rfl, rfl, rfl, rfl, rfl, rfl, rfl, rfl, rfl, rfl, rfl, ?_⟩
    rw [UInt16.toNat_toUInt8, Nat.mod_eq_of_lt hlt]

/-- All the sequences of writes and reads agree with `messages.xml` but for the supply voltage,
of which one byte is read. -/
theorem codec_agrees_iff (acId blockId index ack sender : UInt8) (value : UInt32)
    (msg : QuadSwarmMsg) (nav : RotorcraftNavStatus) (report : ReportMessage)
    (status : StatusMessage) :
    SettersAgree acId blockId index ack value msg ∧
        GettersAgree sender index value nav report status ↔
      status.vsupply.toNat < 256 := by
  constructor
  · rintro ⟨-, hgetters⟩
    exact (statusRead_iff sender status).mp hgetters.status
  · intro hlt
    exact ⟨settersAgree acId blockId index ack value msg,
      getDlValue_encode sender index value, getNavStatus_encode nav,
      getReport_encode sender report, (statusRead_iff sender status).mpr hlt⟩

/-- 30 V are read as 4.4 V. -/
theorem vsupply_truncated :
    ¬ (SettersAgree 1 2 3 1 0 ⟨1, 0, 0, 0, 0⟩ ∧
      GettersAgree 1 3 0 ⟨1, 0, 0, 0, 0, 0⟩ ⟨1, 0, 0, 0, 0, 0, 0⟩
        ⟨0, 0, 0, 0, 0, 0, 0, 0, 0, 0, 300, 0⟩) := by
  rintro ⟨-, hgetters⟩
  exact absurd hgetters.status.vsupply (by decide)

end Paparazzi.QuadSwarm.GroundMessages
