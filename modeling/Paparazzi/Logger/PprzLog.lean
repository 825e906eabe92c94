import Paparazzi.Library.Fallible
import Paparazzi.Link.GroundReader
import Paparazzi.Link.PprzReceive

/-!
The logger firmware and the reader of its files: `log_pprz` takes the pprz frames from the bytes of
a UART and writes their payloads with a timestamp, and `sd2log` finds them again in the file.
-/

namespace Paparazzi.Logger.PprzLog

open Paparazzi.Library
open Paparazzi.Link
open Paparazzi.Link.GroundReader (code index index_lt index_append index_drop)
open Paparazzi.Link.PprzTransport (Status stx expected frameOf airborneFrame airborneFrame_eq)
open Paparazzi.Link.Serial

def logDataOffset : Nat := 7

/-- `MSG_SIZE` -/
def msgSize : Nat := 256

/-- `LOG_DIV`, for a timer clock of 15 MHz. -/
def logDiv : Nat := 1500

/-- `clock_msb` and `clock_lsb_last`. -/
structure Clock where
  msb : UInt32
  lsbLast : UInt32
  deriving DecidableEq, Repr

/-- `getclock`, where the timer `T0TC` is read as `lsb`. -/
def getclock (lsb : UInt32) (k : Clock) : UInt32 × Clock :=
  let msb := if lsb < k.lsbLast then k.msb + 1 else k.msb
  (UInt32.ofNat ((msb.toNat * 2 ^ 32 + lsb.toNat) / logDiv), { msb := msb, lsbLast := lsb })

/-- What is logged of a frame. -/
structure Record where
  source : UInt8
  timestamp : UInt32
  pprzData : List UInt8
  deriving DecidableEq, Repr

/-- The variables of `log_pprz` and `log_payload`, the file, and the records written; no step reads
these. -/
structure State where
  status : Status
  ckA : UInt8
  ckB : UInt8
  payloadIdx : UInt8
  payload : UInt8 → UInt8
  payloadLen : UInt8
  error : UInt8
  timestamp : UInt32
  clock : Clock
  logBuffer : List UInt8
  nbMessages : UInt32
  nbFailWrite : UInt32
  file : List UInt8
  records : List Record

/-- A byte that `log_pprz` is called with: the device it comes from, and the timer. -/
structure LogByte where
  c : UInt8
  source : UInt8
  t0tc : UInt32
  deriving DecidableEq, Repr

/-- The bytes of a 32-bit number, the lowest first. -/
def timestampBytes (timestamp : UInt32) : List UInt8 :=
  [timestamp.toUInt8, (timestamp >>> 8).toUInt8, (timestamp >>> 16).toUInt8,
    (timestamp >>> 24).toUInt8]

section

variable (fileWrite : List UInt8 → List UInt8 → List UInt8 × Nat)

/-- `log_payload`; `none` where it writes behind `log_buffer`. -/
def logPayload (len : Nat) (source : UInt8) (timestamp : UInt32) (s : State) : Option State :=
  if msgSize ≤ logDataOffset + len then none
  else
    let header := [stx, UInt8.ofNat len, source] ++ timestampBytes timestamp
    let data := header ++ (s.logBuffer.drop logDataOffset).take len
    let record := data ++ [Checksum.sum 0 (data.drop 1)]
    let (file, chk) := fileWrite s.file record
    some
      { s with
        logBuffer := record ++ s.logBuffer.drop (logDataOffset + len + 1)
        nbFailWrite := if len ≠ (UInt8.ofNat chk).toNat then s.nbFailWrite + 1 else s.nbFailWrite
        nbMessages := s.nbMessages + 1
        file := file
        records := s.records ++ [⟨source, timestamp, (s.logBuffer.drop logDataOffset).take len⟩] }

/-- `pprzl_payload[0..pprzl_payload_len)` -/
def State.contents (s : State) : List UInt8 :=
  (List.range s.payloadLen.toNat).map fun i => s.payload (UInt8.ofNat i)

/-- The loop that copies the payload to the log buffer; `none` where it writes behind it. -/
def copyPayload (s : State) : Option State :=
  if msgSize < logDataOffset + s.contents.length then none
  else
    some
      { s with
        logBuffer := s.logBuffer.take logDataOffset ++ s.contents ++
          s.logBuffer.drop (logDataOffset + s.contents.length) }

/-- The label `error` of `log_pprz`. -/
def logError (s : State) : State := { s with error := s.error + 1, status := .uninit }

def logPprz (s : State) (b : LogByte) : Option State :=
  match s.status with
  | .uninit =>
      -- the increment of the status does not belong to the test for the start byte
      if b.c = stx then
        some
          { s with
            timestamp := (getclock b.t0tc s.clock).1
            clock := (getclock b.t0tc s.clock).2
            status := .gotStx }
      else some { s with status := .gotStx }
  | .gotStx =>
      some
        { s with
          payloadLen := b.c - 4
          ckA := b.c
          ckB := b.c
          status := .gotLength
          payloadIdx := 0 }
  | .gotLength =>
      some
        { s with
          payload := Function.update s.payload s.payloadIdx b.c
          ckA := s.ckA + b.c
          ckB := s.ckB + (s.ckA + b.c)
          payloadIdx := s.payloadIdx + 1
          status := if s.payloadIdx + 1 = s.payloadLen then .gotPayload else .gotLength }
  | .gotPayload => if b.c ≠ s.ckA then some (logError s) else some { s with status := .gotCrc1 }
  | .gotCrc1 =>
      if b.c ≠ s.ckB then some (logError s)
      else
        ((copyPayload s).bind (logPayload fileWrite s.payloadLen.toNat b.source s.timestamp)).map
          fun s => { s with status := .uninit }

/-- At the start of the firmware, with an empty file. -/
def initial : State where
  status := .uninit
  ckA := 0
  ckB := 0
  payloadIdx := 0
  payload := fun _ => 0
  payloadLen := 0
  error := 0
  timestamp := 0
  clock := ⟨0, 0⟩
  logBuffer := List.replicate msgSize 0
  nbMessages := 0
  nbFailWrite := 0
  file := []
  records := []

end

/-! ### The reader -/

/-- `Logpprz.Transport`; the payload goes from the source to the last byte of data. -/
def logpprz : Protocol where
  indexStart := index stx
  length buf start :=
    if buf.length - start > 1 then some (code buf (start + 1) + 8) else none
  checksum msg :=
    some (Checksum.sum 0 ((msg.drop 1).take (msg.length - 2)) == msg.getD (msg.length - 1) 0)
  payload msg :=
    if code msg 1 + 8 = msg.length then some ((msg.drop 2).take (msg.length - 3)) else none
  indexStart_lt := index_lt
  length_pos := by
    intro buf start len h
    split_ifs at h
    injection h
    omega

/-- `Logpprz.message` -/
structure LogMessage where
  source : Nat
  timestamp : Int32
  pprzData : List UInt8
  deriving DecidableEq, Repr

/-- `Logpprz.parse`; `none` where it raises an exception. -/
def parse (s : List UInt8) : Option LogMessage :=
  if s.length < 5 then none
  else
    some
      { source := code s 0
        timestamp := (UInt32.ofNat (LittleEndian.field s 1 4)).toInt32
        pprzData := s.drop 5 }

theorem stable_logpprz : Stable logpprz where
  indexStart_append b h := index_append h b
  indexStart_drop := index_drop
  length_append := by
    intro a start len b h
    simp only [logpprz] at h ⊢
    split_ifs at h with hlong
    rw [if_pos (by rw [List.length_append]; omega), GroundReader.code_append (by omega)]
    exact h
  length_drop a i j := by
    simp only [logpprz, List.length_drop, GroundReader.code_drop, Nat.sub_sub, Nat.add_assoc]
  length_none := by
    intro a start h
    simp only [logpprz] at h
    split_ifs at h with hlong
    rw [bufferLen]
    omega

/-! ### A record -/

/-- The payload of a record for the reader. -/
def Record.payload (r : Record) : List UInt8 :=
  r.source :: timestampBytes r.timestamp ++ r.pprzData

/-- The bytes of a record in the file. -/
def Record.bytes (r : Record) : List UInt8 :=
  let body := UInt8.ofNat r.pprzData.length :: r.payload
  stx :: body ++ [Checksum.sum 0 body]

def Record.message (r : Record) : LogMessage where
  source := r.source.toNat
  timestamp := r.timestamp.toInt32
  pprzData := r.pprzData

theorem timestampBytes_eq (timestamp : UInt32) :
    timestampBytes timestamp = LittleEndian.toBytes 4 timestamp.toNat := by
  simp only [timestampBytes, LittleEndian.toBytes, ← UInt8.toNat_inj, List.cons.injEq, and_true,
    UInt32.toNat_toUInt8, UInt8.toNat_ofNat', UInt32.toNat_shiftRight, Nat.div_div_eq_div_mul]
  simp [Nat.shiftRight_eq_div_pow]

theorem parse_payload (r : Record) : parse r.payload = some r.message := by
  have hfield : LittleEndian.field r.payload 1 4 = r.timestamp.toNat := by
    rw [Record.payload, timestampBytes_eq]
    refine (LittleEndian.field_append [r.source] r.pprzData rfl).trans ?_
    exact Nat.mod_eq_of_lt r.timestamp.toNat_lt
  rw [parse, if_neg (by simp [Record.payload, timestampBytes]), hfield, UInt32.ofNat_toNat]
  rfl

theorem Record.carries {r : Record} (h : r.pprzData.length < 256) :
    Carries logpprz r.bytes r.payload := by
  have hpayload : r.payload.length = r.pprzData.length + 5 := by
    simp [Record.payload, timestampBytes]
  have hlength : r.bytes.length = r.pprzData.length + 8 := by
    simp [Record.bytes, hpayload]
  have hcode : code r.bytes 1 = r.pprzData.length := UInt8.toNat_ofNat_of_lt' h
  refine ⟨?_, ?_⟩
  · rw [scan_frame_iff]
    refine ⟨?_, ?_, by omega⟩
    · simp [logpprz, Record.bytes, index, List.findIdx?_cons]
    · simp only [logpprz]
      rw [if_pos (by omega), hcode, hlength]
  · have hchecksum : logpprz.checksum r.bytes = some true := by
      simp only [logpprz, hlength]
      simp [Record.bytes, hpayload, List.getD_eq_getElem?_getD]
    have hread : logpprz.payload r.bytes = some r.payload := by
      simp only [logpprz, hcode, hlength, if_true]
      simp [Record.bytes, hpayload]
    rw [deliver, hchecksum, hread]
    rfl

/-! ### Any bytes -/

/-- Every write to the file is complete. -/
def CardWrites (fileWrite : List UInt8 → List UInt8 → List UInt8 × Nat) : Prop :=
  ∀ file data, fileWrite file data = (file ++ data, data.length)

section

variable {fileWrite : List UInt8 → List UInt8 → List UInt8 × Nat}

structure Inv (s : State) : Prop where
  logBuffer : s.logBuffer.length = msgSize
  file : s.file = s.records.flatMap Record.bytes
  short : ∀ r ∈ s.records, logDataOffset + r.pprzData.length < msgSize
  nbMessages : s.nbMessages = UInt32.ofNat s.records.length
  nbFailWrite : s.nbFailWrite = s.nbMessages

theorem inv_initial : Inv initial where
  logBuffer := by simp [initial]
  file := rfl
  short := by simp [initial]
  nbMessages := rfl
  nbFailWrite := rfl

/-- A byte that completes a frame completes one for which the log buffer has room. -/
def Loggable (s : State) (b : LogByte) : Prop :=
  s.status = .gotCrc1 → b.c = s.ckB → logDataOffset + s.payloadLen.toNat < msgSize

theorem length_contents (s : State) : s.contents.length = s.payloadLen.toNat := by
  simp [State.contents]

/-- What the end of a frame does where the log buffer has room. -/
def logged (s : State) (source : UInt8) : State :=
  let r : Record := ⟨source, s.timestamp, s.contents⟩
  { s with
    logBuffer := r.bytes ++ s.logBuffer.drop (logDataOffset + s.contents.length + 1)
    nbFailWrite := s.nbFailWrite + 1
    nbMessages := s.nbMessages + 1
    file := s.file ++ r.bytes
    records := s.records ++ [r]
    status := .uninit }

theorem logPayload_eq (hcard : CardWrites fileWrite) (data : List UInt8) {s : State}
    (hdata : (s.logBuffer.drop logDataOffset).take data.length = data)
    (hroom : logDataOffset + data.length < msgSize) (source : UInt8) (timestamp : UInt32) :
    logPayload fileWrite data.length source timestamp s =
      some
        { s with
          logBuffer := (Record.mk source timestamp data).bytes ++
            s.logBuffer.drop (logDataOffset + data.length + 1)
          nbFailWrite := s.nbFailWrite + 1
          nbMessages := s.nbMessages + 1
          file := s.file ++ (Record.mk source timestamp data).bytes
          records := s.records ++ [⟨source, timestamp, data⟩] } := by
  have hlength : (Record.mk source timestamp data).bytes.length = data.length + 8 := by
    simp [Record.bytes, Record.payload, timestampBytes]
  -- the count that is compared is that of the whole record
  have hfail : data.length ≠ (UInt8.ofNat (Record.mk source timestamp data).bytes.length).toNat := by
    rw [hlength, UInt8.toNat_ofNat']
    simp only [msgSize, logDataOffset] at hroom
    omega
  have hrecord : [stx, UInt8.ofNat data.length, source] ++ timestampBytes timestamp ++ data ++
      [Checksum.sum 0 (([stx, UInt8.ofNat data.length, source] ++ timestampBytes timestamp ++
        data).drop 1)] = (Record.mk source timestamp data).bytes := by
    simp [Record.bytes, Record.payload]
  have hwrite := hcard s.file (Record.mk source timestamp data).bytes
  rw [logPayload, if_neg (by omega)]
  simp only [hdata, hrecord, hwrite, if_pos hfail]

theorem logPprz_last (hcard : CardWrites fileWrite) {s : State}
    (hbuffer : s.logBuffer.length = msgSize) (hstatus : s.status = .gotCrc1) {b : LogByte}
    (hck : b.c = s.ckB) :
    logPprz fileWrite s b =
      if logDataOffset + s.payloadLen.toNat < msgSize then some (logged s b.source) else none := by
  have hlen := length_contents s
  simp only [logPprz, hstatus, hck, ne_eq, not_true_eq_false, if_false]
  split_ifs with hroom
  · have hcopy : copyPayload s = some { s with
        logBuffer := s.logBuffer.take logDataOffset ++ s.contents ++
          s.logBuffer.drop (logDataOffset + s.contents.length) } := by
      rw [copyPayload, if_neg (by omega)]
    have htake : (s.logBuffer.take logDataOffset).length = logDataOffset := by
      rw [List.length_take, hbuffer]
      rfl
    rw [hcopy, Option.bind_some, ← hlen, logPayload_eq hcard s.contents ?_ (by omega)]
    · have hrest : (s.logBuffer.take logDataOffset ++ s.contents ++
          s.logBuffer.drop (logDataOffset + s.contents.length)).drop
            (logDataOffset + s.contents.length + 1) =
          s.logBuffer.drop (logDataOffset + s.contents.length + 1) := by
        rw [← List.drop_drop, List.drop_left' (by rw [List.length_append, htake]), List.drop_drop]
      simp only [hrest, Option.map_some]
      rfl
    · simp only [List.append_assoc]
      rw [List.drop_left' htake, List.take_left' rfl]
  · rw [copyPayload]
    split_ifs with hcopy
    · rfl
    · rw [Option.bind_some, logPayload, if_pos (by omega)]
      rfl

/-- The other bytes are not logged. -/
theorem logPprz_frame {s s' : State} {b : LogByte} (hlast : ¬ (s.status = .gotCrc1 ∧ b.c = s.ckB))
    (hstep : logPprz fileWrite s b = some s') :
    s'.logBuffer = s.logBuffer ∧ s'.file = s.file ∧ s'.records = s.records ∧
      s'.nbMessages = s.nbMessages ∧ s'.nbFailWrite = s.nbFailWrite := by
  cases hstatus : s.status <;> simp only [logPprz, hstatus] at hstep
  case gotCrc1 =>
    rw [if_pos fun hck => hlast ⟨hstatus, hck⟩] at hstep
    cases hstep
    exact ⟨rfl, rfl, rfl, rfl, rfl⟩
  all_goals
    try split_ifs at hstep
    all_goals
      cases hstep
      exact ⟨rfl, rfl, rfl, rfl, rfl⟩

theorem isSome_logPprz_iff (hcard : CardWrites fileWrite) {s : State} (h : Inv s) (b : LogByte) :
    (logPprz fileWrite s b).isSome ↔ Loggable s b := by
  by_cases hlast : s.status = .gotCrc1 ∧ b.c = s.ckB
  · rw [logPprz_last hcard h.logBuffer hlast.1 hlast.2]
    split_ifs with hroom
    · exact iff_of_true rfl fun _ _ => hroom
    · exact iff_of_false nofun fun hok => hroom (hok hlast.1 hlast.2)
  · have hok : Loggable s b := fun hstatus hck => absurd ⟨hstatus, hck⟩ hlast
    refine iff_of_true ?_ hok
    cases hstatus : s.status <;> simp only [logPprz, hstatus]
    case uninit => split_ifs <;> rfl
    case gotPayload => split_ifs <;> rfl
    case gotCrc1 =>
      rw [if_pos fun hck => hlast ⟨hstatus, hck⟩]
      rfl
    all_goals rfl

theorem inv_logPprz (hcard : CardWrites fileWrite) {s s' : State} {b : LogByte} (h : Inv s)
    (hstep : logPprz fileWrite s b = some s') : Inv s' := by
  by_cases hlast : s.status = .gotCrc1 ∧ b.c = s.ckB
  · rw [logPprz_last hcard h.logBuffer hlast.1 hlast.2] at hstep
    split_ifs at hstep with hroom
    cases hstep
    have hlen := length_contents s
    refine ⟨?_, ?_, ?_, ?_, ?_⟩
    · have hbuffer := h.logBuffer
      simp [logged, Record.bytes, Record.payload, timestampBytes, hbuffer]
      simp only [logDataOffset, msgSize] at *
      omega
    · simp [logged, h.file]
    · intro r hr
      rcases List.mem_append.mp hr with hold | hnew
      · exact h.short r hold
      · rw [List.mem_singleton.mp hnew, hlen]
        exact hroom
    · simp [logged, h.nbMessages, UInt32.ofNat_add]
    · simp [logged, h.nbFailWrite]
  · obtain ⟨hbuffer, hfile, hrecords, hmessages, hfail⟩ := logPprz_frame hlast hstep
    exact ⟨hbuffer ▸ h.logBuffer, by rw [hfile, hrecords, h.file], hrecords ▸ h.short,
      by rw [hmessages, hrecords, h.nbMessages], by rw [hfail, hmessages, h.nbFailWrite]⟩

theorem logpprz_length_le {buf : List UInt8} {start length : Nat}
    (h : logpprz.length buf start = some length) : length ≤ 263 := by
  simp only [logpprz] at h
  split_ifs at h
  have hcode : code buf (start + 1) < 256 := UInt8.toNat_lt _
  injection h
  omega

theorem fitsBuffer_logpprz (stream : List UInt8) : FitsBuffer logpprz stream where
  messages msg hmsg := by
    obtain ⟨buf, start, length, -, hlen, -, rfl⟩ := exists_of_mem_messages hmsg
    have hle := logpprz_length_le hlen
    rw [List.length_take, bufferLen]
    omega
  rest := by
    rcases scan_rest stable_logpprz stream with hnil | hscan
    · rw [hnil]
      decide
    · obtain ⟨-, hshort⟩ := scan_notEnough_iff.mp hscan
      generalize stream.drop (used logpprz stream) = rest at *
      rw [bufferLen]
      by_contra hlong
      have hlen : logpprz.length rest 0 = some (code rest 1 + 8) := if_pos (by omega)
      have hle := logpprz_length_le hlen
      have := hshort _ hlen
      omega

/-- What the reader of the log gets from the file of a run. -/
theorem read_back {s : State} (h : Inv s) {chunks : List (List UInt8)}
    (hchunks : chunks.flatten = s.file) :
    ∃ payloads pending, input logpprz [] chunks = some (payloads, pending) ∧
      payloads.map parse = s.records.map fun r => some r.message := by
  have hbegins : chunks.flatten <+: s.records.flatMap Record.bytes := by
    rw [hchunks, h.file]
  obtain ⟨k, pending, hk, hinput, -, hnext⟩ := input_of_frames stable_logpprz
    (fun a b hnone => GroundReader.index_append_of_none hnone b)
    (fun r hr => Record.carries (r := r) (by
      have hshort := h.short r hr
      simp only [msgSize] at hshort
      omega)) hbegins (fitsBuffer_logpprz _)
  have hall : k = s.records.length := by
    by_contra hne
    have hmore := hnext (by omega)
    have hpart : (s.records.take (k + 1)).flatMap Record.bytes <+:
        s.records.flatMap Record.bytes := (List.take_prefix _ _).flatMap _
    rw [hchunks, h.file] at hmore
    exact absurd hpart.length_le (Nat.not_le_of_lt hmore)
  refine ⟨_, pending, hinput, ?_⟩
  rw [hall, List.take_length, List.map_map]
  exact List.map_congr_left fun r _ => parse_payload r

/-- Whatever bytes arrive, the logger stays in its buffer exactly as long as no byte completes a
frame that the buffer has no room for; the reader of the file, however it is read, then gets the
records in order, and every one of them was counted as a failed write. -/
theorem log_reads_back (hcard : CardWrites fileWrite) (bytes : List LogByte) :
    ((bytes.foldlM (logPprz fileWrite) initial).isSome ↔
        FallibleRun.Meets (logPprz fileWrite) Loggable initial bytes) ∧
      ∀ s, bytes.foldlM (logPprz fileWrite) initial = some s →
        (∀ chunks : List (List UInt8), chunks.flatten = s.file →
          ∃ payloads pending, input logpprz [] chunks = some (payloads, pending) ∧
            payloads.map parse = s.records.map fun r => some r.message) ∧
        s.nbMessages = UInt32.ofNat s.records.length ∧ s.nbFailWrite = s.nbMessages := by
  refine ⟨?_, fun s hrun => ?_⟩
  · refine FallibleRun.isSome_foldlM_iff (fun s b (h : Inv s) => isSome_logPprz_iff hcard h b) ?_
      inv_initial
    exact fun s b s' h => inv_logPprz hcard h
  · have h : Inv s :=
      FallibleRun.inv_of_foldlM (fun s b s' h => inv_logPprz hcard h) inv_initial hrun
    exact ⟨fun chunks hchunks => read_back h hchunks, h.nbMessages, h.nbFailWrite⟩

/-! ### Frames -/

/-- The clock of `getclock` after a reading at a time counted without a bound. -/
def clockAt (ticks : Nat) : Clock := ⟨UInt32.ofNat (ticks / 2 ^ 32), UInt32.ofNat ticks⟩

/-- A timer that is read at least once a turn is extended correctly. -/
theorem getclock_clockAt {ticks ticks' : Nat} (hle : ticks ≤ ticks')
    (hlt : ticks' < ticks + 2 ^ 32) :
    getclock (UInt32.ofNat ticks') (clockAt ticks) =
      (UInt32.ofNat (ticks' % 2 ^ 64 / logDiv), clockAt ticks') := by
  have htime : (UInt32.ofNat (ticks' / 2 ^ 32)).toNat * 2 ^ 32 + (UInt32.ofNat ticks').toNat =
      ticks' % 2 ^ 64 := by
    rw [UInt32.toNat_ofNat', UInt32.toNat_ofNat']
    omega
  have hlsb : UInt32.ofNat ticks' < UInt32.ofNat ticks ↔ ticks' / 2 ^ 32 = ticks / 2 ^ 32 + 1 := by
    rw [UInt32.lt_iff_toNat_lt, UInt32.toNat_ofNat', UInt32.toNat_ofNat']
    omega
  have hmsb : (if UInt32.ofNat ticks' < (clockAt ticks).lsbLast then (clockAt ticks).msb + 1
      else (clockAt ticks).msb) = UInt32.ofNat (ticks' / 2 ^ 32) := by
    split_ifs with hwrap
    · rw [hlsb.mp hwrap, UInt32.ofNat_add]
      rfl
    · have hsame : ticks' / 2 ^ 32 = ticks / 2 ^ 32 := by
        have hno := mt hlsb.mpr hwrap
        omega
      rw [hsame]
      rfl
  simp only [getclock, hmsb, htime]
  rfl

/-- A frame that the logger reads: its payload, the bytes, and the time of the timer at the first
of them. -/
structure Reception where
  payload : List UInt8
  bytes : List LogByte
  ticks : Nat

/-- A frame of the autopilot that fits the log buffer. -/
structure Reception.Ok (source : UInt8) (r : Reception) : Prop where
  frame : r.bytes.map LogByte.c = airborneFrame r.payload
  sources : ∀ b ∈ r.bytes, b.source = source
  clock : r.bytes.head?.map LogByte.t0tc = some (UInt32.ofNat r.ticks)
  pos : 0 < r.payload.length
  short : r.payload.length ≤ 248

/-- Less than a turn of the timer passes between the starts of two frames. -/
def Paced : Nat → List Reception → Prop
  | _, [] => True
  | ticks, r :: rs => ticks ≤ r.ticks ∧ r.ticks < ticks + 2 ^ 32 ∧ Paced r.ticks rs

def Reception.record (source : UInt8) (r : Reception) : Record where
  source := source
  timestamp := UInt32.ofNat (r.ticks % 2 ^ 64 / logDiv)
  pprzData := r.payload

variable (fileWrite) in
/-- The payload phase. -/
theorem log_payload_bytes (s : State) (len : UInt8) (done : List UInt8) {bytes : List LogByte}
    (hstatus : s.status = .gotLength) (hidx : s.payloadIdx = UInt8.ofNat done.length)
    (hck : (s.ckA, s.ckB) = Checksum.fletcher len len done) (hholds : Holds s.payload done)
    (hlen : done.length + bytes.length = expected s.payloadLen) (hbytes : bytes ≠ []) :
    ∃ payload idx, bytes.foldlM (logPprz fileWrite) s =
        some
          { s with
            payload := payload
            payloadIdx := idx
            ckA := (Checksum.fletcher len len (done ++ bytes.map LogByte.c)).1
            ckB := (Checksum.fletcher len len (done ++ bytes.map LogByte.c)).2
            status := .gotPayload } ∧
      Holds payload (done ++ bytes.map LogByte.c) := by
  induction bytes generalizing s done with
  | nil => exact absurd rfl hbytes
  | cons b bytes ih =>
      have hnext : s.payloadIdx + 1 = UInt8.ofNat (done ++ [b.c]).length := by
        rw [hidx, List.length_append, List.length_singleton, UInt8.ofNat_add]
        rfl
      have hck' : (s.ckA + b.c, s.ckB + (s.ckA + b.c)) =
          Checksum.fletcher len len (done ++ [b.c]) := by
        rw [Checksum.fletcher_concat, ← hck]
      have hsmall : done.length < 256 := by
        have hle := PprzTransport.expected_le s.payloadLen
        simp at hlen
        omega
      have hholds' := hholds.update hsmall b.c
      have hlast : s.payloadIdx + 1 = s.payloadLen ↔ done.length + 1 = expected s.payloadLen := by
        rw [hidx]
        exact PprzTransport.index_eq_iff (by simp at hlen; omega)
      have happend : done ++ (b :: bytes).map LogByte.c = done ++ [b.c] ++ bytes.map LogByte.c := by
        simp
      rw [happend, List.foldlM_cons]
      rcases eq_or_ne bytes [] with rfl | hmore
      · have hdone : s.payloadIdx + 1 = s.payloadLen := hlast.mpr (by simpa using hlen)
        refine ⟨Function.update s.payload s.payloadIdx b.c, s.payloadIdx + 1, ?_, ?_⟩
        · simp only [logPprz, hstatus, if_pos hdone, List.map_nil, List.append_nil, ← hck']
          rfl
        · rw [hidx]
          simpa using hholds'
      · have hnot : s.payloadIdx + 1 ≠ s.payloadLen := by
          intro hdone
          have hpos := List.length_pos_iff.mpr hmore
          have hend := hlast.mp hdone
          simp at hlen
          omega
        obtain ⟨payload, idx, hrun, hfinal⟩ := ih
          { s with
            payload := Function.update s.payload s.payloadIdx b.c
            ckA := s.ckA + b.c
            ckB := s.ckB + (s.ckA + b.c)
            payloadIdx := s.payloadIdx + 1
            status := .gotLength }
          (done ++ [b.c]) rfl hnext hck' (by rw [hidx]; exact hholds')
          (by simp at hlen ⊢; omega) hmore
        refine ⟨payload, idx, ?_, hfinal⟩
        simp only [logPprz, hstatus, if_neg hnot]
        exact hrun

theorem contents_of_holds {s : State} {data : List UInt8} (h : Holds s.payload data)
    (hlen : s.payloadLen.toNat = data.length) : s.contents = data :=
  contents_eq_of_holds (t := ⟨s.payload, s.payloadLen, false, 0, 0⟩) h hlen

/-- A frame of the autopilot is logged as one record. -/
theorem log_frame (hcard : CardWrites fileWrite) {s : State} (h : Inv s)
    (hstatus : s.status = .uninit) {ticks : Nat} (hclock : s.clock = clockAt ticks)
    {source : UInt8} {r : Reception} (hr : r.Ok source) (hle : ticks ≤ r.ticks)
    (hlt : r.ticks < ticks + 2 ^ 32) :
    ∃ s', r.bytes.foldlM (logPprz fileWrite) s = some s' ∧ Inv s' ∧ s'.status = .uninit ∧
      s'.clock = clockAt r.ticks ∧ s'.records = s.records ++ [r.record source] := by
  obtain ⟨first, second, data, ckA, ckB, hbytes, hfirst, hsecond, hdata, hckA, hckB⟩ :
      ∃ first second data ckA ckB, r.bytes = first :: second :: data ++ [ckA, ckB] ∧
        first.c = stx ∧ second.c = UInt8.ofNat r.payload.length + 4 ∧
        data.map LogByte.c = r.payload ∧
        ckA.c = (Checksum.fletcher second.c second.c r.payload).1 ∧
        ckB.c = (Checksum.fletcher second.c second.c r.payload).2 := by
    have hframe := hr.frame
    rw [airborneFrame_eq, frameOf] at hframe
    obtain ⟨front, back, hbytes, hfront, hback⟩ := List.map_eq_append_iff.mp hframe
    obtain ⟨start, data, rfl, hstart, hdata⟩ := List.map_eq_append_iff.mp hfront
    obtain ⟨first, rest, rfl, hfirst, hrest⟩ := List.map_eq_cons_iff.mp hstart
    obtain ⟨second, rest, rfl, hsecond, hnil⟩ := List.map_eq_cons_iff.mp hrest
    obtain ⟨ckA, rest', rfl, hckA, hrest'⟩ := List.map_eq_cons_iff.mp hback
    obtain ⟨ckB, rest', rfl, hckB, hnil'⟩ := List.map_eq_cons_iff.mp hrest'
    obtain rfl := List.map_eq_nil_iff.mp hnil
    obtain rfl := List.map_eq_nil_iff.mp hnil'
    exact ⟨first, second, data, ckA, ckB, by simpa using hbytes, hfirst, hsecond, hdata,
      by rw [hsecond, hckA], by rw [hsecond, hckB]⟩
  have hlen : (second.c - 4).toNat = r.payload.length := by
    have hshort := hr.short
    rw [hsecond, add_sub_cancel_right]
    exact UInt8.toNat_ofNat_of_lt' (Nat.lt_of_le_of_lt hshort (by decide))
  have hne : second.c - 4 ≠ 0 := by
    intro hzero
    have hpos := hr.pos
    rw [hzero] at hlen
    simp at hlen
    omega
  have hexpected : expected (second.c - 4) = r.payload.length := by
    rw [expected, if_neg hne, hlen]
  have hlsb : first.t0tc = UInt32.ofNat r.ticks := by
    have hhead := hr.clock
    rw [hbytes] at hhead
    exact Option.some.inj hhead
  have htime := getclock_clockAt hle hlt
  -- after the start byte and the length
  let opened : State :=
    { s with
      timestamp := UInt32.ofNat (r.ticks % 2 ^ 64 / logDiv)
      clock := clockAt r.ticks
      payloadLen := second.c - 4
      ckA := second.c
      ckB := second.c
      status := .gotLength
      payloadIdx := 0 }
  obtain ⟨payload, idx, hrun, hholds⟩ := log_payload_bytes fileWrite opened second.c [] rfl
    rfl rfl (holds_nil _)
    (by
      have hmap := congrArg List.length hdata
      rw [List.length_map] at hmap
      rw [List.length_nil, Nat.zero_add, hmap]
      exact hexpected.symm)
    (by
      rintro rfl
      have hpos := hr.pos
      rw [← hdata] at hpos
      simp at hpos)
  rw [List.nil_append, hdata] at hrun hholds
  let read : State :=
    { opened with
      payload := payload
      payloadIdx := idx
      ckA := (Checksum.fletcher second.c second.c r.payload).1
      ckB := (Checksum.fletcher second.c second.c r.payload).2
      status := .gotCrc1 }
  have hroom : logDataOffset + read.payloadLen.toNat < msgSize := by
    have hshort := hr.short
    change 7 + (second.c - 4).toNat < 256
    omega
  have hcontents : read.contents = r.payload := contents_of_holds hholds hlen
  have hlast : logPprz fileWrite read ckB = some (logged read source) := by
    rw [logPprz_last (s := read) hcard h.logBuffer rfl hckB, if_pos hroom,
      hr.sources ckB (by rw [hbytes]; simp)]
  have hread : Inv read :=
    ⟨h.logBuffer, h.file, h.short, h.nbMessages, h.nbFailWrite⟩
  have hstart : logPprz fileWrite s first =
      some
        { s with
          timestamp := UInt32.ofNat (r.ticks % 2 ^ 64 / logDiv)
          clock := clockAt r.ticks
          status := .gotStx } := by
    simp only [logPprz, hstatus, hfirst, if_pos, hclock, hlsb, htime]
  have hck : logPprz fileWrite { read with status := .gotPayload } ckA = some read := by
    simp only [logPprz, read, hckA, ne_eq, not_true_eq_false, if_false]
  refine ⟨logged read source, ?_, inv_logPprz hcard hread hlast, rfl, rfl, ?_⟩
  · rw [hbytes, List.cons_append, List.cons_append, List.foldlM_cons, hstart]
    change (data ++ [ckA, ckB]).foldlM (logPprz fileWrite) opened = _
    rw [List.foldlM_append, hrun]
    refine (congrArg (· >>= [ckB].foldlM (logPprz fileWrite)) hck).trans ?_
    exact congrArg (· >>= [].foldlM (logPprz fileWrite)) hlast
  · exact congrArg (fun pprzData => s.records ++ [⟨source, read.timestamp, pprzData⟩]) hcontents

theorem log_frames (hcard : CardWrites fileWrite) {source : UInt8} {receptions : List Reception}
    (hok : ∀ r ∈ receptions, r.Ok source) {s : State} (h : Inv s) (hstatus : s.status = .uninit)
    {ticks : Nat} (hclock : s.clock = clockAt ticks) (hpaced : Paced ticks receptions) :
    ∃ s', (receptions.flatMap Reception.bytes).foldlM (logPprz fileWrite) s = some s' ∧ Inv s' ∧
      s'.records = s.records ++ receptions.map (Reception.record source) := by
  induction receptions generalizing s ticks with
  | nil => exact ⟨s, rfl, h, by simp⟩
  | cons r receptions ih =>
      obtain ⟨hr, hrest⟩ := List.forall_mem_cons.mp hok
      obtain ⟨hle, hlt, hlater⟩ := hpaced
      obtain ⟨t, hrun, ht, hidle, hclock', hrecords⟩ :=
        log_frame hcard h hstatus hclock hr hle hlt
      obtain ⟨s', hrun', hs', hrecords'⟩ := ih hrest ht hidle hclock' hlater
      refine ⟨s', ?_, hs', ?_⟩
      · rw [List.flatMap_cons, List.foldlM_append, hrun]
        exact hrun'
      · rw [hrecords', hrecords, List.map_cons, List.append_assoc, List.singleton_append]

end

/-- A card with room. -/
def roomyCard (file data : List UInt8) : List UInt8 × Nat := (file ++ data, data.length)

theorem cardWrites_roomyCard : CardWrites roomyCard := fun _ _ => rfl

theorem log_reads_back_frame :
    ((airborneFrame [7, 8]).map fun c => LogByte.mk c 0 0).foldlM (logPprz roomyCard) initial
      |>.isSome :=
  (log_reads_back cardWrites_roomyCard _).1.mpr (by
    unfold Loggable
    decide +kernel)

/-- A frame with two bytes of payload, half a minute after the start. -/
def secondFrame : Reception where
  payload := [7, 8]
  bytes := (airborneFrame [7, 8]).map fun c => ⟨c, 0, 450000000⟩
  ticks := 450000000

end Paparazzi.Logger.PprzLog
