import Mathlib.Data.List.Induction
import Mathlib.Tactic.SplitIfs
import Paparazzi.Library.Bytes
import Paparazzi.InterMcu.RoundTrip
import Paparazzi.Link.GpsUbx

/-!
Which of the UBX messages that are written come through, also behind other bytes, and where the
parser writes.
-/

namespace Paparazzi.Link.Ubx

open Paparazzi.Library
open Paparazzi.Library.Machine
open Paparazzi.InterMcu.LinkMcuUsart (lowByte highByte word)
open Paparazzi.InterMcu.RoundTrip (word_lowByte_highByte)

/-! ### Frames -/

/-- The bytes of a message that the checksum is over. -/
def body (navId msgId : UInt8) (len : UInt16) (payload : List UInt8) : List UInt8 :=
  [navId, msgId, lowByte len, highByte len] ++ payload

def checksum (navId msgId : UInt8) (len : UInt16) (payload : List UInt8) : UInt8 × UInt8 :=
  Checksum.fletcher 0 0 (body navId msgId len payload)

def frame (navId msgId : UInt8) (len : UInt16) (payload : List UInt8) : List UInt8 :=
  [ubxSync1, ubxSync2] ++ body navId msgId len payload ++
    [(checksum navId msgId len payload).1, (checksum navId msgId len payload).2]

/-- Writing bytes that count for the checksum. -/
def Sender.put (s : Sender) (bytes : List UInt8) : Sender where
  out := s.out ++ bytes
  sendCkA := (Checksum.fletcher s.sendCkA s.sendCkB bytes).1
  sendCkB := (Checksum.fletcher s.sendCkA s.sendCkB bytes).2

theorem put_append (s : Sender) (bytes bytes' : List UInt8) :
    (s.put bytes).put bytes' = s.put (bytes ++ bytes') := by
  simp [Sender.put, Checksum.fletcher_append]

theorem ubxSend1_eq (c : UInt8) (s : Sender) : ubxSend1 c s = s.put [c] := by
  simp [ubxSend1, gpsUartSend1, updateChecksum, Sender.put]

/-- The bytes that a macro writes. -/
def Send.bytes : Send → List UInt8
  | .send1 c => [c]
  | .send2 c => [lowByte c, highByte c]
  | .send1ByAddr x => [x]
  | .send2ByAddr x x1 => [x, x1]
  | .send4ByAddr x x1 x2 x3 => [x, x1, x2, x3]

theorem ubxSend_eq (send : Send) (s : Sender) : ubxSend send s = s.put send.bytes := by
  cases send <;>
    simp only [ubxSend, ubxSend2, ubxSend1_eq, put_append, Send.bytes, List.cons_append,
      List.nil_append]

/-- The payload that the macros write. -/
def payloadOf (sends : List Send) : List UInt8 := sends.flatMap Send.bytes

theorem foldl_ubxSend (sends : List Send) (s : Sender) :
    sends.foldl (fun s send => ubxSend send s) s = s.put (payloadOf sends) := by
  induction sends generalizing s with
  | nil => simp [payloadOf, Sender.put]
  | cons send sends ih =>
      rw [List.foldl_cons, ih, ubxSend_eq, put_append]
      rfl

theorem ubxMessage_eq_frame (navId msgId : UInt8) (len : UInt16) (sends : List Send) :
    ubxMessage navId msgId len sends = frame navId msgId len (payloadOf sends) := by
  have hheader : ubxHeader navId msgId len ⟨[], 0, 0⟩ =
      Sender.put ⟨[ubxSync1, ubxSync2], 0, 0⟩ [navId, msgId, lowByte len, highByte len] := by
    simp only [ubxHeader, ubxSend2, ubxSend1_eq, put_append]
    rfl
  rw [ubxMessage, foldl_ubxSend, hheader, put_append]
  simp [ubxTrailer, gpsUartSend1, Sender.put, frame, checksum, body]

/-! ### A frame that is received -/

section

variable {d : GpsUbx}

theorem feed_append (d : GpsUbx) (bytes bytes' : List UInt8) :
    feed d (bytes ++ bytes') = feed (feed d bytes) bytes' :=
  run_append gpsUbxParse d bytes bytes'

theorem available_eq_outputs (d : GpsUbx) (bytes : List UInt8) :
    available d bytes = outputs gpsUbxParse GpsUbx.msgAvailable d bytes := by
  induction bytes generalizing d with
  | nil => rfl
  | cons c bytes ih => rw [available, outputs, ih]

theorem available_append (d : GpsUbx) (bytes bytes' : List UInt8) :
    available d (bytes ++ bytes') = available d bytes ++ available (feed d bytes) bytes' := by
  simp only [available_eq_outputs, outputs_append]
  rfl

/-- The parser waits for a message, and none is pending. -/
structure Ready (d : GpsUbx) : Prop where
  status : d.status = .uninit
  available : d.msgAvailable = false

/-- The parser has read the header of a message and the payload bytes `data`. -/
structure Reading (d : GpsUbx) (navId id : UInt8) (len : UInt16) (data : List UInt8) :
    Prop where
  available : d.msgAvailable = false
  msgClass : d.msgClass = navId
  msgId : d.msgId = id
  length : d.len = len
  msgIdx : d.msgIdx = UInt8.ofNat data.length
  checksum : (d.ckA, d.ckB) = checksum navId id len data
  holds : Holds d.msgBuf data

/-- The message that is pending. -/
structure Pending (d : GpsUbx) (navId id : UInt8) (payload : List UInt8) : Prop where
  available : d.msgAvailable = true
  msgClass : d.msgClass = navId
  msgId : d.msgId = id
  length : d.len.toNat = payload.length
  holds : Holds d.msgBuf payload

theorem feed_header (h : Ready d) (navId msgId : UInt8) {len : UInt16}
    (hlen : len ≤ gpsUbxMaxPayload) :
    let header := [ubxSync1, ubxSync2] ++ body navId msgId len []
    Reading (feed d header) navId msgId len [] ∧ (feed d header).status = .gotLen2 ∧
      available d header = List.replicate header.length false := by
  have hword : (lowByte len).toUInt16 ||| (highByte len).toUInt16 <<< 8 = len :=
    word_lowByte_highByte len
  have hmax : ¬len > gpsUbxMaxPayload := UInt16.not_lt.2 hlen
  have hfeed : feed d ([ubxSync1, ubxSync2] ++ body navId msgId len []) =
      { d with
        msgClass := navId
        msgId := msgId
        len := len
        msgIdx := 0
        status := .gotLen2
        ckA := (checksum navId msgId len []).1
        ckB := (checksum navId msgId len []).2 } := by
    simp [feed, body, checksum, gpsUbxParse, h.status, h.available, Status.beforePayload, hword,
      hmax]
  refine ⟨?_, ?_, ?_⟩
  · rw [hfeed]
    exact ⟨h.available, rfl, rfl, rfl, rfl, rfl, holds_nil _⟩
  · rw [hfeed]
  · simp [available, body, gpsUbxParse, h.status, h.available, Status.beforePayload, hword, hmax,
      List.replicate]

theorem checksum_concat (navId msgId : UInt8) (len : UInt16) (data : List UInt8) (c : UInt8) :
    checksum navId msgId len (data ++ [c]) =
      ((checksum navId msgId len data).1 + c,
        (checksum navId msgId len data).2 + ((checksum navId msgId len data).1 + c)) := by
  rw [checksum, body, ← List.append_assoc, Checksum.fletcher_concat]
  rfl

/-- One payload byte: the checksum is next after as many bytes as announced. -/
theorem reading_step {navId msgId : UInt8} {len : UInt16} {data : List UInt8}
    (h : Reading d navId msgId len data) (hstatus : d.status = .gotLen2)
    (hdata : data.length < 255) (c : UInt8) :
    Reading (gpsUbxParse d c) navId msgId len (data ++ [c]) ∧
      (gpsUbxParse d c).status =
        if len.toNat ≤ data.length + 1 then .gotPayload else .gotLen2 := by
  have hidx : d.msgIdx + 1 = UInt8.ofNat (data ++ [c]).length := by
    rw [h.msgIdx, List.length_append, List.length_singleton, UInt8.ofNat_add]
    rfl
  have hck : (d.ckA + c, d.ckB + (d.ckA + c)) = checksum navId msgId len (data ++ [c]) := by
    rw [checksum_concat, ← h.checksum]
  have hend : (d.msgIdx + 1).toUInt16 ≥ d.len ↔ len.toNat ≤ data.length + 1 := by
    rw [hidx, h.length, ge_iff_le, UInt16.le_iff_toNat_le, UInt8.toNat_toUInt16, UInt8.toNat_ofNat',
      List.length_append, List.length_singleton, Nat.mod_eq_of_lt (by omega)]
  have hholds := h.holds.update (by omega : data.length < 256) c
  rw [← h.msgIdx] at hholds
  simp only [gpsUbxParse, hstatus, Status.beforePayload, if_true, hend]
  split_ifs
  · exact ⟨⟨h.available, h.msgClass, h.msgId, h.length, hidx, hck, hholds⟩, rfl⟩
  · exact ⟨⟨h.available, h.msgClass, h.msgId, h.length, hidx, hck, hholds⟩, rfl⟩

/-- The bytes of the payload up to the announced length. -/
theorem reading_feed {navId msgId : UInt8} {len : UInt16} {data rest : List UInt8}
    (h : Reading d navId msgId len data) (hstatus : d.status = .gotLen2) (hrest : rest ≠ [])
    (hlen : data.length + rest.length = len.toNat) (hmax : len ≤ gpsUbxMaxPayload) :
    Reading (feed d rest) navId msgId len (data ++ rest) ∧ (feed d rest).status = .gotPayload ∧
      available d rest = List.replicate rest.length false := by
  rw [available_eq_outputs]
  refine run_series (fun data d => Reading d navId msgId len data)
    (fun d => d.status = .gotLen2) (fun d => d.status = .gotPayload) ?_
    Reading.available h hstatus hrest hlen
  intro data d h hstatus hlt c
  have hmax' : len.toNat ≤ 255 := hmax
  obtain ⟨hreading, hnext⟩ := reading_step h hstatus (by omega) c
  refine ⟨hreading, ?_, ?_⟩
  · intro hmore
    rw [hnext, if_neg (by omega)]
  · intro hlast
    rw [hnext, if_pos (by omega)]

/-- A frame with a payload becomes the pending message with its last byte. -/
theorem feed_frame (h : Ready d) (navId msgId : UInt8) {len : UInt16} {payload : List UInt8}
    (hlen : payload.length = len.toNat) (hne : payload ≠ []) (hmax : len ≤ gpsUbxMaxPayload) :
    Pending (feed d (frame navId msgId len payload)) navId msgId payload ∧
      (feed d (frame navId msgId len payload)).status = .uninit ∧
      available d (frame navId msgId len payload) =
        List.replicate ((frame navId msgId len payload).length - 1) false ++ [true] := by
  obtain ⟨hheader, hstart, hquiet⟩ := feed_header h navId msgId hmax
  obtain ⟨hreading, hend, hquiet'⟩ :=
    reading_feed hheader hstart hne (by rw [List.length_nil, Nat.zero_add, hlen]) hmax
  rw [List.nil_append] at hreading
  have hsplit : frame navId msgId len payload =
      ([ubxSync1, ubxSync2] ++ body navId msgId len []) ++ payload ++
        [(checksum navId msgId len payload).1, (checksum navId msgId len payload).2] := by
    simp [frame, body]
  rw [← feed_append] at hreading hend
  generalize hd : feed d ([ubxSync1, ubxSync2] ++ body navId msgId len [] ++ payload) = d₁
    at hreading hend
  have hck := hreading.checksum
  have hlast : feed d (frame navId msgId len payload) =
      { d₁ with status := .uninit, msgAvailable := true } := by
    rw [hsplit, feed_append, hd, ← hck]
    simp [feed, gpsUbxParse, hend, Status.beforePayload]
  have hquiet'' : available d₁ [d₁.ckA, d₁.ckB] = [false, true] := by
    simp [available, gpsUbxParse, hend, Status.beforePayload, hreading.available]
  refine ⟨?_, ?_, ?_⟩
  · rw [hlast]
    exact ⟨rfl, hreading.msgClass, hreading.msgId, by rw [hreading.length, hlen], hreading.holds⟩
  · rw [hlast]
  · rw [hsplit, available_append, available_append, hquiet, hquiet', hd, ← hck, hquiet'',
      List.replicate_append_replicate, show [false, true] = List.replicate 1 false ++ [true] from rfl,
      ← List.append_assoc, List.replicate_append_replicate]
    congr 2
    simp only [body, List.length_append, List.length_cons, List.length_nil]
    omega

/-! ### Bytes before a frame -/

/-- The bytes do not contain the two sync bytes of a message. -/
def NoSync (bytes : List UInt8) : Prop := ¬[ubxSync1, ubxSync2] <:+: bytes

instance (bytes : List UInt8) : Decidable (NoSync bytes) :=
  inferInstanceAs (Decidable (¬[ubxSync1, ubxSync2] <:+: bytes))

/-- How many first sync bytes the bytes end with. -/
def lastSyncs (bytes : List UInt8) : Nat :=
  (bytes.reverse.takeWhile (· == ubxSync1)).length

theorem lastSyncs_concat (bytes : List UInt8) (c : UInt8) :
    lastSyncs (bytes ++ [c]) = if c = ubxSync1 then lastSyncs bytes + 1 else 0 := by
  rw [lastSyncs, List.reverse_append, List.reverse_singleton, List.singleton_append,
    List.takeWhile_cons]
  by_cases hc : c = ubxSync1
  · simp [hc, lastSyncs]
  · simp [hc]

theorem sync_of_lastSyncs_pos {bytes : List UInt8} (h : 0 < lastSyncs bytes) :
    ∃ init, bytes = init ++ [ubxSync1] := by
  induction bytes using List.reverseRecOn with
  | nil => exact absurd h (by decide)
  | append_singleton init c _ =>
      rw [lastSyncs_concat] at h
      split_ifs at h with hc
      · exact ⟨init, by rw [hc]⟩
      · exact absurd h (by decide)

/-- A second first sync byte sends the parser back, so what counts is how many there are. -/
theorem feed_noSync (h : Ready d) {bytes : List UInt8} (hbytes : NoSync bytes) :
    (feed d bytes).status = (if lastSyncs bytes % 2 = 0 then .uninit else .gotSync1) ∧
      (feed d bytes).msgAvailable = false ∧
      available d bytes = List.replicate bytes.length false := by
  induction bytes using List.reverseRecOn with
  | nil => exact ⟨h.status, h.available, rfl⟩
  | append_singleton init c ih =>
      have hinit : NoSync init := fun hinner =>
        hbytes (hinner.trans (List.prefix_append init [c]).isInfix)
      obtain ⟨hstatus, havailable, hquiet⟩ := ih hinit
      have hstep : (gpsUbxParse (feed d init) c).status =
            (if lastSyncs (init ++ [c]) % 2 = 0 then .uninit else .gotSync1) ∧
          (gpsUbxParse (feed d init) c).msgAvailable = false := by
        rw [lastSyncs_concat]
        by_cases heven : lastSyncs init % 2 = 0
        · rw [if_pos heven] at hstatus
          by_cases hc : c = ubxSync1
          · have hodd : (lastSyncs init + 1) % 2 = 1 := by omega
            simp [gpsUbxParse, hstatus, Status.beforePayload, hc, havailable, hodd]
          · simp [gpsUbxParse, hstatus, Status.beforePayload, hc, havailable]
        · rw [if_neg heven] at hstatus
          have hc2 : c ≠ ubxSync2 := by
            rintro rfl
            obtain ⟨init', rfl⟩ := sync_of_lastSyncs_pos (by omega : 0 < lastSyncs init)
            exact hbytes ⟨init', [], by simp⟩
          by_cases hc : c = ubxSync1
          · have hodd : (lastSyncs init + 1) % 2 = 0 := by omega
            rw [if_pos hc, if_pos hodd]
            simp [gpsUbxParse, hstatus, Status.beforePayload, parseError, hc2, havailable]
          · simp [gpsUbxParse, hstatus, Status.beforePayload, parseError, hc2, havailable, hc]
      refine ⟨?_, ?_, ?_⟩
      · rw [feed_append]
        exact hstep.1
      · rw [feed_append]
        exact hstep.2
      · rw [available_append, hquiet, List.length_append, List.length_singleton,
          List.replicate_succ']
        change _ ++ [(gpsUbxParse (feed d init) c).msgAvailable] = _
        rw [hstep.2]

/-! ### How many bytes a message takes -/

/-- The bytes of the current message that the parser has read, by its state. -/
def bytesRead (d : GpsUbx) : Nat :=
  match d.status with
  | .uninit => 0
  | .gotSync1 => 1
  | .gotSync2 => 2
  | .gotClass => 3
  | .gotId => 4
  | .gotLen1 => 5
  | .gotLen2 => 6 + d.msgIdx.toNat
  | .gotPayload => 6 + max 1 d.len.toNat
  | .gotChecksum1 => 7 + max 1 d.len.toNat

/-- After the length is checked, the index is below it: or both are 0. -/
def IndexOk (d : GpsUbx) : Prop :=
  d.status = .gotLen2 → d.len.toNat ≤ 255 ∧ d.msgIdx.toNat < max 1 d.len.toNat

theorem status_before_gotLen2 {c : UInt8} (h : (gpsUbxParse d c).status = .gotLen2) :
    d.status = .gotLen1 ∨ d.status = .gotLen2 := by
  cases hstatus : d.status <;>
    simp [gpsUbxParse, hstatus, Status.beforePayload, parseError,
      apply_ite GpsUbx.status] at h <;>
    first | exact Or.inl rfl | exact Or.inr rfl | exact absurd h (by split_ifs <;> decide)

theorem parse_gotLen2 (hstatus : d.status = .gotLen2) (c : UInt8) :
    (gpsUbxParse d c).msgIdx = d.msgIdx + 1 ∧ (gpsUbxParse d c).len = d.len ∧
      (gpsUbxParse d c).msgAvailable = d.msgAvailable ∧
      (gpsUbxParse d c).status =
        if (d.msgIdx + 1).toUInt16 ≥ d.len then .gotPayload else .gotLen2 := by
  simp only [gpsUbxParse, hstatus, Status.beforePayload, if_true]
  split_ifs <;> exact ⟨rfl, rfl, rfl, rfl⟩

theorem toNat_succ_of_indexOk (h : IndexOk d) (hstatus : d.status = .gotLen2) :
    (d.msgIdx + 1).toNat = d.msgIdx.toNat + 1 := by
  obtain ⟨hlen, hidx⟩ := h hstatus
  rw [UInt8.toNat_add]
  change (d.msgIdx.toNat + 1) % 256 = _
  omega

theorem indexOk_parse (h : IndexOk d) (c : UInt8) : IndexOk (gpsUbxParse d c) := by
  intro hnext
  rcases status_before_gotLen2 hnext with hstatus | hstatus
  · simp only [gpsUbxParse, hstatus, Status.beforePayload, if_true] at hnext ⊢
    split_ifs at hnext ⊢ with hmax
    · exact absurd hnext (by simp [parseError])
    · exact ⟨UInt16.not_lt.mp hmax, Nat.lt_of_lt_of_le Nat.one_pos (Nat.le_max_left _ _)⟩
  · obtain ⟨hidx, hlen, -, hend⟩ := parse_gotLen2 hstatus c
    rw [hnext] at hend
    split_ifs at hend with hge
    have hlt : (d.msgIdx + 1).toUInt16.toNat < d.len.toNat := UInt16.not_le.mp hge
    rw [UInt8.toNat_toUInt16] at hlt
    rw [hidx, hlen]
    exact ⟨(h hstatus).1, Nat.lt_of_lt_of_le hlt (Nat.le_max_right _ _)⟩

theorem indexOk_step (h : IndexOk d) (e : Event) : IndexOk (step d e) := by
  cases e with
  | byte c => exact indexOk_parse h c
  | messageRead => exact h

theorem indexOk_run (h : IndexOk d) (es : List Event) : IndexOk (run step d es) := by
  induction es generalizing d with
  | nil => exact h
  | cons e es ih => exact ih (indexOk_step h e)

/-- What `k` bytes after an idle state can have led to. -/
structure Consistent (d : GpsUbx) (k : Nat) : Prop where
  index : IndexOk d
  reading : d.msgAvailable = false → bytesRead d ≤ k
  pending : d.msgAvailable = true → 8 + max 1 d.len.toNat ≤ k ∧
    (d.status = .uninit ∨ d.status = .gotSync1 ∨ d.status = .gotSync2)

theorem consistent_of_ready (h : Ready d) : Consistent d 0 where
  index := fun hstatus => by rw [h.status] at hstatus; cases hstatus
  reading := fun _ => by simp [bytesRead, h.status]
  pending := fun havailable => by rw [h.available] at havailable; cases havailable

/-- While a message is pending the parser does not come past the two sync bytes. -/
theorem parse_of_pending {c : UInt8} (h : d.msgAvailable = true)
    (hstatus : d.status = .uninit ∨ d.status = .gotSync1 ∨ d.status = .gotSync2) :
    (gpsUbxParse d c).msgAvailable = true ∧ (gpsUbxParse d c).len = d.len ∧
      ((gpsUbxParse d c).status = .uninit ∨ (gpsUbxParse d c).status = .gotSync1 ∨
        (gpsUbxParse d c).status = .gotSync2) := by
  rcases hstatus with hstatus | hstatus | hstatus
  · simp only [gpsUbxParse, hstatus, Status.beforePayload, if_true]
    split_ifs
    · exact ⟨h, rfl, Or.inr (Or.inl rfl)⟩
    · exact ⟨h, rfl, Or.inl rfl⟩
  · simp only [gpsUbxParse, hstatus, Status.beforePayload, if_true]
    split_ifs
    · exact ⟨h, rfl, Or.inl rfl⟩
    · exact ⟨h, rfl, Or.inr (Or.inr rfl)⟩
  · simp only [gpsUbxParse, hstatus, Status.beforePayload, if_true, h]
    exact ⟨rfl, rfl, Or.inl rfl⟩

/-- One byte more brings the parser at most one byte further. -/
theorem parse_of_quiet {c : UInt8} (hindex : IndexOk d) (h : d.msgAvailable = false) :
    ((gpsUbxParse d c).msgAvailable = false ∧ bytesRead (gpsUbxParse d c) ≤ bytesRead d + 1) ∨
      ((gpsUbxParse d c).status = .uninit ∧ 8 + max 1 (gpsUbxParse d c).len.toNat ≤ bytesRead d + 1) := by
  cases hstatus : d.status with
  | gotLen2 =>
      left
      obtain ⟨hidx, hlen, havailable, hend⟩ := parse_gotLen2 hstatus c
      refine ⟨havailable.trans h, ?_⟩
      have hsucc := toNat_succ_of_indexOk hindex hstatus
      simp only [bytesRead, hstatus, hend, hidx, hlen]
      split_ifs with hge
      · have hge' : d.len.toNat ≤ (d.msgIdx + 1).toUInt16.toNat := hge
        rw [UInt8.toNat_toUInt16] at hge'
        dsimp only
        omega
      · dsimp only
        omega
  | gotChecksum1 =>
      simp only [gpsUbxParse, hstatus, Status.beforePayload, Bool.false_eq_true, if_false]
      split_ifs
      · exact Or.inl ⟨h, Nat.zero_le _⟩
      · exact Or.inr ⟨rfl, by simp only [bytesRead, hstatus]; omega⟩
  | gotPayload =>
      left
      simp only [gpsUbxParse, hstatus, Status.beforePayload, Bool.false_eq_true, if_false]
      split_ifs
      · exact ⟨h, Nat.zero_le _⟩
      · exact ⟨h, by simp only [bytesRead, hstatus]; omega⟩
  | gotClass => exact Or.inl (by simp [gpsUbxParse, hstatus, Status.beforePayload, h, bytesRead])
  | gotId => exact Or.inl (by simp [gpsUbxParse, hstatus, Status.beforePayload, h, bytesRead])
  | _ =>
      left
      simp only [gpsUbxParse, hstatus, Status.beforePayload, if_true]
      split_ifs <;> simp [h, parseError, bytesRead, hstatus]

theorem consistent_parse {k : Nat} (h : Consistent d k) (c : UInt8) :
    Consistent (gpsUbxParse d c) (k + 1) := by
  cases havailable : d.msgAvailable with
  | true =>
      obtain ⟨hlen, hstatus⟩ := h.pending havailable
      obtain ⟨hpending, hsame, hnext⟩ := @parse_of_pending _ c havailable hstatus
      refine ⟨indexOk_parse h.index c, ?_, ?_⟩
      · intro hquiet
        rw [hpending] at hquiet
        cases hquiet
      · intro _
        rw [hsame]
        exact ⟨by omega, hnext⟩
  | false =>
      have hread := h.reading havailable
      refine ⟨indexOk_parse h.index c, ?_, ?_⟩
      · intro hquiet
        rcases @parse_of_quiet _ c h.index havailable with ⟨-, hle⟩ | ⟨hnext, -⟩
        · omega
        · simp [bytesRead, hnext]
      · intro hpending
        rcases @parse_of_quiet _ c h.index havailable with ⟨hquiet, -⟩ | ⟨hnext, hle⟩
        · rw [hquiet] at hpending
          cases hpending
        · exact ⟨by omega, Or.inl hnext⟩

theorem consistent_feed {k : Nat} (h : Consistent d k) (bytes : List UInt8) :
    Consistent (feed d bytes) (k + bytes.length) := by
  induction bytes generalizing d k with
  | nil => exact h
  | cons c bytes ih =>
      have := ih (consistent_parse h c)
      rwa [Nat.add_assoc, Nat.add_comm 1] at this

/-- A message takes as many bytes as its length says, and at least one of payload. -/
theorem le_of_pending (h : Ready d) {bytes : List UInt8}
    (hpending : (feed d bytes).msgAvailable = true) :
    8 + max 1 (feed d bytes).len.toNat ≤ bytes.length := by
  have hconsistent := consistent_feed (consistent_of_ready h) bytes
  rw [Nat.zero_add] at hconsistent
  exact (hconsistent.pending hpending).1

/-! ### What is received -/

/-- The message becomes available with the last of the bytes, and it is the one that was sent. -/
def Received (d : GpsUbx) (bytes : List UInt8) (navId msgId : UInt8) (payload : List UInt8) :
    Prop :=
  available d bytes = List.replicate (bytes.length - 1) false ++ [true] ∧
    Pending (feed d bytes) navId msgId payload

theorem length_frame (navId msgId : UInt8) (len : UInt16) (payload : List UInt8) :
    (frame navId msgId len payload).length = 8 + payload.length := by
  simp only [frame, body, List.length_append, List.length_cons, List.length_nil]
  omega

/-- The messages that come through behind other bytes. -/
def ComesThrough (before payload : List UInt8) : Prop :=
  payload ≠ [] ∧ lastSyncs before % 2 = 0

theorem received_iff (h : Ready d) (navId msgId : UInt8) {len : UInt16} {payload : List UInt8}
    (hlen : payload.length = len.toNat) (hmax : len ≤ gpsUbxMaxPayload) {before : List UInt8}
    (hbefore : NoSync before) :
    Received d (before ++ frame navId msgId len payload) navId msgId payload ↔
      ComesThrough before payload := by
  obtain ⟨hstatus, havailable, hquiet⟩ := feed_noSync h hbefore
  constructor
  · rintro ⟨-, hpending⟩
    rw [feed_append] at hpending
    by_contra hcomes
    by_cases heven : lastSyncs before % 2 = 0
    · rw [if_pos heven] at hstatus
      have hne : payload = [] := by
        by_contra hne
        exact hcomes ⟨hne, heven⟩
      have hle := le_of_pending ⟨hstatus, havailable⟩ hpending.available
      rw [hpending.length, length_frame, hne, List.length_nil] at hle
      omega
    · -- the first sync byte of the frame sends the parser back
      rw [if_neg heven] at hstatus
      have hready : Ready (gpsUbxParse (feed d before) ubxSync1) := by
        constructor
        · simp [gpsUbxParse, hstatus, Status.beforePayload, parseError, ubxSync1, ubxSync2]
        · simp [gpsUbxParse, hstatus, Status.beforePayload, parseError, ubxSync1, ubxSync2,
            havailable]
      have hsplit : frame navId msgId len payload =
          ubxSync1 :: (frame navId msgId len payload).tail := rfl
      have hlength := length_frame navId msgId len payload
      rw [hsplit] at hpending
      have hle := le_of_pending hready hpending.available
      have hlen' : (feed (gpsUbxParse (feed d before) ubxSync1)
          (frame navId msgId len payload).tail).len.toNat = payload.length := hpending.length
      rw [hlen', List.length_tail, hlength] at hle
      omega
  · rintro ⟨hne, heven⟩
    rw [if_pos heven] at hstatus
    obtain ⟨hpending, -, hlast⟩ := feed_frame ⟨hstatus, havailable⟩ navId msgId hlen hne hmax
    constructor
    · rw [available_append, hquiet, hlast, ← List.append_assoc, List.replicate_append_replicate,
        List.length_append, length_frame, Nat.add_sub_assoc (by omega : 1 ≤ 8 + payload.length)]
    · rw [feed_append]
      exact hpending

/-- The index where a byte is stored stays inside `msg_buf`, whatever bytes come. -/
theorem storeIndex_lt (h : IndexOk d) {i : UInt8} (hi : storeIndex d = some i) :
    i.toNat < gpsUbxMaxPayload.toNat := by
  rw [storeIndex] at hi
  split_ifs at hi with hstatus
  injection hi with hi
  obtain ⟨hlen, hidx⟩ := h hstatus
  rw [← hi]
  change _ < 255
  omega

end

/-- A parser in its first state for bytes that come from nowhere. -/
def idle : GpsUbx := ⟨false, fun _ => 0, 0, 0, .uninit, 0, 0, 0, 0, 0, .none⟩

/-- A message comes through exactly when it has a payload and an even number of first sync bytes
stands before it; in every run the bytes are stored inside `msg_buf`. -/
theorem framing_iff (d : GpsUbx) (before : List UInt8) (navId msgId : UInt8) (sends : List Send)
    (es : List Event) (hstatus : d.status = .uninit) (havailable : d.msgAvailable = false)
    (hbefore : NoSync before) (hlen : (payloadOf sends).length ≤ gpsUbxMaxPayload.toNat) :
    (Received d (before ++ ubxMessage navId msgId (UInt16.ofNat (payloadOf sends).length) sends)
        navId msgId (payloadOf sends) ↔ ComesThrough before (payloadOf sends)) ∧
      ∀ i, storeIndex (run step d es) = some i → i.toNat < gpsUbxMaxPayload.toNat := by
  constructor
  · have hlen' : (payloadOf sends).length = (UInt16.ofNat (payloadOf sends).length).toNat := by
      rw [UInt16.toNat_ofNat', Nat.mod_eq_of_lt]
      exact lt_of_le_of_lt hlen (by decide)
    rw [ubxMessage_eq_frame]
    apply received_iff ⟨hstatus, havailable⟩ navId msgId hlen' _ hbefore
    rw [UInt16.le_iff_toNat_le, ← hlen']
    exact hlen
  · intro i hi
    have hindex : IndexOk d := fun hlen2 => by rw [hstatus] at hlen2; cases hlen2
    exact storeIndex_lt (indexOk_run hindex es) hi

theorem framing_one_byte :
    Received idle ([] ++ ubxMessage 1 2 1 [.send1 7]) 1 2 [7] ∧
      ∀ i, storeIndex (run step idle [.byte ubxSync1, .messageRead]) = some i → i.toNat < 255 :=
  have h := framing_iff idle [] 1 2 [.send1 7] [.byte ubxSync1, .messageRead] rfl rfl (by decide)
    (by decide)
  ⟨h.1.mpr ⟨by decide, by decide⟩, h.2⟩

/-- A poll, which has no payload, and a message behind one byte that is equal to the first sync
byte. -/
theorem poll_and_lone_sync_lost :
    ¬Received idle ([] ++ ubxMessage 1 2 0 []) 1 2 [] ∧
      ¬Received idle ([ubxSync1] ++ ubxMessage 1 2 1 [.send1 7]) 1 2 [7] := by
  constructor
  · intro h
    rw [ubxMessage_eq_frame] at h
    exact ((received_iff ⟨rfl, rfl⟩ 1 2 rfl (by decide) (by decide)).mp h).1 rfl
  · intro h
    rw [ubxMessage_eq_frame] at h
    exact absurd ((received_iff ⟨rfl, rfl⟩ 1 2 rfl (by decide) (by decide)).mp h).2 (by decide)

end Paparazzi.Link.Ubx
