import Mathlib.Data.Fin.VecNotation
import Mathlib.Tactic.SplitIfs
import Paparazzi.Library.Bytes
import Paparazzi.InterMcu.LinkMcuUsart

/-!
The round trip of the messages between the processors: what the bytes of a message become at
the other end.
-/

namespace Paparazzi.InterMcu.RoundTrip

open Paparazzi.Library
open Paparazzi.Library.Machine
open Paparazzi.Link
open Paparazzi.InterMcu.LinkMcuUsart

/-! ### Messages -/

inductive Message (n k : Nat) where
  | command (cmd : Fin n → Int16)
  | radio (channels : Fin k → Int16)
  | trim (roll pitch : Int16)
  | fbw (ppmCpt status nbErr : UInt8) (vsupply : UInt16) (current : Int32)

section

variable {n k : Nat}

/-- The bytes that a processor writes for a message. -/
def send : Message n k → List UInt8
  | .command cmd => (interMcuSendCommand ⟨[], 0, 0⟩ cmd).out
  | .radio channels => (interMcuSendRadio ⟨[], 0, 0⟩ channels).out
  | .trim roll pitch => (interMcuSendTrim ⟨[], 0, 0⟩ roll pitch).out
  | .fbw ppmCpt status nbErr vsupply current =>
      (interMcuSendFbw ⟨[], 0, 0⟩ ppmCpt status nbErr vsupply current).out

/-- The shared data with exactly the values of the message. -/
def store : Message n k → Shared n k → Shared n k
  | .command cmd, m =>
      { m with apState := { m.apState with commands := cmd }, interMcuReceivedAp := true }
  | .radio channels, m => { m with fbwState := { m.fbwState with channels := channels } }
  | .trim roll pitch, m =>
      { m with
        apState := { m.apState with commandRollTrim := roll, commandPitchTrim := pitch } }
  | .fbw ppmCpt status nbErr vsupply current, m =>
      { m with
        fbwState :=
          { m.fbwState with
            ppmCpt := ppmCpt
            status := status
            nbErr := nbErr
            vsupply := vsupply
            current := current }
        interMcuReceivedFbw := true }

/-- The shared data after each of the messages. -/
def storeAll : Shared n k → List (Message n k) → List (Shared n k)
  | _, [] => []
  | m, message :: messages => store message m :: storeAll (store message m) messages

end

/-! ### Frames -/

/-- The bytes of a message that the checksum is over. -/
def body (id : UInt8) (len : UInt16) (payload : List UInt8) : List UInt8 :=
  [msgIntermcuId, id, lowByte len, highByte len] ++ payload

def frame (id : UInt8) (len : UInt16) (payload : List UInt8) : List UInt8 :=
  [intermcuSync1, intermcuSync2] ++ body id len payload ++
    [(Checksum.fletcher 0 0 (body id len payload)).1, (Checksum.fletcher 0 0 (body id len payload)).2]

/-- Writing bytes that count for the checksum. -/
def Sender.put (s : Sender) (bytes : List UInt8) : Sender where
  out := s.out ++ bytes
  sendCkA := (Checksum.fletcher s.sendCkA s.sendCkB bytes).1
  sendCkB := (Checksum.fletcher s.sendCkA s.sendCkB bytes).2

theorem put_put (s : Sender) (bytes bytes' : List UInt8) :
    Sender.put (Sender.put s bytes) bytes' = Sender.put s (bytes ++ bytes') := by
  simp [Sender.put, Checksum.fletcher_append]

@[simp] theorem put_nil (s : Sender) : Sender.put s [] = s := by
  simp [Sender.put]

theorem interMcuSend1_eq (c : UInt8) (s : Sender) : interMcuSend1 c s = Sender.put s [c] := by
  simp [interMcuSend1, interMcuUartSend1, updateChecksum, Sender.put]

theorem interMcuSend2ByAddr_eq (x : UInt16) (s : Sender) :
    interMcuSend2ByAddr x s = Sender.put s [lowByte x, highByte x] := by
  rw [interMcuSend2ByAddr, interMcuSend1_eq, interMcuSend1_eq, put_put]
  rfl

/-- The bytes of a vector. -/
def vectorBytes {n : Nat} (cmd : Fin n → Int16) : List UInt8 :=
  (List.finRange n).flatMap fun i => [lowByte (cmd i).toUInt16, highByte (cmd i).toUInt16]

theorem interMcuSendVector_eq {n : Nat} (cmd : Fin n → Int16) (s : Sender) :
    interMcuSendVector cmd s = Sender.put s (vectorBytes cmd) := by
  unfold interMcuSendVector vectorBytes
  generalize List.finRange n = l
  induction l generalizing s with
  | nil => simp
  | cons i l ih =>
      rw [List.foldl_cons, ih, interMcuSend2ByAddr_eq, put_put]
      rfl

/-- Header, payload and trailer make a frame. -/
theorem trailer_put_header (id : UInt8) (len : UInt16) (payload : List UInt8) :
    (interMcuTrailer (Sender.put (interMcuHeader msgIntermcuId id len ⟨[], 0, 0⟩) payload)).out =
      frame id len payload := by
  have hheader : interMcuHeader msgIntermcuId id len ⟨[], 0, 0⟩ =
      Sender.put ⟨[intermcuSync1, intermcuSync2], 0, 0⟩
        [msgIntermcuId, id, lowByte len, highByte len] := by
    simp only [interMcuHeader, interMcuSend2, interMcuSend1_eq, put_put]
    rfl
  rw [hheader, put_put]
  simp [interMcuTrailer, interMcuUartSend1, Sender.put, frame, body]

def messageId {n k : Nat} : Message n k → UInt8
  | .command _ => msgIntermcuCommandId
  | .radio _ => msgIntermcuRadioId
  | .trim _ _ => msgIntermcuTrimId
  | .fbw _ _ _ _ _ => msgIntermcuFbwId

def payload {n k : Nat} : Message n k → List UInt8
  | .command cmd => vectorBytes cmd
  | .radio channels => vectorBytes channels
  | .trim roll pitch =>
      [lowByte roll.toUInt16, highByte roll.toUInt16, lowByte pitch.toUInt16,
        highByte pitch.toUInt16]
  | .fbw ppmCpt status nbErr vsupply current =>
      [ppmCpt, status, nbErr, lowByte vsupply, highByte vsupply,
        lowByte current.toUInt32.toUInt16, highByte current.toUInt32.toUInt16]

theorem length_vectorBytes {n : Nat} (cmd : Fin n → Int16) : (vectorBytes cmd).length = 2 * n := by
  simp [vectorBytes, List.length_flatMap, Nat.mul_comm]

theorem send_eq_frame_vector {n : Nat} (id : UInt8) (cmd : Fin n → Int16) :
    (interMcuTrailer (interMcuSendVector cmd
        (interMcuHeader msgIntermcuId id (2 * UInt16.ofNat n) ⟨[], 0, 0⟩))).out =
      frame id (2 * UInt16.ofNat n) (vectorBytes cmd) := by
  rw [interMcuSendVector_eq, trailer_put_header]

/-- The length that the header of a message announces. -/
def announced {n k : Nat} : Message n k → UInt16
  | .command _ => 2 * UInt16.ofNat n
  | .radio _ => 2 * UInt16.ofNat k
  | .trim _ _ => 4
  | .fbw _ _ _ _ _ => 6

theorem send_eq_frame {n k : Nat} (message : Message n k) :
    send message = frame (messageId message) (announced message) (payload message) := by
  cases message with
  | command cmd => exact send_eq_frame_vector _ cmd
  | radio channels => exact send_eq_frame_vector _ channels
  | trim roll pitch =>
      simp only [send, interMcuSendTrim, interMcuSend2ByAddr_eq, put_put]
      exact trailer_put_header _ _ _
  | fbw ppmCpt status nbErr vsupply current =>
      simp only [send, interMcuSendFbw, interMcuSend2ByAddr_eq, interMcuSend1_eq, put_put]
      exact trailer_put_header _ _ _

/-! ### The parser -/

/-- The parser after a byte string. -/
def feed (d : IntermcuData) (bytes : List UInt8) : IntermcuData := run intermcuParse d bytes

/-- `msg_available` after each byte of a byte string. -/
def available : IntermcuData → List UInt8 → List Bool
  | _, [] => []
  | d, c :: bytes => (intermcuParse d c).msgAvailable :: available (intermcuParse d c) bytes

theorem available_eq_outputs (d : IntermcuData) (bytes : List UInt8) :
    available d bytes = outputs intermcuParse IntermcuData.msgAvailable d bytes := by
  induction bytes generalizing d with
  | nil => rfl
  | cons c bytes ih => rw [available, outputs, ih]

theorem available_append (d : IntermcuData) (bytes bytes' : List UInt8) :
    available d (bytes ++ bytes') = available d bytes ++ available (feed d bytes) bytes' := by
  simp only [available_eq_outputs, outputs_append]
  rfl

theorem length_available (d : IntermcuData) (bytes : List UInt8) :
    (available d bytes).length = bytes.length := by
  rw [available_eq_outputs, length_outputs]

/-- Available with the last byte: so it is for the last part of the bytes. -/
theorem available_last {d : IntermcuData} {bytes bytes' : List UInt8} (hne : bytes' ≠ [])
    (h : available d (bytes ++ bytes') =
      List.replicate ((bytes ++ bytes').length - 1) false ++ [true]) :
    available (feed d bytes) bytes' = List.replicate (bytes'.length - 1) false ++ [true] := by
  have hpos : 0 < bytes'.length := List.length_pos_iff.2 hne
  rw [available_append, List.length_append,
    show bytes.length + bytes'.length - 1 = bytes.length + (bytes'.length - 1) by omega,
    ← List.replicate_append_replicate, List.append_assoc] at h
  exact List.append_inj_right h (by rw [length_available, List.length_replicate])

theorem feed_append (d : IntermcuData) (bytes bytes' : List UInt8) :
    feed d (bytes ++ bytes') = feed (feed d bytes) bytes' :=
  run_append intermcuParse d bytes bytes'

/-- A message becomes available with the second byte of the checksum. -/
theorem status_of_available {d : IntermcuData} {c : UInt8} (h : d.msgAvailable = false)
    (havailable : (intermcuParse d c).msgAvailable = true) : d.status = .gotChecksum1 := by
  cases hstatus : d.status <;>
    simp [intermcuParse, hstatus, Status.beforePayload, parseError,
      apply_ite IntermcuData.msgAvailable, h] at havailable
  rfl

theorem status_of_gotChecksum1 {d : IntermcuData} {c : UInt8}
    (h : (intermcuParse d c).status = .gotChecksum1) : d.status = .gotPayload := by
  cases hstatus : d.status <;>
    simp [intermcuParse, hstatus, Status.beforePayload, parseError,
      apply_ite IntermcuData.status] at h <;>
    first | rfl | exact absurd h (by split_ifs <;> decide)

theorem status_of_gotPayload {d : IntermcuData} {c : UInt8}
    (h : (intermcuParse d c).status = .gotPayload) : d.status = .gotLen2 := by
  cases hstatus : d.status <;>
    simp [intermcuParse, hstatus, Status.beforePayload, parseError,
      apply_ite IntermcuData.status] at h <;>
    first | rfl | exact absurd h (by split_ifs <;> decide)
/-- The two bytes at the end of a frame are the checksum. -/
theorem gotPayload_of_available {d : IntermcuData} {a b : UInt8}
    (h : available d [a, b] = [false, true]) : d.status = .gotPayload := by
  simp only [available, List.cons.injEq] at h
  exact status_of_gotChecksum1 (status_of_available h.1 h.2.1)

/-- The parser waits for a message, and none is pending. -/
structure Ready (d : IntermcuData) : Prop where
  status : d.status = .uninit
  available : d.msgAvailable = false

/-- The parser has read the header of a message and the payload bytes `data`. -/
structure Reading (d : IntermcuData) (id : UInt8) (len : UInt16) (data : List UInt8) : Prop where
  available : d.msgAvailable = false
  msgClass : d.msgClass = msgIntermcuId
  msgId : d.msgId = id
  length : d.len = len
  msgIdx : d.msgIdx = UInt8.ofNat data.length
  checksum : (d.ckA, d.ckB) = Checksum.fletcher 0 0 (body id len data)
  holds : Holds d.msgBuf data

theorem word_lowByte_highByte (x : UInt16) : word (lowByte x) (highByte x) = x := by
  have hx := x.toNat_lt
  apply UInt16.toNat_inj.1
  have hshift : x.toNat >>> 8 < 256 := by
    rw [Nat.shiftRight_eq_div_pow]
    omega
  simp only [word, lowByte, highByte, UInt16.toNat_or, UInt16.toNat_shiftLeft,
    UInt8.toNat_toUInt16, UInt16.toNat_toUInt8, UInt16.toNat_shiftRight]
  rw [Nat.or_comm]
  simp only [UInt16.toNat_ofNat, Nat.reduceMod, Nat.reducePow, Nat.mod_eq_of_lt hshift]
  rw [Nat.mod_eq_of_lt (by rw [Nat.shiftLeft_eq]; omega),
    ← @Nat.shiftLeft_add_eq_or_of_lt 8 (x.toNat % 256) (by omega), Nat.shiftLeft_eq,
    Nat.shiftRight_eq_div_pow]
  omega

theorem lowByte_word (low high : UInt8) : lowByte (word low high) = low := by
  have hlow := low.toNat_lt
  have hshift : high.toNat <<< 8 < 65536 := by
    have hhigh := high.toNat_lt
    rw [Nat.shiftLeft_eq]
    omega
  apply UInt8.toNat_inj.1
  simp only [word, lowByte, UInt16.toNat_or, UInt16.toNat_shiftLeft, UInt8.toNat_toUInt16,
    UInt16.toNat_toUInt8]
  rw [Nat.or_comm]
  simp only [UInt16.toNat_ofNat, Nat.reduceMod, Nat.reducePow]
  rw [Nat.mod_eq_of_lt hshift, ← @Nat.shiftLeft_add_eq_or_of_lt 8 low.toNat hlow, Nat.shiftLeft_eq]
  omega

theorem feed_header {d : IntermcuData} (h : Ready d) (id : UInt8) {len : UInt16}
    (hlen : len ≤ intermcuMaxPayload) :
    let header := [intermcuSync1, intermcuSync2] ++ body id len []
    Reading (feed d header) id len [] ∧ (feed d header).status = .gotLen2 ∧
      available d header = List.replicate header.length false := by
  have hword : (lowByte len).toUInt16 ||| (highByte len).toUInt16 <<< 8 = len :=
    word_lowByte_highByte len
  have hmax : ¬len > intermcuMaxPayload := UInt16.not_lt.2 hlen
  have hfeed : feed d ([intermcuSync1, intermcuSync2] ++ body id len []) =
      { d with
        msgClass := msgIntermcuId
        msgId := id
        len := len
        msgIdx := 0
        status := .gotLen2
        ckA := (Checksum.fletcher 0 0 (body id len [])).1
        ckB := (Checksum.fletcher 0 0 (body id len [])).2 } := by
    simp [feed, body, intermcuParse, h.status, h.available, Status.beforePayload, hword, hmax]
  refine ⟨?_, ?_, ?_⟩
  · rw [hfeed]
    exact ⟨h.available, rfl, rfl, rfl, rfl, rfl, holds_nil _⟩
  · rw [hfeed]
  · simp [available, body, intermcuParse, h.status, h.available, Status.beforePayload, hword, hmax,
      List.replicate]

theorem body_concat (id : UInt8) (len : UInt16) (data : List UInt8) (c : UInt8) :
    body id len (data ++ [c]) = body id len data ++ [c] := by
  simp [body]

/-- One payload byte: the checksum is next after as many bytes as announced. -/
theorem reading_step {d : IntermcuData} {id : UInt8} {len : UInt16} {data : List UInt8}
    (h : Reading d id len data) (hstatus : d.status = .gotLen2) (hdata : data.length < 255)
    (c : UInt8) :
    Reading (intermcuParse d c) id len (data ++ [c]) ∧
      (intermcuParse d c).status =
        if len.toNat ≤ data.length + 1 then .gotPayload else .gotLen2 := by
  have hidx : d.msgIdx + 1 = UInt8.ofNat (data ++ [c]).length := by
    rw [h.msgIdx, List.length_append, List.length_singleton, UInt8.ofNat_add]
    rfl
  have hck : (d.ckA + c, d.ckB + (d.ckA + c)) = Checksum.fletcher 0 0 (body id len (data ++ [c])) := by
    rw [body_concat, Checksum.fletcher_concat, ← h.checksum]
  have hend : (d.msgIdx + 1).toUInt16 ≥ d.len ↔ len.toNat ≤ data.length + 1 := by
    rw [hidx, h.length, ge_iff_le, UInt16.le_iff_toNat_le, UInt8.toNat_toUInt16, UInt8.toNat_ofNat',
      List.length_append, List.length_singleton, Nat.mod_eq_of_lt (by omega)]
  have hholds := h.holds.update (by omega : data.length < 256) c
  rw [← h.msgIdx] at hholds
  simp only [intermcuParse, hstatus, Status.beforePayload, if_true, hend]
  split_ifs
  · exact ⟨⟨h.available, h.msgClass, h.msgId, h.length, hidx, hck, hholds⟩, rfl⟩
  · exact ⟨⟨h.available, h.msgClass, h.msgId, h.length, hidx, hck, hholds⟩, rfl⟩

/-- The bytes of the payload up to the announced length. -/
theorem reading_feed {d : IntermcuData} {id : UInt8} {len : UInt16} {data rest : List UInt8}
    (h : Reading d id len data) (hstatus : d.status = .gotLen2) (hrest : rest ≠ [])
    (hlen : data.length + rest.length = len.toNat) (hmax : len ≤ intermcuMaxPayload) :
    Reading (feed d rest) id len (data ++ rest) ∧ (feed d rest).status = .gotPayload ∧
      available d rest = List.replicate rest.length false := by
  rw [available_eq_outputs]
  refine run_series (fun data d => Reading d id len data)
    (fun d => d.status = .gotLen2) (fun d => d.status = .gotPayload) ?_
    Reading.available h hstatus hrest hlen
  intro data d h hstatus hlt c
  have hmax' : len.toNat ≤ 255 := hmax
  obtain ⟨hreading, hnext⟩ := reading_step h hstatus (by omega) c
  refine ⟨hreading, ?_, ?_⟩
  · intro hmore
    rw [hnext, if_neg (by omega)]
  · intro hlast
    rw [hnext, if_pos (by omega)]

/-- A frame whose length is right becomes the pending message with its last byte. -/
theorem feed_frame {d : IntermcuData} (h : Ready d) (id : UInt8) {len : UInt16}
    {payload : List UInt8} (hlen : payload.length = len.toNat) (hne : payload ≠ [])
    (hmax : len ≤ intermcuMaxPayload) :
    let d' := feed d (frame id len payload)
    d'.status = .uninit ∧ d'.msgAvailable = true ∧ d'.msgClass = msgIntermcuId ∧ d'.msgId = id ∧
      Holds d'.msgBuf payload ∧
      available d (frame id len payload) =
        List.replicate ((frame id len payload).length - 1) false ++ [true] := by
  obtain ⟨hheader, hstart, hquiet⟩ := feed_header h id hmax
  obtain ⟨hreading, hend, hquiet'⟩ :=
    reading_feed hheader hstart hne (by rw [List.length_nil, Nat.zero_add, hlen]) hmax
  rw [List.nil_append] at hreading
  have hsplit : frame id len payload =
      ([intermcuSync1, intermcuSync2] ++ body id len []) ++ payload ++
        [(Checksum.fletcher 0 0 (body id len payload)).1,
          (Checksum.fletcher 0 0 (body id len payload)).2] := by
    simp [frame, body]
  rw [← feed_append] at hreading hend
  generalize hd : feed d ([intermcuSync1, intermcuSync2] ++ body id len [] ++ payload) = d₁
    at hreading hend
  have hck := hreading.checksum
  have hlast : feed d (frame id len payload) =
      { d₁ with status := .uninit, msgAvailable := true } := by
    rw [hsplit, feed_append, hd, ← hck]
    simp [feed, intermcuParse, hend, Status.beforePayload]
  have hquiet'' : available d₁ [d₁.ckA, d₁.ckB] = [false, true] := by
    simp [available, intermcuParse, hend, Status.beforePayload, hreading.available]
  refine ⟨?_, ?_, ?_, ?_, ?_, ?_⟩
  · rw [hlast]
  · rw [hlast]
  · rw [hlast]
    exact hreading.msgClass
  · rw [hlast]
    exact hreading.msgId
  · rw [hlast]
    exact hreading.holds
  · rw [hsplit, available_append, available_append, hquiet, hquiet', hd, ← hck, hquiet'',
      List.replicate_append_replicate, show [false, true] = List.replicate 1 false ++ [true] from rfl,
      ← List.append_assoc, List.replicate_append_replicate]
    congr 2
    simp only [body, List.length_append, List.length_cons, List.length_nil]
    omega

/-! ### One message -/

/-- All elements have the low byte of the first. -/
def SameLowByte {n : Nat} (cmd : Fin n → Int16) : Prop :=
  ∀ i j, lowByte (cmd i).toUInt16 = lowByte (cmd j).toUInt16

/-- The messages that come through: the trims, and the vectors that the readers do not mix up.
The frame of the status of the FBW announces one byte less than it has. -/
def Ok {n k : Nat} : Message n k → Prop
  | .command cmd => 0 < n ∧ SameLowByte cmd
  | .radio channels => 0 < k ∧ SameLowByte channels
  | .trim _ _ => True
  | .fbw _ _ _ _ _ => False

theorem getElem?_flatMap_pair {α : Type*} (f g : α → UInt8) (l : List α) (i : Nat) :
    (l.flatMap fun a => [f a, g a])[2 * i]? = l[i]?.map f ∧
      (l.flatMap fun a => [f a, g a])[1 + 2 * i]? = l[i]?.map g := by
  induction l generalizing i with
  | nil => simp
  | cons a l ih =>
      cases i with
      | zero => exact ⟨rfl, rfl⟩
      | succ i =>
          rw [Nat.mul_succ, ← Nat.add_assoc]
          exact ih i

theorem eq_of_holds {buf : UInt8 → UInt8} {data : List UInt8} (h : Holds buf data)
    {i : Nat} {c : UInt8} (hi : data[i]? = some c) : buf (UInt8.ofNat i) = c := by
  obtain ⟨hlt, hget⟩ := List.getElem?_eq_some_iff.1 hi
  rw [h i hlt, hget]

/-- What the readers make of the vector that was sent. -/
theorem msgIntermcuCommand_eq {n : Nat} {buf : UInt8 → UInt8} {cmd : Fin n → Int16}
    (h : Holds buf (vectorBytes cmd)) (hn : 0 < n) (i : Fin n) :
    msgIntermcuCommand buf i =
      word (lowByte (cmd ⟨0, hn⟩).toUInt16) (highByte (cmd i).toUInt16) := by
  have hget : ∀ i : Fin n, (List.finRange n)[(i : Nat)]? = some i := fun i => by simp
  have hlow := (getElem?_flatMap_pair (fun i => lowByte (cmd i).toUInt16)
    (fun i => highByte (cmd i).toUInt16) (List.finRange n) 0).1
  have hhigh := (getElem?_flatMap_pair (fun i => lowByte (cmd i).toUInt16)
    (fun i => highByte (cmd i).toUInt16) (List.finRange n) i).2
  rw [hget ⟨0, hn⟩, Option.map_some] at hlow
  rw [hget i, Option.map_some] at hhigh
  rw [msgIntermcuCommand, eq_of_holds h hhigh, ← eq_of_holds h hlow]
  rfl

theorem read_vector_iff {n : Nat} {buf : UInt8 → UInt8} {cmd : Fin n → Int16}
    (h : Holds buf (vectorBytes cmd)) (hn : 0 < n) :
    (fun i : Fin n => (msgIntermcuCommand buf i).toInt16) = cmd ↔ SameLowByte cmd := by
  constructor
  · intro heq i j
    have hread : ∀ i : Fin n, lowByte (cmd i).toUInt16 = lowByte (cmd ⟨0, hn⟩).toUInt16 := by
      intro i
      rw [← congrFun heq i, msgIntermcuCommand_eq h hn, UInt16.toUInt16_toInt16, lowByte_word]
    rw [hread i, hread j]
  · intro hsame
    funext i
    rw [msgIntermcuCommand_eq h hn, hsame ⟨0, hn⟩ i, word_lowByte_highByte, Int16.toInt16_toUInt16]

/-- The message becomes available with the last of its bytes and not before, and its values are
stored. -/
structure Delivered {n k : Nat} (r : Receiver n k) (message : Message n k) : Prop where
  available : available r.data (send message) =
    List.replicate ((send message).length - 1) false ++ [true]
  stored : parseMavpilotMsg (feed r.data (send message)) r.shared = store message r.shared

theorem toNat_two_mul {n : Nat} (hn : n ≤ 10) : (2 * UInt16.ofNat n).toNat = 2 * n := by
  simp [UInt16.toNat_mul]
  omega

/-- The frame of a message that comes through, at the end. -/
theorem feed_send {n k : Nat} (hn : n ≤ 8) (hk : k ≤ 10) {d : IntermcuData} (h : Ready d)
    {message : Message n k} (hlen : (payload message).length = (announced message).toNat)
    (hne : payload message ≠ []) :
    let d' := feed d (send message)
    d'.status = .uninit ∧ d'.msgAvailable = true ∧ d'.msgClass = msgIntermcuId ∧
      d'.msgId = messageId message ∧ Holds d'.msgBuf (payload message) ∧
      available d (send message) = List.replicate ((send message).length - 1) false ++ [true] := by
  have hmax : announced message ≤ intermcuMaxPayload := by
    rw [UInt16.le_iff_toNat_le]
    cases message with
    | command cmd =>
        rw [announced, toNat_two_mul (by omega)]
        exact (by omega : 2 * n ≤ 255)
    | radio channels =>
        rw [announced, toNat_two_mul hk]
        exact (by omega : 2 * k ≤ 255)
    | trim roll pitch => exact (by decide : 4 ≤ 255)
    | fbw ppmCpt status nbErr vsupply current => exact (by decide : 6 ≤ 255)
  rw [send_eq_frame]
  exact feed_frame h (messageId message) hlen hne hmax

theorem vectorBytes_ne_nil {n : Nat} (hn : 0 < n) (cmd : Fin n → Int16) : vectorBytes cmd ≠ [] := by
  intro h
  have hlen := length_vectorBytes cmd
  rw [h, List.length_nil] at hlen
  omega

/-- The header with no byte behind it: the first byte of the checksum counts as payload. -/
theorem available_frame_nil {d : IntermcuData} (h : Ready d) (id : UInt8) :
    available d (frame id 0 []) ≠ List.replicate ((frame id 0 []).length - 1) false ++ [true] := by
  obtain ⟨-, hstart, -⟩ := feed_header h id (by decide : (0 : UInt16) ≤ intermcuMaxPayload)
  intro havailable
  have hlast := available_last (List.cons_ne_nil _ _) havailable
  rw [body, List.append_nil] at hlast
  exact absurd (hstart.symm.trans (gotPayload_of_available hlast)) (by decide)

/-- One byte more than the header announces. -/
theorem available_frame_longer {d : IntermcuData} (h : Ready d) (id : UInt8) {len : UInt16}
    {bytes : List UInt8} (c : UInt8) (hlen : bytes.length = len.toNat) (hne : bytes ≠ [])
    (hmax : len ≤ intermcuMaxPayload) :
    available d (frame id len (bytes ++ [c])) ≠
      List.replicate ((frame id len (bytes ++ [c])).length - 1) false ++ [true] := by
  obtain ⟨hheader, hstart, -⟩ := feed_header h id hmax
  obtain ⟨-, hend, -⟩ :=
    reading_feed hheader hstart hne (by rw [List.length_nil, Nat.zero_add, hlen]) hmax
  rw [← feed_append] at hend
  intro havailable
  have hsplit : frame id len (bytes ++ [c]) =
      ([intermcuSync1, intermcuSync2] ++ body id len [] ++ bytes ++ [c]) ++
        [(Checksum.fletcher 0 0 (body id len (bytes ++ [c]))).1,
          (Checksum.fletcher 0 0 (body id len (bytes ++ [c]))).2] := by
    simp [frame, body]
  rw [hsplit] at havailable
  have hlast := gotPayload_of_available (available_last (List.cons_ne_nil _ _) havailable)
  rw [feed_append] at hlast
  exact absurd (hend.symm.trans (status_of_gotPayload hlast)) (by decide)

theorem delivered_vector {n k : Nat} {r : Receiver n k} {message : Message n k} {m : Nat}
    {cmd : Fin m → Int16} (hn : n ≤ 8) (hk : k ≤ 10) (h : Ready r.data) (hm : m ≤ 10)
    (hlen : announced message = 2 * UInt16.ofNat m) (hpayload : payload message = vectorBytes cmd)
    (hread : ∀ d : IntermcuData, d.msgClass = msgIntermcuId → d.msgId = messageId message →
      (parseMavpilotMsg d r.shared = store message r.shared ↔
        (fun i : Fin m => (msgIntermcuCommand d.msgBuf i).toInt16) = cmd)) :
    Delivered r message ↔ 0 < m ∧ SameLowByte cmd := by
  rcases Nat.eq_zero_or_pos m with rfl | hpos
  · refine iff_of_false (fun hdelivered => ?_) (fun hok => absurd hok.1 (Nat.lt_irrefl 0))
    have havailable := hdelivered.available
    rw [send_eq_frame, hlen, hpayload] at havailable
    exact available_frame_nil h _ havailable
  · obtain ⟨-, -, hclass, hid, hholds, havailable⟩ := @feed_send _ _ hn hk _ h message
      (by rw [hlen, hpayload, length_vectorBytes, toNat_two_mul hm])
      (by rw [hpayload]; exact vectorBytes_ne_nil hpos cmd)
    rw [hpayload] at hholds
    constructor
    · intro hdelivered
      exact ⟨hpos, (read_vector_iff hholds hpos).1 ((hread _ hclass hid).1 hdelivered.stored)⟩
    · rintro ⟨-, hsame⟩
      exact ⟨havailable, (hread _ hclass hid).2 ((read_vector_iff hholds hpos).2 hsame)⟩

/-- A message is delivered exactly where all elements of a vector have one low byte, and where
it is not a status of the FBW. -/
theorem delivered_iff {n k : Nat} (hn : n ≤ 8) (hk : k ≤ 10) {r : Receiver n k} (h : Ready r.data)
    (message : Message n k) : Delivered r message ↔ Ok message := by
  cases message with
  | command cmd =>
      apply delivered_vector hn hk h (by omega) rfl rfl
      intro d hclass hid
      simp [parseMavpilotMsg, store, hclass, hid, messageId]
  | radio channels =>
      apply delivered_vector hn hk h hk rfl rfl
      intro d hclass hid
      simp [parseMavpilotMsg, store, hclass, hid, messageId, msgIntermcuRadioId, msgIntermcuCommandId,
        msgIntermcuRadio, msgIntermcuCommand]
  | trim roll pitch =>
      refine iff_of_true ?_ trivial
      obtain ⟨-, -, hclass, hid, hholds, havailable⟩ :=
        @feed_send _ _ hn hk _ h (.trim roll pitch) rfl (List.cons_ne_nil _ _)
      refine ⟨havailable, ?_⟩
      generalize feed r.data (send (.trim roll pitch)) = d at hclass hid hholds ⊢
      have hroll : msgIntermcuTrimRoll d.msgBuf = roll.toUInt16 := by
        have hlow : d.msgBuf 0 = lowByte roll.toUInt16 := @eq_of_holds _ _ hholds 0 _ rfl
        have hhigh : d.msgBuf 1 = highByte roll.toUInt16 := @eq_of_holds _ _ hholds 1 _ rfl
        rw [msgIntermcuTrimRoll, hlow, hhigh, word_lowByte_highByte]
      have hpitch : msgIntermcuTrimPitch d.msgBuf = pitch.toUInt16 := by
        have hlow : d.msgBuf 2 = lowByte pitch.toUInt16 := @eq_of_holds _ _ hholds 2 _ rfl
        have hhigh : d.msgBuf 3 = highByte pitch.toUInt16 := @eq_of_holds _ _ hholds 3 _ rfl
        rw [msgIntermcuTrimPitch, hlow, hhigh, word_lowByte_highByte]
      simp [parseMavpilotMsg, store, hclass, hid, messageId, hroll, hpitch, msgIntermcuTrimId,
        msgIntermcuCommandId, msgIntermcuRadioId]
  | fbw ppmCpt status nbErr vsupply current =>
      refine iff_of_false (fun hdelivered => ?_) id
      have havailable := hdelivered.available
      rw [send_eq_frame] at havailable
      exact @available_frame_longer _ h _ 6
        [ppmCpt, status, nbErr, lowByte vsupply, highByte vsupply, lowByte current.toUInt32.toUInt16]
        (highByte current.toUInt32.toUInt16) rfl (List.cons_ne_nil _ _) (by decide) havailable

/-! ### Sequences of messages -/

section

variable {n k : Nat}

/-- The bytes of a message, each read as in `link_mcu_event_task`. -/
def receiveMessage (r : Receiver n k) (message : Message n k) : Receiver n k :=
  run receive r (send message)

/-- A sequence of messages comes through: each of them as it should, and the messages that are
stored are those that were sent. -/
structure Decoded (r : Receiver n k) (messages : List (Message n k)) : Prop where
  delivered : RunOk receiveMessage Delivered r messages
  stored : (run receive r (messages.flatMap send)).stored =
    r.stored ++ storeAll r.shared messages

/-- While no message is available, a byte is only parsed. -/
theorem run_receive_of_quiet {r : Receiver n k} {bytes : List UInt8}
    (h : available r.data bytes = List.replicate bytes.length false) :
    run receive r bytes = { r with data := feed r.data bytes } := by
  induction bytes generalizing r with
  | nil => rfl
  | cons c bytes ih =>
      simp only [available, List.length_cons, List.replicate_succ, List.cons.injEq] at h
      have hreceive : receive r c = { r with data := intermcuParse r.data c } := by
        rw [receive, takeMessage, if_neg (by simp [h.1])]
      rw [run_cons, hreceive, ih h.2]
      rfl

theorem receiveMessage_of_delivered {r : Receiver n k} {message : Message n k}
    (h : Delivered r message) :
    receiveMessage r message =
      { data := { feed r.data (send message) with msgAvailable := false }
        shared := store message r.shared
        stored := r.stored ++ [store message r.shared] } := by
  obtain ⟨bytes, c, hsend⟩ : ∃ bytes c, send message = bytes ++ [c] :=
    ⟨_, _, by rw [send_eq_frame, frame, List.append_cons]⟩
  have havailable := h.available
  have hstored := h.stored
  rw [hsend] at havailable hstored
  rw [List.length_append, List.length_singleton, Nat.add_sub_cancel, available_append] at havailable
  have hquiet := List.append_inj_left havailable (by rw [length_available, List.length_replicate])
  have hlast := List.append_inj_right havailable (by rw [length_available, List.length_replicate])
  rw [available, List.cons.injEq] at hlast
  rw [feed_append] at hstored
  rw [receiveMessage, hsend, run_append, run_receive_of_quiet hquiet, feed_append]
  change receive _ c = _
  rw [receive, takeMessage, if_pos hlast.1]
  exact congrArg₂ _ hstored (congrArg _ (congrArg (fun m => [m]) hstored))

theorem ready_of_delivered (hn : n ≤ 8) (hk : k ≤ 10) {r : Receiver n k} (h : Ready r.data)
    {message : Message n k} (hdelivered : Delivered r message) :
    Ready (receiveMessage r message).data := by
  rw [receiveMessage_of_delivered hdelivered]
  have hok := (delivered_iff hn hk h message).1 hdelivered
  have hlen : (payload message).length = (announced message).toNat := by
    cases message with
    | command cmd => rw [payload, announced, length_vectorBytes, toNat_two_mul (by omega)]
    | radio channels => rw [payload, announced, length_vectorBytes, toNat_two_mul hk]
    | trim roll pitch => rfl
    | fbw ppmCpt status nbErr vsupply current => exact hok.elim
  have hne : payload message ≠ [] := by
    cases message with
    | command cmd => exact vectorBytes_ne_nil hok.1 cmd
    | radio channels => exact vectorBytes_ne_nil hok.1 channels
    | trim roll pitch => exact List.cons_ne_nil _ _
    | fbw ppmCpt status nbErr vsupply current => exact hok.elim
  exact ⟨(feed_send hn hk h hlen hne).1, rfl⟩

theorem stored_of_delivered {r : Receiver n k} {messages : List (Message n k)}
    (h : RunOk receiveMessage Delivered r messages) :
    (run receive r (messages.flatMap send)).stored = r.stored ++ storeAll r.shared messages := by
  induction messages generalizing r with
  | nil => simp [storeAll]
  | cons message messages ih =>
      have hnext := ih h.2
      rw [receiveMessage_of_delivered h.1] at hnext
      rw [List.flatMap_cons, run_append, show run receive r (send message) = _ from
        receiveMessage_of_delivered h.1, hnext, List.append_assoc]
      rfl

/-- A sequence of messages comes through exactly where it holds only trims, and commands and
channels all of whose elements have the same low byte. -/
theorem decoded_iff (hn : n ≤ 8) (hk : k ≤ 10) (r : Receiver n k) (h : Ready r.data)
    (messages : List (Message n k)) : Decoded r messages ↔ ∀ message ∈ messages, Ok message := by
  have hruns : RunOk receiveMessage Delivered r messages ↔ ∀ message ∈ messages, Ok message := by
    rw [← @runOk_iff_forall _ _ receiveMessage _ r]
    apply runOk_congr_of_inv (fun r : Receiver n k => Ready r.data)
    · intro r message hready
      exact ready_of_delivered hn hk hready
    · intro r message hready
      exact delivered_iff hn hk hready message
    · exact h
  constructor
  · intro hdecoded
    exact hruns.1 hdecoded.delivered
  · intro hok
    exact ⟨hruns.2 hok, stored_of_delivered (hruns.2 hok)⟩

end

/-! ### The event task -/

section

variable {n k : Nat}

/-- The bytes come in pieces of any sizes, with calls of the event task in between. -/
inductive LinkEvent where
  | arrive (bytes : List UInt8)
  | eventTask

/-- The bytes that wait in the UART, and the processor. -/
def linkStep (s : List UInt8 × Receiver n k) : LinkEvent → List UInt8 × Receiver n k
  | .arrive bytes => (s.1 ++ bytes, s.2)
  | .eventTask => linkMcuEventTask s.1 s.2

/-- All bytes that came in. -/
def arrived : List LinkEvent → List UInt8
  | [] => []
  | .arrive bytes :: es => bytes ++ arrived es
  | .eventTask :: es => arrived es

theorem arrived_append (es es' : List LinkEvent) :
    arrived (es ++ es') = arrived es ++ arrived es' := by
  induction es with
  | nil => rfl
  | cons e es ih => cases e <;> simp [arrived, ih]

/-- A call of the event task reads some of the bytes that wait, one by one. -/
theorem linkMcuEventTask_eq {r : Receiver n k} (h : r.data.msgAvailable = false) (rx : List UInt8) :
    ∃ bytes, bytes ++ (linkMcuEventTask rx r).1 = rx ∧
      (linkMcuEventTask rx r).2 = run receive r bytes ∧
      (linkMcuEventTask rx r).2.data.msgAvailable = false := by
  induction rx generalizing r with
  | nil => exact ⟨[], rfl, by simp [linkMcuEventTask, parseWaiting, takeMessage, h], by
      simp [linkMcuEventTask, parseWaiting, takeMessage, h]⟩
  | cons c rx ih =>
      have hparse : parseWaiting (c :: rx) r.data = parseWaiting rx (intermcuParse r.data c) := by
        rw [parseWaiting, if_neg (by simp [h])]
      cases havailable : (intermcuParse r.data c).msgAvailable with
      | false =>
          have htask : linkMcuEventTask (c :: rx) r =
              linkMcuEventTask rx { r with data := intermcuParse r.data c } := by
            rw [linkMcuEventTask, hparse]
            rfl
          obtain ⟨bytes, hrest, hrun, hquiet⟩ := ih (r := { r with data := intermcuParse r.data c })
            havailable
          rw [htask]
          refine ⟨c :: bytes, by rw [List.cons_append, hrest], ?_, hquiet⟩
          rw [hrun, run_cons, receive, takeMessage, if_neg (by simp [havailable])]
      | true =>
          have hstop : parseWaiting rx (intermcuParse r.data c) = (rx, intermcuParse r.data c) := by
            cases rx with
            | nil => rfl
            | cons c' rx => rw [parseWaiting, if_pos havailable]
          have htask : linkMcuEventTask (c :: rx) r = (rx, receive r c) := by
            rw [linkMcuEventTask, hparse, hstop]
            rfl
          rw [htask]
          refine ⟨[c], rfl, rfl, ?_⟩
          simp [receive, takeMessage, havailable]

end

/-! ### Runs on fixed messages -/

/-- A processor after `link_mcu_init`. -/
def initial (n k : Nat) : Receiver n k where
  data :=
    { msgAvailable := false, msgBuf := fun _ => 0, msgId := 0, msgClass := 0, status := .uninit,
      len := 0, msgIdx := 0, ckA := 0, ckB := 0, errorCnt := 0 }
  shared :=
    { apState := { commands := fun _ => 0, commandRollTrim := 0, commandPitchTrim := 0 }
      fbwState :=
        { channels := fun _ => 0, ppmCpt := 0, status := 0, nbErr := 0, vsupply := 0, current := 0 }
      interMcuReceivedAp := false
      interMcuReceivedFbw := false }
  stored := []

/-- Two commands with one low byte, then the trims. -/
theorem decoded_of_same_low_byte :
    Decoded (initial 2 1) [.command ![256, 512], .trim (-3) 7] := by
  refine (decoded_iff (by decide) (by decide) _ ⟨rfl, rfl⟩ _).2
    (List.forall_mem_cons.2 ⟨⟨by decide, ?_⟩, List.forall_mem_singleton.2 trivial⟩)
  unfold SameLowByte
  decide +kernel

/-- The second command gets the low byte of the first; the status of the FBW is never available. -/
theorem commands_mixed_and_status_dropped :
    (parseMavpilotMsg
        (feed (initial 2 1).data (send (.command ![1000, 1001] : Message 2 1)))
        (initial 2 1).shared).apState.commands 1 = 1000 ∧
      true ∉ available (initial 2 1).data (send (.fbw 25 1 0 120 300 : Message 2 1)) := by
  decide +kernel

end Paparazzi.InterMcu.RoundTrip
