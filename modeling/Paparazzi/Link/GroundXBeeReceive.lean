import Paparazzi.Link.GroundXBee
import Paparazzi.QuadSwarm.PprzMsg

/-!
The accessors of a received frame: the data, the two source addresses, the checksum, and
`get_pprz_msg`.
-/

namespace Paparazzi.Link.GroundXBee

open Paparazzi.Library
open Paparazzi.QuadSwarm.GroundMessages

def frameRecvAddrOffset : Nat := 1
def frameRecvNetAddrOffset : Nat := 9
def frameRecvDataOffset : Nat := 12

namespace XBeeMsg

/-- The place in the buffer that the pointer designates. -/
def getRecvPacketDataPtr (_ : XBeeMsg) : Nat := frameRecvDataOffset

def getRecvPacketDataLength (msg : XBeeMsg) : Nat :=
  (((msg.frameLength : Int) - frameRecvDataOffset + 1) % 2 ^ 16).toNat

/-- Four bytes of the buffer, the most significant one first. -/
def word (msg : XBeeMsg) (i : Nat) : UInt32 :=
  (msg.frame i).toUInt32 <<< 24 + (msg.frame (i + 1)).toUInt32 <<< 16 +
    (msg.frame (i + 2)).toUInt32 <<< 8 + (msg.frame (i + 3)).toUInt32

/-- The two `memcpy` put `temp_hi` at the address of `temp` and `temp_lo` four bytes behind;
the machine is little-endian. -/
def getRecvSourceAddr (msg : XBeeMsg) : UInt64 :=
  let tempHi := msg.word frameRecvAddrOffset
  let tempLo := msg.word (frameRecvAddrOffset + 4)
  tempHi.toUInt64 + tempLo.toUInt64 <<< 32

/-- The first byte is shifted by `sizeof(uint8_t)`. -/
def getRecvSourceNetAddr (msg : XBeeMsg) : UInt16 :=
  (msg.frame frameRecvNetAddrOffset).toUInt16 <<< 1 +
    (msg.frame (frameRecvNetAddrOffset + 1)).toUInt16

/-- The loop of `verify_CheckSum`, for as many rounds as `fuel` has; `count` is a `uint16_t`. -/
def sumLoop (msg : XBeeMsg) : Nat → UInt16 → UInt32 → Option UInt32
  | 0, _, _ => none
  | fuel + 1, count, sum =>
      if count.toNat ≤ msg.frameLength then
        sumLoop msg fuel (count + 1) (sum + (msg.frame count.toNat).toUInt32)
      else some sum

def verifyCheckSum (fuel : Nat) (msg : XBeeMsg) : Option Bool :=
  (msg.sumLoop fuel 0 0).map fun sum =>
    decide ((((sum + msg.recvCheckSum.toUInt32) <<< 24) >>> 24).toUInt8 = 0xff)

def getPprzMsg (msg : XBeeMsg) : PprzMsg :=
  (List.range (msg.frameLength - frameRecvDataOffset)).foldl
    (fun pprzMsg count => pprzPutByte (msg.frame (frameRecvDataOffset + count)) pprzMsg) newMsg

/-- A received packet with a complete header. -/
structure Received (msg : XBeeMsg) : Prop where
  frameType : msg.frame 0 = 0x90
  dataOffset_le : frameRecvDataOffset ≤ msg.frameLength
  frameLength_lt : msg.frameLength < 2 ^ 16

/-! ### What the frame holds -/

def rfData (msg : XBeeMsg) : List UInt8 := msg.contents.drop frameRecvDataOffset

/-- The bytes that pointer and length designate together. -/
def designated (msg : XBeeMsg) : List UInt8 :=
  (List.range msg.getRecvPacketDataLength).map fun i => msg.frame (msg.getRecvPacketDataPtr + i)

/-- The number with these bytes, the most significant one first. -/
def bigEndianValue (bytes : List UInt8) : Nat := bytes.foldl (fun n x => 256 * n + x.toNat) 0

/-- The bytes of the frame and the received checksum sum to `0xff`. -/
def SumsUp (msg : XBeeMsg) : Prop := Checksum.sum 0 msg.contents + msg.recvCheckSum = 0xff

def DataRight (msg : XBeeMsg) : Prop :=
  msg.designated = msg.rfData ∧ msg.getPprzMsg.data = msg.designated

def SourceAddrRight (msg : XBeeMsg) : Prop :=
  msg.getRecvSourceAddr.toNat = bigEndianValue ((msg.contents.drop frameRecvAddrOffset).take 8)

def SourceNetAddrRight (msg : XBeeMsg) : Prop :=
  msg.getRecvSourceNetAddr.toNat =
    bigEndianValue ((msg.contents.drop frameRecvNetAddrOffset).take 2)

/-- The call returns, and with the right answer. -/
def CheckSumRight (msg : XBeeMsg) : Prop :=
  ∃ fuel answer, msg.verifyCheckSum fuel = some answer ∧ (answer = true ↔ msg.SumsUp)

def AccessorsRight (msg : XBeeMsg) : Prop :=
  msg.DataRight ∧ msg.SourceAddrRight ∧ msg.SourceNetAddrRight ∧ msg.CheckSumRight

variable {msg : XBeeMsg}

/-! ### The data -/

theorem contents_drop (k : Nat) :
    msg.contents.drop k = (List.range (msg.frameLength - k)).map fun i => msg.frame (k + i) := by
  rw [contents, ← List.map_drop, List.range_eq_range', List.drop_range', List.range'_eq_map_range,
    List.map_map]
  simp [Function.comp_def]

theorem data_foldl_pprzPutByte (bytes : List UInt8) (pprzMsg : PprzMsg)
    (hle : pprzMsg.data.length ≤ pprzMsgMaxSize) :
    (bytes.foldl (fun m x => pprzPutByte x m) pprzMsg).data =
      (pprzMsg.data ++ bytes).take pprzMsgMaxSize := by
  induction bytes generalizing pprzMsg with
  | nil => simp [List.take_of_length_le hle]
  | cons x bytes ih =>
      rw [List.foldl_cons]
      by_cases hfull : pprzMsg.data.length + 1 > pprzMsgMaxSize
      · have hput : pprzPutByte x pprzMsg = pprzMsg := if_pos hfull
        have hlen : pprzMsg.data.length = pprzMsgMaxSize := by omega
        rw [hput, ih pprzMsg hle, List.take_left' hlen, List.take_left' hlen]
      · have hput : pprzPutByte x pprzMsg = { pprzMsg with data := pprzMsg.data ++ [x] } :=
          if_neg hfull
        rw [hput, ih _ (by simp; omega)]
        simp

theorem data_getPprzMsg (msg : XBeeMsg) :
    msg.getPprzMsg.data = msg.rfData.take pprzMsgMaxSize := by
  have hloop : msg.getPprzMsg = msg.rfData.foldl (fun m x => pprzPutByte x m) newMsg := by
    rw [rfData, contents_drop, List.foldl_map]
    rfl
  rw [hloop, data_foldl_pprzPutByte _ _ (Nat.zero_le _)]
  rfl

theorem getRecvPacketDataLength_eq (h : msg.Received) :
    msg.getRecvPacketDataLength = msg.frameLength - frameRecvDataOffset + 1 := by
  have hle := h.dataOffset_le
  have hlt := h.frameLength_lt
  simp only [getRecvPacketDataLength, frameRecvDataOffset] at *
  omega

/-- One byte too many, the one behind the frame. -/
theorem designated_eq (h : msg.Received) :
    msg.designated = msg.rfData ++ [msg.frame msg.frameLength] := by
  have hlast : frameRecvDataOffset + (msg.frameLength - frameRecvDataOffset) = msg.frameLength := by
    have hle := h.dataOffset_le
    omega
  rw [designated, getRecvPacketDataLength_eq h, List.range_succ, List.map_append, rfData,
    contents_drop]
  simp [getRecvPacketDataPtr, hlast]

theorem not_dataRight (h : msg.Received) : ¬ msg.DataRight := by
  rintro ⟨heq, -⟩
  have hlength := congrArg List.length heq
  simp [designated_eq h] at hlength

/-! ### The addresses -/

theorem toNat_word (i : Nat) :
    (msg.word i).toNat =
      bigEndianValue [msg.frame i, msg.frame (i + 1), msg.frame (i + 2), msg.frame (i + 3)] := by
  have h0 := (msg.frame i).toNat_lt
  have h1 := (msg.frame (i + 1)).toNat_lt
  have h2 := (msg.frame (i + 2)).toNat_lt
  have h3 := (msg.frame (i + 3)).toNat_lt
  simp only [word, bigEndianValue, List.foldl_cons, List.foldl_nil, UInt32.toNat_add,
    UInt32.toNat_shiftLeft, UInt8.toNat_toUInt32, Nat.shiftLeft_eq]
  simp
  omega

theorem toNat_getRecvSourceAddr (msg : XBeeMsg) :
    msg.getRecvSourceAddr.toNat =
      (msg.word frameRecvAddrOffset).toNat +
        (msg.word (frameRecvAddrOffset + 4)).toNat * 2 ^ 32 := by
  have hhi := (msg.word frameRecvAddrOffset).toNat_lt
  have hlo := (msg.word (frameRecvAddrOffset + 4)).toNat_lt
  simp only [getRecvSourceAddr, UInt64.toNat_add, UInt64.toNat_shiftLeft, UInt32.toNat_toUInt64,
    Nat.shiftLeft_eq]
  simp
  omega

theorem take_contents_drop {k count : Nat} (hle : k + count ≤ msg.frameLength) :
    (msg.contents.drop k).take count = (List.range count).map fun i => msg.frame (k + i) := by
  rw [contents_drop, ← List.map_take, List.take_range, Nat.min_eq_left (by omega)]

/-- Right for the addresses with two equal words only. -/
theorem sourceAddrRight_iff (h : msg.Received) :
    msg.SourceAddrRight ↔
      msg.word frameRecvAddrOffset = msg.word (frameRecvAddrOffset + 4) := by
  have hvalue : bigEndianValue ((msg.contents.drop frameRecvAddrOffset).take 8) =
      (msg.word frameRecvAddrOffset).toNat * 2 ^ 32 +
        (msg.word (frameRecvAddrOffset + 4)).toNat := by
    have hle := h.dataOffset_le
    simp only [frameRecvDataOffset] at hle
    rw [take_contents_drop (by simp only [frameRecvAddrOffset]; omega), toNat_word, toNat_word]
    simp only [bigEndianValue, frameRecvAddrOffset, List.range_succ, List.range_zero,
      List.nil_append, List.map_cons, List.map_nil, List.cons_append, List.foldl_cons,
      List.foldl_nil, Nat.reduceAdd]
    omega
  rw [SourceAddrRight, toNat_getRecvSourceAddr, hvalue, ← UInt32.toNat_inj]
  have hhi := (msg.word frameRecvAddrOffset).toNat_lt
  have hlo := (msg.word (frameRecvAddrOffset + 4)).toNat_lt
  omega

theorem sourceNetAddrRight_iff (h : msg.Received) :
    msg.SourceNetAddrRight ↔ msg.frame frameRecvNetAddrOffset = 0 := by
  have hle := h.dataOffset_le
  simp only [frameRecvDataOffset] at hle
  rw [SourceNetAddrRight, take_contents_drop (by simp only [frameRecvNetAddrOffset]; omega),
    ← UInt8.toNat_inj]
  have h0 := (msg.frame frameRecvNetAddrOffset).toNat_lt
  have h1 := (msg.frame (frameRecvNetAddrOffset + 1)).toNat_lt
  simp only [getRecvSourceNetAddr, bigEndianValue, List.range_succ, List.range_zero,
    List.nil_append, List.map_cons, List.map_nil, List.cons_append, List.foldl_cons,
    List.foldl_nil, UInt16.toNat_add, UInt16.toNat_shiftLeft,
    UInt8.toNat_toUInt16, Nat.shiftLeft_eq]
  simp
  omega

/-! ### The checksum -/

/-- From `count` on the loop adds what is left up to the byte at `frame_length`. -/
theorem sumLoop_eq (hlt : msg.frameLength + 1 < 2 ^ 16) (rest count : Nat) (sum : UInt32)
    (hcount : count + rest = msg.frameLength + 1) :
    msg.sumLoop (rest + 1) (UInt16.ofNat count) sum =
      some (((List.range' count rest).map msg.frame).foldl
        (fun sum x => sum + x.toUInt32) sum) := by
  induction rest generalizing count sum with
  | zero =>
      have hnat : (UInt16.ofNat count).toNat = count :=
        UInt16.toNat_ofNat_of_lt' (show count < 2 ^ 16 by omega)
      rw [sumLoop, if_neg (by omega)]
      rfl
  | succ rest ih =>
      have hnat : (UInt16.ofNat count).toNat = count :=
        UInt16.toNat_ofNat_of_lt' (show count < 2 ^ 16 by omega)
      have hnext : UInt16.ofNat count + 1 = UInt16.ofNat (count + 1) := by simp
      rw [sumLoop, if_pos (by omega), hnat, hnext,
        ih (count + 1) _ (by omega), List.range'_succ, List.map_cons, List.foldl_cons]

/-- With the largest length there is no `count` above it: the loop never ends. -/
theorem sumLoop_eq_none (hmax : msg.frameLength + 1 = 2 ^ 16) (fuel : Nat) (count : UInt16)
    (sum : UInt32) : msg.sumLoop fuel count sum = none := by
  induction fuel generalizing count sum with
  | zero => rfl
  | succ fuel ih =>
      have hle := count.toNat_lt
      rw [sumLoop, if_pos (by omega)]
      exact ih _ _

theorem sumLoop_mono {fuel fuel' : Nat} {count : UInt16} {sum total : UInt32} (hle : fuel ≤ fuel')
    (h : msg.sumLoop fuel count sum = some total) : msg.sumLoop fuel' count sum = some total := by
  induction fuel generalizing fuel' count sum with
  | zero => cases h
  | succ fuel ih =>
      obtain ⟨fuel', rfl⟩ : ∃ k, fuel' = k + 1 := ⟨fuel' - 1, by omega⟩
      rw [sumLoop] at h ⊢
      split at h
      · rw [if_pos ‹_›]
        exact ih (by omega) h
      · rwa [if_neg ‹_›]

theorem toUInt8_add_toUInt32 (sum : UInt32) (x : UInt8) :
    (sum + x.toUInt32).toUInt8 = sum.toUInt8 + x := by simp

/-- The answer takes in the byte behind the frame. -/
theorem verifyCheckSum_eq (hlt : msg.frameLength + 1 < 2 ^ 16) :
    msg.verifyCheckSum (msg.frameLength + 2) = some (decide
      (Checksum.sum 0 msg.contents + msg.frame msg.frameLength + msg.recvCheckSum = 0xff)) := by
  have hsum := sumLoop_eq hlt (msg.frameLength + 1) 0 0 (Nat.zero_add _)
  rw [verifyCheckSum, show (0 : UInt16) = UInt16.ofNat 0 from rfl, hsum, Option.map_some,
    toUInt8_shiftLeft_shiftRight, toUInt8_add_toUInt32, toUInt8_foldl_add, ← List.range_eq_range',
    List.range_succ, List.map_append, Checksum.sum_append]
  rfl

theorem verifyCheckSum_eq_of_eq_some {fuel : Nat} {answer : Bool}
    (hlt : msg.frameLength + 1 < 2 ^ 16) (h : msg.verifyCheckSum fuel = some answer) :
    answer = decide
      (Checksum.sum 0 msg.contents + msg.frame msg.frameLength + msg.recvCheckSum = 0xff) := by
  have hother := verifyCheckSum_eq hlt
  obtain ⟨sum, hsum, rfl⟩ := Option.map_eq_some_iff.mp h
  obtain ⟨sum', hsum', hdecide⟩ := Option.map_eq_some_iff.mp hother
  have heq : sum = sum' := by
    have hmax := sumLoop_mono (Nat.le_max_left fuel (msg.frameLength + 2)) hsum
    rw [sumLoop_mono (Nat.le_max_right fuel (msg.frameLength + 2)) hsum'] at hmax
    exact (Option.some.inj hmax).symm
  rw [heq, hdecide]

theorem checkSumRight_iff (h : msg.Received) :
    msg.CheckSumRight ↔ msg.frameLength ≠ 2 ^ 16 - 1 ∧
      (msg.frame msg.frameLength = 0 ∨ ¬ msg.SumsUp ∧
        Checksum.sum 0 msg.contents + msg.frame msg.frameLength + msg.recvCheckSum ≠ 0xff) := by
  have hsame : Checksum.sum 0 msg.contents + msg.frame msg.frameLength + msg.recvCheckSum = 0xff →
      (msg.SumsUp ↔ msg.frame msg.frameLength = 0) := by
    intro hsum
    rw [SumsUp, ← hsum]
    grind
  have hzero : msg.frame msg.frameLength = 0 →
      (Checksum.sum 0 msg.contents + msg.frame msg.frameLength + msg.recvCheckSum = 0xff ↔
        msg.SumsUp) := by
    intro hzero
    rw [hzero, SumsUp]
    simp
  constructor
  · rintro ⟨fuel, answer, hanswer, hright⟩
    have hne : msg.frameLength ≠ 2 ^ 16 - 1 := by
      intro hmax
      rw [verifyCheckSum, sumLoop_eq_none (by omega)] at hanswer
      cases hanswer
    have hlt := h.frameLength_lt
    rw [verifyCheckSum_eq_of_eq_some (by omega) hanswer, decide_eq_true_iff] at hright
    refine ⟨hne, ?_⟩
    by_cases hsums : msg.SumsUp
    · exact .inl ((hsame (hright.mpr hsums)).mp hsums)
    · exact .inr ⟨hsums, fun hsum => hsums (hright.mp hsum)⟩
  · rintro ⟨hne, hright⟩
    have hlt := h.frameLength_lt
    refine ⟨_, _, verifyCheckSum_eq (by omega), ?_⟩
    rw [decide_eq_true_iff]
    rcases hright with hzero' | ⟨hsums, hsum⟩
    · exact hzero hzero'
    · exact ⟨fun hsum' => absurd hsum' hsum, fun hsums' => absurd hsums' hsums⟩

/-- Whatever the frame holds, some byte behind it makes the answer wrong. -/
theorem exists_not_checkSumRight (h : msg.Received) :
    ∃ x, ¬ (msg.setByte msg.frameLength x).CheckSumRight := by
  have hdata := h.dataOffset_le
  simp only [frameRecvDataOffset] at hdata
  have hreceived (x : UInt8) : (msg.setByte msg.frameLength x).Received := by
    refine ⟨?_, h.dataOffset_le, h.frameLength_lt⟩
    rw [frame_setByte, if_neg (by omega)]
    exact h.frameType
  have hcontents (x : UInt8) : (msg.setByte msg.frameLength x).contents = msg.contents := by
    apply List.map_congr_left
    intro i hi
    have hne : i ≠ msg.frameLength := Nat.ne_of_lt (List.mem_range.mp hi)
    rw [frame_setByte, if_neg hne]
  have hbehind (x : UInt8) : (msg.setByte msg.frameLength x).frame msg.frameLength = x := by
    rw [frame_setByte, if_pos rfl]
  have hright (x : UInt8) := checkSumRight_iff (hreceived x)
  simp only [SumsUp, hcontents] at hright
  by_cases hsums : msg.SumsUp
  · refine ⟨1, fun hr => ?_⟩
    obtain ⟨-, hzero | ⟨hno, -⟩⟩ := (hright 1).mp hr
    · exact absurd ((hbehind 1).symm.trans hzero) (by decide)
    · exact hno hsums
  · refine ⟨0xff - Checksum.sum 0 msg.contents - msg.recvCheckSum, fun hr => ?_⟩
    obtain ⟨-, hzero | ⟨-, hno⟩⟩ := (hright _).mp hr
    · have hx := (hbehind _).symm.trans hzero
      apply hsums
      rw [SumsUp]
      grind
    · apply hno
      have hx := hbehind (0xff - Checksum.sum 0 msg.contents - msg.recvCheckSum)
      change _ + (msg.setByte msg.frameLength _).frame msg.frameLength + msg.recvCheckSum = 0xff
      rw [hx]
      grind

theorem received_accessors (msg : XBeeMsg) (h : msg.Received) :
    ¬ msg.AccessorsRight ∧
      msg.getRecvPacketDataPtr = frameRecvDataOffset ∧
      msg.designated = msg.rfData ++ [msg.frame msg.frameLength] ∧
      msg.getPprzMsg.data = msg.rfData.take pprzMsgMaxSize ∧
      (msg.SourceAddrRight ↔
        msg.word frameRecvAddrOffset = msg.word (frameRecvAddrOffset + 4)) ∧
      (msg.SourceNetAddrRight ↔ msg.frame frameRecvNetAddrOffset = 0) ∧
      (msg.CheckSumRight ↔ msg.frameLength ≠ 2 ^ 16 - 1 ∧
        (msg.frame msg.frameLength = 0 ∨ ¬ msg.SumsUp ∧
          Checksum.sum 0 msg.contents + msg.frame msg.frameLength + msg.recvCheckSum ≠ 0xff)) ∧
      ∃ x, ¬ (msg.setByte msg.frameLength x).CheckSumRight :=
  ⟨fun hright => not_dataRight h hright.1, rfl, designated_eq h, data_getPprzMsg msg,
    sourceAddrRight_iff h, sourceNetAddrRight_iff h, checkSumRight_iff h,
    exists_not_checkSumRight h⟩

/-- A packet without data from `00 13 A2 00 40 52 2B AA`, network address `7D 84`, with its
checksum; behind the frame lies an old byte. -/
def emptyPacket : XBeeMsg :=
  { errorcode := 0, lengthHI := 0, lengthLO := 12, checkSum := 0, recvCheckSum := 0x51
    frame := fun i => [0x90, 0x00, 0x13, 0xa2, 0x00, 0x40, 0x52, 0x2b, 0xaa, 0x7d, 0x84, 0x01,
      0x33].getD i 0
    frameLength := 12 }

theorem received_accessors_emptyPacket :
    emptyPacket.Received ∧ emptyPacket.SumsUp ∧ ¬ emptyPacket.AccessorsRight :=
  have hreceived : emptyPacket.Received := ⟨rfl, by decide, by decide⟩
  ⟨hreceived, by unfold SumsUp; decide, (received_accessors emptyPacket hreceived).1⟩

theorem emptyPacket_all_wrong :
    emptyPacket.Received ∧ ¬ emptyPacket.DataRight ∧ ¬ emptyPacket.SourceAddrRight ∧
      ¬ emptyPacket.SourceNetAddrRight ∧ ¬ emptyPacket.CheckSumRight := by
  have hreceived : emptyPacket.Received := ⟨rfl, by decide, by decide⟩
  refine ⟨hreceived, not_dataRight hreceived, ?_, ?_, ?_⟩
  · rw [sourceAddrRight_iff hreceived]
    decide
  · rw [sourceNetAddrRight_iff hreceived]
    decide
  · rw [checkSumRight_iff hreceived]
    unfold SumsUp
    decide

end XBeeMsg

end Paparazzi.Link.GroundXBee
