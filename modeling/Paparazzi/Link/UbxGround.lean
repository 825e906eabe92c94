import Paparazzi.Link.GroundReader
import Paparazzi.Link.UbxFraming

/-!
The UBX protocol of the ground against the one on board: the frames that `Ubx.Protocol.packet`
builds, and the frames that `gps_ubx_parse` accepts.
-/

namespace Paparazzi.Link.Ubx

open Paparazzi.Library
open Paparazzi.Library.Machine
open Paparazzi.Link.GroundReader
open Paparazzi.InterMcu.LinkMcuUsart (lowByte highByte word)
open Paparazzi.InterMcu.RoundTrip (word_lowByte_highByte lowByte_word)

/-! ### Frames of the ground -/

/-- `Ubx.Protocol.packet`; `String.create` leaves the two bytes `u` and `v` in the place of the
checksum. -/
def packet (u v : UInt8) (payload : List UInt8) : List UInt8 :=
  let m := [sync1, sync2] ++ payload ++ [u, v]
  let ck := ubxComputeChecksum m
  [sync1, sync2] ++ payload ++ [ck.1, ck.2]

/-- What `packet` is applied to: the class, the id, the length and the payload. -/
def groundPayload (navId msgId : UInt8) (payload : List UInt8) : List UInt8 :=
  [navId, msgId, lowByte (UInt16.ofNat payload.length), highByte (UInt16.ofNat payload.length)] ++
    payload

theorem toNat_word (low high : UInt8) : (word low high).toNat = low.toNat + 256 * high.toNat := by
  have hlow := low.toNat_lt
  have hhigh := high.toNat_lt
  simp only [word, UInt16.toNat_or, UInt16.toNat_shiftLeft, UInt8.toNat_toUInt16]
  rw [Nat.or_comm]
  simp only [UInt16.toNat_ofNat, Nat.reduceMod, Nat.reducePow]
  rw [Nat.mod_eq_of_lt (by rw [Nat.shiftLeft_eq]; omega),
    ← @Nat.shiftLeft_add_eq_or_of_lt 8 low.toNat hlow, Nat.shiftLeft_eq]
  omega

theorem code_lowByte_highByte (len : UInt16) :
    ((highByte len).toNat <<< 8) + (lowByte len).toNat = len.toNat := by
  have h := toNat_word (lowByte len) (highByte len)
  rw [word_lowByte_highByte] at h
  rw [Nat.shiftLeft_eq]
  omega

/-- The second byte that is compared lies behind the frame. -/
theorem checksum_ne_true {buf : List UInt8} (h : buf.length = payloadLength buf 0 + 4) :
    ubx.checksum buf ≠ some true := by
  have hout : buf[2 + payloadLength buf 0 + 2]? = none := List.getElem?_eq_none (by omega)
  simp only [ubx]
  cases hlast : buf[2 + payloadLength buf 0 + 1]? with
  | none => simp
  | some a =>
      rw [hout]
      dsimp only
      split_ifs <;> simp

theorem payloadLength_packet (u v navId msgId : UInt8) {payload : List UInt8}
    (hlen : payload.length ≤ 255) :
    payloadLength (packet u v (groundPayload navId msgId payload)) 0 = payload.length + 4 := by
  have hcode := code_lowByte_highByte (UInt16.ofNat payload.length)
  rw [UInt16.toNat_ofNat', Nat.mod_eq_of_lt (by omega)] at hcode
  rw [payloadLength, ← hcode]
  rfl

/-- The length and the payload of a packet are right, and its checksum never is. -/
theorem packet_fields (u v navId msgId : UInt8) {payload : List UInt8}
    (hlen : payload.length ≤ 255) :
    let f := packet u v (groundPayload navId msgId payload)
    ubx.length f 0 = some f.length ∧ ubx.checksum f ≠ some true ∧
      ubx.payload f = some (groundPayload navId msgId payload) := by
  intro f
  have hpayload : payloadLength f 0 = payload.length + 4 :=
    payloadLength_packet u v navId msgId hlen
  have hlength : f.length = payload.length + 8 := by
    simp only [f, packet, groundPayload, List.length_append, List.length_cons, List.length_nil]
    omega
  refine ⟨?_, ?_, ?_⟩
  · simp only [ubx]
    rw [if_pos (by omega), hpayload, hlength]
  · exact checksum_ne_true (by omega)
  · have htake : (f.drop 2).take (payload.length + 4) = groundPayload navId msgId payload := by
      simp only [f, packet, List.cons_append, List.nil_append, List.drop_succ_cons, List.drop_zero]
      apply List.take_left'
      simp only [groundPayload, List.length_append, List.length_cons, List.length_nil]
      omega
    simp only [ubx]
    rw [if_pos (by omega), hpayload, htake]

/-! ### Frames that are accepted on board -/

/-- The parser takes all the bytes as one message: it is not idle again before the last one. -/
def Accepts : GpsUbx → List UInt8 → Prop
  | _, [] => False
  | d, [c] => (gpsUbxParse d c).msgAvailable = true
  | d, c :: bytes => (gpsUbxParse d c).status ≠ .uninit ∧ Accepts (gpsUbxParse d c) bytes

instance Accepts.decidable : (d : GpsUbx) → (f : List UInt8) → Decidable (Accepts d f)
  | _, [] => isFalse id
  | d, [c] => inferInstanceAs (Decidable ((gpsUbxParse d c).msgAvailable = true))
  | d, c :: c' :: bytes =>
      have := Accepts.decidable (gpsUbxParse d c) (c' :: bytes)
      inferInstanceAs (Decidable ((gpsUbxParse d c).status ≠ .uninit ∧
        Accepts (gpsUbxParse d c) (c' :: bytes)))

section

variable {d : GpsUbx} {c : UInt8} {bytes : List UInt8}

theorem accepts_cons (h : Accepts d (c :: bytes)) (hquiet : (gpsUbxParse d c).msgAvailable = false) :
    (gpsUbxParse d c).status ≠ .uninit ∧ Accepts (gpsUbxParse d c) bytes := by
  cases bytes with
  | nil =>
      rw [Accepts, hquiet] at h
      cases h
  | cons c' bytes => exact h

/-- The next state on the way through a header. -/
theorem parse_header (hquiet : d.msgAvailable = false) (hne : (gpsUbxParse d c).status ≠ .uninit) :
    (d.status = .uninit → c = ubxSync1 ∧ (gpsUbxParse d c).status = .gotSync1) ∧
      (d.status = .gotSync1 → c = ubxSync2 ∧ (gpsUbxParse d c).status = .gotSync2) ∧
      (d.status = .gotSync2 → (gpsUbxParse d c).status = .gotClass) ∧
      (d.status = .gotClass → (gpsUbxParse d c).status = .gotId) ∧
      (d.status = .gotId →
        (gpsUbxParse d c).status = .gotLen1 ∧ (gpsUbxParse d c).len = c.toUInt16) ∧
      (d.status = .gotLen1 → d.len ||| (c.toUInt16 <<< 8) ≤ gpsUbxMaxPayload) := by
  refine ⟨?_, ?_, ?_, ?_, ?_, ?_⟩ <;> intro hstatus <;>
    simp only [gpsUbxParse, hstatus, Status.beforePayload, if_true, hquiet, Bool.false_eq_true,
      if_false, ne_eq] at hne ⊢
  · split_ifs at hne ⊢ with hc
    · exact ⟨hc, rfl⟩
    · exact absurd rfl hne
  · split_ifs at hne ⊢ with hc
    · exact ⟨hc, rfl⟩
    · exact absurd rfl hne
  · exact ⟨trivial, trivial⟩
  · split_ifs at hne with hmax
    · exact absurd rfl hne
    · exact UInt16.not_lt.mp hmax

theorem parse_quiet (hquiet : d.msgAvailable = false) (hstatus : d.status ≠ .gotChecksum1)
    (c : UInt8) : (gpsUbxParse d c).msgAvailable = false := by
  cases havailable : (gpsUbxParse d c).msgAvailable with
  | false => rfl
  | true =>
      cases hnow : d.status <;>
        simp [gpsUbxParse, hnow, Status.beforePayload, parseError, apply_ite GpsUbx.msgAvailable,
          hquiet] at havailable
      exact absurd hnow hstatus

theorem accepts_next (hquiet : d.msgAvailable = false) (hstatus : d.status ≠ .gotChecksum1)
    {f : List UInt8} (haccepts : Accepts d f) :
    ∃ c rest, f = c :: rest ∧ (gpsUbxParse d c).msgAvailable = false ∧
      (gpsUbxParse d c).status ≠ .uninit ∧ Accepts (gpsUbxParse d c) rest := by
  cases f with
  | nil => exact haccepts.elim
  | cons c rest =>
      have hquiet' := parse_quiet hquiet hstatus c
      obtain ⟨hne, haccepts'⟩ := accepts_cons haccepts hquiet'
      exact ⟨c, rest, rfl, hquiet', hne, haccepts'⟩

theorem highByte_word (low high : UInt8) : highByte (word low high) = high := by
  have hlow := low.toNat_lt
  have hhigh := high.toNat_lt
  apply UInt8.toNat_inj.mp
  simp only [highByte, UInt16.toNat_toUInt8, UInt16.toNat_shiftRight, toNat_word,
    UInt16.toNat_ofNat, Nat.reduceMod, Nat.reducePow, Nat.shiftRight_eq_div_pow]
  omega

theorem accepts_header (h : Ready d) {f : List UInt8} (haccepts : Accepts d f) :
    ∃ navId id len rest, f = [ubxSync1, ubxSync2] ++ body navId id len [] ++ rest ∧
      len ≤ gpsUbxMaxPayload ∧
      Accepts (feed d ([ubxSync1, ubxSync2] ++ body navId id len [])) rest := by
  obtain ⟨c₀, f₁, rfl, hquiet₁, hne₁, haccepts₁⟩ :=
    accepts_next h.available (by rw [h.status]; decide) haccepts
  obtain ⟨rfl, hstatus₁⟩ := (parse_header h.available hne₁).1 h.status
  obtain ⟨c₁, f₂, rfl, hquiet₂, hne₂, haccepts₂⟩ :=
    accepts_next hquiet₁ (by rw [hstatus₁]; decide) haccepts₁
  obtain ⟨rfl, hstatus₂⟩ := (parse_header hquiet₁ hne₂).2.1 hstatus₁
  obtain ⟨navId, f₃, rfl, hquiet₃, hne₃, haccepts₃⟩ :=
    accepts_next hquiet₂ (by rw [hstatus₂]; decide) haccepts₂
  have hstatus₃ := (parse_header hquiet₂ hne₃).2.2.1 hstatus₂
  obtain ⟨id, f₄, rfl, hquiet₄, hne₄, haccepts₄⟩ :=
    accepts_next hquiet₃ (by rw [hstatus₃]; decide) haccepts₃
  have hstatus₄ := (parse_header hquiet₃ hne₄).2.2.2.1 hstatus₃
  obtain ⟨low, f₅, rfl, hquiet₅, hne₅, haccepts₅⟩ :=
    accepts_next hquiet₄ (by rw [hstatus₄]; decide) haccepts₄
  obtain ⟨hstatus₅, hlen⟩ := (parse_header hquiet₄ hne₅).2.2.2.2.1 hstatus₄
  obtain ⟨high, rest, rfl, -, hne₆, haccepts₆⟩ :=
    accepts_next hquiet₅ (by rw [hstatus₅]; decide) haccepts₅
  have hmax := (parse_header hquiet₅ hne₆).2.2.2.2.2 hstatus₅
  rw [hlen] at hmax
  refine ⟨navId, id, word low high, rest, ?_, hmax, ?_⟩
  · rw [body, lowByte_word, highByte_word]
    rfl
  · rw [body, lowByte_word, highByte_word]
    exact haccepts₆

theorem accepts_checksum (hquiet : d.msgAvailable = false) (hstatus : d.status = .gotPayload)
    {rest : List UInt8} (haccepts : Accepts d rest) : rest = [d.ckA, d.ckB] := by
  cases rest with
  | nil => exact haccepts.elim
  | cons a rest =>
      have hquiet' : (gpsUbxParse d a).msgAvailable = false := by
        simp only [gpsUbxParse, hstatus, Status.beforePayload, Bool.false_eq_true, if_false]
        split_ifs <;> exact hquiet
      obtain ⟨hne, haccepts'⟩ := accepts_cons haccepts hquiet'
      have ha : a = d.ckA := by
        by_contra ha
        simp [gpsUbxParse, hstatus, Status.beforePayload, ha, parseError] at hne
      subst ha
      have hparse : gpsUbxParse d d.ckA = { d with status := .gotChecksum1 } := by
        simp [gpsUbxParse, hstatus, Status.beforePayload]
      rw [hparse] at haccepts'
      cases rest with
      | nil => exact haccepts'.elim
      | cons b rest =>
          have hb : b = d.ckB := by
            by_contra hb
            have hquiet'' : (gpsUbxParse { d with status := .gotChecksum1 } b).msgAvailable =
                false := by
              simp [gpsUbxParse, Status.beforePayload, hb, parseError, hquiet]
            have hne' := (accepts_cons haccepts' hquiet'').1
            simp [gpsUbxParse, Status.beforePayload, hb, parseError] at hne'
          subst hb
          cases rest with
          | nil => rfl
          | cons c rest =>
              have hne' := haccepts'.1
              simp [gpsUbxParse, Status.beforePayload] at hne'

/-- The payload of an accepted frame, of one byte at least, and its checksum. -/
theorem accepts_reading {navId id : UInt8} {len : UInt16} {data rest : List UInt8}
    (h : Reading d navId id len data) (hstatus : d.status = .gotLen2)
    (hdata : data.length < max 1 len.toNat) (hmax : len ≤ gpsUbxMaxPayload)
    (haccepts : Accepts d rest) :
    ∃ more, (data ++ more).length = max 1 len.toNat ∧
      rest = more ++
        [(checksum navId id len (data ++ more)).1, (checksum navId id len (data ++ more)).2] := by
  have hmax' : len.toNat ≤ 255 := hmax
  induction rest generalizing d data with
  | nil => exact haccepts.elim
  | cons c rest ih =>
      obtain ⟨hreading, hnext⟩ := reading_step h hstatus (by omega) c
      obtain ⟨-, haccepts'⟩ := accepts_cons haccepts hreading.available
      by_cases hend : len.toNat ≤ data.length + 1
      · rw [if_pos hend] at hnext
        refine ⟨[c], ?_, ?_⟩
        · rw [List.length_append, List.length_singleton]
          omega
        · rw [accepts_checksum hreading.available hnext haccepts', ← hreading.checksum]
          rfl
      · rw [if_neg hend] at hnext
        obtain ⟨more, hlength, hrest⟩ := ih hreading hnext
          (by rw [List.length_append, List.length_singleton]; omega) haccepts'
        rw [List.append_assoc] at hlength hrest
        exact ⟨c :: more, hlength, by rw [hrest]; rfl⟩

/-- An accepted frame is one of the frames of the sender, or it announces no payload and has one
byte. -/
theorem eq_frame_of_accepts (h : Ready d) {f : List UInt8} (haccepts : Accepts d f) :
    ∃ navId id len data, len ≤ gpsUbxMaxPayload ∧ data.length = max 1 len.toNat ∧
      f = frame navId id len data := by
  obtain ⟨navId, id, len, rest, hf, hmax, haccepts'⟩ := accepts_header h haccepts
  obtain ⟨hreading, hstatus, -⟩ := feed_header h navId id hmax
  obtain ⟨data, hlength, hrest⟩ := accepts_reading hreading hstatus
    (Nat.lt_of_lt_of_le Nat.one_pos (Nat.le_max_left _ _)) hmax haccepts'
  rw [List.nil_append] at hlength hrest
  refine ⟨navId, id, len, data, hmax, hlength, ?_⟩
  rw [hf, hrest, frame, body, body, List.append_nil]
  simp only [List.append_assoc]

end

/-! ### The two together -/

/-- A frame that announces no payload and has a zero byte as its payload, and whose class and id
cancel out in the second sum of the checksum. -/
def ZeroPoll (f : List UInt8) : Prop :=
  f.getD 4 0 = 0 ∧ f.getD 6 0 = 0 ∧ f.getD 2 0 + f.getD 3 0 + (f.getD 2 0 + f.getD 3 0) = 0

instance (f : List UInt8) : Decidable (ZeroPoll f) := by
  unfold ZeroPoll
  infer_instance

theorem checksum_frame_iff {navId id : UInt8} {len : UInt16} {data : List UInt8}
    (hmax : len ≤ gpsUbxMaxPayload) (hdata : data.length = max 1 len.toNat) :
    ubx.checksum (frame navId id len data) = some true ↔ ZeroPoll (frame navId id len data) := by
  have hcode := code_lowByte_highByte len
  have hlength := length_frame navId id len data
  have hpayload : payloadLength (frame navId id len data) 0 = len.toNat + 4 := by
    rw [payloadLength, ← hcode]
    rfl
  rcases Nat.eq_zero_or_pos len.toNat with hzero | hpos
  · obtain rfl : len = 0 := UInt16.toNat_inj.mp hzero
    obtain ⟨x, rfl⟩ := List.length_eq_one_iff.mp hdata
    have hchecksum : ubx.checksum (frame navId id 0 [x]) =
        if navId + id + 0 ≠ navId + id + 0 + 0 + x then some false
        else some (navId + (navId + id) + (navId + id + 0) ==
          navId + (navId + id) + (navId + id + 0) + (navId + id + 0 + 0) +
            (navId + id + 0 + 0 + x)) := by
      simp [ubx, frame, body, checksum, payloadLength, code, ubxComputeChecksum, lowByte, highByte]
    have hpoll : ZeroPoll (frame navId id 0 [x]) ↔ x = 0 ∧ navId + id + (navId + id) = 0 := by
      simp [ZeroPoll, frame, body, lowByte]
    rw [hchecksum, hpoll]
    grind
  · have hne : ubx.checksum (frame navId id len data) ≠ some true :=
      checksum_ne_true (by omega)
    refine iff_of_false hne ?_
    rintro ⟨hlow, -⟩
    have hlow' : (lowByte len).toNat = 0 := congrArg UInt8.toNat hlow
    have hmax' : len.toNat ≤ 255 := hmax
    simp only [lowByte, UInt16.toNat_toUInt8] at hlow'
    omega

/-- A packet of the ground has the right length and payload but never the right checksum, and the
checksum of the ground refuses the frames that are accepted on board, but for one kind. -/
theorem ground_ubx_iff (u v navId msgId : UInt8) (payload : List UInt8)
    (hlen : payload.length ≤ 255) (d : GpsUbx) (accepted : List UInt8) (hready : Ready d)
    (haccepts : Accepts d accepted) :
    let f := packet u v (groundPayload navId msgId payload)
    ubx.length f 0 = some f.length ∧ ubx.checksum f ≠ some true ∧
      ubx.payload f = some (groundPayload navId msgId payload) ∧
      (ubx.checksum accepted = some true ↔ ZeroPoll accepted) := by
  intro f
  obtain ⟨hlength, hchecksum, hpayload⟩ := packet_fields u v navId msgId hlen
  refine ⟨hlength, hchecksum, hpayload, ?_⟩
  obtain ⟨navId', id, len, data, hmax, hdata, rfl⟩ := eq_frame_of_accepts hready haccepts
  exact checksum_frame_iff hmax hdata

theorem ground_ubx_one_byte :
    ubx.checksum (packet 0 0 (groundPayload 1 2 [7])) ≠ some true ∧
      ubx.checksum (frame 1 2 1 [7]) ≠ some true :=
  have h := ground_ubx_iff 0 0 1 2 [7] (by decide) idle (frame 1 2 1 [7]) ⟨rfl, rfl⟩ (by decide)
  ⟨h.2.1, fun hchecksum => absurd (h.2.2.2.mp hchecksum) (by decide)⟩

/-- One byte from class 1 with id 2: neither side takes what the other one sends. -/
theorem ground_and_board_disagree :
    ubx.checksum (packet 0 0 (groundPayload 1 2 [7])) = some false ∧
      ¬Accepts idle (packet 0 0 (groundPayload 1 2 [7])) ∧
      Accepts idle (frame 1 2 1 [7]) ∧ ubx.checksum (frame 1 2 1 [7]) = some false := by
  decide

end Paparazzi.Link.Ubx
