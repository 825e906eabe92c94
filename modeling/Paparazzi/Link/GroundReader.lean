import Mathlib
import Paparazzi.Link.PprzTransport
import Paparazzi.Link.Serial

/-!
The three protocols that the ground reads from a byte stream: `Pprz.Transport`,
`Xbee.Protocol` and `Ubx.Protocol`.
-/

namespace Paparazzi.Link.GroundReader

open Paparazzi.Library
open Paparazzi.Link.Serial

/-- `Char.code s.[i]`, for an index inside the string. -/
def code (s : List UInt8) (i : Nat) : Nat := (s.getD i 0).toNat

theorem code_drop (s : List UInt8) (i j : Nat) : code (s.drop i) j = code s (i + j) := by
  simp [code, List.getD_eq_getElem?_getD]

theorem code_append {s : List UInt8} {i : Nat} (h : i < s.length) (b : List UInt8) :
    code (s ++ b) i = code s i := by
  rw [code, code, List.getD_append _ _ _ _ h]

theorem code_take {s : List UInt8} {i n : Nat} (h : i < n) : code (s.take n) i = code s i := by
  simp [code, List.getD_eq_getElem?_getD, List.getElem?_take_of_lt h]

/-! ### A start that is one byte -/

def index (c : UInt8) (buf : List UInt8) : Option Nat := buf.findIdx? (· == c)

section Index

variable {c : UInt8} {a : List UInt8} {i : Nat}

theorem index_lt (h : index c a = some i) : i < a.length := by
  obtain ⟨hlt, -⟩ := List.findIdx?_eq_some_iff_getElem.mp h
  exact hlt

theorem getD_index (h : index c a = some i) : a.getD i 0 = c := by
  obtain ⟨hlt, hc, -⟩ := List.findIdx?_eq_some_iff_getElem.mp h
  rw [List.getD_eq_getElem _ _ hlt]
  simpa using hc

theorem index_append (h : index c a = some i) (b : List UInt8) : index c (a ++ b) = some i := by
  rw [index, List.findIdx?_append, ← index, h]
  rfl

theorem index_append_of_none (h : index c a = none) (b : List UInt8) :
    index c (a ++ b) = (index c b).map (a.length + ·) := by
  rw [index, List.findIdx?_append, ← index, h, Option.none_or]
  simp [index, Nat.add_comm]

theorem index_drop (h : index c a = some i) : index c (a.drop i) = some 0 := by
  have hlt := index_lt h
  have hc := getD_index h
  rw [List.getD_eq_getElem _ _ hlt] at hc
  rw [List.drop_eq_getElem_cons hlt, hc, index, List.findIdx?_cons]
  simp

end Index

/-! ### Pprz -/

/-- `Pprz.Transport`: `stx`, the length of the frame in byte 1, `overhead_length`
of 4 bytes. -/
def pprz : Protocol where
  indexStart := index PprzTransport.stx
  length buf start :=
    if buf.length - start > 1 then some (max (code buf (start + 1)) 4) else none
  checksum msg :=
    let ck := PprzTransport.computeChecksum msg
    some (ck.1 == msg.getD (msg.length - 2) 0 && ck.2 == msg.getD (msg.length - 1) 0)
  payload msg :=
    if code msg 1 = msg.length ∧ msg.length ≥ 4 then
      some ((msg.drop 2).take (msg.length - 4))
    else none
  indexStart_lt := index_lt
  length_pos := by
    intro buf start len h
    split_ifs at h
    injection h
    omega

/-! ### XBee -/

/-- `Xbee.Protocol`: the start delimiter, two bytes of length, `size_packet` of 4
bytes. -/
def xbee : Protocol where
  indexStart := index 0x7e
  length s i :=
    if s.length < i + 1 + 2 then none
    else some (((code s (i + 1) <<< 8) ||| code s (i + 1 + 1)) + 4)
  checksum s :=
    some (0xff - Checksum.sum 0 ((s.drop 3).take (s.length - 4)) == s.getD (s.length - 1) 0)
  payload s := some ((s.drop 3).take (s.length - 4))
  indexStart_lt := index_lt
  length_pos := by
    intro buf start len h
    split_ifs at h
    injection h
    omega

/-! ### UBX -/

def sync1 : UInt8 := 0xb5

def sync2 : UInt8 := 0x62

/-- `Ubx.Protocol.index_start`: the first `sync1` that `sync2` follows. -/
def ubxIndexStart : List UInt8 → Option Nat
  | [] => none
  | [_] => none
  | b :: c :: buf =>
      if b = sync1 ∧ c = sync2 then some 0 else (ubxIndexStart (c :: buf)).map (· + 1)

def payloadLength (buf : List UInt8) (start : Nat) : Nat :=
  (code buf (start + 5) <<< 8) + code buf (start + 4) + 4

/-- `Ubx.Protocol.compute_checksum`: over the bytes 2 to `l - 1 - 4`. -/
def ubxComputeChecksum (buf : List UInt8) : UInt8 × UInt8 :=
  Checksum.fletcher 0 0 ((buf.drop 2).take (buf.length - 4 - 2))

theorem ubxIndexStart_lt {buf : List UInt8} {start : Nat} (h : ubxIndexStart buf = some start) :
    start < buf.length := by
  induction buf generalizing start with
  | nil => cases h
  | cons b buf ih =>
      cases buf with
      | nil => cases h
      | cons c buf =>
          rw [ubxIndexStart] at h
          split_ifs at h with hsync
          · injection h with hstart
            subst hstart
            simp
          · obtain ⟨start', hstart', rfl⟩ := Option.map_eq_some_iff.mp h
            have := ih hstart'
            rw [List.length_cons]
            omega

/-- `Ubx.Protocol`; the second byte compared by `checksum` may be outside the
frame. -/
def ubx : Protocol where
  indexStart := ubxIndexStart
  length buf start :=
    if buf.length - start ≥ 4 + 2 then some (payloadLength buf start + 4) else none
  checksum buf :=
    let ck := ubxComputeChecksum buf
    let l := payloadLength buf 0
    match buf[2 + l + 1]? with
    | none => none
    | some a =>
        if ck.1 ≠ a then some false
        else
          match buf[2 + l + 2]? with
          | none => none
          | some b => some (ck.2 == b)
  payload buf :=
    if 2 + payloadLength buf 0 ≤ buf.length then some ((buf.drop 2).take (payloadLength buf 0))
    else none
  indexStart_lt := ubxIndexStart_lt
  length_pos := by
    intro buf start len h
    split_ifs at h
    injection h
    omega

/-! ### The three protocols are stable -/

theorem stable_pprz : Stable pprz where
  indexStart_append b h := index_append h b
  indexStart_drop := index_drop
  length_append := by
    intro a start len b h
    simp only [pprz] at h ⊢
    split_ifs at h with hlong
    rw [if_pos (by rw [List.length_append]; omega), code_append (by omega)]
    exact h
  length_drop a i j := by
    simp only [pprz, List.length_drop, code_drop, Nat.sub_sub, Nat.add_assoc]
  length_none := by
    intro a start h
    simp only [pprz] at h
    split_ifs at h with hlong
    rw [bufferLen]
    omega

theorem stable_xbee : Stable xbee where
  indexStart_append b h := index_append h b
  indexStart_drop := index_drop
  length_append := by
    intro a start len b h
    simp only [xbee] at h ⊢
    split_ifs at h with hshort
    rw [if_neg (by rw [List.length_append]; omega), code_append (by omega),
      code_append (by omega)]
    exact h
  length_drop a i j := by
    simp only [xbee, List.length_drop, code_drop, Nat.add_assoc]
    refine if_congr ?_ rfl rfl
    omega
  length_none := by
    intro a start h
    simp only [xbee] at h
    split_ifs at h with hshort
    rw [bufferLen]
    omega

theorem ubxIndexStart_append {a : List UInt8} {start : Nat} (h : ubxIndexStart a = some start)
    (b : List UInt8) : ubxIndexStart (a ++ b) = some start := by
  induction a generalizing start with
  | nil => cases h
  | cons x a ih =>
      cases a with
      | nil => cases h
      | cons y a =>
          rw [ubxIndexStart] at h
          rw [List.cons_append, List.cons_append, ubxIndexStart]
          split_ifs at h ⊢ with hsync
          · exact h
          · obtain ⟨start', hstart', rfl⟩ := Option.map_eq_some_iff.mp h
            rw [← List.cons_append, ih hstart']
            rfl

theorem ubxIndexStart_drop {a : List UInt8} {start : Nat} (h : ubxIndexStart a = some start) :
    ubxIndexStart (a.drop start) = some 0 := by
  induction a generalizing start with
  | nil => cases h
  | cons x a ih =>
      cases a with
      | nil => cases h
      | cons y a =>
          have hxy := h
          rw [ubxIndexStart] at h
          split_ifs at h with hsync
          · obtain rfl := Option.some.inj h
            exact hxy
          · obtain ⟨start', hstart', rfl⟩ := Option.map_eq_some_iff.mp h
            exact ih hstart'

theorem stable_ubx : Stable ubx where
  indexStart_append b h := ubxIndexStart_append h b
  indexStart_drop := ubxIndexStart_drop
  length_append := by
    intro a start len b h
    simp only [ubx, payloadLength] at h ⊢
    split_ifs at h with hlong
    rw [if_pos (by rw [List.length_append]; omega), code_append (by omega),
      code_append (by omega)]
    exact h
  length_drop a i j := by
    simp only [ubx, payloadLength, List.length_drop, code_drop, Nat.sub_sub, Nat.add_assoc]
  length_none := by
    intro a start h
    simp only [ubx] at h
    split_ifs at h with hlong
    rw [bufferLen]
    omega

/-- A start of UBX is only lost when it is cut in two. -/
theorem ubxIndexStart_append_of_none {a b : List UInt8} (h : ubxIndexStart a = none)
    (hcut : ¬ (a.getLast? = some sync1 ∧ b.head? = some sync2)) :
    ubxIndexStart (a ++ b) = (ubxIndexStart b).map (a.length + ·) := by
  induction a with
  | nil => simp
  | cons x a ih =>
      cases a with
      | nil =>
          cases b with
          | nil => rfl
          | cons y b =>
              rw [List.cons_append, List.nil_append, ubxIndexStart, if_neg]
              · simp [Nat.add_comm]
              · rintro ⟨rfl, rfl⟩
                exact hcut ⟨rfl, rfl⟩
      | cons y a =>
          rw [ubxIndexStart] at h
          split_ifs at h with hsync
          rw [Option.map_eq_none_iff] at h
          have hcut' : ¬ ((y :: a).getLast? = some sync1 ∧ b.head? = some sync2) := by
            rw [List.getLast?_cons_cons] at hcut
            exact hcut
          rw [List.cons_append, List.cons_append, ubxIndexStart, if_neg hsync,
            ← List.cons_append, ih h hcut', Option.map_map]
          congr 1
          funext n
          simp only [Function.comp_apply, List.length_cons]
          omega

/-! ### Which frames raise an exception -/

inductive GroundProtocol where
  | pprz
  | xbee
  | ubx
  deriving DecidableEq, Repr

def GroundProtocol.protocol : GroundProtocol → Protocol
  | .pprz => GroundReader.pprz
  | .xbee => GroundReader.xbee
  | .ubx => GroundReader.ubx

/-- The frames on which a protocol fails: a Pprz frame with a length byte below 4
that is its own checksum, and a UBX frame that ends with the first checksum byte
as `compute_checksum` gives it, after which `checksum` reads past the frame. -/
def raises : GroundProtocol → List UInt8 → Prop
  | .pprz, msg => ∃ l : UInt8, l.toNat < 4 ∧ msg = [PprzTransport.stx, l, l, l]
  | .xbee, _ => False
  | .ubx, msg => msg.getLast? = some (ubxComputeChecksum msg).1

theorem pprz_message {stream msg : List UInt8} (h : msg ∈ messages pprz stream) :
    msg.head? = some PprzTransport.stx ∧ msg.length = max (code msg 1) 4 := by
  obtain ⟨buf, start, length, hindex, hlen, hle, rfl⟩ := exists_of_mem_messages h
  simp only [pprz] at hindex hlen
  split_ifs at hlen with hlong
  have hlength := Option.some.inj hlen
  have hstart := index_lt hindex
  have hcode : code ((buf.drop start).take length) 1 = code buf (start + 1) := by
    rw [code_take (by omega), code_drop]
  refine ⟨?_, ?_⟩
  · have hc := getD_index hindex
    rw [List.getD_eq_getElem _ _ hstart] at hc
    rw [List.drop_eq_getElem_cons hstart, hc]
    obtain ⟨n, rfl⟩ : ∃ n, length = n + 1 := ⟨length - 1, by omega⟩
    rfl
  · rw [hcode, hlength, List.length_take, List.length_drop]
    omega

theorem pprz_deliver_iff {stream msg : List UInt8} (h : msg ∈ messages pprz stream) :
    (deliver pprz msg).isSome ↔ ¬ raises .pprz msg := by
  obtain ⟨hhead, hlength⟩ := pprz_message h
  by_cases hvalid : code msg 1 ≥ 4
  · refine iff_of_true ?_ ?_
    · have hpayload : pprz.payload msg = some ((msg.drop 2).take (msg.length - 4)) :=
        if_pos ⟨by omega, by omega⟩
      rw [deliver, hpayload]
      simp only [pprz]
      split <;> simp_all
    · rintro ⟨l, hl, rfl⟩
      exact absurd hl (by simpa [code] using hvalid)
  · have hpayload : pprz.payload msg = none := if_neg (by omega)
    have hfour : msg.length = 4 := by omega
    match msg, hfour with
    | [a, b, c, d], _ =>
        obtain rfl : a = PprzTransport.stx := by simpa using hhead
        have hb : b.toNat < 4 := by simpa [code] using hvalid
        have hchecksum : pprz.checksum [PprzTransport.stx, b, c, d] =
            some (b == c && b == d) := by
          simp [pprz, PprzTransport.computeChecksum]
        rw [deliver, hchecksum, hpayload]
        cases hck : (b == c && b == d) with
        | false =>
            refine iff_of_true rfl ?_
            rintro ⟨l, -, heq⟩
            simp only [List.cons.injEq] at heq
            obtain ⟨-, rfl, rfl, rfl, -⟩ := heq
            simp at hck
        | true =>
            simp only [Bool.and_eq_true, beq_iff_eq] at hck
            obtain ⟨rfl, rfl⟩ := hck
            exact iff_of_false Bool.false_ne_true (not_not_intro ⟨b, hb, rfl⟩)

theorem ubx_deliver_iff {stream msg : List UInt8} (h : msg ∈ messages ubx stream) :
    (deliver ubx msg).isSome ↔ ¬ raises .ubx msg := by
  obtain ⟨buf, start, length, hindex, hlen, hle, rfl⟩ := exists_of_mem_messages h
  simp only [ubx] at hlen
  split_ifs at hlen with hlong
  have hlength := Option.some.inj hlen
  have hpayload : payloadLength ((buf.drop start).take length) 0 = payloadLength buf start := by
    unfold payloadLength at hlength ⊢
    rw [code_take (by omega), code_take (by omega), code_drop, code_drop]
  have hmsg : ((buf.drop start).take length).length = length := by
    rw [List.length_take, List.length_drop]
    omega
  generalize (buf.drop start).take length = msg at *
  have hlast : msg[2 + payloadLength msg 0 + 1]? = msg.getLast? := by
    rw [List.getLast?_eq_getElem?, hpayload]
    congr 1
    omega
  have hpast : msg[2 + payloadLength msg 0 + 2]? = none :=
    List.getElem?_eq_none (by omega)
  have hne : msg ≠ [] := by
    rintro rfl
    rw [List.length_nil] at hmsg
    omega
  rw [List.getLast?_eq_some_getLast hne] at hlast
  have hchecksum : ubx.checksum msg =
      if (ubxComputeChecksum msg).1 ≠ msg.getLast hne then some false else none := by
    simp only [ubx, hlast, hpast]
  rw [deliver, hchecksum, raises, List.getLast?_eq_some_getLast hne]
  by_cases hck : (ubxComputeChecksum msg).1 = msg.getLast hne
  · simp [hck]
  · simp [hck, Ne.symm hck]

theorem deliver_isSome_iff (P : GroundProtocol) {stream msg : List UInt8}
    (h : msg ∈ messages P.protocol stream) :
    (deliver P.protocol msg).isSome ↔ ¬ raises P msg := by
  cases P with
  | pprz => exact pprz_deliver_iff h
  | ubx => exact ubx_deliver_iff h
  | xbee =>
      refine iff_of_true ?_ not_false
      simp only [deliver, GroundProtocol.protocol, xbee]
      split <;> simp_all

/-- The parser raises an exception exactly on the strings with such a frame. -/
theorem parse_isSome_iff (P : GroundProtocol) (buf : List UInt8) :
    (parse P.protocol buf).isSome ↔ ∀ msg ∈ messages P.protocol buf, ¬ raises P msg := by
  rw [parse_eq, Option.isSome_map, deliverAll_isSome_iff]
  exact forall₂_congr fun msg hmsg => deliver_isSome_iff P hmsg

/-! ### Reading in pieces -/

/-- The bytes given up and the bytes that follow cut a start of UBX in two. -/
def cutsStart : GroundProtocol → List UInt8 → List UInt8 → Prop
  | .ubx, a, b => a.getLast? = some sync1 ∧ b.head? = some sync2
  | _, _, _ => False

theorem stable_protocol (P : GroundProtocol) : Stable P.protocol := by
  cases P with
  | pprz => exact stable_pprz
  | xbee => exact stable_xbee
  | ubx => exact stable_ubx

theorem keepsStart_givenUp (P : GroundProtocol) (a b : List UInt8)
    (hcut : ¬ cutsStart P (givenUp P.protocol a) b) :
    KeepsStart P.protocol (givenUp P.protocol a) b := by
  have hnone := indexStart_givenUp (P := P.protocol) a
  cases P with
  | pprz => exact index_append_of_none hnone b
  | xbee => exact index_append_of_none hnone b
  | ubx => exact ubxIndexStart_append_of_none hnone hcut

/-- A Pprz frame always fits the buffer, its length is one byte. -/
theorem fitsBuffer_pprz (stream : List UInt8) : FitsBuffer pprz stream where
  messages msg hmsg := by
    obtain ⟨-, hlength⟩ := pprz_message hmsg
    have hcode : code msg 1 < 256 := UInt8.toNat_lt _
    rw [hlength, bufferLen]
    omega
  rest := by
    rcases scan_rest stable_pprz stream with hnil | hscan
    · rw [hnil]
      decide
    · obtain ⟨-, hshort⟩ := scan_notEnough_iff.mp hscan
      generalize stream.drop (used pprz stream) = rest at *
      have hcode : code rest 1 < 256 := UInt8.toNat_lt _
      rw [bufferLen]
      by_contra hlong
      have hlen : pprz.length rest 0 = some (max (code rest 1) 4) := if_pos (by omega)
      have := hshort _ hlen
      omega

/-- The handler gets the same payloads from the reads as from the whole stream and
every byte is used once, for the streams whose frames fit the buffer and raise no
exception, and the reads that do not cut a start in two. -/
theorem reader_chunk_independent (P : GroundProtocol) (chunks : List (List UInt8))
    (hfits : P ≠ .pprz → FitsBuffer P.protocol chunks.flatten)
    (hframes : ∀ msg ∈ messages P.protocol chunks.flatten, ¬ raises P msg)
    (hcuts : CutsOk P.protocol (fun a b => ¬ cutsStart P a b) [] chunks) :
    ChunkIndependent P.protocol chunks := by
  have hfits' : FitsBuffer P.protocol chunks.flatten := by
    cases P with
    | pprz => exact fitsBuffer_pprz chunks.flatten
    | xbee => exact hfits nofun
    | ubx => exact hfits nofun
  refine chunkIndependent_of (stable_protocol P) ?_ hcuts hfits' ?_
  · intro a b hcut
    exact keepsStart_givenUp P a b hcut
  · intro msg hmsg
    exact (deliver_isSome_iff P hmsg).mpr (hframes msg hmsg)

/-- Two XBee frames with one payload byte each, cut in the middle of the second. -/
def xbeeReads : List (List UInt8) := [[0x7e, 0, 1, 5, 0xfa, 0x7e, 0], [1, 6, 0xf9]]

theorem messages_xbeeReads :
    messages xbee xbeeReads.flatten = [[0x7e, 0, 1, 5, 0xfa], [0x7e, 0, 1, 6, 0xf9]] ∧
      used xbee xbeeReads.flatten = 10 := by
  have hfirst : scan xbee xbeeReads.flatten = .frame 0 5 := by decide
  have hsecond : scan xbee [0x7e, 0, 1, 6, 0xf9] = .frame 0 5 := by decide
  have hend : scan xbee [] = .notFound := by decide
  rw [messages_of_frame hfirst, used_of_frame hfirst]
  change _ :: messages xbee [0x7e, 0, 1, 6, 0xf9] = _ ∧
    0 + 5 + used xbee [0x7e, 0, 1, 6, 0xf9] = 10
  rw [messages_of_frame hsecond, used_of_frame hsecond]
  change _ :: _ :: messages xbee [] = _ ∧ 0 + 5 + (0 + 5 + used xbee []) = 10
  rw [messages_of_notFound hend, used_of_notFound hend]
  exact ⟨rfl, rfl⟩

theorem reader_chunk_independent_xbeeReads : ChunkIndependent xbee xbeeReads :=
  reader_chunk_independent .xbee xbeeReads
    (fun _ =>
      { messages := by
          intro msg hmsg
          rw [GroundProtocol.protocol, messages_xbeeReads.1] at hmsg
          simp only [List.mem_cons, List.not_mem_nil, or_false] at hmsg
          rcases hmsg with rfl | rfl <;> decide
        rest := by
          rw [GroundProtocol.protocol, messages_xbeeReads.2]
          decide })
    (fun _ _ => not_false)
    (by
      refine ⟨not_false, ?_⟩
      split
      · trivial
      · exact ⟨not_false, by split <;> trivial⟩)

/-! ### Streams that are not read as a whole -/

theorem index_eq_none {c : UInt8} {buf : List UInt8} (h : ∀ x ∈ buf, x ≠ c) :
    index c buf = none := by
  rw [index, List.findIdx?_eq_none_iff]
  intro x hx
  simpa using h x hx

/-- Bytes without a start are used up. -/
theorem inputParse_of_notFound {P : Protocol} (hP : Stable P) {buf : List UInt8}
    (h : P.indexStart buf = none) : inputParse P buf = some ([], []) := by
  have hscan := scan_notFound_iff.mpr h
  have hdrop : buf.drop (used P buf) = [] := by
    rw [used_of_notFound hscan, List.drop_length]
  rw [inputParse_of_rest hP [], hdrop]
  · rw [messages_of_notFound hscan]
    rfl
  · rw [hdrop]
    decide

theorem xbee_length_long {rest : List UInt8}
    (h : 3 ≤ (0x7e :: 0x08 :: 0x00 :: rest).length) :
    xbee.length (0x7e :: 0x08 :: 0x00 :: rest) 0 = some 2052 := by
  have hmsb : code (0x7e :: 0x08 :: 0x00 :: rest) (0 + 1) = 8 := rfl
  have hlsb : code (0x7e :: 0x08 :: 0x00 :: rest) (0 + 1 + 1) = 0 := rfl
  simp only [xbee, hmsb, hlsb]
  rw [if_neg (by omega)]
  rfl

/-- The reader gives up the start of a frame that fills its buffer, and with it the
frame. -/
theorem input_of_full {body body' : List UInt8} (hlen : body.length = 2045)
    (hbody : ∀ x ∈ body, x ≠ 0x7e) (hbody' : ∀ x ∈ body', x ≠ 0x7e) :
    input xbee [] [0x7e :: 0x08 :: 0x00 :: body, body'] = some ([], []) := by
  have hfull : (0x7e :: 0x08 :: 0x00 :: body).length = bufferLen := by
    simp only [List.length_cons, hlen, bufferLen]
  have hscan : scan xbee (0x7e :: 0x08 :: 0x00 :: body) = .notEnough 0 := by
    refine scan_notEnough_iff.mpr ⟨rfl, ?_⟩
    intro length hlength
    rw [xbee_length_long (hfull ▸ by decide)] at hlength
    rw [hfull, ← Option.some.inj hlength]
    decide
  have hparse : parse xbee (0x7e :: 0x08 :: 0x00 :: body) = some ([], 0) := by
    rw [parse_eq, messages_of_notEnough hscan, used_of_notEnough hscan]
    rfl
  have htail : inputParse xbee (0x08 :: 0x00 :: body) = some ([], []) := by
    refine inputParse_of_notFound stable_xbee (index_eq_none ?_)
    intro x hx
    rcases List.mem_cons.mp hx with rfl | hx
    · decide
    rcases List.mem_cons.mp hx with rfl | hx
    · decide
    · exact hbody x hx
  have hfirst : inputParse xbee (0x7e :: 0x08 :: 0x00 :: body) = some ([], []) := by
    rw [inputParse]
    split
    · rename_i hnone
      exact absurd (hparse.symm.trans hnone) nofun
    · rename_i payloads nbUsed heq
      obtain ⟨rfl, rfl⟩ := Prod.mk.inj (Option.some.inj (hparse.symm.trans heq))
      rw [dif_neg (by decide), dif_pos hfull]
      exact congrArg (Option.map (prepend [])) htail
  have hsecond : inputParse xbee body' = some ([], []) :=
    inputParse_of_notFound stable_xbee (index_eq_none hbody')
  rw [input, List.nil_append, hfirst]
  dsimp only
  rw [input, List.nil_append, hsecond]
  rfl

/-- In the whole stream it is one frame. -/
theorem parse_of_long {data : List UInt8} (hlen : data.length = 2048) :
    parse xbee (0x7e :: 0x08 :: 0x00 :: (data ++ [0xff - Checksum.sum 0 data])) =
      some ([data], 2052) := by
  have hlength : (0x7e :: 0x08 :: 0x00 :: (data ++ [0xff - Checksum.sum 0 data])).length =
      2052 := by
    simp only [List.length_cons, List.length_append, List.length_nil, hlen]
  have htake : ∀ c : UInt8, (data ++ [c]).take 2048 = data := by
    intro c
    rw [← hlen, List.take_left]
  have hscan : scan xbee (0x7e :: 0x08 :: 0x00 :: (data ++ [0xff - Checksum.sum 0 data])) =
      .frame 0 2052 := by
    exact scan_frame_iff.mpr ⟨rfl, xbee_length_long (by omega), by omega⟩
  have hchecksum :
      xbee.checksum (0x7e :: 0x08 :: 0x00 :: (data ++ [0xff - Checksum.sum 0 data])) =
        some true := by
    simp only [xbee, hlength, List.drop_succ_cons, List.drop_zero]
    rw [htake, List.getD_cons_succ, List.getD_cons_succ, List.getD_cons_succ,
      List.getD_append_right _ _ _ _ (by omega), hlen]
    simp
  have hpayload :
      xbee.payload (0x7e :: 0x08 :: 0x00 :: (data ++ [0xff - Checksum.sum 0 data])) =
        some data := by
    simp only [xbee, hlength, List.drop_succ_cons, List.drop_zero]
    rw [htake]
  have hend : scan xbee [] = .notFound := by decide
  have hwhole : ((0x7e :: 0x08 :: 0x00 :: (data ++ [0xff - Checksum.sum 0 data])).drop 0).take
      2052 = 0x7e :: 0x08 :: 0x00 :: (data ++ [0xff - Checksum.sum 0 data]) :=
    List.take_of_length_le (by rw [List.drop_zero]; omega)
  have hrest : (0x7e :: 0x08 :: 0x00 :: (data ++ [0xff - Checksum.sum 0 data])).drop
      (0 + 2052) = [] :=
    List.drop_of_length_le (by omega)
  rw [parse_eq, messages_of_frame hscan, used_of_frame hscan, hwhole, hrest,
    messages_of_notFound hend, used_of_notFound hend, deliverAll, deliver, hchecksum]
  dsimp only
  rw [hpayload]
  rfl

theorem sum_replicate_zero (n : Nat) : Checksum.sum 0 (List.replicate n 0) = 0 := by
  induction n with
  | zero => rfl
  | succ n ih => exact ih

/-- A frame with a length of `0x800 + 4` bytes, read up to the end of the buffer
and then to its own end. -/
def longReads : List (List UInt8) :=
  [0x7e :: 0x08 :: 0x00 :: List.replicate 2045 0, List.replicate 3 0 ++ [0xff]]

theorem flatten_longReads :
    longReads.flatten = 0x7e :: 0x08 :: 0x00 ::
      (List.replicate 2048 0 ++ [0xff - Checksum.sum 0 (List.replicate 2048 0)]) := by
  have hflatten : ∀ body body' : List UInt8,
      [0x7e :: 0x08 :: 0x00 :: body, body'].flatten = 0x7e :: 0x08 :: 0x00 :: (body ++ body') := by
    intro body body'
    simp
  rw [sum_replicate_zero, longReads, hflatten, ← List.append_assoc,
    List.replicate_append_replicate]
  rfl

/-- A frame longer than the buffer is lost, four bytes make the Pprz parser fail,
and a cut between the two bytes of a UBX start loses it. -/
theorem reads_not_chunk_independent :
    ¬ ChunkIndependent xbee longReads ∧
    ¬ ChunkIndependent pprz [[0x99, 0, 0, 0]] ∧
    ¬ ChunkIndependent ubx [[0xb5], [0x62]] := by
  refine ⟨?_, ?_, ?_⟩
  · rintro ⟨payloads, nbUsed, hparse, hinput⟩
    have hzero : ∀ n, ∀ x ∈ List.replicate n (0 : UInt8), x ≠ 0x7e := by
      intro n x hx
      rw [List.eq_of_mem_replicate hx]
      decide
    have hbody' : ∀ x ∈ List.replicate 3 (0 : UInt8) ++ [0xff], x ≠ 0x7e := by
      rintro x hx rfl
      simp at hx
    rw [flatten_longReads, parse_of_long List.length_replicate] at hparse
    rw [longReads, input_of_full List.length_replicate (hzero 2045) hbody'] at hinput
    obtain ⟨rfl, -⟩ := Prod.mk.inj (Option.some.inj hparse)
    cases (Prod.mk.inj (Option.some.inj hinput)).1
  · rintro ⟨payloads, nbUsed, hparse, -⟩
    have hsome := (parse_isSome_iff .pprz [0x99, 0, 0, 0]).mp
      (Option.isSome_iff_exists.mpr ⟨_, hparse⟩)
    refine hsome [0x99, 0, 0, 0] ?_ ⟨0, by decide, rfl⟩
    have hscan : scan pprz [0x99, 0, 0, 0] = .frame 0 4 := by decide
    rw [GroundProtocol.protocol, messages_of_frame hscan]
    exact List.mem_cons_self
  · rintro ⟨payloads, nbUsed, hparse, hinput⟩
    have hscan : scan ubx [0xb5, 0x62] = .notEnough 0 := by decide
    have hwhole : parse ubx [0xb5, 0x62] = some ([], 0) := by
      rw [parse_eq, messages_of_notEnough hscan, used_of_notEnough hscan]
      rfl
    obtain ⟨rfl, rfl⟩ := Prod.mk.inj (Option.some.inj (hwhole.symm.trans hparse))
    have hsync1 : inputParse ubx [0xb5] = some ([], []) :=
      inputParse_of_notFound stable_ubx (by decide)
    have hsync2 : inputParse ubx [0x62] = some ([], []) :=
      inputParse_of_notFound stable_ubx (by decide)
    rw [input, List.nil_append, hsync1] at hinput
    dsimp only at hinput
    rw [input, List.nil_append, hsync2] at hinput
    cases (Prod.mk.inj (Option.some.inj hinput)).2

end Paparazzi.Link.GroundReader
