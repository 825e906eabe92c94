import Mathlib
import Paparazzi.Link.GroundReader
import Paparazzi.Link.Handler

/-!
The link of the ground segment: the handlers of the frames for the transports Pprz, Pprz with a
timestamp and XBee, and what a handler that raises an exception does to the other frames.
-/

namespace Paparazzi.Link.GroundLink

open Paparazzi.Library.Machine
open Paparazzi.Link.GroundReader
open Paparazzi.Link.Handler
open Paparazzi.Link.Serial

/-! ### The transports -/

/-- `PprzTransportBase`: its start byte, the offset of the payload and the overhead. -/
def pprzTransportBase (stx : UInt8) (offsetPayload overheadLength : Nat)
    (hpos : 0 < overheadLength) : Protocol where
  indexStart := index stx
  length buf start :=
    if buf.length - start > 1 then some (max (code buf (start + 1)) overheadLength) else none
  checksum msg :=
    let ck := PprzTransport.computeChecksum msg
    some (ck.1 == msg.getD (msg.length - 2) 0 && ck.2 == msg.getD (msg.length - 1) 0)
  payload msg :=
    if code msg 1 = msg.length ∧ msg.length ≥ overheadLength then
      some ((msg.drop offsetPayload).take (msg.length - overheadLength))
    else none
  indexStart_lt := index_lt
  length_pos := by
    intro buf start len h
    split_ifs at h
    injection h
    omega

theorem pprz_eq : pprz = pprzTransportBase PprzTransport.stx 2 4 (by decide) := rfl

/-- `Pprz.TransportExtended` -/
def pprzExtended : Protocol := pprzTransportBase 0x98 6 8 (by decide)

inductive Transport where
  | pprz
  | pprz2
  | xbee
  deriving DecidableEq, Repr

def Transport.protocol : Transport → Protocol
  | .pprz => GroundReader.pprz
  | .pprz2 => pprzExtended
  | .xbee => GroundReader.xbee

/-! ### The handlers -/

inductive Frame where
  | modemStatus (status : UInt8)
  | atCommandResponse (frameId : UInt8) (comm : List UInt8) (status : UInt8) (value : List UInt8)
  | txStatus (frameId status : UInt8)
  | tx868Status (frameId status retries : UInt8)
  | rxPacket64 (addr : List UInt8) (rssi options : UInt8) (data : List UInt8)
  | rx868Packet (addr : List UInt8) (options : UInt8) (data : List UInt8)
  | rxPacket16 (addr : List UInt8) (rssi options : UInt8) (data : List UInt8)
  deriving DecidableEq, Repr

/-- `Xbee.api_parse_frame`: nothing where an assertion fails, an index is out of bounds or the
frame identifier is unknown. The addresses are kept as their bytes. -/
def apiParseFrame (mode868 : Bool) (s : List UInt8) : Option Frame :=
  let n := s.length
  let byte := fun i => s.getD i 0
  if n = 0 then none
  else if byte 0 = 0x88 then
    if n ≥ 5 then some (.atCommandResponse (byte 1) ((s.drop 2).take 2) (byte 4) (s.drop 5))
    else none
  else if mode868 = false ∧ byte 0 = 0x89 then
    if n = 3 then some (.txStatus (byte 1) (byte 2)) else none
  else if mode868 = true ∧ byte 0 = 0x8b then
    if n = 7 then some (.tx868Status (byte 1) (byte 5) (byte 4)) else none
  else if byte 0 = 0x8a then
    if n ≥ 2 then some (.modemStatus (byte 1)) else none
  else if mode868 = false ∧ byte 0 = 0x80 then
    if n ≥ 11 then some (.rxPacket64 ((s.drop 1).take 8) (byte 9) (byte 10) (s.drop 11))
    else none
  else if mode868 = true ∧ byte 0 = 0x90 then
    if n ≥ 12 then some (.rx868Packet ((s.drop 1).take 8) (byte 11) (s.drop 12)) else none
  else if mode868 = false ∧ (byte 0 = 0x81 ∨ byte 0 = 0x01) then
    if n ≥ 5 then some (.rxPacket16 ((s.drop 1).take 2) (byte 3) (byte 4) (s.drop 5)) else none
  else none

section

variable (process : List UInt8 → Option Unit)

/-- `use_tele_message`: an exception in the processing of the message is printed. -/
def useTeleMessage (payload : List UInt8) : Option Unit :=
  match process payload with
  | some () => some ()
  | none => some ()

/-- `XB.use_message`. A retry of a packet and the traces raise no exception. -/
def useMessage (mode868 : Bool) (frameData : List UInt8) : Option Unit :=
  match apiParseFrame mode868 frameData with
  | none => none
  | some (.rxPacket64 _ _ _ data) => useTeleMessage process data
  | some (.rx868Packet _ _ data) => useTeleMessage process data
  | some (.rxPacket16 _ _ _ data) => useTeleMessage process data
  | some _ => some ()

/-- `parser_of_device`: the handler of a transport. -/
def use (t : Transport) (mode868 : Bool) (payload : List UInt8) : Option Unit :=
  match t with
  | .pprz => useTeleMessage process payload
  | .pprz2 => useTeleMessage process payload
  | .xbee => useMessage process mode868 payload

/-- The handler raises an exception. -/
def raises (t : Transport) (mode868 : Bool) (payload : List UInt8) : Bool :=
  (use process t mode868 payload).isNone

end

/-! ### The other frames -/

section

variable {process : List UInt8 → Option Unit} {mode868 : Bool}

theorem useTeleMessage_eq (payload : List UInt8) : useTeleMessage process payload = some () := by
  unfold useTeleMessage
  cases process payload <;> rfl

/-- Only the parser of the XBee frames lets exceptions out. -/
theorem raises_iff (t : Transport) (payload : List UInt8) :
    raises process t mode868 payload = true ↔
      t = .xbee ∧ apiParseFrame mode868 payload = none := by
  cases t with
  | pprz => simp [raises, use, useTeleMessage_eq]
  | pprz2 => simp [raises, use, useTeleMessage_eq]
  | xbee =>
      simp only [raises, use, useMessage, true_and]
      cases hframe : apiParseFrame mode868 payload with
      | none => simp
      | some frame => cases frame <;> simp [useTeleMessage_eq]

variable {stx : UInt8} {offsetPayload overheadLength : Nat} {hpos : 0 < overheadLength}

theorem stable_base : Stable (pprzTransportBase stx offsetPayload overheadLength hpos) where
  indexStart_append b h := index_append h b
  indexStart_drop := index_drop
  length_append := by
    intro a start len b h
    simp only [pprzTransportBase] at h ⊢
    split_ifs at h with hlong
    rw [if_pos (by rw [List.length_append]; omega), code_append (by omega)]
    exact h
  length_drop a i j := by
    simp only [pprzTransportBase, List.length_drop, code_drop, Nat.sub_sub, Nat.add_assoc]
  length_none := by
    intro a start h
    simp only [pprzTransportBase] at h
    split_ifs at h with hlong
    rw [bufferLen]
    omega

/-- A frame whose length is one byte fits the buffer. -/
theorem fitsBuffer_base (hover : overheadLength < 256) (stream : List UInt8) :
    FitsBuffer (pprzTransportBase stx offsetPayload overheadLength hpos) stream where
  messages msg hmsg := by
    obtain ⟨buf, start, length, -, hlen, -, rfl⟩ := exists_of_mem_messages hmsg
    simp only [pprzTransportBase] at hlen
    split_ifs at hlen
    have hcode : code buf (start + 1) < 256 := UInt8.toNat_lt _
    have hlength := Option.some.inj hlen
    rw [List.length_take, bufferLen]
    omega
  rest := by
    rcases scan_rest stable_base stream with hnil | hscan
    · rw [hnil]
      decide
    · obtain ⟨-, hshort⟩ := scan_notEnough_iff.mp hscan
      generalize stream.drop (used _ stream) = rest at *
      have hcode : code rest 1 < 256 := UInt8.toNat_lt _
      rw [bufferLen]
      by_contra hlong
      have hlt := hshort (max (code rest 1) overheadLength) (if_pos (by omega))
      omega

theorem stable_transport (t : Transport) : Stable t.protocol := by
  cases t with
  | pprz =>
      rw [Transport.protocol, pprz_eq]
      exact stable_base
  | pprz2 => exact @stable_base 0x98 6 8 (by decide)
  | xbee => exact stable_xbee

/-- A start is one byte, which no end of a read cuts. -/
theorem keepsStart_transport (t : Transport) (a b : List UInt8) :
    KeepsStart t.protocol (givenUp t.protocol a) b := by
  have hnone := indexStart_givenUp (P := t.protocol) a
  cases t with
  | pprz => exact index_append_of_none hnone b
  | pprz2 => exact index_append_of_none hnone b
  | xbee => exact index_append_of_none hnone b

/-- The frames that raise no exception are handed on, in every run of reads in which an exception
comes alone: nothing waits before its read, and no frame follows it in the read. -/
theorem other_frames_handed (process : List UInt8 → Option Unit) (t : Transport) (mode868 : Bool)
    (reads : List (List UInt8)) (hfits : t = .xbee → FitsBuffer xbee reads.flatten)
    (hok : RunOk (readFd t.protocol (raises process t mode868))
      (ReadOk t.protocol (raises process t mode868)) start reads) :
    OthersHanded t.protocol (raises process t mode868) reads := by
  refine othersHanded_of_ok (stable_transport t) (keepsStart_transport t) ?_ hok
  cases t with
  | pprz =>
      rw [Transport.protocol, pprz_eq]
      exact fitsBuffer_base (by decide) reads.flatten
  | pprz2 => exact @fitsBuffer_base 0x98 6 8 (by decide) (by decide) reads.flatten
  | xbee => exact hfits rfl

end

/-! ### An exception in the middle of a read -/

/-- An XBee frame with an unknown identifier. -/
def unknownFrame : List UInt8 := [0x7e, 0, 1, 5, 0xfa]

/-- An XBee frame with the status of the modem. -/
def modemFrame : List UInt8 := [0x7e, 0, 2, 0x8a, 6, 0x6f]

theorem frames_nil : messages xbee [] = [] ∧ used xbee [] = 0 := frames_of_rest (Or.inl rfl)

theorem frames_unknownFrame :
    messages xbee unknownFrame = [unknownFrame] ∧ used xbee unknownFrame = 5 := by
  have hscan : scan xbee unknownFrame = .frame 0 5 := by decide
  rw [messages_of_frame hscan, used_of_frame hscan]
  change _ :: messages xbee [] = _ ∧ 0 + 5 + used xbee [] = 5
  rw [frames_nil.1, frames_nil.2]
  exact ⟨rfl, rfl⟩

theorem frames_modemFrame :
    messages xbee modemFrame = [modemFrame] ∧ used xbee modemFrame = 6 := by
  have hscan : scan xbee modemFrame = .frame 0 6 := by decide
  rw [messages_of_frame hscan, used_of_frame hscan]
  change _ :: messages xbee [] = _ ∧ 0 + 6 + used xbee [] = 6
  rw [frames_nil.1, frames_nil.2]
  exact ⟨rfl, rfl⟩

theorem frames_both :
    messages xbee (unknownFrame ++ modemFrame) = [unknownFrame, modemFrame] ∧
      used xbee (unknownFrame ++ modemFrame) = 11 := by
  have hscan : scan xbee (unknownFrame ++ modemFrame) = .frame 0 5 := by decide
  rw [messages_of_frame hscan, used_of_frame hscan]
  change _ :: messages xbee modemFrame = _ ∧ 0 + 5 + used xbee modemFrame = 11
  rw [frames_modemFrame.1, frames_modemFrame.2]
  exact ⟨rfl, rfl⟩

/-- The unknown frame comes in a read of its own. -/
theorem modem_handed_alone :
    OthersHanded xbee (raises (fun _ => none) .xbee false) [unknownFrame, modemFrame] := by
  have hflatten : [unknownFrame, modemFrame].flatten = unknownFrame ++ modemFrame := rfl
  have hfits : FitsBuffer xbee [unknownFrame, modemFrame].flatten := by
    rw [hflatten]
    refine ⟨?_, ?_⟩
    · intro msg hmsg
      rw [frames_both.1] at hmsg
      simp only [List.mem_cons, List.not_mem_nil, or_false] at hmsg
      rcases hmsg with rfl | rfl <;> decide
    · rw [frames_both.2]
      decide
  have hfirst : ReadOk xbee (raises (fun _ => none) .xbee false) start unknownFrame := by
    refine Or.inr ⟨rfl, ?_, ?_⟩
    · rw [frames_unknownFrame.1]
      exact nofun
    · rw [frames_unknownFrame.2]
      rfl
  have hne : unknownFrame ≠ [] := by decide
  have hrest : unknownFrame.drop (used xbee unknownFrame) = [] := by
    rw [frames_unknownFrame.2]
    rfl
  have hpending :
      (readFd xbee (raises (fun _ => none) .xbee false) start unknownFrame).pending = [] := by
    have hfull : (unknownFrame.drop (used xbee unknownFrame)).length < bufferLen := by
      rw [hrest]
      decide
    exact (readFd_of_ok stable_xbee hne hfirst hfull).1.trans hrest
  refine other_frames_handed _ .xbee false _ (fun _ => hfits) ⟨hfirst, Or.inl ?_, trivial⟩
  change ∀ msg ∈ messages xbee
    ((readFd xbee (raises (fun _ => none) .xbee false) start unknownFrame).pending ++ modemFrame), _
  rw [hpending, List.nil_append, frames_modemFrame.1]
  intro msg hmsg
  rw [List.mem_singleton.1 hmsg]
  rfl

/-- The status of the modem, in the same read as the unknown frame before it, is lost. -/
theorem modem_lost :
    messages xbee (unknownFrame ++ modemFrame) = [unknownFrame, modemFrame] ∧
      ¬OthersHanded xbee (raises (fun _ => some ()) .xbee false) [unknownFrame ++ modemFrame] := by
  refine ⟨frames_both.1, fun h => ?_⟩
  have hhanded : (run (readFd xbee (raises (fun _ => some ()) .xbee false)) start
      [unknownFrame ++ modemFrame]).handed = [[5]] := by
    have hne : unknownFrame ++ modemFrame ≠ [] := List.cons_ne_nil _ _
    rw [run_cons, readFd, if_neg hne, start, List.nil_append,
      inputParse_of_raises (by rw [frames_both.1]; rfl), frames_both.1]
    rfl
  have hpayloads : payloads xbee (messages xbee [unknownFrame ++ modemFrame].flatten) =
      [[5], [0x8a, 6]] := by
    change payloads xbee (messages xbee (unknownFrame ++ modemFrame)) = _
    rw [frames_both.1]
    rfl
  rw [OthersHanded, hhanded, hpayloads] at h
  exact absurd h (by decide)

end Paparazzi.Link.GroundLink
