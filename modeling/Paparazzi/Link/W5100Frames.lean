import Mathlib
import Paparazzi.Link.W5100Reception

/-!
The W5100 datalink and frames: it loses nothing when each call that finds packets finds one
frame, and in hardly any other case.
-/

namespace Paparazzi.Link.W5100

open Paparazzi.Library
open Paparazzi.Library.Machine
open Paparazzi.Link.PprzTransport (Parser Status parsePprz feed feed_append feed_cons feed_nil
  stx Reading frameOf airborneFrame airborneFrame_eq expected reading_step parse_ckA parse_ckB
  parse_stx parse_length)

/-! ### Frame by frame -/

/-- What is missing of a frame, whose `STX` may have been received ahead. -/
def remaining (ahead : Bool) (payload : List UInt8) : List UInt8 :=
  (airborneFrame payload).drop ahead.toNat

/-- Each call finds nothing or one frame (what is missing of it) in a packet, perhaps followed by
the `STX` of the next frame in a packet of its own. -/
inductive FrameByFrame : Bool → List (List UInt8) → List (List (List UInt8)) → Prop
  | done : FrameByFrame false [] []
  | nothing {ahead payloads calls} :
      FrameByFrame ahead payloads calls → FrameByFrame ahead payloads ([] :: calls)
  | frame {ahead payload payloads calls} : payload ≠ [] → FrameByFrame false payloads calls →
      FrameByFrame ahead (payload :: payloads) ([remaining ahead payload] :: calls)
  | frameStx {ahead payload payloads calls} : payload ≠ [] → FrameByFrame true payloads calls →
      FrameByFrame ahead (payload :: payloads) ([remaining ahead payload, [stx]] :: calls)

/-- No message waits, and the parser is idle or has received an `STX` ahead. -/
structure Ready (ahead : Bool) (t : Parser) : Prop where
  status : t.status = if ahead then .gotStx else .uninit
  received : t.trans.msgReceived = false

/-! ### A frame is taken exactly -/

/-- The loop takes exactly these bytes, and they complete this message. -/
structure Completes (t : Parser) (data payload : List UInt8) : Prop where
  exact : Exact t data
  status : (feed t data).status = .uninit
  received : (feed t data).trans.msgReceived = true
  contents : (feed t data).trans.contents = payload

section

variable {t : Parser} {c len : UInt8} {data payload : List UInt8}

theorem not_stopped (hstatus : t.status ≠ .uninit) (hreceived : t.trans.msgReceived = false) :
    ¬ Stopped t :=
  continue_iff.mp ⟨hstatus, hreceived⟩

theorem Completes.cons (hgo : ¬ Stopped (parseW5100 t c))
    (h : Completes (parseW5100 t c) data payload) : Completes t (c :: data) payload :=
  ⟨Or.inr ⟨hgo, h.exact⟩, h.status, h.received, h.contents⟩

/-- The two checksum bytes, after a payload whose length was announced. -/
theorem completes_checksum (h : Reading t len payload) (hstatus : t.status = .gotPayload)
    (hlen : payload.length = (len - 4).toNat) :
    Completes t [(Checksum.fletcher len len payload).1, (Checksum.fletcher len len payload).2]
      payload := by
  rw [← h.checksum]
  have hckA : parseW5100 t t.ckA = { t with status := .gotCrc1 } := parse_ckA hstatus
  have hckB := parse_ckB (t := { t with status := .gotCrc1 }) rfl
  apply Completes.cons
  · rw [hckA]
    exact not_stopped Status.noConfusion h.received
  · rw [hckA]
    refine ⟨Or.inl ⟨rfl, ?_⟩, ?_, ?_, ?_⟩
    · exact Or.inl (congrArg Parser.status hckB)
    · exact congrArg Parser.status hckB
    · exact congrArg (fun t => t.trans.msgReceived) hckB
    · rw [feed_cons, feed_nil, hckB]
      apply contents_eq_of_holds h.holds
      rw [h.payloadLen, hlen]

/-- The rest of the payload and the checksum. -/
theorem completes_payload {received : List UInt8} (h : Reading t len received)
    (hidx : t.payloadIdx = UInt8.ofNat received.length)
    (hstatus : t.status = if received.length = expected (len - 4) then .gotPayload else .gotLength)
    (hlen : (received ++ data).length = expected (len - 4))
    (hshort : expected (len - 4) = (len - 4).toNat) :
    Completes t (data ++ [(Checksum.fletcher len len (received ++ data)).1,
      (Checksum.fletcher len len (received ++ data)).2]) (received ++ data) := by
  induction data generalizing t received with
  | nil =>
      rw [List.append_nil] at hlen ⊢
      rw [if_pos hlen] at hstatus
      exact completes_checksum h hstatus (hlen.trans hshort)
  | cons c data ih =>
      have hlt : received.length < expected (len - 4) := by
        rw [← hlen, List.length_append, List.length_cons]
        omega
      rw [if_neg (Nat.ne_of_lt hlt)] at hstatus
      obtain ⟨hreading, hidx', hstatus'⟩ := reading_step h hstatus hidx hlt c
      have hrest := ih hreading hidx' hstatus' (by simpa using hlen)
      rw [List.append_assoc, List.singleton_append] at hrest
      refine Completes.cons (not_stopped ?_ hreading.received) hrest
      change (parsePprz t c).status ≠ .uninit
      rw [hstatus']
      split_ifs <;> exact Status.noConfusion

theorem ofNat_length_add_sub (payload : List UInt8) :
    UInt8.ofNat payload.length + 4 - 4 = UInt8.ofNat payload.length :=
  UInt8.add_sub_cancel _ _

theorem expected_length (hne : payload ≠ []) (hsize : payload.length ≤ 251) :
    expected (UInt8.ofNat payload.length) = payload.length ∧
      (UInt8.ofNat payload.length).toNat = payload.length := by
  have hpos : 0 < payload.length := List.length_pos_iff.mpr hne
  have htoNat : (UInt8.ofNat payload.length).toNat = payload.length := by
    rw [UInt8.toNat_ofNat']
    omega
  refine ⟨?_, htoNat⟩
  rw [expected, if_neg, htoNat]
  intro hzero
  rw [hzero] at htoNat
  exact absurd htoNat (Nat.ne_of_lt hpos)

/-- From the length byte on. -/
theorem completes_length (ht : Ready true t) (hne : payload ≠ []) (hsize : payload.length ≤ 251) :
    Completes t (remaining true payload) payload := by
  obtain ⟨hexpected, htoNat⟩ := expected_length hne hsize
  have hback := ofNat_length_add_sub payload
  have hparse : parseW5100 t (UInt8.ofNat payload.length + 4) = _ :=
    parse_length ht.status ht.received _
  have hreading : Reading (parseW5100 t (UInt8.ofNat payload.length + 4))
      (UInt8.ofNat payload.length + 4) [] := by
    rw [hparse]
    exact ⟨rfl, ht.received, rfl, holds_nil _⟩
  have hstatus : (parseW5100 t (UInt8.ofNat payload.length + 4)).status = .gotLength := by
    rw [hparse]
  have hlen : ([] ++ payload).length = expected (UInt8.ofNat payload.length + 4 - 4) := by
    rw [hback, hexpected]
    rfl
  have hrest := completes_payload hreading (by rw [hparse]; rfl)
    (by
      rw [hstatus, if_neg]
      rw [hback, hexpected]
      exact Nat.ne_of_lt (List.length_pos_iff.mpr hne))
    hlen (by rw [hback, hexpected, htoNat])
  rw [remaining, airborneFrame_eq]
  refine Completes.cons (not_stopped ?_ hreading.received) hrest
  rw [hstatus]
  exact Status.noConfusion

theorem completes_remaining {ahead : Bool} (ht : Ready ahead t) (hne : payload ≠ [])
    (hsize : payload.length ≤ 251) : Completes t (remaining ahead payload) payload := by
  cases ahead with
  | true => exact completes_length ht hne hsize
  | false =>
      have hparse : parseW5100 t stx = { t with status := .gotStx } := parse_stx ht.status
      have hready : Ready true (parseW5100 t stx) := by
        rw [hparse]
        exact ⟨rfl, ht.received⟩
      have hframe : remaining false payload = stx :: remaining true payload := by
        simp [remaining, airborneFrame_eq, frameOf]
      rw [hframe]
      apply Completes.cons _ (completes_length hready hne hsize)
      apply not_stopped _ hready.received
      rw [hready.status]
      exact Status.noConfusion

end

/-! ### Frame by frame is exact -/

section

variable {t : Parser} {c : UInt8} {data payload : List UInt8} {ahead : Bool}
  {payloads : List (List UInt8)} {calls : List (List (List UInt8))}

theorem Completes.ready (h : Completes t data payload) : Ready false (feed t data).taken :=
  ⟨h.status, rfl⟩

/-- A message that waits ends the loop after one byte. -/
theorem received_parse (h : t.trans.msgReceived = true) (c : UInt8) :
    (parseW5100 t c).trans.msgReceived = true := by
  cases hstatus : t.status with
  | uninit => by_cases hc : c = stx <;> simp [parseW5100, parsePprz, hstatus, hc, h]
  | gotStx => simp [parseW5100, parsePprz, PprzTransport.parseError, hstatus, h]
  | gotLength => simp [parseW5100, parsePprz, hstatus, h]
  | gotPayload =>
      by_cases hc : c = t.ckA <;>
        simp [parseW5100, parsePprz, PprzTransport.parseError, hstatus, hc, h]
  | gotCrc1 =>
      by_cases hc : c = t.ckB <;>
        simp [parseW5100, parsePprz, PprzTransport.parseError, hstatus, hc, h]

/-- An `STX` behind a complete frame leaves the message as it is. -/
theorem Completes.stx (h : Completes t data payload) :
    parsePprz (feed t data) stx = { feed t data with status := .gotStx } :=
  parse_stx h.status

theorem Completes.feed_stx (h : Completes t data payload) :
    feed t (data ++ [PprzTransport.stx]) = { feed t data with status := .gotStx } := by
  rw [feed_append, feed_cons, feed_nil, h.stx]

theorem Completes.ready_stx (h : Completes t data payload) :
    Ready true (feed t (data ++ [PprzTransport.stx])).taken := by
  rw [h.feed_stx]
  exact ⟨rfl, rfl⟩

/-- A call that takes a frame delivers its message. -/
theorem Completes.deliveries_cons (h : Completes t data payload)
    (calls : List (List (List UInt8))) :
    deliveries t ([data] :: calls) = payload :: deliveries (feed t data).taken calls := by
  simp only [deliveries, List.flatten_cons, List.flatten_nil, List.append_nil, h.received,
    h.contents, if_true, List.singleton_append]

theorem Completes.deliveries_stx_cons (h : Completes t data payload)
    (calls : List (List (List UInt8))) :
    deliveries t ([data, [PprzTransport.stx]] :: calls) =
      payload :: deliveries (feed t (data ++ [PprzTransport.stx])).taken calls := by
  have hreceived : (feed t (data ++ [PprzTransport.stx])).trans = (feed t data).trans := by
    rw [h.feed_stx]
  simp only [deliveries, List.flatten_cons, List.flatten_nil, List.append_nil, hreceived,
    h.received, h.contents, if_true, List.singleton_append]

theorem Completes.exactRun_cons (h : Completes t data payload)
    (hrest : ExactRun (feed t data).taken calls) : ExactRun t ([data] :: calls) := by
  refine ⟨⟨h.exact, trivial⟩, ?_⟩
  rw [List.flatten_singleton]
  exact hrest

/-- The `STX` is taken as well, though a message waits. -/
theorem Completes.exactRun_stx_cons (h : Completes t data payload)
    (hrest : ExactRun (feed t (data ++ [PprzTransport.stx])).taken calls) :
    ExactRun t ([data, [PprzTransport.stx]] :: calls) :=
  ⟨⟨h.exact, Or.inl ⟨rfl, Or.inr (received_parse h.received PprzTransport.stx)⟩, trivial⟩, hrest⟩

theorem exactRun_of_frameByFrame (h : FrameByFrame ahead payloads calls) (ht : Ready ahead t)
    (hsize : ∀ payload ∈ payloads, payload.length ≤ 251) :
    ExactRun t calls ∧ deliveries t calls = payloads := by
  induction h generalizing t with
  | done => exact ⟨trivial, rfl⟩
  | nothing hrest ih =>
      obtain ⟨hexact, hdeliveries⟩ := ih ht hsize
      simp only [ExactRun, ExactAll, deliveries, List.flatten_nil, feed_nil, ht.received,
        PprzTransport.taken_eq_self ht.received, Bool.false_eq_true, if_false, List.nil_append]
      exact ⟨⟨trivial, hexact⟩, hdeliveries⟩
  | @frame ahead payload payloads calls hne hrest ih =>
      have hframe := completes_remaining ht hne (hsize payload List.mem_cons_self)
      obtain ⟨hexact, hdeliveries⟩ :=
        ih hframe.ready fun payload' hmem => hsize payload' (List.mem_cons_of_mem _ hmem)
      rw [hframe.deliveries_cons, hdeliveries]
      exact ⟨hframe.exactRun_cons hexact, rfl⟩
  | @frameStx ahead payload payloads calls hne hrest ih =>
      have hframe := completes_remaining ht hne (hsize payload List.mem_cons_self)
      obtain ⟨hexact, hdeliveries⟩ :=
        ih hframe.ready_stx fun payload' hmem => hsize payload' (List.mem_cons_of_mem _ hmem)
      rw [hframe.deliveries_stx_cons, hdeliveries]
      exact ⟨hframe.exactRun_stx_cons hexact, rfl⟩

end

/-! ### Exact calls are frame by frame -/

/-- A message that waits, with the four other bytes of its frame. -/
def waiting (t : Parser) : Nat := if t.trans.msgReceived then t.trans.contents.length + 4 else 0

/-- The bytes that the parser has received of a frame. -/
def progress (t : Parser) : Nat :=
  match t.status with
  | .uninit => 0
  | .gotStx => 1
  | .gotLength => t.payloadIdx.toNat + 2
  | .gotPayload => t.trans.payloadLen.toNat + 2
  | .gotCrc1 => t.trans.payloadLen.toNat + 3

/-- The bytes that messages have to come from. -/
def frameBytes (payloads : List (List UInt8)) : Nat :=
  (payloads.map fun payload => payload.length + 4).sum

section

variable {t : Parser} {c : UInt8} {data payload : List UInt8} {ahead : Bool}
  {payloads : List (List UInt8)} {calls : List (List (List UInt8))}

theorem weight_parse (t : Parser) (c : UInt8) :
    waiting (parsePprz t c) + progress (parsePprz t c) ≤ waiting t + progress t + 1 := by
  cases hstatus : t.status with
  | uninit => by_cases hc : c = stx <;> simp [parsePprz, hstatus, hc, waiting, progress]
  | gotStx =>
      cases hreceived : t.trans.msgReceived with
      | true =>
          simp [parsePprz, PprzTransport.parseError, hstatus, hreceived, waiting, progress,
            Transport.contents]
      | false => simp [parsePprz, hstatus, hreceived, waiting, progress]
  | gotLength =>
      have hwaiting : waiting (parsePprz t c) = waiting t := by
        simp [parsePprz, hstatus, waiting, Transport.contents]
      have hidx : (t.payloadIdx + 1).toNat ≤ t.payloadIdx.toNat + 1 := by
        rw [UInt8.toNat_add]
        exact Nat.mod_le _ _
      rw [hwaiting]
      by_cases hlast : t.payloadIdx + 1 = t.trans.payloadLen
      · rw [hlast] at hidx
        simp only [parsePprz, progress, hstatus, hlast, if_true]
        omega
      · simp only [parsePprz, progress, hstatus, hlast, if_false]
        omega
  | gotPayload =>
      by_cases hc : c = t.ckA
      · simp [parsePprz, hstatus, hc, waiting, progress, Transport.contents]
        omega
      · simp [parsePprz, PprzTransport.parseError, hstatus, hc, waiting, progress,
          Transport.contents]
        omega
  | gotCrc1 =>
      by_cases hc : c = t.ckB
      · simp [parsePprz, hstatus, hc, waiting, progress, Transport.contents]
      · simp [parsePprz, PprzTransport.parseError, hstatus, hc, waiting, progress,
          Transport.contents]
        omega

theorem weight_feed (t : Parser) (data : List UInt8) :
    waiting (feed t data) + progress (feed t data) ≤ waiting t + progress t + data.length := by
  induction data generalizing t with
  | nil => exact Nat.le_refl _
  | cons c data ih =>
      have hbyte := weight_parse t c
      have hrest := ih (parsePprz t c)
      rw [feed_cons, List.length_cons]
      omega

theorem progress_taken (t : Parser) : progress t.taken = progress t := rfl

theorem waiting_taken (t : Parser) : waiting t.taken = 0 := rfl

/-- The message of a call, if there is one. -/
theorem frameBytes_message (t : Parser) :
    frameBytes (if t.trans.msgReceived then [t.trans.contents] else []) = waiting t := by
  cases hreceived : t.trans.msgReceived <;> simp [frameBytes, waiting, hreceived]

theorem frameBytes_append (payloads payloads' : List (List UInt8)) :
    frameBytes (payloads ++ payloads') = frameBytes payloads + frameBytes payloads' := by
  simp [frameBytes]

/-- Messages come from received bytes. -/
theorem frameBytes_deliveries_le (t : Parser) (calls : List (List (List UInt8))) :
    frameBytes (deliveries t calls) ≤ waiting t + progress t + calls.flatten.flatten.length := by
  induction calls generalizing t with
  | nil => exact Nat.zero_le _
  | cons call calls ih =>
      have hcall := weight_feed t call.flatten
      have hrest := ih (feed t call.flatten).taken
      rw [progress_taken, waiting_taken] at hrest
      rw [deliveries, frameBytes_append, frameBytes_message, List.flatten_cons,
        List.flatten_append, List.length_append]
      omega

/-- The `STX` and the byte behind it are lost when a message waits. -/
theorem weight_lost (hstatus : t.status = .gotStx) (hreceived : t.trans.msgReceived = true) :
    waiting (parsePprz t c) + progress (parsePprz t c) + 1 = waiting t + progress t := by
  simp [parsePprz, PprzTransport.parseError, hstatus, hreceived, waiting, progress,
    Transport.contents]

/-- A third packet costs two bytes. -/
theorem weight_third (h : Completes t data payload) (c : UInt8) (rest : List UInt8) :
    waiting (feed t (data ++ stx :: c :: rest)) + progress (feed t (data ++ stx :: c :: rest)) <
      waiting t + progress t + (data ++ stx :: c :: rest).length := by
  have hdata := weight_feed t data
  have hstx := weight_parse (feed t data) stx
  have hlost := weight_lost (t := parsePprz (feed t data) stx) (c := c)
    (congrArg Parser.status h.stx) (received_parse h.received stx)
  have hrest := weight_feed (parsePprz (parsePprz (feed t data) stx) c) rest
  rw [feed_append, feed_cons, feed_cons, List.length_append, List.length_cons, List.length_cons]
  omega

theorem length_airborneFrame (payload : List UInt8) :
    (airborneFrame payload).length = payload.length + 4 := by
  rw [airborneFrame_eq, frameOf]
  simp

theorem length_frames (payloads : List (List UInt8)) :
    (payloads.flatMap airborneFrame).length = frameBytes payloads := by
  simp [frameBytes, length_airborneFrame, List.length_flatMap]

/-- The loop stops in one place. -/
theorem exact_unique {data' rest rest' : List UInt8} (h : Exact t data) (h' : Exact t data')
    (heq : data ++ rest = data' ++ rest') : data = data' ∧ rest = rest' := by
  induction data generalizing t data' with
  | nil => exact h.elim
  | cons c data ih =>
      cases data' with
      | nil => exact h'.elim
      | cons c' data' =>
          rw [List.cons_append, List.cons_append, List.cons.injEq] at heq
          obtain ⟨rfl, heq⟩ := heq
          obtain ⟨rfl, hstop⟩ | ⟨hgo, hexact⟩ := h
          · obtain ⟨rfl, -⟩ | ⟨hgo', -⟩ := h'
            · exact ⟨rfl, heq⟩
            · exact absurd hstop hgo'
          · obtain ⟨-, hstop'⟩ | ⟨-, hexact'⟩ := h'
            · exact absurd hstop' hgo
            · obtain ⟨rfl, hrest⟩ := ih hexact hexact' heq
              exact ⟨rfl, hrest⟩

/-- The bytes of a payload do not end the loop. -/
theorem not_exact_of_short {len : UInt8} {received : List UInt8} (h : Reading t len received)
    (hidx : t.payloadIdx = UInt8.ofNat received.length) (hstatus : t.status = .gotLength)
    (hlt : received.length + data.length < expected (len - 4)) : ¬ Exact t data := by
  induction data generalizing t received with
  | nil => exact id
  | cons c data ih =>
      rw [List.length_cons] at hlt
      obtain ⟨hreading, hidx', hstatus'⟩ := reading_step h hstatus hidx (by omega) c
      rw [if_neg (by rw [List.length_append, List.length_singleton]; omega)] at hstatus'
      rintro (⟨-, hstop⟩ | ⟨-, hexact⟩)
      · refine not_stopped ?_ hreading.received hstop
        rw [hstatus']
        exact Status.noConfusion
      · refine ih hreading hidx' hstatus' ?_ hexact
        rw [List.length_append, List.length_singleton]
        omega

/-- Behind a complete frame the loop takes one byte. -/
theorem singleton_of_exact (hreceived : t.trans.msgReceived = true) (h : Exact t data) :
    ∃ c, data = [c] := by
  cases data with
  | nil => exact h.elim
  | cons c data =>
      obtain ⟨rfl, -⟩ | ⟨hgo, -⟩ := h
      · exact ⟨c, rfl⟩
      · exact absurd (Or.inr (received_parse hreceived c)) hgo

theorem ready_stx (ht : Ready false t) : Ready true (parseW5100 t stx) := by
  rw [parseW5100, parse_stx ht.status]
  exact ⟨rfl, ht.received⟩

theorem not_exact_empty_length {rest rest' : List UInt8} (ht : Ready true t)
    (heq : data ++ rest' = remaining true [] ++ rest) (hshort : data.length ≤ w5100RxBufferSize) :
    ¬ Exact t data := by
  cases data with
  | nil => exact id
  | cons c data =>
      obtain ⟨rfl, -⟩ := List.cons.inj heq
      have hparse : parseW5100 t (UInt8.ofNat 0 + 4) = _ := parse_length ht.status ht.received _
      have hreading : Reading (parseW5100 t (UInt8.ofNat 0 + 4)) (UInt8.ofNat 0 + 4) [] := by
        rw [hparse]
        exact ⟨rfl, ht.received, rfl, holds_nil _⟩
      have hstatus : (parseW5100 t (UInt8.ofNat 0 + 4)).status = .gotLength := by
        rw [hparse]
      rintro (⟨-, hstop⟩ | ⟨-, hexact⟩)
      · refine not_stopped ?_ hreading.received hstop
        rw [hstatus]
        exact Status.noConfusion
      · refine not_exact_of_short hreading (by rw [hparse]; rfl) hstatus ?_ hexact
        rw [List.length_cons, w5100RxBufferSize] at hshort
        change 0 + data.length < 256
        omega

/-- The frame of the empty payload does not end in a packet. -/
theorem not_exact_empty {rest rest' : List UInt8} (ht : Ready ahead t)
    (heq : data ++ rest' = remaining ahead [] ++ rest) (hshort : data.length ≤ w5100RxBufferSize) :
    ¬ Exact t data := by
  cases ahead with
  | true => exact not_exact_empty_length ht heq hshort
  | false =>
      cases data with
      | nil => exact id
      | cons c data =>
          have hready := ready_stx ht
          obtain ⟨rfl, hdata⟩ := List.cons.inj heq
          rintro (⟨-, hstop⟩ | ⟨-, hexact⟩)
          · refine not_stopped ?_ hready.received hstop
            rw [hready.status]
            exact Status.noConfusion
          · rw [List.length_cons] at hshort
            exact not_exact_empty_length hready hdata (by omega) hexact

theorem weight_ready (ht : Ready ahead t) : waiting t + progress t = ahead.toNat := by
  rw [waiting, progress, ht.received, ht.status]
  cases ahead <;> rfl

/-- A call that loses a byte of the frames loses a message. -/
theorem deliveries_ne_of_lost {call : List (List UInt8)} (ht : Ready ahead t)
    (hstream : call.flatten.length + calls.flatten.flatten.length + ahead.toNat =
      frameBytes payloads)
    (hlost : waiting (feed t call.flatten) + progress (feed t call.flatten) <
      waiting t + progress t + call.flatten.length) :
    deliveries t (call :: calls) ≠ payloads := by
  intro heq
  have hrest := frameBytes_deliveries_le (feed t call.flatten).taken calls
  rw [progress_taken, waiting_taken] at hrest
  rw [← heq, deliveries, frameBytes_append, frameBytes_message] at hstream
  rw [weight_ready ht] at hlost
  omega

theorem drop_frames (ahead : Bool) (payload : List UInt8) (payloads : List (List UInt8)) :
    ((payload :: payloads).flatMap airborneFrame).drop ahead.toNat =
      remaining ahead payload ++ payloads.flatMap airborneFrame := by
  rw [List.flatMap_cons, List.drop_append_of_le_length, remaining]
  rw [length_airborneFrame]
  have hle := Bool.toNat_le ahead
  omega

/-- With a third packet behind a frame and an `STX` a message is missing. -/
theorem deliveries_third_ne (ht : Ready ahead t) (hframe : Completes t data payload) (c : UInt8)
    (rest : List UInt8) (packets : List (List UInt8))
    (hlength : ((data :: [stx] :: (c :: rest) :: packets).flatten ++ calls.flatten.flatten).length =
      (payloads.flatMap airborneFrame).length - ahead.toNat) (hne : payloads ≠ []) :
    deliveries t ((data :: [stx] :: (c :: rest) :: packets) :: calls) ≠ payloads := by
  obtain ⟨first, others, rfl⟩ := List.exists_cons_of_ne_nil hne
  have hpos : 4 ≤ frameBytes (first :: others) := by
    simp only [frameBytes, List.map_cons, List.sum_cons]
    omega
  have hle := Bool.toNat_le ahead
  rw [List.length_append, length_frames] at hlength
  apply deliveries_ne_of_lost ht
  · omega
  · exact weight_third hframe c (rest ++ packets.flatten)

/-- The byte behind a frame is the `STX` of the next one. -/
theorem stx_of_frames {rest : List UInt8}
    (hrest : [c] ++ rest = (payload :: payloads).flatMap airborneFrame) : c = stx := by
  rw [List.flatMap_cons, airborneFrame_eq] at hrest
  exact (List.cons.inj hrest).1

/-- The first packet of a call is what is missing of a frame. -/
theorem first_of_exact (ht : Ready ahead t) {rest : List UInt8} (hsize : payload.length ≤ 251)
    (hpacket : data.length ≤ w5100RxBufferSize) (hfirst : Exact t data)
    (hstream : data ++ rest = ((payload :: payloads).flatMap airborneFrame).drop ahead.toNat) :
    payload ≠ [] ∧ data = remaining ahead payload ∧ rest = payloads.flatMap airborneFrame := by
  rw [drop_frames] at hstream
  have hne : payload ≠ [] := by
    rintro rfl
    exact not_exact_empty ht hstream hpacket hfirst
  exact ⟨hne, exact_unique hfirst (completes_remaining ht hne hsize).exact hstream⟩

theorem frameByFrame_of_exactRun (ht : Ready ahead t) (hahead : ahead = true → payloads ≠ [])
    (hstream : calls.flatten.flatten = (payloads.flatMap airborneFrame).drop ahead.toNat)
    (hsize : ∀ payload ∈ payloads, payload.length ≤ 251)
    (hpacket : ∀ call ∈ calls, ∀ data ∈ call, data.length ≤ w5100RxBufferSize)
    (hexact : ExactRun t calls) (hdeliveries : deliveries t calls = payloads) :
    FrameByFrame ahead payloads calls := by
  induction calls generalizing t ahead payloads with
  | nil =>
      cases hdeliveries
      cases ahead with
      | true => exact absurd rfl (hahead rfl)
      | false => exact .done
  | cons call calls ih =>
      have hpacket' : ∀ call ∈ calls, ∀ data ∈ call, data.length ≤ w5100RxBufferSize :=
        fun call hmem => hpacket call (List.mem_cons_of_mem _ hmem)
      rw [List.flatten_cons, List.flatten_append] at hstream
      cases call with
      | nil =>
          have htaken := PprzTransport.taken_eq_self ht.received
          simp only [ExactRun, deliveries, List.flatten_nil, feed_nil, ht.received, htaken,
            Bool.false_eq_true, if_false, List.nil_append] at hexact hdeliveries
          exact .nothing (ih ht hahead hstream hsize hpacket' hexact.2 hdeliveries)
      | cons data packets =>
          obtain ⟨⟨hfirst, hothers⟩, hlater⟩ := hexact
          have hlength := congrArg List.length hstream
          rw [List.length_drop] at hlength
          cases payloads with
          | nil =>
              have hnil : data = [] := by simp_all
              rw [hnil] at hfirst
              exact hfirst.elim
          | cons payload payloads =>
              have hsize' : ∀ payload ∈ payloads, payload.length ≤ 251 :=
                fun payload hmem => hsize payload (List.mem_cons_of_mem _ hmem)
              rw [List.flatten_cons, List.append_assoc] at hstream
              obtain ⟨hne, rfl, hrest⟩ := first_of_exact ht (hsize payload List.mem_cons_self)
                (hpacket _ List.mem_cons_self data List.mem_cons_self) hfirst hstream
              have hframe := completes_remaining ht hne (hsize payload List.mem_cons_self)
              cases packets with
              | nil =>
                  rw [hframe.deliveries_cons, List.cons.injEq] at hdeliveries
                  rw [List.flatten_singleton] at hlater
                  exact .frame hne (ih hframe.ready (by rintro ⟨⟩) hrest hsize' hpacket'
                    hlater hdeliveries.2)
              | cons data' packets =>
                  obtain ⟨hsecond, hothers⟩ := hothers
                  obtain ⟨c, rfl⟩ := singleton_of_exact hframe.received hsecond
                  cases payloads with
                  | nil => cases hrest
                  | cons payload' payloads =>
                      rw [List.flatten_cons, List.append_assoc] at hrest
                      obtain rfl := stx_of_frames hrest
                      cases packets with
                      | nil =>
                          rw [hframe.deliveries_stx_cons, List.cons.injEq] at hdeliveries
                          exact .frameStx hne (ih hframe.ready_stx (fun _ => List.cons_ne_nil _ _)
                            (by rw [← hrest]; rfl) hsize' hpacket' hlater hdeliveries.2)
                      | cons data' packets =>
                          cases data' with
                          | nil => exact hothers.1.elim
                          | cons c data' =>
                              exact absurd hdeliveries (deliveries_third_ne ht hframe c data'
                                packets hlength (List.cons_ne_nil _ _))

end

/-! ### Which packets are received without a loss -/

/-- These packets carry the frames of these payloads; those of a call fit into the memory of the
chip. -/
structure Carries (calls : List (List Packet)) (payloads : List (List UInt8)) : Prop where
  stream : (contents calls).flatten.flatten = payloads.flatMap airborneFrame
  payload_le : ∀ payload ∈ payloads, payload.length ≤ 251
  packet_le : ∀ call ∈ calls, ∀ p ∈ call, p.data.length ≤ w5100RxBufferSize
  room : ∀ call ∈ calls, (call.flatMap Packet.bytes).length ≤ rsize

/-- The parser gets the bytes of each packet, all of them and no other, and `dl_buffer` each
payload. -/
def LosesNothing (s : Datalink) (calls : List (List Packet)) (payloads : List (List UInt8)) :
    Prop :=
  (run mainLoop s calls).passed = s.passed ++ (contents calls).flatten.map intact ∧
    (run mainLoop s calls).delivered = s.delivered ++ payloads

theorem losesNothing_iff_exactRun {s : Datalink} {calls : List (List Packet)}
    {payloads : List (List UInt8)} (hchip : Holds s.chip [])
    (hidle : s.tp.trans.msgReceived = false)
    (hroom : ∀ call ∈ calls, (call.flatMap Packet.bytes).length ≤ rsize) :
    LosesNothing s calls payloads ↔
      ExactRun s.tp (contents calls) ∧ deliveries s.tp (contents calls) = payloads := by
  obtain ⟨entries, hpassed, hiff, hdelivered⟩ := run_mainLoop_spec calls hchip hidle hroom
  rw [LosesNothing, hpassed, List.append_cancel_left_eq, hiff]
  apply and_congr_right
  intro hexact
  rw [hdelivered hexact, List.append_cancel_left_eq]

/-- From an idle parser and an empty memory, whatever is in `rx_buf`. -/
theorem w5100_loses_nothing_iff {s : Datalink} {calls : List (List Packet)}
    {payloads : List (List UInt8)} (hchip : Holds s.chip []) (hready : Ready false s.tp)
    (hcarries : Carries calls payloads) :
    LosesNothing s calls payloads ↔ FrameByFrame false payloads (contents calls) := by
  rw [losesNothing_iff_exactRun hchip hready.received hcarries.room]
  constructor
  · rintro ⟨hexact, hdeliveries⟩
    refine frameByFrame_of_exactRun hready (fun h => nomatch h) hcarries.stream
      hcarries.payload_le ?_ hexact hdeliveries
    simp only [contents, List.mem_map]
    rintro _ ⟨call, hcall, rfl⟩ _ hdata
    obtain ⟨p, hp, rfl⟩ := List.mem_map.mp hdata
    exact hcarries.packet_le call hcall p hp
  · intro h
    exact exactRun_of_frameByFrame h hready hcarries.payload_le

/-- A powered-up datalink. -/
def poweredUp : Datalink where
  chip := ⟨fun _ => 0, 0, 0⟩
  rxBuf := fun _ => 0
  tp := ⟨⟨fun _ => 0, 0, false, 0, 0⟩, .uninit, 0, 0, 0⟩
  dlBuffer := fun _ => 0
  dlMsgAvailable := false
  passed := []
  delivered := []

def fromGround (data : List UInt8) : Packet := ⟨[192, 168, 1, 2, 16, 146], rfl, data⟩

theorem holds_poweredUp : Holds poweredUp.chip [] :=
  ⟨rfl, Nat.zero_le _, fun i hi => absurd hi (Nat.not_lt_zero i)⟩

theorem carries_fromGround (payloads : List (List UInt8))
    (hsize : (payloads.flatMap airborneFrame).length ≤ w5100RxBufferSize)
    (hpayload : ∀ payload ∈ payloads, payload.length ≤ 251) :
    Carries [[fromGround (payloads.flatMap airborneFrame)]] payloads := by
  refine ⟨by simp [contents, fromGround], hpayload, ?_, ?_⟩
  · simpa [fromGround] using hsize
  · simp only [List.mem_singleton, forall_eq, List.flatMap_cons, List.flatMap_nil,
      List.append_nil, length_bytes, fromGround]
    simp only [w5100RxBufferSize, rsize] at *
    omega

theorem w5100_loses_nothing_oneFrame :
    LosesNothing poweredUp [[fromGround (airborneFrame [1, 2])]] [[1, 2]] :=
  (w5100_loses_nothing_iff holds_poweredUp ⟨rfl, rfl⟩
    (carries_fromGround [[1, 2]] (by decide) (by decide))).mpr
    (.frame (List.cons_ne_nil _ _) .done)

/-- Two frames in a packet: the bytes of the second one are not parsed. -/
theorem twoFrames_lost :
    Carries [[fromGround ([[1], [2]].flatMap airborneFrame)]] [[1], [2]] ∧
      ¬ LosesNothing poweredUp [[fromGround ([[1], [2]].flatMap airborneFrame)]] [[1], [2]] := by
  have hcarries := carries_fromGround [[1], [2]] (by decide) (by decide)
  have hidle : Ready false poweredUp.tp := ⟨rfl, rfl⟩
  have hframe := completes_remaining hidle (List.cons_ne_nil 1 []) (by decide)
  refine ⟨hcarries, ?_⟩
  rw [losesNothing_iff_exactRun holds_poweredUp rfl hcarries.room]
  rintro ⟨⟨⟨hexact, -⟩, -⟩, -⟩
  have hsame : [[1], [2]].flatMap airborneFrame ++ [] =
      remaining false [1] ++ airborneFrame [2] := by decide
  obtain ⟨heq, -⟩ := exact_unique hexact hframe.exact hsame
  exact absurd heq (by decide)

end Paparazzi.Link.W5100
