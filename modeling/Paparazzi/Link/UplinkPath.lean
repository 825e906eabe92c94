import Paparazzi.Library.Liveness
import Paparazzi.Link.PprzReceive
import Paparazzi.McuPeriph.Uart
import Paparazzi.Rotorcraft.Datalink

/-!
Commands from the ground to the autopilot: the ground writes frames, the receive interrupt stores
their bytes, and `DatalinkEvent` takes them out of the ring, finds the messages and calls
`dl_parse_msg`; the interrupt can come between any two accesses to the ring.
-/

namespace Paparazzi.Link.UplinkPath

open Paparazzi.Library
open Paparazzi.Library.Liveness
open Paparazzi.Library.Machine
open Paparazzi.Link.PprzTransport
open Paparazzi.McuPeriph

/-- The bytes on their way, the receiver, `pprz_tp`, `dl_buffer` (`none` after a write behind it),
whether the main loop is in `ReadPprzBuffer`, the payloads that the ground has sent, and `dl_buffer`
at each call of `dl_parse_msg`; no step reads these two. -/
structure State where
  line : List UInt8
  uart : Uart.State
  tp : Parser
  dlBuffer : Option (List UInt8)
  dlMsgAvailable : Bool
  reading : Bool
  sent : List (List UInt8)
  handled : List (List UInt8)

/-- The bytes in the ring of the receiver. -/
abbrev State.ring (s : State) : List UInt8 := s.uart.uart.rx.contents Uart.bufferSize

inductive Event where
  | send (payload : List UInt8)
  | isr
  | main
  deriving DecidableEq, Repr

def send (payload : List UInt8) (s : State) : State :=
  (packet payload).elim s fun frame =>
    { s with line := s.line ++ frame, sent := s.sent ++ [payload] }

/-- The registers when a byte has come, and when none has. -/
def arrived (c : UInt8) : Uart.RxReads := ⟨true, false, false, false, false, false, false, c⟩

def silent : Uart.RxReads := ⟨false, false, false, false, false, false, false, 0⟩

def isr (s : State) : State :=
  { s with uart := Uart.usartIsr (s.line.head?.elim silent arrived) s.uart, line := s.line.tail }

/-- The end of `PprzCheckAndParse`. -/
def parsePayload (s : State) : State :=
  if s.tp.trans.msgReceived then
    let copied := s.dlBuffer.bind fun buf =>
      pprzParsePayload s.tp.trans ⟨s.tp, [], buf, s.dlMsgAvailable⟩
    { s with
      dlBuffer := copied.map Datalink.dlBuffer
      dlMsgAvailable := copied.elim s.dlMsgAvailable Datalink.dlMsgAvailable
      tp := s.tp.taken }
  else s

def dlCheckAndParse (s : State) : State :=
  if s.dlMsgAvailable then
    { s with handled := s.handled ++ s.dlBuffer.toList, dlMsgAvailable := false }
  else s

/-- The loop of `ReadPprzBuffer`, with `uart_getch`, and what follows it. -/
def readBuffer (s : State) : State :=
  match s.uart.pc with
  | .idle =>
      if Uart.uartCharAvailable s.uart.uart && !s.tp.trans.msgReceived then
        { s with uart := Uart.uartGetch s.uart }
      else dlCheckAndParse (parsePayload { s with reading := false })
  | .moveExtract ret => { s with uart := Uart.mainStep s.uart, tp := parsePprz s.tp ret }
  | _ => { s with uart := Uart.mainStep s.uart }

/-- `DatalinkEvent`, again and again. -/
def mainStep (s : State) : State :=
  if s.reading then readBuffer s
  else if Uart.uartCharAvailable s.uart.uart then { s with reading := true }
  else dlCheckAndParse s

def step (s : State) : Event → State
  | .send payload => send payload s
  | .isr => isr s
  | .main => mainStep s

def initial (rxBuf txBuf : Nat → UInt8) (dlBuffer : List UInt8) : State where
  line := []
  uart := Uart.initial rxBuf txBuf true
  tp := initialParser
  dlBuffer := some dlBuffer
  dlMsgAvailable := false
  reading := false
  sent := []
  handled := []

/-! ### One frame -/

/-- A payload that `dl_buffer` can hold. -/
def Fits (payload : List UInt8) : Prop := payload ≠ [] ∧ payload.length ≤ msgSize

section

variable {p part more : List UInt8} {t : Parser}

theorem length_airborneFrame (p : List UInt8) : (airborneFrame p).length = p.length + 4 := by
  simp [airborneFrame_eq, frameOf]

theorem delivered_of_fits (hp : Fits p) : Delivered p (airborneFrame p) :=
  (delivered_airborneFrame_iff (by have := hp.2; unfold msgSize at this; omega)).mpr hp.1

theorem length_trace (t : Parser) (bytes : List UInt8) :
    (PprzTransport.trace t bytes).length = bytes.length := by
  induction bytes generalizing t with
  | nil => rfl
  | cons c bytes ih => rw [PprzTransport.trace, List.length_cons, ih, List.length_cons]

/-- Within a frame no message is received. -/
theorem msgReceived_feed (hp : Fits p) (ht : Idle t) (h : part ++ more = airborneFrame p) :
    (feed t part).trans.msgReceived = true ↔ more = [] := by
  rcases List.eq_nil_or_concat' part with rfl | ⟨earlier, c, rfl⟩
  · have hframe : more ≠ [] := by
      rintro rfl
      have hlength := congrArg List.length h
      rw [length_airborneFrame] at hlength
      simp at hlength
    simp [hframe, ht.2]
  · have htrace := (delivered_of_fits hp t ht).1
    have hlength := congrArg List.length h
    rw [← h, trace_append, trace_append] at htrace
    simp only [List.length_append, List.length_singleton] at htrace hlength
    have hat := congrArg (·[earlier.length]?) htrace
    simp only [PprzTransport.trace, List.append_assoc, List.singleton_append] at hat
    rw [List.getElem?_append_right (by rw [length_trace]), length_trace, Nat.sub_self,
      List.getElem?_cons_zero] at hat
    rw [feed_append, feed_cons, feed_nil, ← Option.some_inj, hat]
    cases more with
    | nil => simp
    | cons d more =>
        rw [List.getElem?_append_left (by simp; omega), List.getElem?_replicate]
        split_ifs <;> simp

/-- The last byte of a frame leaves the parser before the next one. -/
theorem received_feed (hp : Fits p) (ht : Idle t) {c : UInt8}
    (h : part ++ [c] = airborneFrame p) :
    (feed t (part ++ [c])).status = .uninit ∧
      (feed t (part ++ [c])).trans.contents = p := by
  have hbefore : (feed t part).trans.msgReceived = false :=
    Bool.eq_false_iff.mpr (mt (msgReceived_feed hp ht h).mp (by simp))
  have hafter : (feed t (part ++ [c])).trans.msgReceived = true :=
    (msgReceived_feed hp ht (by rw [List.append_nil, h])).mpr rfl
  refine ⟨?_, h ▸ (delivered_of_fits hp t ht).2⟩
  rw [feed_append, feed_cons, feed_nil] at hafter ⊢
  obtain ⟨hstatus, hck, -⟩ := payloadLen_of_received hbefore hafter
  rw [hck, parse_ckB hstatus]

end

/-! ### The invariant -/

/-- A call of `dl_parse_msg` finds the payload at the start of `dl_buffer`. -/
def Carries (payload buf : List UInt8) : Prop := payload <+: buf ∧ buf.length = msgSize

/-- Where the reception stands when the messages `done` have been handled: within a frame or
between two, or behind one that was received. -/
inductive Phase (s : State) (done rest : List (List UInt8)) : Prop
  | parsing (part : List UInt8) (t : Parser)
      (htaken : s.uart.taken = done.flatMap airborneFrame ++ part)
      (hidle : Idle t) (htp : s.tp = feed t part) (hflag : s.tp.trans.msgReceived = false)
      (hshort : ∀ p ∈ rest.head?, part.length < (airborneFrame p).length)
      (hpc : s.uart.pc = .idle ∨ s.reading = true)
  | received (p : List UInt8) (hp : p ∈ rest.head?)
      (htaken : s.uart.taken = (done ++ [p]).flatMap airborneFrame)
      (hflag : s.tp.trans.msgReceived = true) (hstatus : s.tp.status = .uninit)
      (hcontents : s.tp.trans.contents = p)
      (hpc : s.uart.pc = .idle) (hreading : s.reading = true)

structure Inv (s : State) : Prop where
  rx : Uart.RxInv s.uart
  rxneie : s.uart.usart.cr1.rxneie = true
  fetching : s.uart.pc = .idle ∨ s.uart.pc = .loadByte ∨ ∃ ret, s.uart.pc = .moveExtract ret
  stream : s.uart.received ++ s.line = s.sent.flatMap airborneFrame
  fits : ∀ p ∈ s.sent, Fits p
  buffer : ∃ buf, s.dlBuffer = some buf ∧ buf.length = msgSize
  available : s.dlMsgAvailable = false
  phase : ∃ done rest, s.sent = done ++ rest ∧ List.Forall₂ Carries done s.handled ∧
    Phase s done rest

theorem inv_initial (rxBuf txBuf : Nat → UInt8) {dlBuffer : List UInt8}
    (hbuffer : dlBuffer.length = msgSize) : Inv (initial rxBuf txBuf dlBuffer) where
  rx := Uart.rxInv_initial rxBuf txBuf true
  rxneie := rfl
  fetching := Or.inl rfl
  stream := rfl
  fits := by simp [initial]
  buffer := ⟨dlBuffer, rfl, hbuffer⟩
  available := rfl
  phase := ⟨[], [], rfl, .nil,
    .parsing [] initialParser rfl ⟨rfl, rfl⟩ rfl rfl (by simp) (Or.inl rfl)⟩

/-- The bytes that have come and those on their way. -/
theorem Inv.stream_eq {s : State} (h : Inv s) :
    s.uart.taken ++ (s.ring ++ s.line) = s.sent.flatMap airborneFrame := by
  rw [← List.append_assoc, h.rx.fifo, h.stream]

theorem inv_send {s : State} (h : Inv s) {payload : List UInt8} (hfits : Fits payload) :
    Inv (send payload s) := by
  have hpacket : packet payload = some (airborneFrame payload) :=
    packet_eq_airborneFrame (by have := hfits.2; unfold msgSize at this; omega)
  obtain ⟨done, rest, hsent, hhandled, hphase⟩ := h.phase
  rw [send, hpacket]
  refine ⟨h.rx, h.rxneie, h.fetching, ?_, ?_, h.buffer, h.available, done, rest ++ [payload], ?_,
    hhandled, ?_⟩
  · simp [← h.stream]
  · exact List.forall_mem_append.mpr ⟨h.fits, by simpa using hfits⟩
  · simp [hsent]
  · cases hphase with
    | parsing part t htaken hidle htp hflag hshort hpc =>
        refine .parsing part t htaken hidle htp hflag ?_ hpc
        cases rest with
        | nil =>
            -- nothing that was sent is in the parser
            have hpart : part = [] := by
              have hstream := h.stream_eq
              rw [htaken, hsent, List.append_nil, List.append_assoc] at hstream
              exact (List.append_eq_nil_iff.mp (List.append_right_eq_self.mp hstream)).1
            simp [hpart, length_airborneFrame]
        | cons p rest => simpa using hshort
    | received p hp htaken hflag hstatus hcontents hpc hreading =>
        refine .received p ?_ htaken hflag hstatus hcontents hpc hreading
        simp_all [List.head?_append]

theorem usartIsr_frame (r : Uart.RxReads) (s : Uart.State) :
    (Uart.usartIsr r s).pc = s.pc ∧ (Uart.usartIsr r s).taken = s.taken ∧
      (Uart.usartIsr r s).usart.cr1.rxneie = s.usart.cr1.rxneie := by
  obtain ⟨-, -, husart, hpc, -, htaken⟩ := Uart.usartIsrRx_frame r (Uart.usartIsrTx s)
  rw [Uart.usartIsr, husart, hpc, htaken]
  unfold Uart.usartIsrTx
  split_ifs <;> exact ⟨rfl, rfl, rfl⟩

/-- What the handler adds to a ring that has room. -/
theorem contents_usartIsr {s : Uart.State} (h : Uart.RxInv s) (hie : s.usart.cr1.rxneie = true)
    (r : Uart.RxReads)
    (hroom : r.clean = true → s.uart.rx.count Uart.bufferSize + 1 ≠ Uart.bufferSize) :
    (Uart.usartIsr r s).received = s.received ++ (if r.clean then [r.data] else []) ∧
      (Uart.usartIsr r s).uart.rx.contents Uart.bufferSize =
        s.uart.rx.contents Uart.bufferSize ++ (if r.clean then [r.data] else []) := by
  have hsame : (Uart.usartIsrTx s).uart.rx = s.uart.rx ∧
      (Uart.usartIsrTx s).usart.cr1.rxneie = s.usart.cr1.rxneie ∧
      (Uart.usartIsrTx s).received = s.received := by
    unfold Uart.usartIsrTx
    split_ifs <;> exact ⟨rfl, rfl, rfl⟩
  obtain ⟨hcontents, hreceived, -⟩ := Uart.usartIsrRx_contents (Uart.rxInv_isrTx h).ok r
  rw [hsame.1, hsame.2.1, hie] at hcontents hreceived
  rw [hsame.2.2] at hreceived
  rw [Uart.usartIsr, hcontents, hreceived]
  cases hclean : r.clean with
  | false => simp
  | true => simp [hroom hclean]

theorem Phase.isr {s : State} {done rest : List (List UInt8)} (h : Phase s done rest)
    (line : List UInt8) (r : Uart.RxReads) :
    Phase { s with uart := Uart.usartIsr r s.uart, line := line } done rest := by
  obtain ⟨hpc', htaken', -⟩ := usartIsr_frame r s.uart
  cases h with
  | parsing part t htaken hidle htp hflag hshort hpc =>
      exact .parsing part t (htaken'.trans htaken) hidle htp hflag hshort (hpc'.symm ▸ hpc)
  | received p hp htaken hflag hstatus hcontents hpc hreading =>
      exact .received p hp (htaken'.trans htaken) hflag hstatus hcontents (hpc'.trans hpc) hreading

/-- No byte comes while the ring is full. -/
def Room (s : State) : Prop :=
  s.line ≠ [] → s.uart.uart.rx.count Uart.bufferSize + 1 ≠ Uart.bufferSize

/-- The interrupt moves the next byte of the line to the ring. -/
theorem contents_isr {s : State} (h : Inv s) (hroom : Room s) :
    (isr s).uart.received = s.uart.received ++ s.line.head?.toList ∧
      (isr s).ring =
        s.ring ++ s.line.head?.toList := by
  have hcontents := contents_usartIsr h.rx h.rxneie (s.line.head?.elim silent arrived)
  unfold Room at hroom
  rw [isr]
  cases hline : s.line with
  | nil => simpa [hline, silent, Uart.RxReads.clean] using hcontents
  | cons c line => simpa [hline, arrived, Uart.RxReads.clean, hroom] using hcontents

theorem inv_isr {s : State} (h : Inv s) (hroom : Room s) : Inv (isr s) := by
  obtain ⟨hpc, -, hie⟩ := usartIsr_frame (s.line.head?.elim silent arrived) s.uart
  obtain ⟨done, rest, hsent, hhandled, hphase⟩ := h.phase
  refine ⟨Uart.rxInv_isrRx (Uart.rxInv_isrTx h.rx) _, hie.trans h.rxneie, ?_, ?_, h.fits, h.buffer,
    h.available, done, rest, hsent, hhandled, hphase.isr s.line.tail _⟩
  · rw [isr, hpc]
    exact h.fetching
  · rw [(contents_isr h hroom).1]
    refine Eq.trans ?_ h.stream
    rw [List.append_assoc]
    cases hline : s.line <;> simp [isr, hline]

/-- The main loop takes a byte out of the ring only while no message is received. -/
theorem Phase.fetch {s : State} {done rest : List (List UInt8)} (h : Phase s done rest)
    (hreading : s.reading = true) (hdown : s.tp.trans.msgReceived = false) (pc : Uart.Pc) :
    Phase { s with uart := { s.uart with pc := pc } } done rest := by
  cases h with
  | parsing part t htaken hidle htp _ hshort _ =>
      exact .parsing part t htaken hidle htp hdown hshort (Or.inr hreading)
  | received _ _ _ hflag => simp [hdown] at hflag

theorem Inv.down_of_busy {s : State} (h : Inv s) (hpc : s.uart.pc ≠ .idle) :
    s.reading = true ∧ s.tp.trans.msgReceived = false := by
  obtain ⟨done, rest, -, -, hphase⟩ := h.phase
  cases hphase with
  | parsing _ _ _ _ _ hflag _ hbusy => exact ⟨hbusy.resolve_left hpc, hflag⟩
  | received _ _ _ _ _ _ hidle => exact absurd hidle hpc

/-- A byte is taken from the ring and parsed. -/
theorem Phase.byte {s : State} (h : Inv s) {done rest : List (List UInt8)}
    (hphase : Phase s done rest) (hsent : s.sent = done ++ rest) {ret : UInt8}
    (hpc : s.uart.pc = .moveExtract ret) (hrx : Uart.RxInv (Uart.mainStep s.uart)) :
    Phase { s with uart := Uart.mainStep s.uart, tp := parsePprz s.tp ret } done rest := by
  have hreading := (h.down_of_busy (by simp [hpc])).1
  have hmoved : (Uart.mainStep s.uart).taken = s.uart.taken ++ [ret] ∧
      (Uart.mainStep s.uart).received = s.uart.received ∧ (Uart.mainStep s.uart).pc = .idle := by
    rw [Uart.mainStep, hpc]
    exact ⟨rfl, rfl, rfl⟩
  obtain ⟨htaken', hreceived', hidle'⟩ := hmoved
  have hstream := h.stream
  rw [← hreceived', ← hrx.fifo, htaken'] at hstream
  cases hphase with
  | received _ _ _ _ _ _ hidle => simp [hpc] at hidle
  | parsing part t htaken hidle htp hflag hshort _ =>
      rw [htaken, hsent, List.flatMap_append] at hstream
      simp only [List.append_assoc, List.append_cancel_left_eq] at hstream
      cases rest with
      | nil => simp at hstream
      | cons p rest =>
          have hfits : Fits p := h.fits p (by simp [hsent])
          -- the byte belongs to the frame that has begun
          have hread : part ++ [ret] <+: (p :: rest).flatMap airborneFrame := by
            rw [← hstream, ← List.append_assoc]
            exact List.prefix_append _ _
          obtain ⟨more, hmore⟩ := List.prefix_of_prefix_length_le hread
            (List.prefix_append (airborneFrame p) _) (by simpa using hshort p (by simp))
          have htp' : parsePprz s.tp ret = feed t (part ++ [ret]) := by
            rw [htp, feed_append, feed_cons, feed_nil]
          have hflag' := msgReceived_feed hfits hidle hmore
          rw [← htp'] at hflag'
          rcases List.eq_nil_or_concat' more with rfl | ⟨front, last, rfl⟩
          · rw [List.append_nil] at hmore
            obtain ⟨hstatus, hcontents⟩ := received_feed hfits hidle hmore
            rw [← htp'] at hstatus hcontents
            refine .received p rfl ?_ (hflag'.mpr rfl) hstatus hcontents hidle' hreading
            simp [htaken', htaken, ← hmore]
          · refine .parsing (part ++ [ret]) t ?_ hidle htp' ?_ ?_ (Or.inl hidle')
            · simp [htaken', htaken]
            · exact Bool.eq_false_iff.mpr (mt hflag'.mp (by simp))
            · have hlength := congrArg List.length hmore
              simp at hlength ⊢
              omega

/-- The end of the loop: a message that was received is handled. -/
theorem inv_endOfRead {s : State} (h : Inv s) (hpc : s.uart.pc = .idle) :
    Inv (dlCheckAndParse (parsePayload { s with reading := false })) := by
  obtain ⟨done, rest, hsent, hhandled, hphase⟩ := h.phase
  cases hphase with
  | parsing part t htaken hidle htp hflag hshort _ =>
      have hstay : dlCheckAndParse (parsePayload { s with reading := false }) =
          { s with reading := false } := by
        simp [parsePayload, hflag, dlCheckAndParse, h.available]
      rw [hstay]
      exact ⟨h.rx, h.rxneie, h.fetching, h.stream, h.fits, h.buffer, h.available, done, rest, hsent,
        hhandled, .parsing part t htaken hidle htp hflag hshort (Or.inl hpc)⟩
  | received p hp htaken hflag hstatus hcontents _ hreading =>
      obtain ⟨rest, rfl⟩ := List.head?_eq_some_iff.mp hp
      obtain ⟨buf, hbuf, hlength⟩ := h.buffer
      have hfits : Fits p := h.fits p (by simp [hsent])
      have hcopy : pprzParsePayload s.tp.trans ⟨s.tp, [], buf, s.dlMsgAvailable⟩ =
          some ⟨s.tp, [], p ++ buf.drop p.length, true⟩ := by
        rw [pprzParsePayload, hcontents, if_neg (Nat.not_lt.mpr hfits.2)]
      have hcopied : (p ++ buf.drop p.length).length = msgSize := by
        have := hfits.2
        simp [hlength]
        omega
      have hend : dlCheckAndParse (parsePayload { s with reading := false }) =
          { s with
            reading := false
            tp := s.tp.taken
            dlBuffer := some (p ++ buf.drop p.length)
            handled := s.handled ++ [p ++ buf.drop p.length]
            dlMsgAvailable := false } := by
        simp [parsePayload, hflag, hbuf, hcopy, dlCheckAndParse]
      rw [hend]
      refine ⟨h.rx, h.rxneie, h.fetching, h.stream, h.fits, ⟨_, rfl, hcopied⟩, rfl, done ++ [p],
        rest, by simp [hsent], ?_, ?_⟩
      · exact List.rel_append hhandled (.cons ⟨List.prefix_append _ _, hcopied⟩ .nil)
      · refine .parsing [] s.tp.taken ?_ ⟨hstatus, rfl⟩ rfl rfl ?_ (Or.inl hpc)
        · simp [htaken]
        · simp [length_airborneFrame]

theorem inv_mainStep {s : State} (h : Inv s) : Inv (mainStep s) := by
  have hmain := Uart.rxInv_step h.rx .main
  rw [Uart.step] at hmain
  obtain ⟨done, rest, hsent, hhandled, hphase⟩ := h.phase
  rw [mainStep]
  split_ifs with hreading hchar
  · unfold readBuffer
    rcases h.fetching with hpc | hpc | ⟨ret, hpc⟩
    · simp only [hpc]
      split_ifs with hmore
      · obtain ⟨hchar, hdown⟩ := Bool.and_eq_true_iff.mp hmore
        have hget := Uart.rxInv_step h.rx .getch
        have hstart : Uart.uartGetch s.uart = { s.uart with pc := .loadByte } := if_pos hchar
        rw [Uart.step, if_pos hpc, hstart] at hget
        rw [hstart]
        exact ⟨hget, h.rxneie, Or.inr (Or.inl rfl), h.stream, h.fits, h.buffer, h.available, done,
          rest, hsent, hhandled, hphase.fetch hreading (by simpa using hdown) .loadByte⟩
      · exact inv_endOfRead h hpc
    · simp only [hpc]
      have hdown := (h.down_of_busy (by simp [hpc])).2
      have hload : Uart.mainStep s.uart =
          { s.uart with pc := .moveExtract s.uart.uart.rx.head } := by
        rw [Uart.mainStep, hpc]
      rw [hload] at hmain ⊢
      exact ⟨hmain, h.rxneie, Or.inr (Or.inr ⟨_, rfl⟩), h.stream, h.fits, h.buffer, h.available,
        done, rest, hsent, hhandled, hphase.fetch hreading hdown _⟩
    · simp only [hpc]
      have hframe : (Uart.mainStep s.uart).usart = s.uart.usart ∧
          (Uart.mainStep s.uart).received = s.uart.received ∧
          (Uart.mainStep s.uart).pc = .idle := by
        rw [Uart.mainStep, hpc]
        exact ⟨rfl, rfl, rfl⟩
      refine ⟨hmain, ?_, Or.inl hframe.2.2, ?_, h.fits, h.buffer, h.available, done, rest, hsent,
        hhandled, hphase.byte h hsent hpc hmain⟩
      · simp only [hframe.1, h.rxneie]
      · simp only [hframe.2.1, h.stream]
  · refine ⟨h.rx, h.rxneie, h.fetching, h.stream, h.fits, h.buffer, h.available, done, rest, hsent,
      hhandled, ?_⟩
    cases hphase with
    | parsing part t htaken hidle htp hflag hshort _ =>
        exact .parsing part t htaken hidle htp hflag hshort (Or.inr rfl)
    | received _ _ _ _ _ _ _ hreading' => exact absurd hreading' hreading
  · rw [dlCheckAndParse, h.available]
    exact h

/-- Messages for `dl_buffer`, and bytes that find room. -/
def Permitted (s : State) : Event → Prop
  | .send payload => Fits payload
  | .isr => Room s
  | .main => True

theorem inv_step {s : State} {e : Event} (h : Inv s) (he : Permitted s e) : Inv (step s e) := by
  cases e with
  | send payload => exact inv_send h he
  | isr => exact inv_isr h he
  | main => exact inv_mainStep h

/-- The main loop has something to do. -/
def Waiting (s : State) : Prop := s.ring ≠ [] ∨ s.tp.trans.msgReceived = true

instance (s : State) : Decidable (Waiting s) := inferInstanceAs (Decidable (_ ∨ _))

/-- Nothing is on its way. -/
def Drained (s : State) : Prop := s.line = [] ∧ ¬ Waiting s

theorem handled_of_inv {s : State} (h : Inv s) :
    ∃ k, List.Forall₂ Carries (s.sent.take k) s.handled ∧ (Drained s → s.sent.take k = s.sent) := by
  obtain ⟨done, rest, hsent, hhandled, hphase⟩ := h.phase
  refine ⟨done.length, by rwa [hsent, List.take_left], fun hs => ?_⟩
  obtain ⟨hring, hdown⟩ := not_or.mp hs.2
  cases hphase with
  | received _ _ _ hflag => exact absurd hflag hdown
  | parsing part t htaken hidle htp hflag hshort _ =>
      have hstream := h.stream_eq
      rw [hs.1, not_not.mp hring, htaken, hsent, List.flatMap_append] at hstream
      simp only [List.append_nil, List.append_cancel_left_eq] at hstream
      cases rest with
      | nil => simp [hsent]
      | cons p rest =>
          have hless := hshort p (by simp)
          rw [hstream, List.flatMap_cons, List.length_append] at hless
          omega

/-- Wherever the interrupt comes, the calls of `dl_parse_msg` get the first messages of those sent,
each once and in order, at the start of `dl_buffer`, and all of them when nothing is on its way. -/
theorem uplink_in_order (rxBuf txBuf : Nat → UInt8) {dlBuffer : List UInt8}
    (hbuffer : dlBuffer.length = msgSize) {events : List Event}
    (hok : RunOk step Permitted (initial rxBuf txBuf dlBuffer) events) :
    let s := run step (initial rxBuf txBuf dlBuffer) events
    ∃ k, List.Forall₂ Carries (s.sent.take k) s.handled ∧ (Drained s → s.sent.take k = s.sent) :=
  handled_of_inv (run_invariant Inv (fun _ _ h he => inv_step h he)
    (inv_initial rxBuf txBuf hbuffer) hok)

theorem uplink_in_order_ping :
    let s := run step (initial (fun _ => 0) (fun _ => 0) (List.replicate msgSize 0))
      [.send [0, 8], .isr, .main]
    ∃ k, List.Forall₂ Carries (s.sent.take k) s.handled ∧ (Drained s → s.sent.take k = s.sent) :=
  uplink_in_order (fun _ => 0) (fun _ => 0) (by simp)
    ⟨⟨by decide, by decide⟩, fun _ => by decide, trivial, trivial⟩

/-! ### Progress -/

/-- The steps of the main loop up to the next byte. -/
def toGo (s : State) : Nat :=
  if s.reading then
    if s.tp.trans.msgReceived then 5
    else
      match s.uart.pc with
      | .idle => 3
      | .loadByte => 2
      | _ => 1
  else 4

theorem toGo_le (s : State) : toGo s ≤ 5 := by
  unfold toGo
  split_ifs
  · decide
  · split <;> decide
  · decide

def rank (s : State) : Nat :=
  20 * s.line.length + 10 * s.ring.length + if Waiting s then toGo s else 0

/-- Whether the main loop has to do something next, or the interrupt. -/
def helpful (s : State) : Bool := s.line = []

def turn : Bool → Event
  | true => .main
  | false => .isr

theorem endOfRead_frame (s : State) :
    (dlCheckAndParse (parsePayload s)).line = s.line ∧
      (dlCheckAndParse (parsePayload s)).uart = s.uart ∧
      (dlCheckAndParse (parsePayload s)).reading = s.reading ∧
      (dlCheckAndParse (parsePayload s)).sent = s.sent := by
  have hdl (s : State) : (dlCheckAndParse s).line = s.line ∧ (dlCheckAndParse s).uart = s.uart ∧
      (dlCheckAndParse s).reading = s.reading ∧ (dlCheckAndParse s).sent = s.sent := by
    unfold dlCheckAndParse
    split_ifs <;> exact ⟨rfl, rfl, rfl, rfl⟩
  obtain ⟨hline, huart, hreading, hsent⟩ := hdl (parsePayload s)
  rw [hline, huart, hreading, hsent]
  unfold parsePayload
  split_ifs <;> exact ⟨rfl, rfl, rfl, rfl⟩

theorem mainStep_frame (s : State) : (mainStep s).line = s.line ∧ (mainStep s).sent = s.sent := by
  rw [mainStep]
  split_ifs
  · unfold readBuffer
    obtain ⟨hline, -, -, hsent⟩ := endOfRead_frame { s with reading := false }
    split
    · split_ifs
      · exact ⟨rfl, rfl⟩
      · exact ⟨hline, hsent⟩
    · exact ⟨rfl, rfl⟩
    · exact ⟨rfl, rfl⟩
  · exact ⟨rfl, rfl⟩
  · unfold dlCheckAndParse
    split_ifs <;> exact ⟨rfl, rfl⟩

section

variable {s : State}

theorem uartCharAvailable_iff (h : Inv s) :
    Uart.uartCharAvailable s.uart.uart = true ↔ s.ring ≠ [] := by
  rw [Ne, Ring.contents_eq_nil_iff h.rx.ok]
  simp [Uart.uartCharAvailable]

/-- A received message is noticed before the next byte. -/
theorem Inv.reading_of_received (h : Inv s) (hflag : s.tp.trans.msgReceived = true) :
    s.reading = true ∧ s.uart.pc = .idle := by
  obtain ⟨done, rest, -, -, hphase⟩ := h.phase
  cases hphase with
  | parsing _ _ _ _ _ hdown => simp [hflag] at hdown
  | received _ _ _ _ _ _ hpc hreading => exact ⟨hreading, hpc⟩

/-- Each step brings the main loop nearer to the next byte or past it. -/
theorem rank_mainStep (h : Inv s) (hwaiting : Waiting s) : rank (mainStep s) < rank s := by
  have hchar := uartCharAvailable_iff h
  have hbound : rank (mainStep s) ≤
      20 * s.line.length + 10 * (mainStep s).ring.length + toGo (mainStep s) := by
    rw [rank, (mainStep_frame s).1]
    split_ifs <;> omega
  have hrank : rank s = 20 * s.line.length + 10 * s.ring.length + toGo s := by
    rw [rank, if_pos hwaiting]
  rw [hrank]
  refine Nat.lt_of_le_of_lt hbound ?_
  cases hreading : s.reading with
  | false =>
      have hring : s.ring ≠ [] := hwaiting.resolve_right fun hflag => by
        simpa [hreading] using (h.reading_of_received hflag).1
      have hdown : s.tp.trans.msgReceived = false := Bool.eq_false_iff.mpr fun hflag => by
        simpa [hreading] using (h.reading_of_received hflag).1
      have hpc : s.uart.pc = .idle := by
        by_contra hbusy
        simpa [hreading] using (h.down_of_busy hbusy).1
      simp [mainStep, hreading, hchar.mpr hring, toGo, hdown, hpc]
  | true =>
      rcases h.fetching with hpc | hpc | ⟨ret, hpc⟩
      · cases hflag : s.tp.trans.msgReceived with
        | true =>
            obtain ⟨-, huart, hdone, -⟩ := endOfRead_frame { s with reading := false }
            have hend : mainStep s =
                dlCheckAndParse (parsePayload { s with reading := false }) := by
              simp [mainStep, hreading, readBuffer, hpc, hflag]
            simp [hend, toGo, hdone, State.ring, huart, hreading, hflag]
        | false =>
            have hring := hwaiting.resolve_right (by simp [hflag])
            simp [mainStep, readBuffer, hpc, hflag, toGo, hreading, hchar.mpr hring, Uart.uartGetch]
      · have hdown := (h.down_of_busy (by simp [hpc])).2
        simp [mainStep, readBuffer, hpc, Uart.mainStep, toGo, hreading, hdown]
      · have hfetched := h.rx.fetched
        rw [hpc] at hfetched
        have hcons : s.ring.length = (mainStep s).ring.length + 1 := by
          simp only [State.ring, Ring.contents_eq_cons h.rx.ok hfetched.1, mainStep, hreading,
            readBuffer, hpc, Uart.mainStep, List.length_cons, if_true]
        have hle := toGo_le (mainStep s)
        omega

/-- A main loop with nothing to do goes round. -/
theorem mainStep_idle (h : Inv s) (hidle : ¬ Waiting s) : ¬ Waiting (mainStep s) := by
  obtain ⟨hring, hflag⟩ := not_or.mp hidle
  have hchar : Uart.uartCharAvailable s.uart.uart ≠ true := mt (uartCharAvailable_iff h).mp hring
  have hpc : s.uart.pc = .idle := by
    have hfetched := h.rx.fetched
    have hempty := (Ring.contents_eq_nil_iff h.rx.ok).mp (not_not.mp hring)
    rcases h.fetching with hpc | hpc | ⟨ret, hpc⟩
    · exact hpc
    · rw [hpc] at hfetched
      exact absurd hempty hfetched
    · rw [hpc] at hfetched
      exact absurd hempty hfetched.1
  have hset := h.available
  rw [mainStep, if_neg hchar]
  split_ifs
  · simpa [readBuffer, hpc, hchar, parsePayload, hflag, dlCheckAndParse, hset, Waiting] using hidle
  · simpa [dlCheckAndParse, hset] using hidle

theorem drained_step (h : Inv s) (hs : Drained s) {e : Event} (he : ∀ p, e ≠ .send p) :
    Drained (step s e) := by
  cases e with
  | send payload => exact absurd rfl (he payload)
  | isr =>
      have hring := (contents_isr h fun hline => absurd hs.1 hline).2
      rw [hs.1, List.head?_nil, Option.toList_none, List.append_nil] at hring
      refine ⟨by simp [step, isr, hs.1], fun hwaiting => hs.2 ?_⟩
      rw [step, Waiting, hring] at hwaiting
      exact hwaiting
  | main => exact ⟨(mainStep_frame s).1.trans hs.1, mainStep_idle h hs.2⟩

/-- An event brings what was sent nearer to the handler, or it leaves open what has to happen next
and is not it. -/
theorem progress (h : Inv s) (hs : ¬ Drained s) {e : Event} (he : ∀ p, e ≠ .send p)
    (hok : Permitted s e) :
    rank (step s e) < rank s ∨
      rank (step s e) = rank s ∧ helpful (step s e) = helpful s ∧ ¬ e = turn (helpful s) := by
  cases e with
  | send payload => exact absurd rfl (he payload)
  | main =>
      by_cases hwaiting : Waiting s
      · exact Or.inl (rank_mainStep h hwaiting)
      · right
        have hline : s.line ≠ [] := fun hline => hs ⟨hline, hwaiting⟩
        have hidle := mainStep_idle h hwaiting
        have hring := not_not.mp (not_or.mp hwaiting).1
        have hring' := not_not.mp (not_or.mp hidle).1
        refine ⟨?_, ?_, ?_⟩
        · rw [rank, rank, step, if_neg hidle, if_neg hwaiting, hring, hring', (mainStep_frame s).1]
        · rw [helpful, helpful, step, (mainStep_frame s).1]
        · simp [helpful, turn, hline]
  | isr =>
      have hring := (contents_isr h hok).2
      cases hline : s.line with
      | cons c line =>
          left
          have hle := toGo_le (isr s)
          have hless : (isr s).line.length + 1 = s.line.length := by simp [isr, hline]
          rw [rank, rank, step, hring, hline]
          rw [hline] at hless
          simp only [List.head?_cons, Option.toList_some, List.length_append,
            List.length_singleton]
          split_ifs <;> omega
      | nil =>
          right
          rw [hline, List.head?_nil, Option.toList_none, List.append_nil] at hring
          have hsame : (isr s).line = s.line := by simp [isr, hline]
          have hpc : (isr s).uart.pc = s.uart.pc := (usartIsr_frame _ s.uart).1
          refine ⟨?_, ?_, ?_⟩
          · simp only [rank, Waiting, toGo, step, hring, hsame, hpc]
            rfl
          · rw [helpful, helpful, step, hsame]
          · simp [helpful, turn, hline]

end

/-- If from some time on the ground sends nothing, then in every endless run in which no byte comes
to a full ring and the interrupt and the main loop have their turn again and again, `dl_parse_msg`
has some day been called with every message sent, each once and in order, and never again. -/
theorem uplink_delivered (rxBuf txBuf : Nat → UInt8) {dlBuffer : List UInt8}
    (hbuffer : dlBuffer.length = msgSize) (ω : Nat → Event)
    (hok : ∀ t, Permitted (Liveness.trace step (initial rxBuf txBuf dlBuffer) ω t) (ω t))
    (quiet : Nat) (hquiet : ∀ t, quiet ≤ t → ∀ p, ω t ≠ .send p)
    (hisr : Recurs fun t => ω t = .isr) (hmain : Recurs fun t => ω t = .main) :
    Stays fun t =>
      let s := Liveness.trace step (initial rxBuf txBuf dlBuffer) ω t
      List.Forall₂ Carries s.sent s.handled := by
  let x := Liveness.trace step (initial rxBuf txBuf dlBuffer) ω
  have hinv (t : Nat) : Inv (Liveness.trace step (initial rxBuf txBuf dlBuffer) ω t) := by
    refine trace_invariant Inv (fun t _ h => ?_) ?_ (Nat.zero_le t)
    · exact inv_step h (hok t)
    · exact inv_initial rxBuf txBuf hbuffer
  have hfair (k : Bool) : Recurs fun t => ω t = turn k := by
    cases k with
    | true => exact hmain
    | false => exact hisr
  obtain ⟨t, hle, hd⟩ : ∃ t, quiet ≤ t ∧ Drained (x t) :=
    eventually_of_helpful rank helpful quiet hfair fun t hle hd =>
      Or.inr (progress (hinv t) hd (hquiet t hle) (hok t))
  refine ⟨t, fun t' hle' => ?_⟩
  have hdrained : Drained (x t') := trace_invariant Drained
    (fun i hi h => drained_step (hinv i) h (hquiet i (by omega))) hd hle'
  obtain ⟨k, hhandled, hall⟩ := handled_of_inv (hinv t')
  rwa [hall hdrained] at hhandled

/-- Less than a ring full of bytes always finds room. -/
theorem room_of_short {s : State} (h : Inv s)
    (hshort : (s.sent.flatMap airborneFrame).length < Uart.bufferSize) : Room s := by
  intro hline
  have hlength := congrArg List.length h.stream_eq
  have hpos := List.length_pos_iff.mpr hline
  simp only [List.length_append, State.ring, Ring.length_contents] at hlength
  omega

/-- A ping, and then the turns of the interrupt and of the main loop. -/
def pinged (t : Nat) : Event := if t = 0 then .send [0, 8] else turn (t % 2 = 0)

theorem uplink_delivered_ping :
    Stays fun t =>
      let s := Liveness.trace step
        (initial (fun _ => 0) (fun _ => 0) (List.replicate msgSize 0)) pinged t
      List.Forall₂ Carries s.sent s.handled := by
  have hturn (t : Nat) (ht : 1 ≤ t) : pinged t = .isr ∨ pinged t = .main := by
    rw [pinged, if_neg (by omega)]
    cases decide (t % 2 = 0)
    · exact Or.inl rfl
    · exact Or.inr rfl
  have hpermitted {s : State} (h : Inv s) (hsent : s.sent = [[0, 8]]) {t : Nat} (ht : 1 ≤ t) :
      Permitted s (pinged t) := by
    rcases hturn t ht with heq | heq
    · rw [heq]
      exact room_of_short h (by rw [hsent]; decide)
    · rw [heq]
      trivial
  let x := Liveness.trace step (initial (fun _ => 0) (fun _ => 0) (List.replicate msgSize 0)) pinged
  have hinv (d : Nat) : Inv (x (d + 1)) ∧ (x (d + 1)).sent = [[0, 8]] := by
    induction d with
    | zero =>
        have hfits : Fits [0, 8] := ⟨by decide, by decide⟩
        exact ⟨inv_send (inv_initial (fun _ => 0) (fun _ => 0) (by simp)) hfits, rfl⟩
    | succ d ih =>
        obtain ⟨h, hsent⟩ := ih
        refine ⟨inv_step h (hpermitted h hsent (by omega)), ?_⟩
        change (step (x (d + 1)) (pinged (d + 1))).sent = _
        rcases hturn (d + 1) (by omega) with heq | heq
        · rw [heq]
          exact hsent
        · rw [heq]
          exact (mainStep_frame _).2.trans hsent
  refine uplink_delivered (fun _ => 0) (fun _ => 0) (by simp) pinged ?_ 1 ?_ ?_ ?_
  · rintro (_ | d)
    · exact ⟨by decide, by decide⟩
    · exact hpermitted (hinv d).1 (hinv d).2 (by omega)
  · intro t ht p hp
    rcases hturn t ht with h | h <;> simp [h] at hp
  · intro t
    exact ⟨2 * t + 1, by omega, by simp [pinged, turn]⟩
  · intro t
    exact ⟨2 * t + 2, by omega, by simp [pinged, turn]⟩

/-! ### The rotorcraft's handler -/

section

open Paparazzi.Rotorcraft.Datalink

/-- The length of a message in `messages.xml`. -/
def dlLength (id : UInt8) : Nat :=
  if id = dlMoveWp ∨ id = dlHoverPointChangeEcef then 16
  else if id = dlSetting ∨ id = dlRc4Ch then 8
  else if id = dlRc3Ch then 5
  else if id = dlBlock ∨ id = dlGetSetting then 4
  else 2

def Complete (payload : List UInt8) : Prop := dlLength (idOfMsg payload) ≤ payload.length

variable {σ : Type} {cfg : DlConfig σ} {payload old : List UInt8}

theorem byteAt_append {off : Nat} (h : off < payload.length) :
    byteAt (payload ++ old) off = byteAt payload off := by
  rw [byteAt, byteAt, List.getD_append _ _ _ _ h]

theorem field_append {off : Nat} (h : off + 4 ≤ payload.length) :
    LittleEndian.field (payload ++ old) off 4 = LittleEndian.field payload off 4 := by
  rw [LittleEndian.field, LittleEndian.field, LittleEndian.slice, LittleEndian.slice,
    List.drop_append_of_le_length (by omega),
    List.take_append_of_le_length (by rw [List.length_drop]; omega)]

theorem idOfMsg_append (hpayload : Complete payload) :
    idOfMsg (payload ++ old) = idOfMsg payload := by
  refine byteAt_append (Nat.lt_of_lt_of_le ?_ hpayload)
  unfold dlLength
  split_ifs <;> decide

/-- Behind a message `dl_parse_msg` reads nothing. -/
theorem dlSwitch_append (hpayload : Complete payload) (v : Vehicle σ) :
    dlSwitch cfg (payload ++ old) v = dlSwitch cfg payload v := by
  have hid : idOfMsg (payload ++ old) = idOfMsg payload := idOfMsg_append hpayload
  have hlen {n : UInt8} (h : idOfMsg payload = n) : dlLength n ≤ payload.length := h ▸ hpayload
  have hbyte {n : Nat} (hn : n ≤ payload.length) (off : Nat) (h : off < n) :
      byteAt (payload ++ old) off = byteAt payload off := byteAt_append (by omega)
  have hfield {n : Nat} (hn : n ≤ payload.length) (off : Nat) (h : off + 4 ≤ n) :
      LittleEndian.field (payload ++ old) off 4 = LittleEndian.field payload off 4 :=
    field_append (by omega)
  rw [dlSwitch, dlSwitch, hid]
  split_ifs with hhover
  · have h : 16 ≤ payload.length := hlen hhover
    unfold hoverCase hoverPoint afterHover blockCase rc3ChCase dlHoverAcId dlHoverExternalGpsFix
      dlHoverEcefPos dlBlockAcId dlBlockBlockId dlRc3ChThrottleMode dlRc3ChRoll dlRc3ChPitch int32At
    rw [hbyte h 2 (by decide), hbyte h 3 (by decide), hbyte h 4 (by decide), hfield h 4 (by decide),
      hfield h 8 (by decide), hfield h 12 (by decide)]
  · rw [otherCases, otherCases, hid]
    split_ifs with hping hset hget hblock hmove h3 h4
    · rfl
    · have h : 8 ≤ payload.length := hlen hset
      unfold settingCase dlSettingAcId dlSettingIndex dlSettingValue floatAt
      rw [hbyte h 2 (by decide), hbyte h 3 (by decide), hfield h 4 (by decide)]
    · have h : 4 ≤ payload.length := hlen hget
      unfold getSettingCase dlGetSettingAcId dlGetSettingIndex
      rw [hbyte h 2 (by decide), hbyte h 3 (by decide)]
    · have h : 4 ≤ payload.length := hlen (of_decide_eq_true (Bool.and_eq_true_iff.mp hblock).2)
      unfold blockCase dlBlockAcId dlBlockBlockId
      rw [hbyte h 2 (by decide), hbyte h 3 (by decide)]
    · have h : 16 ≤ payload.length := hlen (of_decide_eq_true (Bool.and_eq_true_iff.mp hmove).2)
      unfold moveWpCase moveWpPos dlMoveWpAcId dlMoveWpWpId dlMoveWpLat dlMoveWpLon dlMoveWpAlt
        int32At
      rw [hbyte h 2 (by decide), hbyte h 3 (by decide), hfield h 4 (by decide),
        hfield h 8 (by decide), hfield h 12 (by decide)]
    · have h : 5 ≤ payload.length := hlen (of_decide_eq_true (Bool.and_eq_true_iff.mp h3).2)
      unfold rc3ChCase dlRc3ChThrottleMode dlRc3ChRoll dlRc3ChPitch
      rw [hbyte h 2 (by decide), hbyte h 3 (by decide), hbyte h 4 (by decide)]
    · have h : 8 ≤ payload.length := hlen (of_decide_eq_true (Bool.and_eq_true_iff.mp h4).2)
      unfold rc4ChCase dlRc4ChMode dlRc4ChThrottle dlRc4ChRoll dlRc4ChPitch dlRc4ChYaw
      rw [hbyte h 3 (by decide), hbyte h 4 (by decide), hbyte h 5 (by decide),
        hbyte h 6 (by decide), hbyte h 7 (by decide)]
    · rfl

/-- Complete messages, and handlers of the modules that read them only: each call of `dl_parse_msg`
does what it would do with the message alone. -/
theorem commands_as_sent
    (hmodules : ∀ payload old, Complete payload →
      cfg.modulesParseDatalink (payload ++ old) = cfg.modulesParseDatalink payload)
    (rxBuf txBuf : Nat → UInt8) {dlBuffer : List UInt8} (hbuffer : dlBuffer.length = msgSize)
    {events : List Event} (hok : RunOk step Permitted (initial rxBuf txBuf dlBuffer) events) :
    let s := run step (initial rxBuf txBuf dlBuffer) events
    (∀ payload ∈ s.sent, Complete payload) →
      ∃ k, s.handled.map (dlParseMsg cfg) = (s.sent.take k).map (dlParseMsg cfg) ∧
        (Drained s → s.sent.take k = s.sent) := by
  intro s hcomplete
  have h : Inv s := run_invariant Inv (fun _ _ h he => inv_step h he)
    (inv_initial rxBuf txBuf hbuffer) hok
  obtain ⟨k, hhandled, hall⟩ := handled_of_inv h
  refine ⟨k, ?_, hall⟩
  have htaken : ∀ p ∈ s.sent.take k, Complete p := fun p hp =>
    hcomplete p (List.mem_of_mem_take hp)
  generalize s.sent.take k = sent at hhandled htaken
  generalize s.handled = handled at hhandled
  induction hhandled with
  | nil => rfl
  | @cons payload buf _ _ hcarries _ ih =>
      obtain ⟨hpayload, hlater⟩ := List.forall_mem_cons.mp htaken
      obtain ⟨old, rfl⟩ := hcarries.1
      rw [List.map_cons, List.map_cons, ih hlater]
      congr 1
      funext v
      rw [dlParseMsg, dlParseMsg, dlSwitch_append hpayload, hmodules payload old hpayload,
        idOfMsg_append hpayload]

theorem commands_as_sent_ping :
    let s := run step (initial (fun _ => 0) (fun _ => 0) (List.replicate msgSize 0))
      [.send [0, 8], .isr, .main]
    ∃ k, s.handled.map (dlParseMsg hoverConfig) = (s.sent.take k).map (dlParseMsg hoverConfig) ∧
      (Drained s → s.sent.take k = s.sent) :=
  commands_as_sent (fun _ _ _ => rfl) (fun _ => 0) (fun _ => 0) (by simp)
    ⟨⟨by decide, by decide⟩, fun _ => by decide, trivial, trivial⟩ (by
      intro payload hpayload
      change payload ∈ [[0, 8]] at hpayload
      rw [List.mem_singleton.mp hpayload]
      unfold Complete
      decide)

end

end Paparazzi.Link.UplinkPath
