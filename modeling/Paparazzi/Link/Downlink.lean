import Paparazzi.Link.PprzTransport
import Paparazzi.Link.XBee
import Paparazzi.McuPeriph.Uart

/-!
Reservation of the transmit buffer: `DownlinkCheckFreeSpace(DownlinkSizeOf(..))`
on a UART, and the bytes that the message macros then write one by one with
`uart_transmit`.
-/

namespace Paparazzi.Link.Downlink

open Paparazzi.Library
open Paparazzi.McuPeriph

/-- The transport of the messages: pprz, or XBee on one of the modules. -/
inductive Trans where
  | pprz
  | xbee (v : XBee.Variant)
  deriving DecidableEq, Repr

def pprzTransportSizeOf (x : Nat) : Nat := x + 4

def downlinkIDsSize (x : Nat) : Nat := x + 2

def downlinkSizeOf (t : Trans) (x : Nat) : Nat :=
  match t with
  | .pprz => pprzTransportSizeOf (downlinkIDsSize x)
  | .xbee v => v.xbeeTransportSizeOf (downlinkIDsSize x)

def uartCheckFreeSpace (p : Uart.UartPeriph) (len : UInt8) : Bool :=
  let space : Int := p.tx.extractIdx - p.tx.insertIdx
  let space := if space ≤ 0 then space + Uart.bufferSize else space
  (space - 1).toNat ≥ len.toNat

/-- `DownlinkCheckFreeSpace`; the size is cast to `uint8_t`. -/
def downlinkCheckFreeSpace (p : Uart.UartPeriph) (size : Nat) : Bool :=
  uartCheckFreeSpace p (UInt8.ofNat size)

/-- The bytes of a message: `DownlinkStartMessage`, the `Put` macros for the payload,
`DownlinkEndMessage`. -/
def message (t : Trans) (addr : UInt64) (acId msgId : UInt8) (payload : List UInt8) : List UInt8 :=
  match t with
  | .pprz => PprzTransport.airborneFrame (acId :: msgId :: payload)
  | .xbee v => XBee.sentFrame v addr (acId :: msgId :: payload)

/-- The bytes written beyond those that `DownlinkSizeOf` counts: for XBee the start
byte, the two length bytes and the checksum. -/
def Trans.uncounted : Trans → Nat
  | .pprz => 0
  | .xbee _ => 4

theorem length_message (t : Trans) (addr : UInt64) (acId msgId : UInt8) (payload : List UInt8) :
    (message t addr acId msgId payload).length =
      downlinkSizeOf t payload.length + t.uncounted := by
  cases t with
  | pprz =>
      simp [message, PprzTransport.airborneFrame_eq, PprzTransport.frameOf, downlinkSizeOf,
        pprzTransportSizeOf, downlinkIDsSize, Trans.uncounted]
  | xbee v =>
      have hsize := XBee.length_txHeader v addr (payload.length + 2)
      simp only [message, XBee.sentFrame_eq, XBee.frameOf, downlinkSizeOf, downlinkIDsSize,
        Trans.uncounted, ← hsize, List.length_append, List.length_cons, List.length_nil]
      omega

theorem uartCheckFreeSpace_iff {p : Uart.UartPeriph} (hok : p.tx.Ok Uart.bufferSize) (len : UInt8) :
    uartCheckFreeSpace p len = true ↔
      p.tx.count Uart.bufferSize + len.toNat + 1 ≤ Uart.bufferSize := by
  have hinsert := hok.insert_lt
  have hextract := hok.extract_lt
  have hcount := Ring.count_eq hok
  simp only [uartCheckFreeSpace, ge_iff_le, decide_eq_true_eq, hcount]
  split_ifs <;> omega

/-! ### Writing a message -/

/-- The driver while a message is written: what remains of it. -/
structure Sending where
  driver : Uart.State
  todo : List UInt8

inductive Event where
  | main
  | isr (r : Uart.RxReads)
  | shift
  deriving DecidableEq, Repr

def step (s : Sending) : Event → Sending
  | .main =>
      match s.driver.pc, s.todo with
      | .idle, [] => s
      | .idle, data :: todo => { driver := Uart.uartTransmit data s.driver, todo := todo }
      | _, _ => { s with driver := Uart.mainStep s.driver }
  | .isr r => { s with driver := Uart.usartIsr r s.driver }
  | .shift => { s with driver := Uart.shiftOut s.driver }

/-- The byte of a call that has not yet been accepted or refused. -/
def untested : Uart.Pc → List UInt8
  | .testRoom data _ => [data]
  | _ => []

/-- No byte written so far was refused. -/
def NoneDropped (accepted bytes : List UInt8) (s : Sending) : Prop :=
  s.driver.accepted ++ untested s.driver.pc ++ s.todo = accepted ++ bytes

/-- Wherever the interrupt comes, every byte is accepted. -/
def AllAccepted (driver : Uart.State) (bytes : List UInt8) : Prop :=
  ∀ events, NoneDropped driver.accepted bytes (Machine.run step ⟨driver, bytes⟩ events)

/-! ### Enough room -/

/-- What is still to go through the ring fits it. -/
structure Fits (s : Sending) : Prop where
  inv : Uart.TxInv s.driver
  room : s.driver.uart.tx.count Uart.bufferSize + s.driver.pc.inFlight.length +
    (untested s.driver.pc).length + s.todo.length < Uart.bufferSize

theorem fits_mainStep {d : Uart.State} (h : Uart.TxInv d) {n : Nat}
    (hroom : d.uart.tx.count Uart.bufferSize + d.pc.inFlight.length + (untested d.pc).length + n <
      Uart.bufferSize) :
    (Uart.mainStep d).uart.tx.count Uart.bufferSize + (Uart.mainStep d).pc.inFlight.length +
        (untested (Uart.mainStep d).pc).length + n < Uart.bufferSize ∧
      (Uart.mainStep d).accepted ++ untested (Uart.mainStep d).pc =
        d.accepted ++ untested d.pc := by
  have htested := h.tested
  have htemp := h.room
  unfold Uart.mainStep
  cases hpc : d.pc <;> rw [hpc] at htested htemp hroom <;> dsimp only
  case idle =>
    rw [hpc]
    exact ⟨hroom, rfl⟩
  case testRoom data temp =>
    split_ifs with hfull
    · have hcount := (Ring.next_eq_extract_iff h.ok).mp (htested.symm.trans hfull)
      simp [Uart.Pc.inFlight, untested] at hroom
      omega
    · simpa [Uart.Pc.inFlight, untested] using hroom
  case testRunning data temp => split_ifs <;> exact ⟨hroom, rfl⟩
  case storeByte data temp =>
    refine ⟨?_, rfl⟩
    have hsame := congrArg List.length (Ring.contents_store h.ok data)
    rw [Ring.length_contents, Ring.length_contents] at hsame
    simpa [hsame, Uart.Pc.inFlight, untested] using hroom
  case moveInsert data temp =>
    obtain ⟨rfl, hne⟩ := htemp temp rfl
    refine ⟨?_, rfl⟩
    have hadd : Ring.count Uart.bufferSize
        { d.uart.tx with insertIdx := Ring.next Uart.bufferSize d.uart.tx.insertIdx } =
        d.uart.tx.count Uart.bufferSize + 1 := Ring.count_advance h.ok hne
    simp only [hadd]
    simpa [Uart.Pc.inFlight, untested] using hroom
  case send data =>
    refine ⟨?_, rfl⟩
    simp [Uart.Pc.inFlight, untested] at hroom ⊢
    omega
  all_goals exact ⟨hroom, rfl⟩

theorem count_isr_le {d : Uart.State} (h : Uart.TxInv d) (r : Uart.RxReads) :
    (Uart.usartIsr r d).uart.tx.count Uart.bufferSize ≤ d.uart.tx.count Uart.bufferSize ∧
      (Uart.usartIsr r d).pc = d.pc ∧ (Uart.usartIsr r d).accepted = d.accepted := by
  obtain ⟨htx, -, -, hpc, haccepted, -⟩ := Uart.usartIsrRx_frame r (Uart.usartIsrTx d)
  rw [Uart.usartIsr, htx, hpc, haccepted]
  unfold Uart.usartIsrTx
  split_ifs with hserve hne
  · have hcons := congrArg List.length (Ring.contents_eq_cons h.ok hne)
    rw [List.length_cons, Ring.length_contents, Ring.length_contents] at hcons
    exact ⟨by rw [hcons]; exact Nat.le_succ _, rfl, rfl⟩
  · exact ⟨Nat.le_refl _, rfl, rfl⟩
  · exact ⟨Nat.le_refl _, rfl, rfl⟩

theorem step_main {s : Sending} (hpc : s.driver.pc ≠ .idle) :
    step s .main = { s with driver := Uart.mainStep s.driver } := by
  simp only [step]
  split <;> simp_all

theorem step_main_done {s : Sending} (hpc : s.driver.pc = .idle) (htodo : s.todo = []) :
    step s .main = s := by
  simp [step, hpc, htodo]

theorem step_main_idle {d : Uart.State} (hpc : d.pc = .idle) (data : UInt8) (todo : List UInt8) :
    step ⟨d, data :: todo⟩ .main = ⟨Uart.uartTransmit data d, todo⟩ := by
  simp [step, hpc]

/-- Each step keeps the room and drops no byte. -/
theorem fits_step {s : Sending} (h : Fits s) (e : Event) :
    Fits (step s e) ∧
      (step s e).driver.accepted ++ untested (step s e).driver.pc ++ (step s e).todo =
        s.driver.accepted ++ untested s.driver.pc ++ s.todo := by
  cases e with
  | isr r =>
      obtain ⟨hcount, hpc, haccepted⟩ := count_isr_le h.inv r
      have hroom := h.room
      refine ⟨⟨Uart.txInv_isrRx (Uart.txInv_isrTx h.inv) r, ?_⟩, ?_⟩
      · simp only [step, hpc]
        omega
      · simp only [step, hpc, haccepted]
  | shift => exact ⟨⟨Uart.txInv_shiftOut h.inv, h.room⟩, rfl⟩
  | main =>
      by_cases hpc : s.driver.pc = .idle
      · obtain ⟨d, todo⟩ := s
        cases todo with
        | nil =>
            rw [step_main_done hpc rfl]
            exact ⟨h, rfl⟩
        | cons data todo =>
            have hroom := h.room
            have hinv := Uart.txInv_step h.inv (.transmit data)
            rw [step_main_idle hpc]
            simp only [Uart.step, if_pos hpc] at hinv
            simp only at hpc
            rw [hpc] at hroom
            refine ⟨⟨hinv, ?_⟩, ?_⟩
            · simp [Uart.uartTransmit, Uart.Pc.inFlight, untested] at hroom ⊢
              omega
            · simp [Uart.uartTransmit, untested, hpc]
      · obtain ⟨hroom, haccepted⟩ := fits_mainStep h.inv h.room
        rw [step_main hpc]
        refine ⟨⟨Uart.txInv_mainStep h.inv, hroom⟩, ?_⟩
        rw [haccepted]

theorem allAccepted_of_fits {d : Uart.State} (hinv : Uart.TxInv d) (hpc : d.pc = .idle)
    {bytes : List UInt8}
    (hroom : d.uart.tx.count Uart.bufferSize + bytes.length < Uart.bufferSize) :
    AllAccepted d bytes := by
  intro events
  have hstart : Fits ⟨d, bytes⟩ := by
    refine ⟨hinv, ?_⟩
    simpa [hpc, Uart.Pc.inFlight, untested] using hroom
  have hrun := Machine.run_history
    (fun _ s => Fits s ∧ NoneDropped d.accepted bytes s)
    (fun _ s e h => ⟨(fits_step h.1 e).1, (fits_step h.1 e).2.trans h.2⟩)
    ⟨hstart, by simp [NoneDropped, hpc, untested]⟩ events
  exact hrun.2

/-! ### Too little room -/

theorem run_main_transmitAlone {d : Uart.State} (hpc : d.pc = .idle)
    (hrunning : d.uart.txRunning = true)
    (hroom : Ring.next Uart.bufferSize d.uart.tx.insertIdx ≠ d.uart.tx.extractIdx)
    (data : UInt8) (todo : List UInt8) :
    Machine.run step ⟨d, data :: todo⟩ (List.replicate 9 .main) =
      ⟨Uart.transmitAlone data d, todo⟩ := by
  rw [Uart.transmitAlone_of_running hpc hrunning hroom]
  simp [List.replicate, step, hpc, Uart.uartTransmit, Uart.mainStep, hroom, hrunning, Ring.store,
    Ring.advance]

/-- Where no interrupt comes, a running transmitter refuses what exceeds the room. -/
theorem not_allAccepted {d : Uart.State} (hok : d.uart.tx.Ok Uart.bufferSize) (hpc : d.pc = .idle)
    (hrunning : d.uart.txRunning = true) {bytes : List UInt8}
    (hroom : Uart.bufferSize ≤ d.uart.tx.count Uart.bufferSize + bytes.length) :
    ¬ AllAccepted d bytes := by
  induction bytes generalizing d with
  | nil =>
      have hlt := Ring.count_lt hok
      simp at hroom
      omega
  | cons data todo ih =>
      intro hall
      by_cases hfull : Ring.next Uart.bufferSize d.uart.tx.insertIdx = d.uart.tx.extractIdx
      · have hdropped := hall [.main, .main]
        have hlength := congrArg List.length hdropped
        simp [step, hpc, Uart.uartTransmit, Uart.mainStep, hfull, untested] at hlength
      · have hqueued := Uart.transmitAlone_of_running hpc hrunning hfull data
        have hcount : (Uart.transmitAlone data d).uart.tx.count Uart.bufferSize =
            d.uart.tx.count Uart.bufferSize + 1 := by
          rw [hqueued]
          have hsame := congrArg List.length (Ring.contents_store hok data)
          rw [Ring.length_contents, Ring.length_contents] at hsame
          rw [← hsame]
          exact Ring.count_advance (hok.store data) hfull
        refine ih (d := Uart.transmitAlone data d) ?_ ?_ ?_ ?_ ?_
        · rw [hqueued]
          exact (hok.store data).advance
        · rw [hqueued]
          exact hpc
        · rw [hqueued]
          exact hrunning
        · rw [hcount]
          simp at hroom
          omega
        · intro events
          have hrun := hall (List.replicate 9 .main ++ events)
          rw [Machine.run_append, run_main_transmitAlone hpc hrunning hfull] at hrun
          have haccepted : (Uart.transmitAlone data d).accepted = d.accepted ++ [data] := by
            rw [hqueued]
          simpa [NoneDropped, haccepted] using hrun

/-! ### The reservation -/

/-- In every state of the driver between two calls, a successful check means that all
bytes are accepted. -/
def ReservationSound (size : Nat) (bytes : List UInt8) : Prop :=
  ∀ (rxBuf txBuf : Nat → UInt8) (rxneie : Bool) (events : List Uart.Event),
    (Uart.afterEvents rxBuf txBuf rxneie events).pc = .idle →
    downlinkCheckFreeSpace (Uart.afterEvents rxBuf txBuf rxneie events).uart size = true →
    AllAccepted (Uart.afterEvents rxBuf txBuf rxneie events) bytes

theorem reservationSound_iff (size : Nat) (bytes : List UInt8) :
    ReservationSound size bytes ↔
      Uart.bufferSize ≤ size % 256 ∨ bytes.length ≤ size % 256 := by
  have hcast : (UInt8.ofNat size).toNat = size % 256 := UInt8.toNat_ofNat'
  constructor
  · intro h
    by_contra hcon
    rw [not_or] at hcon
    -- the ring is filled until just the checked space is left
    obtain ⟨events, hpc, hrunning, hcount⟩ :=
      Uart.exists_filled (c := Uart.bufferSize - 1 - size % 256) (by omega)
    have hinv := Uart.txInv_afterEvents (fun _ => 0) (fun _ => 0) true events
    refine not_allAccepted hinv.ok hpc hrunning ?_ (h _ _ _ events hpc ?_)
    · omega
    · rw [downlinkCheckFreeSpace, uartCheckFreeSpace_iff hinv.ok, hcast, hcount]
      omega
  · intro h rxBuf txBuf rxneie events hpc hcheck
    have hinv := Uart.txInv_afterEvents rxBuf txBuf rxneie events
    rw [downlinkCheckFreeSpace, uartCheckFreeSpace_iff hinv.ok, hcast] at hcheck
    exact allAccepted_of_fits hinv hpc (by omega)

/-- The reservation is sound exactly where the check cannot succeed, or for pprz and a
size that fits the 8 bits of the check; for XBee the estimate lacks four bytes. -/
theorem downlink_reservation_sound_iff (t : Trans) (addr : UInt64) (acId msgId : UInt8)
    (payload : List UInt8) :
    ReservationSound (downlinkSizeOf t payload.length) (message t addr acId msgId payload) ↔
      Uart.bufferSize ≤ downlinkSizeOf t payload.length % 256 ∨
        (t = .pprz ∧ downlinkSizeOf t payload.length < 256) := by
  rw [reservationSound_iff, length_message]
  cases t with
  | pprz =>
      simp only [Trans.uncounted, true_and]
      omega
  | xbee v =>
      simp only [Trans.uncounted, reduceCtorEq, false_and, or_false]
      omega

/-- An XBee message without payload is not reserved. -/
theorem xbee_reservation_unsound :
    ¬ ∀ (t : Trans) (addr : UInt64) (acId msgId : UInt8) (payload : List UInt8),
      ReservationSound (downlinkSizeOf t payload.length)
        (message t addr acId msgId payload) := by
  intro h
  have hsound := h (.xbee .xbeeProS2b) 0x100 3 1 []
  rw [reservationSound_iff, length_message] at hsound
  exact absurd hsound (by decide)

end Paparazzi.Link.Downlink
