import Mathlib
import Paparazzi.Library.Machine
import Paparazzi.Library.Ring

/-!
The UART driver of the STM32: `uart_transmit` and `uart_getch` in the main loop,
one memory or register access a step, and `usart_isr`, which can come between any
two of these steps.
-/

namespace Paparazzi.McuPeriph.Uart

open Paparazzi.Library

/-- `UART_TX_BUFFER_SIZE` and `UART_RX_BUFFER_SIZE`. -/
abbrev bufferSize : Nat := 128

/-- `struct uart_periph`; a ring is a buffer with its two indices. -/
structure UartPeriph where
  rx : Library.Ring UInt8
  tx : Library.Ring UInt8
  txRunning : Bool
  ore : UInt16
  neErr : UInt16
  feErr : UInt16

/-- The interrupt enable bits of `USART_CR1`. -/
structure Cr1 where
  txeie : Bool
  rxneie : Bool
  deriving DecidableEq, Repr

/-- The peripheral: its control register, the data register on the way out, and the
bytes that have left it. -/
structure Usart where
  cr1 : Cr1
  dr : Option UInt8
  line : List UInt8

/-- `USART_SR_TXE`. -/
def Usart.txe (u : Usart) : Bool := u.dr.isNone

/-- `usart_send`; a byte still in the data register is overwritten. -/
def usartSend (u : Usart) (data : UInt8) : Usart := { u with dr := some data }

/-- What the handler reads of the receiver: the flags of the status register, which
are read again after an error, and the data register. -/
structure RxReads where
  rxne : Bool
  ore : Bool
  ne : Bool
  fe : Bool
  oreAgain : Bool
  neAgain : Bool
  feAgain : Bool
  data : UInt8
  deriving DecidableEq, Repr

/-- A byte has arrived without an error. -/
def RxReads.clean (r : RxReads) : Bool := r.rxne && !r.ore && !r.ne && !r.fe

/-- Where the main loop stands in `uart_transmit` or `uart_getch`: before the access
that the constructor names, with the local variables. -/
inductive Pc where
  | idle
  | testRoom (data : UInt8) (temp : Nat)
  | readCr1 (data : UInt8) (temp : Nat)
  | maskTx (data : UInt8) (temp : Nat) (cr1 : Cr1)
  | testRunning (data : UInt8) (temp : Nat)
  | storeByte (data : UInt8) (temp : Nat)
  | moveInsert (data : UInt8) (temp : Nat)
  | setRunning (data : UInt8)
  | send (data : UInt8)
  | readCr1Again
  | unmaskTx (cr1 : Cr1)
  | loadByte
  | moveExtract (ret : UInt8)
  deriving DecidableEq, Repr

/-- The driver, with the bytes that were accepted for transmission, stored by the
receiver and returned by `uart_getch`; no step reads these. -/
structure State where
  uart : UartPeriph
  usart : Usart
  pc : Pc
  accepted : List UInt8
  received : List UInt8
  taken : List UInt8

/-! ### The main loop -/

def uartCharAvailable (p : UartPeriph) : Bool := p.rx.insertIdx ≠ p.rx.extractIdx

/-- The start of `uart_transmit`. -/
def uartTransmit (data : UInt8) (s : State) : State :=
  { s with pc := .testRoom data (Ring.next bufferSize s.uart.tx.insertIdx) }

/-- The start of `uart_getch`, which its callers guard by `uart_char_available`. -/
def uartGetch (s : State) : State :=
  if uartCharAvailable s.uart then { s with pc := .loadByte } else s

/-- The next access of the main loop. -/
def mainStep (s : State) : State :=
  match s.pc with
  | .idle => s
  | .testRoom data temp =>
      if temp = s.uart.tx.extractIdx then { s with pc := .idle }
      else { s with pc := .readCr1 data temp, accepted := s.accepted ++ [data] }
  | .readCr1 data temp => { s with pc := .maskTx data temp s.usart.cr1 }
  | .maskTx data temp cr1 =>
      { s with
        usart := { s.usart with cr1 := { cr1 with txeie := false } }
        pc := .testRunning data temp }
  | .testRunning data temp =>
      if s.uart.txRunning then { s with pc := .storeByte data temp }
      else { s with pc := .setRunning data }
  | .storeByte data temp =>
      { s with
        uart := { s.uart with tx := s.uart.tx.store data }
        pc := .moveInsert data temp }
  | .moveInsert _ temp =>
      { s with
        uart := { s.uart with tx := { s.uart.tx with insertIdx := temp } }
        pc := .readCr1Again }
  | .setRunning data =>
      { s with uart := { s.uart with txRunning := true }, pc := .send data }
  | .send data => { s with usart := usartSend s.usart data, pc := .readCr1Again }
  | .readCr1Again => { s with pc := .unmaskTx s.usart.cr1 }
  | .unmaskTx cr1 =>
      { s with usart := { s.usart with cr1 := { cr1 with txeie := true } }, pc := .idle }
  | .loadByte => { s with pc := .moveExtract s.uart.rx.head }
  | .moveExtract ret =>
      { s with
        uart := { s.uart with rx := s.uart.rx.drop bufferSize }
        taken := s.taken ++ [ret]
        pc := .idle }

/-! ### The interrupt -/

/-- The transmit part of `usart_isr`. -/
def usartIsrTx (s : State) : State :=
  if s.usart.cr1.txeie && s.usart.txe then
    if s.uart.tx.insertIdx ≠ s.uart.tx.extractIdx then
      { s with
        usart := usartSend s.usart s.uart.tx.head
        uart := { s.uart with tx := s.uart.tx.drop bufferSize } }
    else
      { s with
        uart := { s.uart with txRunning := false }
        usart := { s.usart with cr1 := { s.usart.cr1 with txeie := false } } }
  else s

/-- The error counters that the receive part of `usart_isr` keeps. -/
def countErrors (r : RxReads) (p : UartPeriph) : UartPeriph :=
  { p with
    ore := if r.oreAgain then p.ore + 1 else p.ore
    neErr := if r.neAgain then p.neErr + 1 else p.neErr
    feErr := if r.feAgain then p.feErr + 1 else p.feErr }

/-- The receive part of `usart_isr`. -/
def usartIsrRx (r : RxReads) (s : State) : State :=
  if s.usart.cr1.rxneie && r.clean then
    let temp := Ring.next bufferSize s.uart.rx.insertIdx
    let stored := s.uart.rx.store r.data
    if temp ≠ s.uart.rx.extractIdx then
      { s with
        uart := { s.uart with rx := { stored with insertIdx := temp } }
        received := s.received ++ [r.data] }
    else { s with uart := { s.uart with rx := stored } }
  else if s.usart.cr1.rxneie then { s with uart := countErrors r s.uart }
  else s

def usartIsr (r : RxReads) (s : State) : State := usartIsrRx r (usartIsrTx s)

/-- The data register is shifted out. -/
def shiftOut (s : State) : State :=
  { s with usart := { s.usart with line := s.usart.line ++ s.usart.dr.toList, dr := none } }

inductive Event where
  | transmit (data : UInt8)
  | getch
  | main
  | isr (r : RxReads)
  | shift
  deriving DecidableEq, Repr

def step (s : State) : Event → State
  | .transmit data => if s.pc = .idle then uartTransmit data s else s
  | .getch => if s.pc = .idle then uartGetch s else s
  | .main => mainStep s
  | .isr r => usartIsr r s
  | .shift => shiftOut s

/-- After `uart_periph_init`, with any bytes in the buffers. -/
def initial (rxBuf txBuf : Nat → UInt8) (rxneie : Bool) : State where
  uart :=
    { rx := ⟨rxBuf, 0, 0⟩
      tx := ⟨txBuf, 0, 0⟩
      txRunning := false
      ore := 0
      neErr := 0
      feErr := 0 }
  usart := { cr1 := { txeie := false, rxneie := rxneie }, dr := none, line := [] }
  pc := .idle
  accepted := []
  received := []
  taken := []

/-! ### Transmission -/

/-- The byte that the running `uart_transmit` has accepted and not yet handed on. -/
def Pc.inFlight : Pc → List UInt8
  | .readCr1 data _ => [data]
  | .maskTx data _ _ => [data]
  | .testRunning data _ => [data]
  | .storeByte data _ => [data]
  | .moveInsert data _ => [data]
  | .setRunning data => [data]
  | .send data => [data]
  | _ => []

/-- `uart_transmit` has masked the transmit interrupt. -/
def Pc.masked : Pc → Bool
  | .testRunning _ _ => true
  | .storeByte _ _ => true
  | .moveInsert _ _ => true
  | .setRunning _ => true
  | .send _ => true
  | .readCr1Again => true
  | .unmaskTx _ => true
  | _ => false

/-- The index behind the insert index, in the calls that have found room for a byte. -/
def Pc.temp? : Pc → Option Nat
  | .readCr1 _ temp => some temp
  | .maskTx _ temp _ => some temp
  | .testRunning _ temp => some temp
  | .storeByte _ temp => some temp
  | .moveInsert _ temp => some temp
  | _ => none

/-- What the tests of `uart_transmit` have found at each place. -/
def Tested (s : State) : Pc → Prop
  | .testRoom _ temp => temp = Ring.next bufferSize s.uart.tx.insertIdx
  | .storeByte _ _ => s.uart.txRunning = true
  | .moveInsert data _ =>
      s.uart.txRunning = true ∧ s.uart.tx.buf s.uart.tx.insertIdx = data
  | .setRunning _ => s.uart.txRunning = false
  | .send _ =>
      s.uart.txRunning = true ∧ s.usart.dr = none ∧
        s.uart.tx.insertIdx = s.uart.tx.extractIdx
  | .readCr1Again => s.uart.txRunning = true
  | .unmaskTx _ => s.uart.txRunning = true
  | _ => True

/-- The invariant of the transmitter: what was accepted is on the line, in the data
register, in the ring and in the running call, in this order. -/
structure TxInv (s : State) : Prop where
  ok : s.uart.tx.Ok bufferSize
  fifo : s.usart.line ++ s.usart.dr.toList ++ s.uart.tx.contents bufferSize ++ s.pc.inFlight =
    s.accepted
  stopped : s.uart.txRunning = false →
    s.uart.tx.insertIdx = s.uart.tx.extractIdx ∧ s.usart.dr = none
  masked : s.pc.masked = true → s.usart.cr1.txeie = false
  served : s.pc.masked = false → s.uart.txRunning = true → s.usart.cr1.txeie = true
  room : ∀ temp, s.pc.temp? = some temp →
    temp = Ring.next bufferSize s.uart.tx.insertIdx ∧ temp ≠ s.uart.tx.extractIdx
  tested : Tested s s.pc

theorem txInv_initial (rxBuf txBuf : Nat → UInt8) (rxneie : Bool) :
    TxInv (initial rxBuf txBuf rxneie) where
  ok := ⟨by simp [initial], by simp [initial]⟩
  fifo := by simp [initial, Ring.contents, Ring.count, Pc.inFlight]
  stopped _ := ⟨rfl, rfl⟩
  masked h := Bool.noConfusion h
  served _ h := absurd h (by simp [initial])
  room temp h := absurd h (by simp [initial, Pc.temp?])
  tested := trivial

theorem txInv_isrTx {s : State} (h : TxInv s) : TxInv (usartIsrTx s) := by
  unfold usartIsrTx
  split_ifs with hserve hne
  · obtain ⟨hie, htxe⟩ := Bool.and_eq_true_iff.mp hserve
    have hempty : s.usart.dr = none := Option.isNone_iff_eq_none.mp htxe
    have hcons := Ring.contents_eq_cons h.ok hne
    refine ⟨h.ok.drop, ?_, ?_, h.masked, h.served, ?_, ?_⟩
    · have hfifo := h.fifo
      rw [hempty, hcons] at hfifo
      simpa [usartSend] using hfifo
    · intro hstopped
      exact absurd (h.stopped hstopped).1 hne
    · intro temp htemp
      obtain ⟨rfl, -⟩ := h.room temp htemp
      exact ⟨rfl, Ring.room_drop h.ok hne⟩
    · have htested := h.tested
      have hmasked := h.masked
      change Tested _ s.pc
      cases hpc : s.pc <;> rw [hpc] at htested hmasked
      all_goals first
        | exact htested
        | exact absurd (hmasked rfl) (by simp [hie])
  · obtain ⟨hie, htxe⟩ := Bool.and_eq_true_iff.mp hserve
    have hempty : s.usart.dr = none := Option.isNone_iff_eq_none.mp htxe
    refine ⟨h.ok, h.fifo, ?_, ?_, ?_, h.room, ?_⟩
    · intro _
      exact ⟨not_not.mp hne, hempty⟩
    · intro _
      rfl
    · intro _ hrunning
      cases hrunning
    · have htested := h.tested
      have hmasked := h.masked
      change Tested _ s.pc
      cases hpc : s.pc <;> rw [hpc] at htested hmasked
      all_goals first
        | exact htested
        | exact absurd (hmasked rfl) (by simp [hie])
  · exact h

/-- The receive part of the handler keeps what the transmitter uses. -/
theorem usartIsrRx_frame (r : RxReads) (s : State) :
    (usartIsrRx r s).uart.tx = s.uart.tx ∧
      (usartIsrRx r s).uart.txRunning = s.uart.txRunning ∧
      (usartIsrRx r s).usart = s.usart ∧ (usartIsrRx r s).pc = s.pc ∧
      (usartIsrRx r s).accepted = s.accepted ∧ (usartIsrRx r s).taken = s.taken := by
  simp only [usartIsrRx]
  split_ifs <;> exact ⟨rfl, rfl, rfl, rfl, rfl, rfl⟩

theorem txInv_isrRx {s : State} (h : TxInv s) (r : RxReads) : TxInv (usartIsrRx r s) := by
  obtain ⟨htx, hrunning, husart, hpc, haccepted, -⟩ := usartIsrRx_frame r s
  have htested := h.tested
  constructor
  · exact htx ▸ h.ok
  · rw [husart, htx, hpc, haccepted, h.fifo]
  · rw [hrunning, htx, husart]
    exact h.stopped
  · rw [hpc, husart]
    exact h.masked
  · rw [hpc, hrunning, husart]
    exact h.served
  · rw [hpc, htx]
    exact h.room
  · rw [hpc]
    unfold Tested at *
    rw [htx, hrunning, husart]
    exact htested

theorem txInv_shiftOut {s : State} (h : TxInv s) : TxInv (shiftOut s) := by
  refine ⟨h.ok, ?_, ?_, h.masked, h.served, h.room, ?_⟩
  · have hfifo := h.fifo
    simpa [shiftOut] using hfifo
  · intro hstopped
    exact ⟨(h.stopped hstopped).1, rfl⟩
  · have htested := h.tested
    change Tested _ s.pc
    cases hpc : s.pc <;> rw [hpc] at htested
    case send => exact ⟨htested.1, rfl, htested.2.2⟩
    all_goals exact htested

theorem txInv_mainStep {s : State} (h : TxInv s) : TxInv (mainStep s) := by
  have hmasked := h.masked
  have hserved := h.served
  have hroom := h.room
  have htested := h.tested
  have hfifo := h.fifo
  unfold mainStep
  cases hpc : s.pc <;> rw [hpc] at hmasked hserved hroom htested hfifo <;> dsimp only
  case idle => exact h
  case testRoom data temp =>
    split_ifs with hfull
    · exact ⟨h.ok, hfifo, h.stopped, by rintro ⟨⟩, hserved, by rintro _ ⟨⟩, trivial⟩
    · refine ⟨h.ok, ?_, h.stopped, by rintro ⟨⟩, hserved, ?_, trivial⟩
      · rw [← hfifo]
        simp [Pc.inFlight]
      · rintro t ⟨⟩
        exact ⟨htested, hfull⟩
  case readCr1 data temp =>
    exact ⟨h.ok, hfifo, h.stopped, by rintro ⟨⟩, hserved, hroom, trivial⟩
  case maskTx data temp cr1 =>
    exact ⟨h.ok, hfifo, h.stopped, fun _ => rfl, by rintro ⟨⟩, hroom, trivial⟩
  case testRunning data temp =>
    split_ifs with hrunning
    · exact ⟨h.ok, hfifo, h.stopped, hmasked, by rintro ⟨⟩, hroom, hrunning⟩
    · exact ⟨h.ok, hfifo, h.stopped, hmasked, by rintro ⟨⟩, by rintro _ ⟨⟩,
        Bool.eq_false_iff.mpr hrunning⟩
  case storeByte data temp =>
    refine ⟨h.ok.store data, ?_, h.stopped, hmasked, by rintro ⟨⟩, hroom, ?_⟩
    · simp only [Ring.contents_store h.ok]
      exact hfifo
    · exact ⟨htested, by simp [Ring.store]⟩
  case moveInsert data temp =>
    obtain ⟨htemp, hne⟩ := hroom temp rfl
    obtain ⟨hrunning, hstored⟩ := htested
    have hadvance : { s.uart.tx with insertIdx := temp } = s.uart.tx.advance bufferSize := by
      rw [htemp]
      rfl
    refine ⟨?_, ?_, ?_, hmasked, by rintro ⟨⟩, by rintro _ ⟨⟩, hrunning⟩
    · simp only [hadvance]
      exact h.ok.advance
    · simp only [hadvance, Ring.contents_advance h.ok (htemp ▸ hne), hstored]
      rw [← hfifo]
      simp [Pc.inFlight]
    · intro hstopped
      exact absurd (hstopped.symm.trans hrunning) (by decide)
  case setRunning data =>
    obtain ⟨hempty, hdr⟩ := h.stopped htested
    exact ⟨h.ok, hfifo, by rintro ⟨⟩, hmasked, by rintro ⟨⟩, by rintro _ ⟨⟩, rfl, hdr, hempty⟩
  case send data =>
    obtain ⟨hrunning, hdr, hempty⟩ := htested
    have hnil := (Ring.contents_eq_nil_iff h.ok).mpr hempty
    refine ⟨h.ok, ?_, ?_, hmasked, by rintro ⟨⟩, by rintro _ ⟨⟩, hrunning⟩
    · rw [hdr, hnil] at hfifo
      simpa [usartSend, hnil, Pc.inFlight] using hfifo
    · intro hstopped
      exact absurd (hstopped.symm.trans hrunning) (by decide)
  case readCr1Again =>
    exact ⟨h.ok, hfifo, h.stopped, hmasked, by rintro ⟨⟩, by rintro _ ⟨⟩, htested⟩
  case unmaskTx cr1 =>
    exact ⟨h.ok, hfifo, h.stopped, by rintro ⟨⟩, fun _ _ => rfl, by rintro _ ⟨⟩, trivial⟩
  case loadByte =>
    exact ⟨h.ok, hfifo, h.stopped, by rintro ⟨⟩, hserved, by rintro _ ⟨⟩, trivial⟩
  case moveExtract ret =>
    exact ⟨h.ok, hfifo, h.stopped, by rintro ⟨⟩, hserved, by rintro _ ⟨⟩, trivial⟩

theorem txInv_step {s : State} (h : TxInv s) (e : Event) : TxInv (step s e) := by
  cases e with
  | main => exact txInv_mainStep h
  | isr r => exact txInv_isrRx (txInv_isrTx h) r
  | shift => exact txInv_shiftOut h
  | transmit data =>
      simp only [step]
      split_ifs with hpc
      · have hserved := h.served
        have hfifo := h.fifo
        rw [hpc] at hserved hfifo
        exact ⟨h.ok, hfifo, h.stopped, nofun, hserved, nofun, rfl⟩
      · exact h
  | getch =>
      simp only [step, uartGetch]
      split_ifs with hpc hav
      · have hserved := h.served
        have hfifo := h.fifo
        rw [hpc] at hserved hfifo
        exact ⟨h.ok, hfifo, h.stopped, nofun, hserved, nofun,
          trivial⟩
      · exact h
      · exact h

/-! ### Reception -/

/-- What `uart_getch` has found at each place. -/
def Fetched (s : State) : Pc → Prop
  | .loadByte => s.uart.rx.insertIdx ≠ s.uart.rx.extractIdx
  | .moveExtract ret =>
      s.uart.rx.insertIdx ≠ s.uart.rx.extractIdx ∧ s.uart.rx.head = ret
  | _ => True

/-- The invariant of the receiver: what was stored has been taken or is in the ring,
in this order. -/
structure RxInv (s : State) : Prop where
  ok : s.uart.rx.Ok bufferSize
  fifo : s.taken ++ s.uart.rx.contents bufferSize = s.received
  fetched : Fetched s s.pc

theorem rxInv_initial (rxBuf txBuf : Nat → UInt8) (rxneie : Bool) :
    RxInv (initial rxBuf txBuf rxneie) where
  ok := ⟨by simp [initial], by simp [initial]⟩
  fifo := by simp [initial, Ring.contents, Ring.count]
  fetched := trivial

/-- Changes of the transmitter do not concern the receiver. -/
theorem RxInv.of_tx {s s' : State} (h : RxInv s) (hrx : s'.uart.rx = s.uart.rx)
    (hpc : s'.pc = s.pc ∨ Fetched s' s'.pc) (hreceived : s'.received = s.received)
    (htaken : s'.taken = s.taken) : RxInv s' where
  ok := hrx ▸ h.ok
  fifo := by rw [htaken, hrx, hreceived, h.fifo]
  fetched := by
    rcases hpc with hpc | hfetched
    · have hfetched := h.fetched
      rw [hpc]
      unfold Fetched at *
      rw [hrx]
      exact hfetched
    · exact hfetched

/-- The receive part of the handler: a byte without error becomes the newest element,
and is dropped where the ring is full. -/
theorem usartIsrRx_contents {s : State} (hok : s.uart.rx.Ok bufferSize) (r : RxReads) :
    (usartIsrRx r s).uart.rx.contents bufferSize =
        (if s.usart.cr1.rxneie && r.clean && (s.uart.rx.count bufferSize + 1 != bufferSize) then
          s.uart.rx.contents bufferSize ++ [r.data]
        else s.uart.rx.contents bufferSize) ∧
      (usartIsrRx r s).received =
        (if s.usart.cr1.rxneie && r.clean && (s.uart.rx.count bufferSize + 1 != bufferSize) then
          s.received ++ [r.data]
        else s.received) ∧
      (usartIsrRx r s).uart.rx.Ok bufferSize ∧
      (usartIsrRx r s).uart.rx.extractIdx = s.uart.rx.extractIdx := by
  have hfull := Ring.next_eq_extract_iff hok
  have hstored : (s.uart.rx.store r.data).contents bufferSize = s.uart.rx.contents bufferSize :=
    Ring.contents_store hok r.data
  simp only [usartIsrRx]
  by_cases hclean : (s.usart.cr1.rxneie && r.clean) = true
  · by_cases hroom : Ring.next bufferSize s.uart.rx.insertIdx = s.uart.rx.extractIdx
    · have hcount := hfull.mp hroom
      simp only [hclean, hroom, hcount, if_true, ne_eq, not_true_eq_false, if_false, bne_self_eq_false,
        Bool.and_false, Bool.false_eq_true]
      exact ⟨hstored, trivial, hok.store r.data, rfl⟩
    · have hcount := hfull.not.mp hroom
      have hadvance : { s.uart.rx.store r.data with
          insertIdx := Ring.next bufferSize s.uart.rx.insertIdx } =
          (s.uart.rx.store r.data).advance bufferSize := rfl
      simp only [hclean, hroom, if_true, ne_eq, not_false_eq_true, bne_iff_ne, hcount, Bool.true_and,
        hadvance]
      refine ⟨?_, trivial, (hok.store r.data).advance, rfl⟩
      rw [Ring.contents_advance (hok.store r.data) hroom, hstored]
      simp [Ring.store]
  · rw [Bool.not_eq_true] at hclean
    simp only [hclean, Bool.false_and, Bool.false_eq_true, if_false]
    split_ifs <;> exact ⟨rfl, rfl, hok, rfl⟩

/-- The oldest element stays the oldest when one is added. -/
theorem fetched_isrRx {s : State} (h : RxInv s) (r : RxReads) :
    Fetched (usartIsrRx r s) s.pc := by
  obtain ⟨hcontents, -, hok, hextract⟩ := usartIsrRx_contents h.ok r
  have hhead : s.uart.rx.insertIdx ≠ s.uart.rx.extractIdx →
      (usartIsrRx r s).uart.rx.insertIdx ≠ (usartIsrRx r s).uart.rx.extractIdx ∧
        (usartIsrRx r s).uart.rx.head = s.uart.rx.head := by
    intro hne
    have hcons := Ring.contents_eq_cons h.ok hne
    have hne' : (usartIsrRx r s).uart.rx.insertIdx ≠ (usartIsrRx r s).uart.rx.extractIdx := by
      intro heq
      have hnil := (Ring.contents_eq_nil_iff hok).mpr heq
      rw [hcontents, hcons] at hnil
      split_ifs at hnil
      simp at hnil
    have hcons' := Ring.contents_eq_cons hok hne'
    rw [hcontents, hcons] at hcons'
    refine ⟨hne', ?_⟩
    split_ifs at hcons' <;> simp only [List.cons_append, List.cons.injEq] at hcons' <;>
      exact hcons'.1.symm
  have hfetched := h.fetched
  cases hpc : s.pc <;> simp only [hpc, Fetched] at hfetched ⊢
  case loadByte => exact (hhead hfetched).1
  case moveExtract ret => exact ⟨(hhead hfetched.1).1, (hhead hfetched.1).2.trans hfetched.2⟩

theorem rxInv_isrRx {s : State} (h : RxInv s) (r : RxReads) : RxInv (usartIsrRx r s) := by
  obtain ⟨hcontents, hreceived, hok, -⟩ := usartIsrRx_contents h.ok r
  obtain ⟨-, -, -, hpc, -, htaken⟩ := usartIsrRx_frame r s
  refine ⟨hok, ?_, ?_⟩
  · rw [hcontents, hreceived, htaken]
    split_ifs
    · rw [← List.append_assoc, h.fifo]
    · exact h.fifo
  · rw [hpc]
    exact fetched_isrRx h r

theorem rxInv_isrTx {s : State} (h : RxInv s) : RxInv (usartIsrTx s) := by
  unfold usartIsrTx
  split_ifs
  · exact h.of_tx rfl (Or.inl rfl) rfl rfl
  · exact h.of_tx rfl (Or.inl rfl) rfl rfl
  · exact h

theorem rxInv_mainStep {s : State} (h : RxInv s) : RxInv (mainStep s) := by
  have hfetched := h.fetched
  unfold mainStep
  cases hpc : s.pc <;> rw [hpc] at hfetched <;> dsimp only
  case idle => exact h
  case testRoom => split_ifs <;> exact h.of_tx rfl (Or.inr trivial) rfl rfl
  case testRunning => split_ifs <;> exact h.of_tx rfl (Or.inr trivial) rfl rfl
  case loadByte => exact ⟨h.ok, h.fifo, hfetched, rfl⟩
  case moveExtract ret =>
    obtain ⟨hne, hhead⟩ := hfetched
    refine ⟨h.ok.drop, ?_, trivial⟩
    have hfifo := h.fifo
    rw [Ring.contents_eq_cons h.ok hne, hhead] at hfifo
    simpa using hfifo
  all_goals exact h.of_tx rfl (Or.inr trivial) rfl rfl

theorem rxInv_step {s : State} (h : RxInv s) (e : Event) : RxInv (step s e) := by
  cases e with
  | main => exact rxInv_mainStep h
  | isr r => exact rxInv_isrRx (rxInv_isrTx h) r
  | shift => exact h.of_tx rfl (Or.inl rfl) rfl rfl
  | transmit data =>
      simp only [step]
      split_ifs
      · exact h.of_tx rfl (Or.inr trivial) rfl rfl
      · exact h
  | getch =>
      simp only [step, uartGetch]
      split_ifs with hpc hav
      · exact h.of_tx rfl (Or.inr (by simpa [uartCharAvailable, Fetched] using hav)) rfl rfl
      · exact h
      · exact h

/-! ### Runs -/

/-- The driver after any interleaving of the main loop, the interrupt and the line. -/
def afterEvents (rxBuf txBuf : Nat → UInt8) (rxneie : Bool) (events : List Event) : State :=
  Machine.run step (initial rxBuf txBuf rxneie) events

theorem txInv_afterEvents (rxBuf txBuf : Nat → UInt8) (rxneie : Bool) (events : List Event) :
    TxInv (afterEvents rxBuf txBuf rxneie events) :=
  Machine.run_history (fun _ => TxInv) (fun _ _ e h => txInv_step h e)
    (txInv_initial rxBuf txBuf rxneie) events

theorem rxInv_afterEvents (rxBuf txBuf : Nat → UInt8) (rxneie : Bool) (events : List Event) :
    RxInv (afterEvents rxBuf txBuf rxneie events) :=
  Machine.run_history (fun _ => RxInv) (fun _ _ e h => rxInv_step h e)
    (rxInv_initial rxBuf txBuf rxneie) events

/-- A call of `uart_transmit` is refused only when the ring is full. -/
theorem full_of_refused {s : State} (h : TxInv s) {data : UInt8} {temp : Nat}
    (hpc : s.pc = .testRoom data temp) (hrefused : (mainStep s).accepted = s.accepted) :
    s.uart.tx.count bufferSize + 1 = bufferSize := by
  have htested := h.tested
  rw [hpc] at htested
  simp only [mainStep, hpc] at hrefused
  split_ifs at hrefused with hfull
  · exact (Ring.next_eq_extract_iff h.ok).mp (htested.symm.trans hfull)
  · exact absurd hrefused (by simp)

/-- The driver is a pair of lossless queues, wherever the interrupt comes: the accepted
bytes are on the line, in the data register, in the ring and in the running call, in
the order of the calls; only a full ring refuses a byte, and a stopped transmitter
has an empty one; the bytes taken and those in the receive ring are the bytes stored,
in the order of arrival, and a full ring drops only the byte that arrives. -/
theorem uart_lossless_fifo (rxBuf txBuf : Nat → UInt8) (rxneie : Bool) (events : List Event) :
    let s := afterEvents rxBuf txBuf rxneie events
    (s.usart.line ++ s.usart.dr.toList ++ s.uart.tx.contents bufferSize ++ s.pc.inFlight =
      s.accepted) ∧
    (∀ data temp, s.pc = .testRoom data temp → (mainStep s).accepted = s.accepted →
      (s.uart.tx.contents bufferSize).length + 1 = bufferSize) ∧
    (s.uart.txRunning = false → s.uart.tx.contents bufferSize = []) ∧
    (s.pc = .idle → s.uart.txRunning = true → s.usart.cr1.txeie = true) ∧
    s.taken ++ s.uart.rx.contents bufferSize = s.received ∧
    (∀ r : RxReads, s.usart.cr1.rxneie = true → r.clean = true →
      (usartIsr r s).uart.rx.contents bufferSize =
          (if (s.uart.rx.contents bufferSize).length + 1 = bufferSize then
            s.uart.rx.contents bufferSize
          else s.uart.rx.contents bufferSize ++ [r.data])) ∧
    s.uart.tx.Ok bufferSize ∧ s.uart.rx.Ok bufferSize := by
  intro s
  have htx : TxInv s := txInv_afterEvents rxBuf txBuf rxneie events
  have hrx : RxInv s := rxInv_afterEvents rxBuf txBuf rxneie events
  refine ⟨htx.fifo, ?_, ?_, ?_, hrx.fifo, ?_, htx.ok, hrx.ok⟩
  · intro data temp hpc hrefused
    rw [Ring.length_contents]
    exact full_of_refused htx hpc hrefused
  · intro hstopped
    exact (Ring.contents_eq_nil_iff htx.ok).mpr (htx.stopped hstopped).1
  · intro hpc
    exact htx.served (by rw [hpc]; rfl)
  · intro r hie hclean
    have hsame : (usartIsrTx s).uart.rx = s.uart.rx ∧
        (usartIsrTx s).usart.cr1.rxneie = s.usart.cr1.rxneie := by
      unfold usartIsrTx
      split_ifs <;> exact ⟨rfl, rfl⟩
    obtain ⟨hcontents, -⟩ := usartIsrRx_contents (rxInv_isrTx hrx).ok r
    rw [hsame.1, hsame.2, hie, hclean] at hcontents
    rw [usartIsr, hcontents, Ring.length_contents]
    by_cases hfull : s.uart.rx.count bufferSize + 1 = bufferSize <;> simp [hfull]

/-! ### Without an interrupt -/

/-- `uart_transmit` where no interrupt comes. -/
def transmitAlone (data : UInt8) (s : State) : State :=
  Machine.run step (uartTransmit data s) (List.replicate 8 .main)

/-- A running transmitter with room queues the byte. -/
theorem transmitAlone_of_running {s : State} (hpc : s.pc = .idle) (hrunning : s.uart.txRunning = true)
    (hroom : Ring.next bufferSize s.uart.tx.insertIdx ≠ s.uart.tx.extractIdx) (data : UInt8) :
    transmitAlone data s =
      { s with
        uart := { s.uart with tx := (s.uart.tx.store data).advance bufferSize }
        usart := { s.usart with cr1 := { s.usart.cr1 with txeie := true } }
        accepted := s.accepted ++ [data] } := by
  simp [transmitAlone, List.replicate, step, uartTransmit, mainStep, hroom, hrunning, hpc,
    Ring.store, Ring.advance]

/-- A stopped transmitter is started with the byte. -/
theorem transmitAlone_of_stopped {s : State} (hpc : s.pc = .idle) (hrunning : s.uart.txRunning = false)
    (hroom : Ring.next bufferSize s.uart.tx.insertIdx ≠ s.uart.tx.extractIdx) (data : UInt8) :
    transmitAlone data s =
      { s with
        uart := { s.uart with txRunning := true }
        usart := { s.usart with cr1 := { s.usart.cr1 with txeie := true }, dr := some data }
        accepted := s.accepted ++ [data] } := by
  simp [transmitAlone, List.replicate, step, uartTransmit, mainStep, usartSend, hroom, hrunning,
    hpc]

theorem run_transmitAlone {s : State} (hpc : s.pc = .idle) (data : UInt8) :
    Machine.run step s (.transmit data :: List.replicate 8 .main) = transmitAlone data s := by
  simp [transmitAlone, step, hpc]

/-- Every fill of the ring can occur. -/
theorem exists_filled {c : Nat} (hc : c < bufferSize) :
    ∃ events, (afterEvents (fun _ => 0) (fun _ => 0) true events).pc = .idle ∧
      (afterEvents (fun _ => 0) (fun _ => 0) true events).uart.txRunning = true ∧
      (afterEvents (fun _ => 0) (fun _ => 0) true events).uart.tx.count bufferSize = c := by
  induction c with
  | zero =>
      refine ⟨.transmit 0 :: List.replicate 8 .main, ?_⟩
      rw [afterEvents, run_transmitAlone rfl,
        transmitAlone_of_stopped rfl rfl (by simp [initial, Ring.next])]
      exact ⟨rfl, rfl, rfl⟩
  | succ c ih =>
      obtain ⟨events, hpc, hrunning, hcount⟩ := ih (by omega)
      have hok := (txInv_afterEvents (fun _ => 0) (fun _ => 0) true events).ok
      refine ⟨events ++ (.transmit 0 :: List.replicate 8 .main), ?_⟩
      rw [afterEvents, Machine.run_append]
      rw [afterEvents] at hpc hrunning hcount hok
      generalize Machine.run step (initial (fun _ => 0) (fun _ => 0) true) events = s at *
      have hroom := (Ring.next_eq_extract_iff hok).not.mpr (by omega)
      rw [run_transmitAlone hpc, transmitAlone_of_running hpc hrunning hroom]
      refine ⟨hpc, hrunning, ?_⟩
      have hadd := Ring.count_advance (hok.store 0) hroom
      rw [← hcount]
      exact hadd

end Paparazzi.McuPeriph.Uart
