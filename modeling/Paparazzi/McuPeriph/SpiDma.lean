import Mathlib
import Paparazzi.McuPeriph.Spi

/-!
The transfers of the SPI driver of the STM32: the two DMA channels, the words on the bus, and
the two interrupts that end the parts of a transaction.
-/

namespace Paparazzi.McuPeriph.SpiDma

open Paparazzi.Library
open Paparazzi.Library.Machine
open Paparazzi.McuPeriph.Spi (SpiTransaction SpiPeriph TransStatus nextIdx queueLen)

/-! ### The state -/

/-- The memory address of a channel: a dummy word, or the buffer of a transaction. -/
inductive Memory where
  | dummy
  | buffer (ptr : Nat)
  deriving DecidableEq, Repr

/-- A DMA channel: whether it and its transfer complete interrupt are enabled, the words that
are left, and those that were moved. -/
structure Channel where
  enabled : Bool
  interruptEnabled : Bool
  memory : Memory
  number : Nat
  index : Nat
  deriving DecidableEq, Repr

/-- What went over the bus in a transaction, and the receive buffer at its end. -/
structure Record (W : Type) where
  trans : SpiTransaction
  sent : List W
  received : List W
  inputBuf : Nat → W

/-- The driver and the peripheral. An interrupt that is pending stays so until it is served.
No step reads the fields from `given` on: the words that the transmit DMA gave, the words sent
and received, and those that the receive DMA took, all since the last start; the transactions
started and finished; and for each interrupt the number of transactions started when it was
raised. -/
structure State (W : Type) where
  periph : SpiPeriph
  transStatus : Nat → TransStatus
  inputBuf : Nat → Nat → W
  rx : Channel
  tx : Channel
  rxRequest : Bool
  txRequest : Bool
  rxExtraDummyDma : Bool
  txExtraDummyDma : Bool
  rxPending : Bool
  txPending : Bool
  txData : Option W
  shift : Option W
  rxData : Option W
  given : List W
  sent : List W
  received : List W
  taken : List W
  started : List SpiTransaction
  finished : List (Record W)
  rxRaised : Nat
  txRaised : Nat

variable {W : Type}

/-! ### The driver -/

/-- `spi_configure_dma` with what enables the channel. -/
def spiConfigureDma (memory : Memory) (len : Nat) : Channel := ⟨true, true, memory, len, 0⟩

def spiStartDmaTransaction (trans : SpiTransaction) (s : State W) : State W :=
  { s with
    periph := { s.periph with status := .running }
    transStatus := Function.update s.transStatus trans.ptr .running
    rx :=
      if trans.inputLength = 0 then spiConfigureDma .dummy trans.outputLength.toNat
      else spiConfigureDma (.buffer trans.ptr) trans.inputLength.toNat
    rxExtraDummyDma :=
      if trans.inputLength ≠ 0 ∧ trans.outputLength > trans.inputLength then true
      else s.rxExtraDummyDma
    tx :=
      if trans.outputLength = 0 then spiConfigureDma .dummy trans.inputLength.toNat
      else spiConfigureDma (.buffer trans.ptr) trans.outputLength.toNat
    txExtraDummyDma :=
      if trans.outputLength ≠ 0 ∧ trans.inputLength > trans.outputLength then true
      else s.txExtraDummyDma
    rxRequest := true
    txRequest := true
    given := []
    sent := []
    received := []
    taken := []
    started := s.started ++ [trans] }

def setExtractIdx (idx : Nat) (s : State W) : State W :=
  { s with periph := { s.periph with trans := { s.periph.trans with extractIdx := idx } } }

def spiNextTransaction (s : State W) : State W :=
  let s := setExtractIdx (nextIdx s.periph.trans.extractIdx) s
  if s.periph.trans.extractIdx = s.periph.trans.insertIdx ∨ s.periph.suspend ≠ 0 then
    { s with periph := { s.periph with status := .idle } }
  else spiStartDmaTransaction s.periph.trans.head s

/-- `spi_submit` in one step: it disables both interrupts while it inserts. -/
def spiSubmit (t : SpiTransaction) (s : State W) : State W :=
  let idx := nextIdx s.periph.trans.insertIdx
  if idx = s.periph.trans.extractIdx ∨ (t.inputLength = 0 ∧ t.outputLength = 0) then
    { s with transStatus := Function.update s.transStatus t.ptr .failed }
  else
    let s :=
      { s with
        transStatus := Function.update s.transStatus t.ptr .pending
        periph := { s.periph with trans := { s.periph.trans.store t with insertIdx := idx } } }
    if s.periph.status = .idle ∧ s.periph.suspend = 0 then
      spiStartDmaTransaction s.periph.trans.head s
    else s

def spiLock (slave : UInt8) (s : State W) : State W :=
  if slave < 254 ∧ s.periph.suspend = 0 then
    { s with periph := { s.periph with suspend := slave + 1 } }
  else s

def spiResume (slave : UInt8) (s : State W) : State W :=
  if s.periph.suspend.toNat = slave.toNat + 1 then
    let s := { s with periph := { s.periph with suspend := 0 } }
    if s.periph.trans.extractIdx ≠ s.periph.trans.insertIdx ∧ s.periph.status = .idle then
      spiStartDmaTransaction s.periph.trans.head s
    else s
  else s

/-- The difference of two lengths as a `u16`. -/
def lenRemaining (a b : UInt8) : Nat := (a.toNat + 2 ^ 16 - b.toNat) % 2 ^ 16

def processRxDmaInterrupt (s : State W) : State W :=
  let trans := s.periph.trans.head
  let s :=
    { s with
      rx := { s.rx with enabled := false, interruptEnabled := false }
      rxRequest := false }
  if s.rxExtraDummyDma then
    { s with
      rxExtraDummyDma := false
      rx := spiConfigureDma .dummy (lenRemaining trans.outputLength trans.inputLength)
      rxRequest := true }
  else
    spiNextTransaction
      { s with
        transStatus := Function.update s.transStatus trans.ptr .success
        finished := s.finished ++ [⟨trans, s.sent, s.received, s.inputBuf trans.ptr⟩] }

def processTxDmaInterrupt (s : State W) : State W :=
  let trans := s.periph.trans.head
  let s :=
    { s with
      tx := { s.tx with enabled := false, interruptEnabled := false }
      txRequest := false }
  if s.txExtraDummyDma then
    { s with
      txExtraDummyDma := false
      tx := spiConfigureDma .dummy (lenRemaining trans.inputLength trans.outputLength)
      txRequest := true }
  else s

/-! ### The peripheral -/

section

variable (outputBuf : Nat → Nat → W) (dummyWord : W)

/-- The word at the memory address of the transmit channel. -/
def txWord (tx : Channel) : W :=
  match tx.memory with
  | .dummy => dummyWord
  | .buffer ptr => outputBuf ptr tx.index

/-- A channel after a word. -/
def Channel.moved (c : Channel) : Channel := { c with number := c.number - 1, index := c.index + 1 }

/-- The channel moves its last word, and says so. -/
def Channel.Completes (c : Channel) : Prop := c.number = 1 ∧ c.interruptEnabled = true

instance (c : Channel) : Decidable c.Completes := inferInstanceAs (Decidable (_ ∧ _))

/-- The transmit DMA moves a word to the data register. -/
def txDma (s : State W) : State W :=
  if s.tx.enabled ∧ s.txRequest ∧ s.tx.number ≠ 0 ∧ s.txData.isNone then
    { s with
      tx := s.tx.moved
      txData := some (txWord outputBuf dummyWord s.tx)
      given := s.given ++ [txWord outputBuf dummyWord s.tx]
      txPending := if s.tx.Completes then true else s.txPending
      txRaised := if s.tx.Completes then s.started.length else s.txRaised }
  else s

/-- The shift register takes the word of the data register. -/
def load (s : State W) : State W :=
  if s.shift.isNone then { s with shift := s.txData, txData := none } else s

/-- A word is clocked, and `w` comes from the slave; an old word in the data register stays and
`w` is lost. -/
def exchange (w : W) (s : State W) : State W :=
  match s.shift with
  | none => s
  | some x =>
      { s with
        shift := none
        sent := s.sent ++ [x]
        received := s.received ++ [w]
        rxData := if s.rxData.isNone then some w else s.rxData }

/-- The receive DMA moves the word of the data register to its memory. -/
def rxDma (s : State W) : State W :=
  match s.rxData with
  | none => s
  | some w =>
      if s.rx.enabled ∧ s.rxRequest ∧ s.rx.number ≠ 0 then
        { s with
          rx := s.rx.moved
          rxData := none
          taken := s.taken ++ [w]
          inputBuf :=
            match s.rx.memory with
            | .dummy => s.inputBuf
            | .buffer ptr =>
                Function.update s.inputBuf ptr (Function.update (s.inputBuf ptr) s.rx.index w)
          rxPending := if s.rx.Completes then true else s.rxPending
          rxRaised := if s.rx.Completes then s.started.length else s.rxRaised }
      else s

inductive Event (W : Type) where
  | submit (t : SpiTransaction)
  | lock (slave : UInt8)
  | resume (slave : UInt8)
  | txDma
  | load
  | exchange (w : W)
  | rxDma
  | rxInterrupt
  | txInterrupt

def step (s : State W) : Event W → State W
  | .submit t => spiSubmit t s
  | .lock slave => spiLock slave s
  | .resume slave => spiResume slave s
  | .txDma => txDma outputBuf dummyWord s
  | .load => load s
  | .exchange w => exchange w s
  | .rxDma => rxDma s
  | .rxInterrupt => if s.rxPending then processRxDmaInterrupt { s with rxPending := false } else s
  | .txInterrupt => if s.txPending then processTxDmaInterrupt { s with txPending := false } else s

end

/-- After `spi_arch_init`, with anything in the buffers. -/
def initial (buf : Nat → SpiTransaction) (transStatus : Nat → TransStatus)
    (inputBuf : Nat → Nat → W) : State W where
  periph := { trans := ⟨buf, 0, 0⟩, status := .idle, suspend := 0 }
  transStatus := transStatus
  inputBuf := inputBuf
  rx := ⟨false, false, .dummy, 0, 0⟩
  tx := ⟨false, false, .dummy, 0, 0⟩
  rxRequest := false
  txRequest := false
  rxExtraDummyDma := false
  txExtraDummyDma := false
  rxPending := false
  txPending := false
  txData := none
  shift := none
  rxData := none
  given := []
  sent := []
  received := []
  taken := []
  started := []
  finished := []
  rxRaised := 0
  txRaised := 0

/-! ### The accounting -/

/-- The words of a transaction. -/
def total (t : SpiTransaction) : Nat := max t.inputLength.toNat t.outputLength.toNat

/-- The output buffer, followed by dummy words. -/
def outWords (outputBuf : Nat → Nat → W) (dummyWord : W) (t : SpiTransaction) : List W :=
  (List.range (total t)).map fun k =>
    if k < t.outputLength.toNat then outputBuf t.ptr k else dummyWord

/-- The words sent and received, and where these were stored. -/
structure Accounted (outputBuf : Nat → Nat → W) (dummyWord : W) (r : Record W) : Prop where
  sent : r.sent = outWords outputBuf dummyWord r.trans
  received : r.received.length = total r.trans
  stored : ∀ k, k < r.trans.inputLength.toNat → r.received[k]? = some (r.inputBuf k)

def running (s : State W) : List SpiTransaction :=
  if s.periph.status = .running then [s.periph.trans.head] else []

/-- Every transaction ends once, in the order of the starts, with its words; and while one is
running, no interrupt of another one is pending. -/
structure Accounting (outputBuf : Nat → Nat → W) (dummyWord : W) (s : State W) : Prop where
  accounted : ∀ r ∈ s.finished, Accounted outputBuf dummyWord r
  once : s.started = s.finished.map Record.trans ++ running s
  ownRx : s.periph.status = .running → s.rxPending = true → s.rxRaised = s.started.length
  ownTx : s.periph.status = .running → s.txPending = true → s.txRaised = s.started.length

/-- The step starts a transaction. -/
def Starts (s : State W) : Event W → Prop
  | .submit t =>
      nextIdx s.periph.trans.insertIdx ≠ s.periph.trans.extractIdx ∧
        ¬ (t.inputLength = 0 ∧ t.outputLength = 0) ∧
        s.periph.status = .idle ∧ s.periph.suspend = 0
  | .resume slave =>
      s.periph.suspend.toNat = slave.toNat + 1 ∧
        s.periph.trans.extractIdx ≠ s.periph.trans.insertIdx ∧ s.periph.status = .idle
  | .rxInterrupt =>
      s.rxPending = true ∧ s.rxExtraDummyDma = false ∧
        nextIdx s.periph.trans.extractIdx ≠ s.periph.trans.insertIdx ∧ s.periph.suspend = 0
  | .lock _ | .txDma | .load | .exchange _ | .rxDma | .txInterrupt => False

/-- No transaction is started while a transmit interrupt is pending, and no word is clocked
while the one before is not fetched. -/
def Orderly (s : State W) (e : Event W) : Prop :=
  (Starts s e → s.txPending = false) ∧
    match e with
    | .exchange _ => s.shift.isSome → s.rxData.isNone
    | _ => True

instance (s : State W) (e : Event W) : Decidable (Starts s e) := by
  cases e <;> unfold Starts <;> infer_instance

instance (s : State W) (e : Event W) : Decidable (Orderly s e) := by
  cases e <;> unfold Orderly <;> infer_instance

end Paparazzi.McuPeriph.SpiDma
