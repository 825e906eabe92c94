import Mathlib
import Paparazzi.Library.Machine
import Paparazzi.Library.Ring

/-!
The transaction queue of the SPI driver of the STM32: `spi_submit`, `spi_lock` and
`spi_resume` from the main loop and from the callbacks of finished transactions,
and the interrupt at the end of the receive DMA.
-/

namespace Paparazzi.McuPeriph.Spi

open Paparazzi.Library

/-- `SPI_TRANSACTION_QUEUE_LEN`. -/
abbrev queueLen : Nat := 8

/-- What the queue uses of a `struct spi_transaction`, and which one it is. -/
structure SpiTransaction where
  ptr : Nat
  inputLength : UInt8
  outputLength : UInt8
  deriving DecidableEq, Repr

/-- `enum SPITransactionStatus`. -/
inductive TransStatus where
  | pending
  | running
  | success
  | failed
  | done
  deriving DecidableEq, Repr

inductive SpiStatus where
  | idle
  | running
  deriving DecidableEq, Repr

/-- `struct spi_periph`; `trans` is the buffer with its two indices. -/
structure SpiPeriph where
  trans : Library.Ring SpiTransaction
  status : SpiStatus
  suspend : UInt8

/-- The receive DMA: whether its channel and its interrupt are enabled, and
`rx_extra_dummy_dma`. -/
structure Dma where
  rxEnabled : Bool
  rxExtraDummyDma : Bool
  deriving DecidableEq, Repr

/-- Where the main loop stands in `spi_submit`, before the access that the constructor
names; what runs with the interrupt disabled is one step. -/
inductive Pc where
  | idle
  | testRoom (t : SpiTransaction) (idx : Nat)
  | markPending (t : SpiTransaction) (idx : Nat)
  | enqueue (t : SpiTransaction) (idx : Nat)
  deriving DecidableEq, Repr

/-- The driver, with the transactions that were accepted, started and ended with
success and their callback; no step reads these. -/
structure State where
  periph : SpiPeriph
  dma : Dma
  transStatus : Nat → TransStatus
  pc : Pc
  accepted : List SpiTransaction
  started : List SpiTransaction
  ended : List SpiTransaction

/-- The next index, wrapped. -/
def nextIdx (i : Nat) : Nat := if i + 1 ≥ queueLen then 0 else i + 1

def setStatus (t : SpiTransaction) (st : TransStatus) (s : State) : State :=
  { s with transStatus := Function.update s.transStatus t.ptr st }

def spiStartDmaTransaction (trans : SpiTransaction) (s : State) : State :=
  { s with
    periph := { s.periph with status := .running }
    dma :=
      { rxEnabled := true
        rxExtraDummyDma :=
          if trans.inputLength ≠ 0 ∧ trans.outputLength > trans.inputLength then true
          else s.dma.rxExtraDummyDma }
    transStatus := Function.update s.transStatus trans.ptr .running
    started := s.started ++ [trans] }

/-! ### The calls -/

/-- The queue is full, or the transaction moves no data. -/
def refused (t : SpiTransaction) (idx : Nat) (s : State) : Prop :=
  idx = s.periph.trans.extractIdx ∨ (t.inputLength = 0 ∧ t.outputLength = 0)

instance (t : SpiTransaction) (idx : Nat) (s : State) : Decidable (refused t idx s) :=
  inferInstanceAs (Decidable (_ ∨ _))

/-- The part of `spi_submit` that runs with the interrupt disabled. -/
def enqueue (t : SpiTransaction) (idx : Nat) (s : State) : State :=
  let s :=
    { s with
      periph :=
        { s.periph with trans := { s.periph.trans.store t with insertIdx := idx } }
      accepted := s.accepted ++ [t] }
  if s.periph.status = .idle ∧ s.periph.suspend = 0 then
    spiStartDmaTransaction s.periph.trans.head s
  else s

/-- `spi_submit` where no interrupt can come. -/
def spiSubmit (t : SpiTransaction) (s : State) : State :=
  let idx := nextIdx s.periph.trans.insertIdx
  if refused t idx s then setStatus t .failed s
  else enqueue t idx (setStatus t .pending s)

def spiLock (slave : UInt8) (s : State) : State :=
  if slave < 254 ∧ s.periph.suspend = 0 then
    { s with periph := { s.periph with suspend := slave + 1 } }
  else s

def spiResume (slave : UInt8) (s : State) : State :=
  if s.periph.suspend.toNat = slave.toNat + 1 then
    let s := { s with periph := { s.periph with suspend := 0 } }
    if s.periph.trans.extractIdx ≠ s.periph.trans.insertIdx ∧ s.periph.status = .idle then
      spiStartDmaTransaction s.periph.trans.head s
    else s
  else s

inductive Call where
  | submit (t : SpiTransaction)
  | lock (slave : UInt8)
  | resume (slave : UInt8)
  deriving DecidableEq, Repr

/-- A call from a callback, inside the interrupt. -/
def call (s : State) : Call → State
  | .submit t => spiSubmit t s
  | .lock slave => spiLock slave s
  | .resume slave => spiResume slave s

/-! ### The interrupt -/

def spiNextTransaction (s : State) : State :=
  let trans := { s.periph.trans with extractIdx := nextIdx s.periph.trans.extractIdx }
  let s := { s with periph := { s.periph with trans := trans } }
  if trans.extractIdx = trans.insertIdx ∨ s.periph.suspend ≠ 0 then
    { s with periph := { s.periph with status := .idle } }
  else spiStartDmaTransaction trans.head s

/-- `process_rx_dma_interrupt`; `calls` are those of the callback. -/
def processRxDmaInterrupt (calls : List Call) (s : State) : State :=
  let trans := s.periph.trans.head
  if s.dma.rxExtraDummyDma then
    -- the received part is complete, a dummy transfer follows
    { s with dma := { rxEnabled := true, rxExtraDummyDma := false } }
  else
    let s := setStatus trans .success { s with dma := { s.dma with rxEnabled := false } }
    let s := calls.foldl call s
    spiNextTransaction { s with ended := s.ended ++ [trans] }

/-- The next step of the main loop in `spi_submit`. -/
def mainStep (s : State) : State :=
  match s.pc with
  | .idle => s
  | .testRoom t idx =>
      if refused t idx s then setStatus t .failed { s with pc := .idle }
      else { s with pc := .markPending t idx }
  | .markPending t idx => setStatus t .pending { s with pc := .enqueue t idx }
  | .enqueue t idx => enqueue t idx { s with pc := .idle }

inductive Event where
  | call (c : Call)
  | main
  | rxComplete (calls : List Call)
  deriving DecidableEq, Repr

/-- The start of a call from the main loop; `spi_lock` and `spi_resume` disable the
interrupt first. -/
def mainCall (s : State) : Call → State
  | .submit t => { s with pc := .testRoom t (nextIdx s.periph.trans.insertIdx) }
  | .lock slave => spiLock slave s
  | .resume slave => spiResume slave s

def step (s : State) : Event → State
  | .call c => if s.pc = .idle then mainCall s c else s
  | .main => mainStep s
  | .rxComplete calls => if s.dma.rxEnabled then processRxDmaInterrupt calls s else s

/-- After `spi_init`, with anything in the queue's buffer. -/
def initial (buf : Nat → SpiTransaction) (transStatus : Nat → TransStatus) : State where
  periph := { trans := ⟨buf, 0, 0⟩, status := .idle, suspend := 0 }
  dma := { rxEnabled := false, rxExtraDummyDma := false }
  transStatus := transStatus
  pc := .idle
  accepted := []
  started := []
  ended := []

/-! ### The queue -/

theorem nextIdx_eq {i : Nat} (h : i < queueLen) : nextIdx i = Ring.next queueLen i := by
  rw [Ring.next_eq h]
  unfold nextIdx
  split_ifs <;> omega

/-- The transactions in the queue, the running one first. -/
def State.queue (s : State) : List SpiTransaction := s.periph.trans.contents queueLen

/-- The index that `spi_submit` has computed is still the next one. -/
def IndexFresh (s : State) : Pc → Prop
  | .idle => True
  | .testRoom t idx =>
      ¬ (t.inputLength = 0 ∧ t.outputLength = 0) →
        idx = Ring.next queueLen s.periph.trans.insertIdx
  | .markPending _ idx | .enqueue _ idx =>
      idx = Ring.next queueLen s.periph.trans.insertIdx ∧ idx ≠ s.periph.trans.extractIdx

/-- The invariant of the queue: the accepted transactions have ended or are queued, in
this order; the running one is the first of the queue; an idle peripheral that is not
suspended has an empty queue. -/
structure Inv (s : State) : Prop where
  ok : s.periph.trans.Ok queueLen
  fifo : s.ended ++ s.queue = s.accepted
  started : s.started =
    s.ended ++ (if s.periph.status = .running then s.queue.take 1 else [])
  running : s.periph.status = .running → s.queue ≠ []
  rx : s.dma.rxEnabled = true ↔ s.periph.status = .running
  idle : s.periph.status = .idle → s.periph.suspend = 0 → s.queue = []
  fresh : IndexFresh s s.pc

theorem inv_initial (buf : Nat → SpiTransaction) (transStatus : Nat → TransStatus) :
    Inv (initial buf transStatus) where
  ok := ⟨by simp [initial], by simp [initial]⟩
  fifo := by simp [initial, State.queue, Ring.contents, Ring.count]
  started := by simp [initial]
  running h := by cases h
  rx := by simp [initial]
  idle _ _ := by simp [initial, State.queue, Ring.contents, Ring.count]
  fresh := trivial

/-- Starting the first transaction of the queue of an idle peripheral. -/
theorem inv_start {s : State} (hok : s.periph.trans.Ok queueLen)
    (hfifo : s.ended ++ s.queue = s.accepted) (hstarted : s.started = s.ended)
    (hne : s.periph.trans.insertIdx ≠ s.periph.trans.extractIdx) (hfresh : IndexFresh s s.pc) :
    Inv (spiStartDmaTransaction s.periph.trans.head s) := by
  have hcons := Ring.contents_eq_cons hok hne
  have hqueue : (spiStartDmaTransaction s.periph.trans.head s).queue = s.queue := rfl
  refine ⟨hok, hfifo, ?_, ?_, ?_, ?_, hfresh⟩
  · rw [hqueue]
    simp [spiStartDmaTransaction, hstarted, State.queue, hcons]
  · intro _
    rw [hqueue, State.queue, hcons]
    exact List.cons_ne_nil _ _
  · simp [spiStartDmaTransaction]
  · intro hidle
    cases hidle

theorem enqueue_running {s : State} (hrunning : s.periph.status = .running) (t : SpiTransaction)
    (idx : Nat) :
    enqueue t idx s =
      { s with
        periph :=
          { s.periph with trans := { s.periph.trans.store t with insertIdx := idx } }
        accepted := s.accepted ++ [t] } := by
  simp [enqueue, hrunning]

/-- The part of `spi_submit` with the interrupt disabled, with a fresh index. -/
theorem inv_enqueue {s : State} (h : Inv s) (hpc : s.pc = .idle) {idx : Nat}
    (hidx : idx = Ring.next queueLen s.periph.trans.insertIdx)
    (hroom : idx ≠ s.periph.trans.extractIdx) (t : SpiTransaction) : Inv (enqueue t idx s) := by
  obtain ⟨hok, hqueue⟩ := Ring.push h.ok hidx hroom t
  have hfifo : s.ended ++ (s.queue ++ [t]) = s.accepted ++ [t] := by
    rw [← List.append_assoc, h.fifo]
  have hstarted := h.started
  simp only [enqueue]
  split_ifs with hstart
  · apply inv_start hok
    · exact (congrArg (s.ended ++ ·) hqueue).trans hfifo
    · simpa [hstart.1] using hstarted
    · intro heq
      have hnil := (Ring.contents_eq_nil_iff hok).mpr heq
      rw [hqueue] at hnil
      simp at hnil
    · rw [hpc]
      trivial
  · refine ⟨hok, ?_, ?_, ?_, h.rx, ?_, ?_⟩
    · exact (congrArg (s.ended ++ ·) hqueue).trans hfifo
    · simp only [State.queue, hqueue]
      rw [hstarted]
      split_ifs with hrunning
      · have hne := h.running hrunning
        have htake : (s.queue ++ [t]).take 1 = s.queue.take 1 :=
          List.take_append_of_le_length (List.length_pos_iff.mpr hne)
        exact congrArg (s.ended ++ ·) htake.symm
      · rfl
    · intro _
      simp [State.queue, hqueue]
    · intro hidle hsuspend
      exact absurd ⟨hidle, hsuspend⟩ hstart
    · simp only [hpc]
      trivial

theorem inv_spiLock {s : State} (h : Inv s) (slave : UInt8) : Inv (spiLock slave s) := by
  unfold spiLock
  split_ifs with hlock
  · exact { h with idle := fun hidle _ => h.idle hidle hlock.2 }
  · exact h

theorem inv_spiResume {s : State} (h : Inv s) (hpc : s.pc = .idle) (slave : UInt8) :
    Inv (spiResume slave s) := by
  have hstarted := h.started
  simp only [spiResume]
  split_ifs with hslave hstart
  · refine inv_start (s := { s with periph := { s.periph with suspend := 0 } }) h.ok h.fifo
      ?_ ?_ ?_
    · simpa [hstart.2] using hstarted
    · exact fun heq => hstart.1 heq.symm
    · simp only [hpc]
      trivial
  · refine { h with idle := ?_ }
    intro hidle _
    have heq : s.periph.trans.insertIdx = s.periph.trans.extractIdx := by
      by_contra hne
      exact hstart ⟨fun heq => hne heq.symm, hidle⟩
    exact (Ring.contents_eq_nil_iff h.ok).mpr heq
  · exact h

theorem inv_mainCall {s : State} (h : Inv s) (hpc : s.pc = .idle) (c : Call) :
    Inv (mainCall s c) := by
  cases c with
  | submit t =>
      refine { h with fresh := ?_ }
      intro _
      exact nextIdx_eq h.ok.insert_lt
  | lock slave => exact inv_spiLock h slave
  | resume slave => exact inv_spiResume h hpc slave

theorem inv_mainStep {s : State} (h : Inv s) : Inv (mainStep s) := by
  have hfresh := h.fresh
  unfold mainStep
  cases hpc : s.pc <;> rw [hpc] at hfresh <;> dsimp only
  case idle => exact h
  case testRoom t idx =>
    split_ifs with hrefused
    · exact { h with fresh := trivial }
    · obtain ⟨hroom, hdata⟩ := not_or.mp hrefused
      exact { h with fresh := ⟨hfresh hdata, hroom⟩ }
  case markPending t idx => exact { h with fresh := hfresh }
  case enqueue t idx =>
    have hreturned : Inv { s with pc := .idle } := { h with fresh := trivial }
    exact inv_enqueue hreturned rfl hfresh.1 hfresh.2 t

/-! ### The callback -/

/-- What calls from a callback can do while the transaction still counts as running:
queue more transactions. -/
structure Extends (s s' : State) : Prop where
  ok : s'.periph.trans.Ok queueLen
  running : s'.periph.status = .running
  extract : s'.periph.trans.extractIdx = s.periph.trans.extractIdx
  started : s'.started = s.started
  ended : s'.ended = s.ended
  pc : s'.pc = s.pc
  dma : s'.dma = s.dma
  queue : ∃ new, s'.queue = s.queue ++ new ∧ s'.accepted = s.accepted ++ new

theorem Extends.refl {s : State} (hok : s.periph.trans.Ok queueLen)
    (hrunning : s.periph.status = .running) : Extends s s :=
  ⟨hok, hrunning, rfl, rfl, rfl, rfl, rfl, [], by simp, by simp⟩

theorem extends_call {s s' : State} (h : Extends s s') (c : Call) : Extends s (call s' c) := by
  obtain ⟨hok, hrunning, hextract, hstarted, hended, hpc, hdma, new, hqueue, haccepted⟩ := h
  cases c with
  | submit t =>
      simp only [call, spiSubmit]
      split_ifs with hrefused
      · exact ⟨hok, hrunning, hextract, hstarted, hended, hpc, hdma, new, hqueue, haccepted⟩
      · obtain ⟨hroom, -⟩ := not_or.mp hrefused
        obtain ⟨hok', hqueue'⟩ := Ring.push hok (nextIdx_eq hok.insert_lt) hroom t
        rw [enqueue_running (s := setStatus t .pending s') hrunning]
        refine ⟨hok', hrunning, hextract, hstarted, hended, hpc, hdma, new ++ [t], ?_, ?_⟩
        · rw [← List.append_assoc, ← hqueue]
          exact hqueue'
        · simp [setStatus, haccepted]
  | lock slave =>
      simp only [call, spiLock]
      split_ifs <;>
        exact ⟨hok, hrunning, hextract, hstarted, hended, hpc, hdma, new, hqueue, haccepted⟩
  | resume slave =>
      have hnot : ¬ (s'.periph.trans.extractIdx ≠ s'.periph.trans.insertIdx ∧
          s'.periph.status = .idle) := by
        rw [hrunning]
        rintro ⟨-, hidle⟩
        cases hidle
      simp only [call, spiResume, if_neg hnot]
      split_ifs <;>
        exact ⟨hok, hrunning, hextract, hstarted, hended, hpc, hdma, new, hqueue, haccepted⟩

theorem extends_calls {s s' : State} (h : Extends s s') (calls : List Call) :
    Extends s (calls.foldl call s') := by
  induction calls generalizing s' with
  | nil => exact h
  | cons c calls ih => exact ih (extends_call h c)

/-- Every transaction that the calls submit is refused. -/
def SubmitsNothing (s : State) (calls : List Call) : Prop :=
  ∀ t, Call.submit t ∈ calls → refused t (nextIdx s.periph.trans.insertIdx) s

/-- Calls that submit nothing leave the queue as it is. -/
theorem calls_trans (calls : List Call) {s : State} (hrunning : s.periph.status = .running)
    (h : SubmitsNothing s calls) : (calls.foldl call s).periph.trans = s.periph.trans := by
  induction calls generalizing s with
  | nil => rfl
  | cons c calls ih =>
      have hsame : (call s c).periph.trans = s.periph.trans ∧
          (call s c).periph.status = .running := by
        cases c with
        | submit t =>
            have hrefused := h t (List.mem_cons_self ..)
            simp only [call, spiSubmit, if_pos hrefused]
            exact ⟨rfl, hrunning⟩
        | lock slave =>
            simp only [call, spiLock]
            split_ifs <;> exact ⟨rfl, hrunning⟩
        | resume slave =>
            simp only [call, spiResume, hrunning, reduceCtorEq, and_false, if_false]
            split_ifs
            · exact ⟨rfl, rfl⟩
            · exact ⟨rfl, hrunning⟩
      have hrest : SubmitsNothing (call s c) calls := by
        intro t ht
        have hrefused := h t (List.mem_cons_of_mem _ ht)
        unfold refused at *
        rwa [hsame.1]
      exact (ih hsame.2 hrest).trans hsame.1

/-! ### The interrupt and the runs -/

/-- No interrupt whose callback submits a transaction comes between the computation of
the insert index in `spi_submit` and the masking of the interrupt. -/
def NoLateSubmit (s : State) : Event → Prop
  | .rxComplete calls =>
      s.pc = .idle ∨ s.dma.rxEnabled = false ∨ s.dma.rxExtraDummyDma = true ∨
        SubmitsNothing s calls
  | _ => True

/-- The end of a transaction: the next one starts, or the peripheral becomes idle. -/
theorem inv_spiNextTransaction (rest : List SpiTransaction) {s : State} {t : SpiTransaction}
    (hok : s.periph.trans.Ok queueLen) (hqueue : s.queue = t :: rest)
    (hfifo : s.ended ++ rest = s.accepted) (hstarted : s.started = s.ended)
    (hrx : s.dma.rxEnabled = false)
    (hfresh : IndexFresh
      { s with periph := { s.periph with trans := s.periph.trans.drop queueLen } } s.pc) :
    Inv (spiNextTransaction s) := by
  have hne : s.periph.trans.insertIdx ≠ s.periph.trans.extractIdx := by
    intro heq
    have hnil := (Ring.contents_eq_nil_iff hok).mpr heq
    rw [State.queue, hnil] at hqueue
    cases hqueue
  have hcons := Ring.contents_eq_cons hok hne
  rw [State.queue, hcons] at hqueue
  obtain ⟨-, hrest⟩ := List.cons.inj hqueue
  have hidx := nextIdx_eq hok.extract_lt
  simp only [spiNextTransaction, hidx]
  split_ifs with hstop
  · refine ⟨hok.drop, ?_, ?_, ?_, ?_, ?_, hfresh⟩
    · exact (congrArg (s.ended ++ ·) hrest).trans hfifo
    · simpa using hstarted
    · intro h
      cases h
    · simp [hrx]
    · intro _ hsuspend
      rcases hstop with heq | hsuspended
      · exact (Ring.contents_eq_nil_iff hok.drop).mpr heq.symm
      · exact absurd hsuspend hsuspended
  · obtain ⟨hmore, -⟩ := not_or.mp hstop
    refine inv_start
      (s := { s with periph := { s.periph with trans := s.periph.trans.drop queueLen } })
      hok.drop ?_ hstarted (fun heq => hmore heq.symm) hfresh
    exact (congrArg (s.ended ++ ·) hrest).trans hfifo

/-- Calls that submit nothing leave the insert index. -/
theorem insertIdx_calls {s s₀ : State} {calls : List Call} (hperiph : s₀.periph = s.periph)
    (hrunning : s.periph.status = .running) (hnothing : SubmitsNothing s calls) :
    (calls.foldl call s₀).periph.trans.insertIdx = s.periph.trans.insertIdx := by
  rw [calls_trans calls (s := s₀) (by rw [hperiph]; exact hrunning), hperiph]
  intro t ht
  have := hnothing t ht
  unfold refused at *
  rwa [hperiph]

/-- The submission that is under way finds room behind the transaction that ended. -/
theorem indexFresh_drop {s s₁ : State} (h : Inv s)
    (hne : s.periph.trans.insertIdx ≠ s.periph.trans.extractIdx)
    (hextract : s₁.periph.trans.extractIdx = s.periph.trans.extractIdx)
    (hinsert : s.pc ≠ .idle → s₁.periph.trans.insertIdx = s.periph.trans.insertIdx) :
    IndexFresh { s₁ with periph := { s₁.periph with trans := s₁.periph.trans.drop queueLen } }
      s.pc := by
  have hfresh := h.fresh
  have hdrop : (s₁.periph.trans.drop queueLen).extractIdx =
      (s.periph.trans.drop queueLen).extractIdx := by
    simp only [Ring.drop, hextract]
  have hkept : s.pc ≠ .idle → Ring.next queueLen s.periph.trans.insertIdx =
      Ring.next queueLen s₁.periph.trans.insertIdx :=
    fun hne => congrArg (Ring.next queueLen) (hinsert hne).symm
  have hroom : Ring.next queueLen s.periph.trans.insertIdx ≠
      (s₁.periph.trans.drop queueLen).extractIdx := by
    rw [hdrop]
    exact Ring.room_drop h.ok hne
  cases hpc : s.pc with
  | idle => trivial
  | testRoom t idx =>
      rw [hpc] at hfresh hkept
      intro hdata
      exact (hfresh hdata).trans (hkept (by rintro ⟨⟩))
  | markPending t idx | enqueue t idx =>
      rw [hpc] at hfresh hkept
      exact ⟨hfresh.1.trans (hkept (by rintro ⟨⟩)), hfresh.1 ▸ hroom⟩

theorem inv_rxComplete {s : State} (h : Inv s) (calls : List Call)
    (hlate : NoLateSubmit s (.rxComplete calls)) (hrx : s.dma.rxEnabled = true) :
    Inv (processRxDmaInterrupt calls s) := by
  have hrunning := h.rx.mp hrx
  simp only [processRxDmaInterrupt]
  split_ifs with hextra
  · exact { h with rx := by simp [hrunning] }
  · have hne := h.running hrunning
    have hne' := (Ring.contents_eq_nil_iff h.ok).not.mp hne
    have hcons := Ring.contents_eq_cons h.ok hne'
    generalize hstart : setStatus s.periph.trans.head .success
      { s with dma := { s.dma with rxEnabled := false } } = s₀
    have hperiph : s₀.periph = s.periph := by rw [← hstart]; rfl
    have hsame : s₀.pc = s.pc ∧ s₀.ended = s.ended ∧ s₀.started = s.started ∧
        s₀.accepted = s.accepted ∧ s₀.dma.rxEnabled = false := by
      rw [← hstart]
      exact ⟨rfl, rfl, rfl, rfl, rfl⟩
    have hext := extends_calls
      (Extends.refl (hperiph ▸ h.ok) (by rw [hperiph]; exact hrunning)) calls
    have hinsert : s.pc ≠ .idle →
        (calls.foldl call s₀).periph.trans.insertIdx = s.periph.trans.insertIdx := by
      intro hpc
      apply insertIdx_calls hperiph hrunning
      rcases hlate with hidle | hoff | hdummy | hnothing
      · exact absurd hidle hpc
      · exact absurd (hoff.symm.trans hrx) (by decide)
      · exact absurd hdummy hextra
      · exact hnothing
    generalize calls.foldl call s₀ = s₁ at hext hinsert
    obtain ⟨hok₁, -, hextract₁, hstarted₁, hended₁, hpc₁, hdma₁, new, hqueue₁,
      haccepted₁⟩ := hext
    have hqueue₀ : s₀.queue = s.periph.trans.head ::
        (s.periph.trans.drop queueLen).contents queueLen := by
      rw [State.queue, hperiph]
      exact hcons
    have hfifo := h.fifo
    have hstarted := h.started
    rw [if_pos hrunning, State.queue, hcons] at hstarted
    rw [State.queue, hcons] at hfifo
    refine inv_spiNextTransaction ((s.periph.trans.drop queueLen).contents queueLen ++ new)
      (s := { s₁ with ended := s₁.ended ++ [s.periph.trans.head] })
      (t := s.periph.trans.head) hok₁ ?_ ?_ ?_ ?_ ?_
    · change s₁.queue = _
      rw [hqueue₁, hqueue₀]
      rfl
    · simp only [hended₁, haccepted₁, hsame.2.1, hsame.2.2.2.1, ← hfifo]
      simp
    · simp only [hended₁, hstarted₁, hsame.2.1, hsame.2.2.1, hstarted]
      simp
    · rw [hdma₁]
      exact hsame.2.2.2.2
    · simp only [hpc₁, hsame.1]
      rw [hperiph] at hextract₁
      exact indexFresh_drop h hne' hextract₁ hinsert

theorem inv_step {s : State} (h : Inv s) {e : Event} (hlate : NoLateSubmit s e) :
    Inv (step s e) := by
  cases e with
  | call c =>
      simp only [step]
      split_ifs with hpc
      · exact inv_mainCall h hpc c
      · exact h
  | main => exact inv_mainStep h
  | rxComplete calls =>
      simp only [step]
      split_ifs with hrx
      · exact inv_rxComplete h _ hlate hrx
      · exact h

/-- A transaction is started only while the queue is not suspended. -/
theorem suspend_of_started {s : State} (h : Inv s) (e : Event)
    (hstarted : (step s e).started ≠ s.started) : (step s e).periph.suspend = 0 := by
  cases e with
  | call c =>
      simp only [step] at hstarted ⊢
      split_ifs at hstarted ⊢
      · cases c with
        | submit t => exact absurd rfl hstarted
        | lock slave =>
            simp only [mainCall, spiLock] at hstarted
            split_ifs at hstarted <;> exact absurd rfl hstarted
        | resume slave =>
            simp only [mainCall, spiResume] at hstarted ⊢
            split_ifs at hstarted ⊢
            · rfl
            · exact absurd rfl hstarted
            · exact absurd rfl hstarted
      · exact absurd rfl hstarted
  | main =>
      simp only [step, mainStep] at hstarted ⊢
      split at hstarted
      · exact absurd rfl hstarted
      · split_ifs at hstarted <;> exact absurd rfl hstarted
      · exact absurd rfl hstarted
      · simp only [enqueue] at hstarted ⊢
        split_ifs at hstarted ⊢ with hstart
        · exact hstart.2
        · exact absurd rfl hstarted
  | rxComplete calls =>
      simp only [step] at hstarted ⊢
      split_ifs at hstarted ⊢ with hrx
      · simp only [processRxDmaInterrupt] at hstarted ⊢
        split_ifs at hstarted ⊢
        · exact absurd rfl hstarted
        · have hext := extends_calls (Extends.refl (s := setStatus s.periph.trans.head .success
            { s with dma := { s.dma with rxEnabled := false } }) h.ok (h.rx.mp hrx)) calls
          have hsame : _ = s.started := hext.started
          simp only [spiNextTransaction] at hstarted ⊢
          split_ifs at hstarted ⊢ with hstop
          · exact absurd hsame hstarted
          · exact not_not.mp (not_or.mp hstop).2
      · exact absurd rfl hstarted

/-- What the queue guarantees: the transactions accepted have ended, each once and in
order, or are still queued; only the first of the queue is running; and an idle
peripheral that is not suspended has nothing queued. -/
structure Lossless (s : State) : Prop where
  fifo : s.ended ++ s.queue = s.accepted
  started : s.started =
    s.ended ++ (if s.periph.status = .running then s.queue.take 1 else [])
  idle : s.periph.status = .idle → s.periph.suspend = 0 → s.queue = []

/-- The end of a transaction without a callback takes one transaction off the queue. -/
theorem rxComplete_nil {s : State} (hextra : s.dma.rxExtraDummyDma = false)
    (hsuspend : s.periph.suspend = 0) :
    (processRxDmaInterrupt [] s).ended = s.ended ++ [s.periph.trans.head] ∧
      (processRxDmaInterrupt [] s).accepted = s.accepted ∧
      (processRxDmaInterrupt [] s).pc = s.pc ∧
      (processRxDmaInterrupt [] s).periph.suspend = 0 := by
  simp only [processRxDmaInterrupt, hextra, Bool.false_eq_true, if_false, List.foldl_nil,
    spiNextTransaction]
  split_ifs <;> exact ⟨rfl, rfl, rfl, hsuspend⟩

/-- While the queue is not suspended, the interrupts of the DMA end every accepted
transaction. -/
theorem exists_all_ended {s : State} (h : Inv s) (hpc : s.pc = .idle)
    (hsuspend : s.periph.suspend = 0) :
    ∃ k, (Machine.run step s (List.replicate k (.rxComplete []))).ended = s.accepted := by
  generalize hn : s.queue.length = n
  induction n generalizing s with
  | zero =>
      refine ⟨0, ?_⟩
      have hfifo := h.fifo
      rw [List.length_eq_zero_iff.mp hn, List.append_nil] at hfifo
      exact hfifo
  | succ n ih =>
      have hrunning : s.periph.status = .running := by
        cases hstatus : s.periph.status with
        | running => rfl
        | idle => simp [h.idle hstatus hsuspend] at hn
      have hrx := h.rx.mpr hrunning
      -- the last interrupt of the transaction, with or without a dummy transfer before it
      have hend : ∀ s : State, Inv s → s.pc = .idle → s.periph.suspend = 0 →
          s.dma.rxEnabled = true → s.dma.rxExtraDummyDma = false → s.queue.length = n + 1 →
          ∃ k, (Machine.run step s (List.replicate (k + 1) (.rxComplete []))).ended =
            s.accepted := by
        intro s h hpc hsuspend hrx hextra hn
        obtain ⟨hended, haccepted, hpc', hsuspend'⟩ := rxComplete_nil hextra hsuspend
        have hinv := inv_rxComplete h [] (Or.inl hpc) hrx
        have hlength : (processRxDmaInterrupt [] s).queue.length = n := by
          have hbefore := congrArg List.length h.fifo
          have hafter := congrArg List.length hinv.fifo
          rw [hended, haccepted] at hafter
          simp only [List.length_append, List.length_singleton] at hbefore hafter
          omega
        obtain ⟨k, hk⟩ := ih hinv (hpc'.trans hpc) hsuspend' hlength
        refine ⟨k, ?_⟩
        rw [List.replicate_succ, Machine.run_cons, step, if_pos hrx, hk, haccepted]
      cases hextra : s.dma.rxExtraDummyDma with
      | false =>
          obtain ⟨k, hk⟩ := hend s h hpc hsuspend hrx hextra hn
          exact ⟨k + 1, hk⟩
      | true =>
          have hdummy : processRxDmaInterrupt [] s =
              { s with dma := { rxEnabled := true, rxExtraDummyDma := false } } := by
            simp [processRxDmaInterrupt, hextra]
          have hinv := inv_rxComplete h [] (Or.inl hpc) hrx
          rw [hdummy] at hinv
          obtain ⟨k, hk⟩ := hend _ hinv hpc hsuspend rfl rfl hn
          refine ⟨k + 1 + 1, ?_⟩
          rw [List.replicate_succ, Machine.run_cons, step, if_pos hrx, hdummy]
          exact hk

/-- In every run in which no callback submits a transaction between the computation
of the insert index by `spi_submit` and its masking of the interrupt, the queue loses
nothing, a transaction is started only while the queue is not suspended, and, unless it
is, the DMA ends everything accepted. -/
theorem spi_queue_lossless (buf : Nat → SpiTransaction) (transStatus : Nat → TransStatus)
    (events : List Event)
    (hok : Machine.RunOk step NoLateSubmit (initial buf transStatus) events) :
    Lossless (Machine.run step (initial buf transStatus) events) ∧
      (∀ e, (step (Machine.run step (initial buf transStatus) events) e).started ≠
          (Machine.run step (initial buf transStatus) events).started →
        (step (Machine.run step (initial buf transStatus) events) e).periph.suspend = 0) ∧
      ((Machine.run step (initial buf transStatus) events).pc = .idle →
        (Machine.run step (initial buf transStatus) events).periph.suspend = 0 →
        ∃ k, (Machine.run step (Machine.run step (initial buf transStatus) events)
            (List.replicate k (.rxComplete []))).ended =
          (Machine.run step (initial buf transStatus) events).accepted) := by
  have h : Inv (Machine.run step (initial buf transStatus) events) :=
    Machine.run_invariant Inv (fun _ _ h hlate => inv_step h hlate)
      (inv_initial buf transStatus) hok
  refine ⟨⟨h.fifo, h.started, h.idle⟩, suspend_of_started h, ?_⟩
  intro hpc hsuspend
  exact exists_all_ended h hpc hsuspend

/-! ### A late submission -/

def transaction (ptr : Nat) : SpiTransaction := ⟨ptr, 1, 1⟩

def noTransaction : Nat → SpiTransaction := fun _ => transaction 0

/-- Transaction 1 runs; its callback submits transaction 3 while the main loop is about
to queue transaction 2. -/
def lateSubmit : List Event :=
  [.call (.submit (transaction 1)), .main, .main, .main,
    .call (.submit (transaction 2)), .rxComplete [.submit (transaction 3)], .main, .main, .main]

/-- The transaction of the main loop is accepted and not queued. -/
theorem late_submit_loses :
    ¬ ∀ (buf : Nat → SpiTransaction) (transStatus : Nat → TransStatus) (events : List Event),
      Lossless (Machine.run step (initial buf transStatus) events) := by
  intro h
  have hfifo := (h noTransaction (fun _ => .done) lateSubmit).fifo
  exact absurd hfifo (by decide)

theorem callback_submit_lossless :
    Lossless (Machine.run step (initial noTransaction fun _ => .done)
      [.call (.submit (transaction 1)), .main, .main, .main,
        .rxComplete [.submit (transaction 3)], .call (.submit (transaction 2)), .main, .main,
        .main]) := by
  refine (spi_queue_lossless noTransaction (fun _ => .done) _ ?_).1
  exact ⟨trivial, trivial, trivial, trivial, Or.inl rfl, trivial, trivial, trivial, trivial, trivial⟩

end Paparazzi.McuPeriph.Spi
