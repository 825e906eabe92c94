import Paparazzi.McuPeriph.SpiDma

/-!
In orderly runs the transactions of the SPI driver clock, send and store their words, and end
once; the invariant follows the two channels through the parts of a transaction.
-/

namespace Paparazzi.McuPeriph.SpiDma

open Paparazzi.Library
open Paparazzi.Library.Machine
open Paparazzi.McuPeriph.Spi (SpiTransaction SpiPeriph TransStatus nextIdx queueLen nextIdx_eq)

/-! ### The parts of a transfer -/

/-- A channel with the flag for a second part, after `done` words of a transfer with `own`
words in its buffer and as many dummy words as `other` is longer. -/
structure Phase (c : Channel) (request extra pending : Bool) (ptr own other done : Nat) :
    Prop where
  first : extra = true → 0 < own ∧ own < other ∧ done + c.number = own ∧
    c.memory = .buffer ptr ∧ c.index = done ∧ (c.number = 0 → pending = true)
  last : extra = false → done + c.number = max own other ∧ (c.number ≠ 0 →
    (c.memory = .buffer ptr ∧ c.index = done ∧ other ≤ own) ∨ (c.memory = .dummy ∧ own ≤ done))
  active : c.number ≠ 0 →
    c.enabled = true ∧ c.interruptEnabled = true ∧ request = true ∧ pending = false

section

variable {c : Channel} {request extra pending : Bool} {ptr own other done : Nat}

/-- The channel at the start of a transaction. -/
theorem phase_start (ptr : Nat) {own other : Nat} (h : 0 < max own other) :
    Phase (if own = 0 then spiConfigureDma .dummy other else spiConfigureDma (.buffer ptr) own)
      true (if own ≠ 0 ∧ other > own then true else false) false ptr own other 0 := by
  by_cases hown : own = 0
  · subst hown
    rw [if_pos rfl, if_neg (by simp)]
    refine ⟨by simp, fun _ => ⟨by simp [spiConfigureDma], fun _ => .inr ⟨rfl, Nat.le_refl _⟩⟩,
      fun _ => ⟨rfl, rfl, rfl, rfl⟩⟩
  · rw [if_neg hown]
    refine ⟨?_, ?_, fun _ => ⟨rfl, rfl, rfl, rfl⟩⟩
    · intro hextra
      have hlonger : own ≠ 0 ∧ other > own := by
        by_contra hno
        rw [if_neg hno] at hextra
        cases hextra
      exact ⟨by omega, hlonger.2, Nat.zero_add _, rfl, rfl, fun hzero => absurd hzero hown⟩
    · intro hextra
      have hshorter : ¬ (own ≠ 0 ∧ other > own) := by
        intro hlonger
        rw [if_pos hlonger] at hextra
        cases hextra
      refine ⟨?_, fun _ => .inl ⟨rfl, rfl, by omega⟩⟩
      simp only [spiConfigureDma]
      omega

theorem number_start_pos (ptr : Nat) {own other : Nat} (h : 0 < max own other) :
    0 < (if own = 0 then spiConfigureDma .dummy other
      else spiConfigureDma (.buffer ptr) own).number := by
  split_ifs with hown
  · simp only [spiConfigureDma]
    omega
  · simp only [spiConfigureDma]
    omega

theorem phase_moved (h : Phase c request extra pending ptr own other done)
    (hnumber : c.number ≠ 0) :
    Phase c.moved request extra (if c.Completes then true else pending) ptr own other
      (done + 1) := by
  obtain ⟨henabled, hinterrupt, hrequest, hpending⟩ := h.active hnumber
  have hmoved : c.moved.number = c.number - 1 := rfl
  refine ⟨fun hextra => ?_, fun hextra => ?_, fun hmore => ?_⟩
  · obtain ⟨hpos, hlonger, hsum, hmemory, hindex, -⟩ := h.first hextra
    refine ⟨hpos, hlonger, by omega, hmemory, congrArg (· + 1) hindex, fun hzero => ?_⟩
    exact if_pos ⟨by omega, hinterrupt⟩
  · obtain ⟨hsum, hwhere⟩ := h.last hextra
    refine ⟨by omega, fun _ => ?_⟩
    rcases hwhere hnumber with ⟨hmemory, hindex, hle⟩ | ⟨hmemory, hle⟩
    · exact .inl ⟨hmemory, congrArg (· + 1) hindex, hle⟩
    · exact .inr ⟨hmemory, Nat.le_succ_of_le hle⟩
  · have hnot : ¬ c.Completes := fun hcomplete => by
      have := hcomplete.1
      omega
    rw [if_neg hnot]
    exact ⟨henabled, hinterrupt, hrequest, hpending⟩

/-- The interrupt after the first part sets up the second. -/
theorem phase_second (h : Phase c request true pending ptr own other done)
    (hnumber : c.number = 0) {remaining : Nat} (hremaining : remaining = other - own) :
    Phase (spiConfigureDma .dummy remaining) true false false ptr own other done := by
  obtain ⟨hpos, hlonger, hsum, -⟩ := h.first rfl
  refine ⟨by simp, fun _ => ⟨?_, fun _ => .inr ⟨rfl, by omega⟩⟩, fun _ => ⟨rfl, rfl, rfl, rfl⟩⟩
  simp only [spiConfigureDma]
  omega

/-- The interrupt after the last part only turns the channel off. -/
theorem phase_off (h : Phase c request false pending ptr own other done) (hnumber : c.number = 0) :
    Phase { c with enabled := false, interruptEnabled := false } false false false ptr own other
      done :=
  ⟨by simp, fun _ => ⟨(h.last rfl).1, fun hno => absurd hnumber hno⟩,
    fun hno => absurd hnumber hno⟩

theorem Phase.number_eq_zero (h : Phase c request extra true ptr own other done) :
    c.number = 0 := by
  by_contra hno
  have := (h.active hno).2.2.2
  cases this

theorem Phase.done_le (h : Phase c request extra pending ptr own other done) :
    done ≤ max own other := by
  cases extra with
  | true =>
      have := h.first rfl
      omega
  | false =>
      have := h.last rfl
      omega

/-- All words are moved in the last part only. -/
theorem Phase.eq_of_done (h : Phase c request extra pending ptr own other done)
    (hdone : done = max own other) : extra = false ∧ c.number = 0 := by
  cases extra with
  | true =>
      have := h.first rfl
      omega
  | false =>
      have := (h.last rfl).1
      exact ⟨rfl, by omega⟩

/-- The next word is one of the buffer, or a dummy word behind it. -/
theorem Phase.place (h : Phase c request extra pending ptr own other done)
    (hnumber : c.number ≠ 0) :
    done < max own other ∧ ((c.memory = .buffer ptr ∧ c.index = done ∧ done < own) ∨
      (c.memory = .dummy ∧ own ≤ done)) := by
  cases extra with
  | true =>
      obtain ⟨-, hlonger, hsum, hmemory, hindex, -⟩ := h.first rfl
      exact ⟨by omega, .inl ⟨hmemory, hindex, by omega⟩⟩
  | false =>
      obtain ⟨hsum, hwhere⟩ := h.last rfl
      refine ⟨by omega, ?_⟩
      rcases hwhere hnumber with ⟨hmemory, hindex, hshort⟩ | hdummy
      · exact .inl ⟨hmemory, hindex, by omega⟩
      · exact .inr hdummy

theorem Phase.done_of_last (h : Phase c request false pending ptr own other done)
    (hnumber : c.number = 0) : done = max own other := by
  have := (h.last rfl).1
  omega

end

theorem lenRemaining_eq {a b : UInt8} (h : b.toNat ≤ a.toNat) :
    lenRemaining a b = a.toNat - b.toNat := by
  have ha := a.toNat_lt
  unfold lenRemaining
  omega

/-! ### The invariant -/

variable {W : Type} {outputBuf : Nat → Nat → W} {dummyWord : W} {s : State W}
  {t : SpiTransaction}

/-- A running transaction: where its two channels stand, and where its words are. -/
structure Busy (outputBuf : Nat → Nat → W) (dummyWord : W) (t : SpiTransaction) (s : State W) :
    Prop where
  tx : Phase s.tx s.txRequest s.txExtraDummyDma s.txPending t.ptr t.outputLength.toNat
    t.inputLength.toNat s.given.length
  rx : Phase s.rx s.rxRequest s.rxExtraDummyDma s.rxPending t.ptr t.inputLength.toNat
    t.outputLength.toNat s.taken.length
  rxDone : s.rx.number = 0 → s.rxPending = true
  pipeline : s.given = s.sent ++ s.shift.toList ++ s.txData.toList
  words : s.given <+: outWords outputBuf dummyWord t
  fetched : s.received = s.taken ++ s.rxData.toList
  sync : s.sent.length = s.received.length
  stored : ∀ k, k < t.inputLength.toNat → k < s.taken.length →
    s.taken[k]? = some (s.inputBuf t.ptr k)

/-- Between two transactions nothing moves. -/
structure Quiet (s : State W) : Prop where
  rxPending : s.rxPending = false
  rxNumber : s.rx.number = 0
  txNumber : s.tx.number = 0
  rxExtra : s.rxExtraDummyDma = false
  txExtra : s.txExtraDummyDma = false
  txData : s.txData = none
  shift : s.shift = none
  rxData : s.rxData = none

def MovesData (t : SpiTransaction) : Prop := ¬ (t.inputLength = 0 ∧ t.outputLength = 0)

structure Inv (outputBuf : Nat → Nat → W) (dummyWord : W) (s : State W) : Prop where
  ring : s.periph.trans.Ok queueLen
  moves : ∀ t ∈ s.periph.trans.contents queueLen, MovesData t
  accounting : Accounting outputBuf dummyWord s
  busy : s.periph.status = .running →
    s.periph.trans.insertIdx ≠ s.periph.trans.extractIdx ∧
      Busy outputBuf dummyWord s.periph.trans.head s
  quiet : s.periph.status = .idle → Quiet s

theorem length_outWords (t : SpiTransaction) :
    (outWords outputBuf dummyWord t).length = total t := by simp [outWords]

theorem getElem?_outWords {k : Nat} (h : k < total t) :
    (outWords outputBuf dummyWord t)[k]? =
      some (if k < t.outputLength.toNat then outputBuf t.ptr k else dummyWord) := by
  simp [outWords, h]

theorem isPrefix_concat {words more : List W} {x : W} (h : words <+: more)
    (hx : more[words.length]? = some x) : words ++ [x] <+: more := by
  obtain ⟨rest, rfl⟩ := h
  rw [List.getElem?_append_right (Nat.le_refl _), Nat.sub_self] at hx
  cases rest with
  | nil => cases hx
  | cons y rest =>
      obtain rfl : y = x := by simpa using hx
      exact ⟨rest, by simp⟩

theorem total_pos (h : MovesData t) :
    0 < max t.inputLength.toNat t.outputLength.toNat := by
  by_contra hno
  apply h
  rw [← UInt8.toNat_inj, ← UInt8.toNat_inj]
  simp
  omega

/-! ### Starting a transaction -/

theorem if_toNat_eq_zero {α : Type} (n : UInt8) (x y : α) :
    (if n = 0 then x else y) = if n.toNat = 0 then x else y := by
  simp only [← UInt8.toNat_inj]
  rfl

theorem if_toNat_longer {α : Type} (n m : UInt8) (x y : α) :
    (if n ≠ 0 ∧ m > n then x else y) = if n.toNat ≠ 0 ∧ m.toNat > n.toNat then x else y := by
  simp only [gt_iff_lt, UInt8.lt_iff_toNat_lt, ne_eq, ← UInt8.toNat_inj]
  rfl

/-- What a start needs of the state, which may just have ended a transaction. -/
theorem busy_start (h : Quiet s) (htx : s.txPending = false) (hmoves : MovesData t) :
    Busy outputBuf dummyWord t (spiStartDmaTransaction t s) := by
  have hpos := total_pos hmoves
  have htxPhase := phase_start t.ptr (by omega : 0 < max t.outputLength.toNat t.inputLength.toNat)
  have hrxPhase := phase_start t.ptr hpos
  simp only [← if_toNat_eq_zero, ← if_toNat_longer] at htxPhase hrxPhase
  refine ⟨?_, ?_, ?_, ?_, List.nil_prefix, ?_, rfl, fun k _ hk => absurd hk (Nat.not_lt_zero k)⟩
  · simp only [spiStartDmaTransaction, h.txExtra, htx]
    exact htxPhase
  · simp only [spiStartDmaTransaction, h.rxExtra, h.rxPending]
    exact hrxPhase
  · intro hzero
    have hmore := number_start_pos t.ptr hpos
    rw [← if_toNat_eq_zero] at hmore
    exact absurd hzero (Nat.ne_of_gt hmore)
  · simp [spiStartDmaTransaction, h.shift, h.txData]
  · simp [spiStartDmaTransaction, h.rxData]

/-- The facts that hold of an idle or just ended state before its next transaction starts. -/
structure Ready (outputBuf : Nat → Nat → W) (dummyWord : W) (s : State W) : Prop where
  ring : s.periph.trans.Ok queueLen
  moves : ∀ t ∈ s.periph.trans.contents queueLen, MovesData t
  accounted : ∀ r ∈ s.finished, Accounted outputBuf dummyWord r
  once : s.started = s.finished.map Record.trans
  quiet : Quiet s

theorem inv_start (h : Ready outputBuf dummyWord s) (htx : s.txPending = false)
    (hne : s.periph.trans.insertIdx ≠ s.periph.trans.extractIdx) :
    Inv outputBuf dummyWord (spiStartDmaTransaction s.periph.trans.head s) := by
  have hmem : s.periph.trans.head ∈ s.periph.trans.contents queueLen := by
    rw [Ring.contents_eq_cons h.ring hne]
    exact List.mem_cons_self
  refine ⟨h.ring, h.moves, ⟨h.accounted, ?_, ?_, ?_⟩, fun _ => ⟨hne,
    busy_start h.quiet htx (h.moves _ hmem)⟩, fun hidle => by cases hidle⟩
  · simp only [spiStartDmaTransaction, running, if_pos, h.once]
  · intro _ hpending
    exact absurd (h.quiet.rxPending.symm.trans hpending) (by decide)
  · intro _ hpending
    exact absurd (htx.symm.trans hpending) (by decide)

theorem inv_idle (h : Ready outputBuf dummyWord s) (hidle : s.periph.status = .idle) :
    Inv outputBuf dummyWord s := by
  have hnot : s.periph.status ≠ .running := by
    rw [hidle]
    decide
  refine ⟨h.ring, h.moves, ⟨h.accounted, ?_, fun hrun => absurd hrun hnot,
    fun hrun => absurd hrun hnot⟩, fun hrun => absurd hrun hnot, fun _ => h.quiet⟩
  rw [running, if_neg hnot, List.append_nil]
  exact h.once

theorem ready_of_idle (h : Inv outputBuf dummyWord s) (hidle : s.periph.status = .idle) :
    Ready outputBuf dummyWord s := by
  refine ⟨h.ring, h.moves, h.accounting.accounted, ?_, h.quiet hidle⟩
  have honce := h.accounting.once
  rwa [running, hidle, if_neg (by decide), List.append_nil] at honce

/-! ### The words on the bus -/

/-- Changes of the bus registers and of the log leave what a running transaction is. -/
theorem inv_of_busy (h : Inv outputBuf dummyWord s) {s' : State W}
    (hperiph : s'.periph = s.periph) (hstarted : s'.started = s.started)
    (hfinished : s'.finished = s.finished) (hrun : s.periph.status = .running)
    (hbusy : Busy outputBuf dummyWord s.periph.trans.head s')
    (hrx : s'.rxPending = true → s'.rxRaised = s.started.length)
    (htx : s'.txPending = true → s'.txRaised = s.started.length) :
    Inv outputBuf dummyWord s' := by
  refine ⟨by rw [hperiph]; exact h.ring, by rw [hperiph]; exact h.moves,
    ⟨by rw [hfinished]; exact h.accounting.accounted, ?_, ?_, ?_⟩, ?_, ?_⟩
  · have honce := h.accounting.once
    rwa [running, hstarted, hfinished, hperiph]
  · rw [hstarted]
    exact fun _ => hrx
  · rw [hstarted]
    exact fun _ => htx
  · rw [hperiph]
    exact fun hrunning => ⟨(h.busy hrunning).1, hbusy⟩
  · rw [hperiph, hrun]
    intro hidle
    cases hidle

/-- The word that the transmit DMA gives is the next one of the transaction. -/
theorem txWord_eq (hphase : Phase s.tx s.txRequest s.txExtraDummyDma s.txPending t.ptr
    t.outputLength.toNat t.inputLength.toNat s.given.length) (hnumber : s.tx.number ≠ 0) :
    (outWords outputBuf dummyWord t)[s.given.length]? =
      some (txWord outputBuf dummyWord s.tx) := by
  obtain ⟨hlt, hplace⟩ := hphase.place hnumber
  rw [getElem?_outWords (by rw [total]; omega)]
  rcases hplace with ⟨hmemory, hindex, hown⟩ | ⟨hmemory, hown⟩
  · rw [if_pos hown, txWord, hmemory, hindex]
  · rw [if_neg (by omega), txWord, hmemory]

theorem inv_txDma (h : Inv outputBuf dummyWord s) :
    Inv outputBuf dummyWord (txDma outputBuf dummyWord s) := by
  unfold txDma
  by_cases hmove : s.tx.enabled ∧ s.txRequest ∧ s.tx.number ≠ 0 ∧ s.txData.isNone
  swap
  · rwa [if_neg hmove]
  rw [if_pos hmove]
  obtain ⟨-, -, hnumber, hfree⟩ := hmove
  have hnone : s.txData = none := by simpa using hfree
  cases hstatus : s.periph.status with
  | idle => exact absurd (h.quiet hstatus).txNumber hnumber
  | running =>
      obtain ⟨-, hbusy⟩ := h.busy hstatus
      refine inv_of_busy h rfl rfl rfl hstatus ⟨?_, hbusy.rx, hbusy.rxDone, ?_, ?_,
        hbusy.fetched, hbusy.sync, hbusy.stored⟩ (h.accounting.ownRx hstatus) ?_
      · dsimp only
        rw [List.length_append, List.length_singleton]
        exact phase_moved hbusy.tx hnumber
      · simp [hbusy.pipeline, hnone]
      · exact isPrefix_concat hbusy.words (txWord_eq hbusy.tx hnumber)
      · dsimp only
        intro hpending
        split_ifs with hcomplete
        · rfl
        · rw [if_neg hcomplete] at hpending
          exact h.accounting.ownTx hstatus hpending

theorem inv_load (h : Inv outputBuf dummyWord s) : Inv outputBuf dummyWord (load s) := by
  unfold load
  split_ifs with hfree
  swap
  · exact h
  have hnone : s.shift = none := by simpa using hfree
  cases hstatus : s.periph.status with
  | idle =>
      have hsame : ∀ s : State W, s.txData = none → s.shift = none →
          { s with shift := s.txData, txData := none } = s := by
        rintro ⟨⟩ rfl rfl
        rfl
      rwa [hsame s (h.quiet hstatus).txData hnone]
  | running =>
      obtain ⟨-, hbusy⟩ := h.busy hstatus
      refine inv_of_busy h rfl rfl rfl hstatus ⟨hbusy.tx, hbusy.rx, hbusy.rxDone, ?_,
        hbusy.words, hbusy.fetched, hbusy.sync, hbusy.stored⟩ (h.accounting.ownRx hstatus)
        (h.accounting.ownTx hstatus)
      simp [hbusy.pipeline, hnone]

theorem inv_exchange (h : Inv outputBuf dummyWord s) (w : W)
    (hfetched : s.shift.isSome → s.rxData = none) :
    Inv outputBuf dummyWord (exchange w s) := by
  unfold exchange
  cases hshift : s.shift with
  | none => exact h
  | some x =>
      have hnone := hfetched (by simp [hshift])
      cases hstatus : s.periph.status with
      | idle =>
          have := (h.quiet hstatus).shift
          rw [hshift] at this
          cases this
      | running =>
          obtain ⟨-, hbusy⟩ := h.busy hstatus
          refine inv_of_busy h rfl rfl rfl hstatus ⟨hbusy.tx, hbusy.rx, hbusy.rxDone, ?_,
            hbusy.words, ?_, ?_, hbusy.stored⟩ (h.accounting.ownRx hstatus)
            (h.accounting.ownTx hstatus)
          · simp [hbusy.pipeline, hshift]
          · simp [hbusy.fetched, hnone]
          · simp [hbusy.sync]

/-- The word that the receive DMA takes goes to its place, or behind what is stored. -/
theorem stored_rxDma (h : Busy outputBuf dummyWord t s) (hnumber : s.rx.number ≠ 0) (w : W)
    (k : Nat) (hk : k < t.inputLength.toNat) (hlt : k < (s.taken ++ [w]).length) :
    (s.taken ++ [w])[k]? = some ((match s.rx.memory with
      | .dummy => s.inputBuf
      | .buffer ptr =>
          Function.update s.inputBuf ptr (Function.update (s.inputBuf ptr) s.rx.index w))
      t.ptr k) := by
  have hplace := (h.rx.place hnumber).2
  rw [List.length_append, List.length_singleton] at hlt
  by_cases hold : k < s.taken.length
  · rw [List.getElem?_append_left hold, h.stored k hk hold]
    rcases hplace with ⟨hmemory, hindex, -⟩ | ⟨hmemory, -⟩
    · rw [hmemory, hindex]
      simp [Function.update_of_ne (Nat.ne_of_lt hold)]
    · rw [hmemory]
  · obtain rfl : k = s.taken.length := by omega
    rcases hplace with ⟨hmemory, hindex, -⟩ | ⟨-, hown⟩
    · rw [hmemory, hindex]
      simp
    · omega

theorem inv_rxDma (h : Inv outputBuf dummyWord s) : Inv outputBuf dummyWord (rxDma s) := by
  unfold rxDma
  cases hdata : s.rxData with
  | none => exact h
  | some w =>
      dsimp only
      by_cases hmove : s.rx.enabled ∧ s.rxRequest ∧ s.rx.number ≠ 0
      swap
      · rwa [if_neg hmove]
      rw [if_pos hmove]
      obtain ⟨-, -, hnumber⟩ := hmove
      cases hstatus : s.periph.status with
      | idle => exact absurd (h.quiet hstatus).rxNumber hnumber
      | running =>
          obtain ⟨-, hbusy⟩ := h.busy hstatus
          refine inv_of_busy h rfl rfl rfl hstatus ⟨hbusy.tx, ?_, ?_, hbusy.pipeline,
            hbusy.words, ?_, hbusy.sync, ?_⟩ ?_ (h.accounting.ownTx hstatus)
          · dsimp only
            rw [List.length_append, List.length_singleton]
            exact phase_moved hbusy.rx hnumber
          · intro hzero
            have hone : s.rx.number - 1 = 0 := hzero
            exact if_pos ⟨by omega, (hbusy.rx.active hnumber).2.1⟩
          · simp [hbusy.fetched, hdata]
          · exact stored_rxDma hbusy hnumber w
          · dsimp only
            intro hpending
            split_ifs with hcomplete
            · rfl
            · rw [if_neg hcomplete] at hpending
              exact h.accounting.ownRx hstatus hpending

/-! ### The interrupts -/

theorem inv_txInterrupt (h : Inv outputBuf dummyWord s) (hpending : s.txPending = true) :
    Inv outputBuf dummyWord (processTxDmaInterrupt { s with txPending := false }) := by
  unfold processTxDmaInterrupt
  cases hstatus : s.periph.status with
  | idle =>
      have hquiet := h.quiet hstatus
      have hready := ready_of_idle h hstatus
      simp only [hquiet.txExtra]
      exact inv_idle ⟨hready.ring, hready.moves, hready.accounted, hready.once,
        ⟨hquiet.rxPending, hquiet.rxNumber, hquiet.txNumber, hquiet.rxExtra, rfl, hquiet.txData,
          hquiet.shift, hquiet.rxData⟩⟩ hstatus
  | running =>
      obtain ⟨-, hbusy⟩ := h.busy hstatus
      have htx := hbusy.tx
      rw [hpending] at htx
      have hnumber := htx.number_eq_zero
      dsimp only
      cases hextra : s.txExtraDummyDma with
      | true =>
          rw [hextra] at htx
          have hlonger := (htx.first rfl).2.1
          rw [if_pos rfl]
          refine inv_of_busy h rfl rfl rfl hstatus ⟨?_, hbusy.rx, hbusy.rxDone, hbusy.pipeline,
            hbusy.words, hbusy.fetched, hbusy.sync, hbusy.stored⟩ (h.accounting.ownRx hstatus)
            (fun hno => by cases hno)
          exact phase_second htx hnumber (lenRemaining_eq (Nat.le_of_lt hlonger))
      | false =>
          rw [hextra] at htx
          rw [if_neg (by decide)]
          exact inv_of_busy h rfl rfl rfl hstatus ⟨phase_off htx hnumber, hbusy.rx, hbusy.rxDone,
            hbusy.pipeline, hbusy.words, hbusy.fetched, hbusy.sync, hbusy.stored⟩
            (h.accounting.ownRx hstatus) (fun hno => by cases hno)

/-- When the last part of the receive transfer is complete, the whole transaction is. -/
theorem Busy.complete (h : Busy outputBuf dummyWord t s) (hextra : s.rxExtraDummyDma = false)
    (hpending : s.rxPending = true) :
    s.rx.number = 0 ∧ s.tx.number = 0 ∧ s.txExtraDummyDma = false ∧ s.txData = none ∧
      s.shift = none ∧ s.rxData = none ∧
      Accounted outputBuf dummyWord ⟨t, s.sent, s.received, s.inputBuf t.ptr⟩ := by
  have hrx := h.rx
  rw [hextra, hpending] at hrx
  have hnumber := hrx.number_eq_zero
  have htaken := hrx.done_of_last hnumber
  have hgiven := h.tx.done_le
  have hpipeline := congrArg List.length h.pipeline
  have hfetched := congrArg List.length h.fetched
  simp only [List.length_append] at hpipeline hfetched
  have hsync := h.sync
  obtain ⟨htxExtra, htxNumber⟩ := h.tx.eq_of_done (by omega)
  have hshift : s.shift = none := by
    rw [← Option.toList_eq_nil_iff, ← List.length_eq_zero_iff]
    omega
  have htxData : s.txData = none := by
    rw [← Option.toList_eq_nil_iff, ← List.length_eq_zero_iff]
    omega
  have hrxData : s.rxData = none := by
    rw [← Option.toList_eq_nil_iff, ← List.length_eq_zero_iff]
    omega
  have hsent : s.given = s.sent := by simp [h.pipeline, hshift, htxData]
  have hreceived : s.received = s.taken := by simp [h.fetched, hrxData]
  refine ⟨hnumber, htxNumber, htxExtra, htxData, hshift, hrxData, ?_, ?_, ?_⟩
  · rw [← hsent]
    exact h.words.eq_of_length (by rw [length_outWords, total]; omega)
  · simp only [total]
    omega
  · intro k hk
    simp only [hreceived]
    exact h.stored k hk (by simp only at hk; omega)

/-- After the end of a transaction the next one starts, or the peripheral is idle. -/
theorem inv_spiNextTransaction (hring : s.periph.trans.Ok queueLen)
    (hmoves : ∀ t ∈ s.periph.trans.contents queueLen, MovesData t)
    (hne : s.periph.trans.insertIdx ≠ s.periph.trans.extractIdx)
    (haccounted : ∀ r ∈ s.finished, Accounted outputBuf dummyWord r)
    (honce : s.started = s.finished.map Record.trans) (hquiet : Quiet s)
    (htx : nextIdx s.periph.trans.extractIdx ≠ s.periph.trans.insertIdx → s.periph.suspend = 0 →
      s.txPending = false) :
    Inv outputBuf dummyWord (spiNextTransaction s) := by
  have hnext := nextIdx_eq hring.extract_lt
  have hcons := Ring.contents_eq_cons hring hne
  have hdropped : (setExtractIdx (nextIdx s.periph.trans.extractIdx) s).periph.trans =
      s.periph.trans.drop queueLen := by
    rw [hnext]
    rfl
  have hready : Ready outputBuf dummyWord
      (setExtractIdx (nextIdx s.periph.trans.extractIdx) s) := by
    refine ⟨?_, ?_, haccounted, honce, ⟨hquiet.rxPending, hquiet.rxNumber, hquiet.txNumber,
      hquiet.rxExtra, hquiet.txExtra, hquiet.txData, hquiet.shift, hquiet.rxData⟩⟩
    · rw [hdropped]
      exact hring.drop
    · rw [hdropped]
      intro t ht
      apply hmoves
      rw [hcons]
      exact List.mem_cons_of_mem _ ht
  unfold spiNextTransaction
  dsimp only
  split_ifs with hend
  · refine inv_idle ⟨hready.ring, hready.moves, hready.accounted, hready.once, ?_⟩ rfl
    exact ⟨hquiet.rxPending, hquiet.rxNumber, hquiet.txNumber, hquiet.rxExtra, hquiet.txExtra,
      hquiet.txData, hquiet.shift, hquiet.rxData⟩
  · rw [not_or] at hend
    apply inv_start hready
    · exact htx hend.1 (not_not.mp hend.2)
    · exact fun heq => hend.1 heq.symm

theorem inv_rxInterrupt (h : Inv outputBuf dummyWord s) (hpending : s.rxPending = true)
    (horderly : s.rxExtraDummyDma = false →
      nextIdx s.periph.trans.extractIdx ≠ s.periph.trans.insertIdx → s.periph.suspend = 0 →
        s.txPending = false) :
    Inv outputBuf dummyWord (processRxDmaInterrupt { s with rxPending := false }) := by
  unfold processRxDmaInterrupt
  cases hstatus : s.periph.status with
  | idle => exact absurd ((h.quiet hstatus).rxPending.symm.trans hpending) (by decide)
  | running =>
      obtain ⟨hne, hbusy⟩ := h.busy hstatus
      dsimp only
      cases hextra : s.rxExtraDummyDma with
      | true =>
          have hrx := hbusy.rx
          rw [hpending, hextra] at hrx
          obtain ⟨hpos, hlonger, -⟩ := hrx.first rfl
          have hsecond := phase_second hrx hrx.number_eq_zero
            (lenRemaining_eq (Nat.le_of_lt hlonger))
          rw [if_pos rfl]
          refine inv_of_busy h rfl rfl rfl hstatus ⟨hbusy.tx, hsecond, ?_, hbusy.pipeline,
            hbusy.words, hbusy.fetched, hbusy.sync, hbusy.stored⟩ (fun hno => by cases hno)
            (h.accounting.ownTx hstatus)
          intro hzero
          have hsum := (hsecond.last rfl).1
          change lenRemaining _ _ = 0 at hzero
          rw [lenRemaining_eq (Nat.le_of_lt hlonger)] at hzero
          omega
      | false =>
          obtain ⟨hrxNumber, htxNumber, htxExtra, htxData, hshift, hrxData, haccounted⟩ :=
            hbusy.complete hextra hpending
          rw [if_neg (by decide)]
          refine inv_spiNextTransaction h.ring h.moves hne ?_ ?_
            ⟨rfl, hrxNumber, htxNumber, rfl, htxExtra, htxData, hshift, hrxData⟩
            (horderly hextra)
          · intro r hr
            rcases List.mem_append.mp hr with hold | hnew
            · exact h.accounting.accounted r hold
            · rw [List.mem_singleton.mp hnew]
              exact haccounted
          · have honce := h.accounting.once
            rw [running, if_pos hstatus] at honce
            simp [honce]

/-! ### The calls -/

/-- What the calls write besides the queue and the start of a transaction. -/
theorem Busy.frame (h : Busy outputBuf dummyWord t s) (periph : SpiPeriph)
    (transStatus : Nat → TransStatus) :
    Busy outputBuf dummyWord t { s with periph := periph, transStatus := transStatus } :=
  ⟨h.tx, h.rx, h.rxDone, h.pipeline, h.words, h.fetched, h.sync, h.stored⟩

theorem Quiet.frame (h : Quiet s) (periph : SpiPeriph) (transStatus : Nat → TransStatus) :
    Quiet { s with periph := periph, transStatus := transStatus } :=
  ⟨h.rxPending, h.rxNumber, h.txNumber, h.rxExtra, h.txExtra, h.txData, h.shift, h.rxData⟩

/-- The queue may grow at its end while the head stays. -/
theorem Inv.frame (h : Inv outputBuf dummyWord s) {periph : SpiPeriph}
    (transStatus : Nat → TransStatus) (hstatus : periph.status = s.periph.status)
    (hring : periph.trans.Ok queueLen) (hmoves : ∀ t ∈ periph.trans.contents queueLen, MovesData t)
    (hhead : s.periph.status = .running → periph.trans.insertIdx ≠ periph.trans.extractIdx ∧
      periph.trans.head = s.periph.trans.head) :
    Inv outputBuf dummyWord { s with periph := periph, transStatus := transStatus } := by
  refine ⟨hring, hmoves, ⟨h.accounting.accounted, ?_, ?_, ?_⟩, ?_, ?_⟩
  · have honce := h.accounting.once
    rw [running] at honce ⊢
    dsimp only
    rw [hstatus]
    split_ifs at honce ⊢ with hrun
    · rw [(hhead hrun).2]
      exact honce
    · exact honce
  · exact fun hrun => h.accounting.ownRx (hstatus.symm.trans hrun)
  · exact fun hrun => h.accounting.ownTx (hstatus.symm.trans hrun)
  · intro hrun
    have hrunning := hstatus.symm.trans hrun
    refine ⟨(hhead hrunning).1, ?_⟩
    dsimp only
    rw [(hhead hrunning).2]
    exact (h.busy hrunning).2.frame _ _
  · exact fun hidle => (h.quiet (hstatus.symm.trans hidle)).frame _ _

theorem inv_spiSubmit (h : Inv outputBuf dummyWord s) (t : SpiTransaction)
    (horderly : Starts s (.submit t) → s.txPending = false) :
    Inv outputBuf dummyWord (spiSubmit t s) := by
  unfold spiSubmit
  dsimp only
  by_cases hrefused : nextIdx s.periph.trans.insertIdx = s.periph.trans.extractIdx ∨
      (t.inputLength = 0 ∧ t.outputLength = 0)
  · rw [if_pos hrefused]
    exact h.frame _ rfl h.ring h.moves fun hrun => ⟨(h.busy hrun).1, rfl⟩
  · rw [if_neg hrefused]
    rw [not_or] at hrefused
    obtain ⟨hok, hcontents⟩ := Ring.push h.ring (nextIdx_eq h.ring.insert_lt) hrefused.1 t
    have hmoves : ∀ u ∈ Ring.contents queueLen
        { s.periph.trans.store t with insertIdx := nextIdx s.periph.trans.insertIdx },
        MovesData u := by
      rw [hcontents]
      intro u hu
      rcases List.mem_append.mp hu with hold | hnew
      · exact h.moves u hold
      · rw [List.mem_singleton.mp hnew]
        exact hrefused.2
    split_ifs with hstart
    · have hready := ready_of_idle h hstart.1
      refine inv_start ⟨hok, hmoves, hready.accounted, hready.once, hready.quiet.frame _ _⟩
        (horderly ⟨hrefused.1, hrefused.2, hstart⟩) hrefused.1
    · refine h.frame _ rfl hok hmoves fun hrun => ⟨hrefused.1, ?_⟩
      have hcons := Ring.contents_eq_cons h.ring (h.busy hrun).1
      have hcons' := Ring.contents_eq_cons hok hrefused.1
      rw [hcontents, hcons, List.cons_append] at hcons'
      exact (List.cons.inj hcons').1.symm

theorem inv_spiLock (h : Inv outputBuf dummyWord s) (slave : UInt8) :
    Inv outputBuf dummyWord (spiLock slave s) := by
  unfold spiLock
  split_ifs
  · exact h.frame _ rfl h.ring h.moves fun hrun => ⟨(h.busy hrun).1, rfl⟩
  · exact h

theorem inv_spiResume (h : Inv outputBuf dummyWord s) (slave : UInt8)
    (horderly : Starts s (.resume slave) → s.txPending = false) :
    Inv outputBuf dummyWord (spiResume slave s) := by
  unfold spiResume
  dsimp only
  split_ifs with hsuspend hstart
  · have hready := ready_of_idle h hstart.2
    exact inv_start ⟨hready.ring, hready.moves, hready.accounted, hready.once,
      hready.quiet.frame _ _⟩ (horderly ⟨hsuspend, hstart⟩) (fun heq => hstart.1 heq.symm)
  · exact h.frame _ rfl h.ring h.moves fun hrun => ⟨(h.busy hrun).1, rfl⟩
  · exact h

/-! ### Runs -/

theorem inv_step (h : Inv outputBuf dummyWord s) (e : Event W) (horderly : Orderly s e) :
    Inv outputBuf dummyWord (step outputBuf dummyWord s e) := by
  cases e with
  | submit t => exact inv_spiSubmit h t horderly.1
  | lock slave => exact inv_spiLock h slave
  | resume slave => exact inv_spiResume h slave horderly.1
  | txDma => exact inv_txDma h
  | load => exact inv_load h
  | exchange w => exact inv_exchange h w fun hshift => by simpa using horderly.2 hshift
  | rxDma => exact inv_rxDma h
  | rxInterrupt =>
      change Inv _ _ (if s.rxPending then _ else s)
      split_ifs with hpending
      · exact inv_rxInterrupt h hpending fun hextra hnext hsuspend =>
          horderly.1 ⟨hpending, hextra, hnext, hsuspend⟩
      · exact h
  | txInterrupt =>
      change Inv _ _ (if s.txPending then _ else s)
      split_ifs with hpending
      · exact inv_txInterrupt h hpending
      · exact h

theorem inv_initial (buf : Nat → SpiTransaction) (transStatus : Nat → TransStatus)
    (inputBuf : Nat → Nat → W) :
    Inv outputBuf dummyWord (initial buf transStatus inputBuf) := by
  refine inv_idle ⟨⟨by simp [initial], by simp [initial]⟩, ?_, ?_, rfl,
    ⟨rfl, rfl, rfl, rfl, rfl, rfl, rfl, rfl⟩⟩ rfl
  · simp [initial, Ring.contents, Ring.count]
  · simp [initial]

/-! ### The end of a transaction -/

/-- What the hardware does next when it serves the transmit interrupt first and fetches a word
before the next one is clocked. -/
def nextEvent (w : W) (s : State W) : Event W :=
  if s.txPending then .txInterrupt
  else if s.rxPending then .rxInterrupt
  else if s.rxData.isSome then .rxDma
  else if s.shift.isSome then .exchange w
  else if s.txData.isSome then .load
  else .txDma

/-- What is left to do. -/
def rank (t : SpiTransaction) (s : State W) : Nat :=
  6 * (total t - s.given.length) + 4 * s.txData.toList.length + 3 * s.shift.toList.length +
    2 * s.rxData.toList.length + s.txPending.toNat + s.rxPending.toNat

theorem orderly_nextEvent (w : W) (s : State W) : Orderly s (nextEvent w s) := by
  unfold nextEvent
  split_ifs with htx hrx hdata hshift hload
  · exact ⟨fun hno => hno.elim, trivial⟩
  · exact ⟨fun _ => Bool.eq_false_iff.mpr htx, trivial⟩
  · exact ⟨fun hno => hno.elim, trivial⟩
  · exact ⟨fun hno => hno.elim, fun _ => by simpa using hdata⟩
  · exact ⟨fun hno => hno.elim, trivial⟩
  · exact ⟨fun hno => hno.elim, trivial⟩

theorem finished_spiNextTransaction (s : State W) :
    (spiNextTransaction s).finished = s.finished := by
  unfold spiNextTransaction
  dsimp only
  split_ifs
  · rfl
  · rfl

theorem toNat_ite_le (p : Prop) [Decidable p] (b : Bool) :
    (if p then true else b).toNat ≤ 1 := by
  cases (if p then true else b) <;> decide

/-- With nothing on the way and no interrupt pending the transmit DMA has words left. -/
theorem Busy.tx_number_ne_zero (h : Busy outputBuf dummyWord t s) (htx : s.txPending = false)
    (hrx : s.rxPending = false) (htxData : s.txData = none) (hshift : s.shift = none)
    (hrxData : s.rxData = none) : s.tx.number ≠ 0 := by
  intro hzero
  have htxPhase := h.tx
  cases hextra : s.txExtraDummyDma with
  | true =>
      have hpending := (htxPhase.first hextra).2.2.2.2.2 hzero
      rw [htx] at hpending
      cases hpending
  | false =>
      rw [hextra] at htxPhase
      have hgiven := htxPhase.done_of_last hzero
      have hpipeline := congrArg List.length h.pipeline
      have hfetched := congrArg List.length h.fetched
      simp [htxData, hshift, hrxData] at hpipeline hfetched
      have hsync := h.sync
      have hpending := h.rxDone (h.rx.eq_of_done (by omega)).2
      rw [hrx] at hpending
      cases hpending

/-- The transaction goes on with less to do, or has ended. -/
theorem rank_nextEvent (h : Inv outputBuf dummyWord s) (hrun : s.periph.status = .running)
    (w : W) :
    (∃ r, (step outputBuf dummyWord s (nextEvent w s)).finished = s.finished ++ [r] ∧
      r.trans = s.periph.trans.head) ∨
    ((step outputBuf dummyWord s (nextEvent w s)).finished = s.finished ∧
      (step outputBuf dummyWord s (nextEvent w s)).periph = s.periph ∧
      rank s.periph.trans.head (step outputBuf dummyWord s (nextEvent w s)) <
        rank s.periph.trans.head s) := by
  obtain ⟨-, hbusy⟩ := h.busy hrun
  unfold nextEvent
  split_ifs with htx hrx hdata hshift hload
  · refine .inr ?_
    simp only [step, if_pos htx, processTxDmaInterrupt]
    split_ifs
    · exact ⟨rfl, rfl, by simp [rank, htx]⟩
    · exact ⟨rfl, rfl, by simp [rank, htx]⟩
  · simp only [step, if_pos hrx, processRxDmaInterrupt]
    split_ifs with hextra
    · exact .inr ⟨rfl, rfl, by simp [rank, hrx]⟩
    · exact .inl ⟨_, finished_spiNextTransaction _, rfl⟩
  · obtain ⟨x, hx⟩ := Option.isSome_iff_exists.mp hdata
    have hnumber : s.rx.number ≠ 0 := fun hzero => hrx (hbusy.rxDone hzero)
    obtain ⟨henabled, -, hrequest, -⟩ := hbusy.rx.active hnumber
    have hle := toNat_ite_le s.rx.Completes s.rxPending
    have hmove : s.rx.enabled ∧ s.rxRequest ∧ s.rx.number ≠ 0 := ⟨henabled, hrequest, hnumber⟩
    refine .inr ?_
    simp only [step, rxDma, hx, if_pos hmove]
    refine ⟨trivial, trivial, ?_⟩
    simp only [rank, hx, Option.toList_some, Option.toList_none, List.length_nil,
      List.length_singleton]
    omega
  · obtain ⟨x, hx⟩ := Option.isSome_iff_exists.mp hshift
    have hnone : s.rxData = none := by simpa using hdata
    refine .inr ?_
    simp only [step, exchange, hx]
    refine ⟨trivial, trivial, ?_⟩
    simp [rank, hx, hnone]
  · have hnone : s.shift = none := by simpa using hshift
    obtain ⟨x, hx⟩ := Option.isSome_iff_exists.mp hload
    refine .inr ?_
    simp only [step, load, hnone, Option.isNone_none, if_pos]
    refine ⟨trivial, trivial, ?_⟩
    simp [rank, hx, hnone]
  · have hnone : s.txData = none := by simpa using hload
    have hnumber := hbusy.tx_number_ne_zero (Bool.eq_false_iff.mpr htx)
      (Bool.eq_false_iff.mpr hrx) hnone (by simpa using hshift) (by simpa using hdata)
    obtain ⟨henabled, -, hrequest, -⟩ := hbusy.tx.active hnumber
    have hlt := (hbusy.tx.place hnumber).1
    have hle := toNat_ite_le s.tx.Completes s.txPending
    have hmove : s.tx.enabled ∧ s.txRequest ∧ s.tx.number ≠ 0 ∧ s.txData.isNone :=
      ⟨henabled, hrequest, hnumber, by simp [hnone]⟩
    refine .inr ?_
    simp only [step, txDma, if_pos hmove]
    refine ⟨trivial, trivial, ?_⟩
    simp only [rank, hnone, Option.toList_some, Option.toList_none, List.length_nil,
      List.length_singleton, List.length_append, total]
    omega

/-- From every state the running transaction can end, whatever the slave sends. -/
theorem exists_end (w : Nat → W) (h : Inv outputBuf dummyWord s)
    (hrun : s.periph.status = .running) :
    ∃ es r, RunOk (step outputBuf dummyWord) Orderly s es ∧
      (run (step outputBuf dummyWord) s es).finished = s.finished ++ [r] ∧
      r.trans = s.periph.trans.head := by
  induction hrank : rank s.periph.trans.head s using Nat.strong_induction_on generalizing s with
  | _ n ih =>
      have horderly := orderly_nextEvent (w n) s
      rcases rank_nextEvent h hrun (w n) with ⟨r, hfinished, htrans⟩ | ⟨hsame, hperiph, hless⟩
      · exact ⟨[nextEvent (w n) s], r, ⟨horderly, trivial⟩, hfinished, htrans⟩
      · obtain ⟨es, r, hok, hfinished, htrans⟩ := ih _ (by rw [hperiph]; omega)
          (inv_step h _ horderly) (by rw [hperiph]; exact hrun) rfl
        refine ⟨nextEvent (w n) s :: es, r, ⟨horderly, hok⟩, ?_, ?_⟩
        · rw [run_cons, hfinished, hsame]
        · rw [htrans, hperiph]

/-- In orderly runs all transactions are accounted for, and the running one can end. -/
theorem spi_dma_accounting (outputBuf : Nat → Nat → W) (dummyWord : W)
    (buf : Nat → SpiTransaction) (transStatus : Nat → TransStatus) (inputBuf : Nat → Nat → W)
    (es : List (Event W))
    (hok : RunOk (step outputBuf dummyWord) Orderly (initial buf transStatus inputBuf) es) :
    Accounting outputBuf dummyWord
        (run (step outputBuf dummyWord) (initial buf transStatus inputBuf) es) ∧
      ((run (step outputBuf dummyWord) (initial buf transStatus inputBuf) es).periph.status =
        .running →
      ∃ more r, RunOk (step outputBuf dummyWord) Orderly
          (run (step outputBuf dummyWord) (initial buf transStatus inputBuf) es) more ∧
        (run (step outputBuf dummyWord)
            (run (step outputBuf dummyWord) (initial buf transStatus inputBuf) es) more).finished =
          (run (step outputBuf dummyWord) (initial buf transStatus inputBuf) es).finished ++ [r] ∧
        r.trans =
          (run (step outputBuf dummyWord)
            (initial buf transStatus inputBuf) es).periph.trans.head) := by
  have hinv := run_invariant (Inv outputBuf dummyWord) (fun _ e h horderly => inv_step h e horderly)
    (inv_initial buf transStatus inputBuf) hok
  exact ⟨hinv.accounting, fun hrun => exists_end (fun _ => dummyWord) hinv hrun⟩

/-- One word is received while two are sent. -/
def oneTransaction : List (Event Nat) :=
  [.submit ⟨1, 1, 2⟩, .txDma, .load, .txDma, .exchange 7, .rxDma, .rxInterrupt, .txInterrupt,
    .load, .exchange 8, .rxDma, .rxInterrupt]

def initialNat : State Nat := initial (fun _ => ⟨0, 0, 0⟩) (fun _ => .done) fun _ _ => 0

theorem spi_dma_accounting_oneTransaction :
    (run (step (fun _ k => k + 40) 0) initialNat oneTransaction).finished.map Record.sent =
        [[40, 41]] ∧
      Accounting (fun _ k => k + 40) 0
        (run (step (fun _ k => k + 40) 0) initialNat oneTransaction) :=
  ⟨by decide, (spi_dma_accounting (fun _ k => k + 40) 0 (fun _ => ⟨0, 0, 0⟩) (fun _ => .done)
    (fun _ _ => 0) oneTransaction (by decide)).1⟩

/-- Both interrupts of the first transaction are pending; the receive interrupt is served first
and starts the second transaction, which sends one word and receives three. -/
def bothPending : List (Event Nat) :=
  [.submit ⟨1, 1, 1⟩, .submit ⟨2, 3, 1⟩, .txDma, .load, .exchange 7, .rxDma, .rxInterrupt]

/-- The transmit interrupt of the first transaction replaces the output word of the second one
by dummy words. -/
theorem bothPending_disturbed :
    ¬ Accounting (fun _ k => k + 40) 0 (run (step (fun _ k => k + 40) 0) initialNat bothPending) ∧
      (run (step (fun _ k => k + 40) 0) initialNat bothPending).tx =
        ⟨true, true, .buffer 2, 1, 0⟩ ∧
      (run (step (fun _ k => k + 40) 0) initialNat (bothPending ++ [.txInterrupt])).tx =
        ⟨true, true, .dummy, 2, 0⟩ := by
  refine ⟨fun h => ?_, by decide, by decide⟩
  have hown := h.ownTx (by decide) (by decide)
  exact absurd hown (by decide)

end Paparazzi.McuPeriph.SpiDma
