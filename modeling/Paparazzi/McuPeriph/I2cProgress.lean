import Mathlib
import Paparazzi.McuPeriph.I2cQueue

/-!
The I2C transactions come to an end. With the interrupts that the driver expects in each of its
states, and an error at any time, every interrupt ends the transaction at the head of the queue
or leaves less work to do for it.
-/

namespace Paparazzi.McuPeriph.I2c

open Paparazzi.Library

/-! ### The transaction at the head -/

/-- `I2C_BUF_LEN`. -/
def bufLen : Nat := 32

def LenOk (t : Transaction) : Prop := t.lenR.toNat ≤ bufLen ∧ t.lenW.toNat ≤ bufLen

/-- The interrupts that the driver expects. A received byte that finishes a transfer is in the
data register. -/
def Expected (status : I2cStatus) (sr1 : Sr1) : Prop :=
  sr1.err = true ∨
    match status with
    | .startRequested => sr1.sb = true
    | .addrWrSent | .addrRdSent => sr1.sb = false ∧ sr1.addr = true
    | .sendingByte => sr1.sb = false ∧ sr1.addr = false
    | .readingByte | .readingLastByte | .stopRequested =>
        sr1.sb = false ∧ sr1.addr = false ∧ (sr1.btf = true → sr1.rxne = true)
    | _ => True

/-- What holds of the transaction at the head in each state of the driver. -/
def HeadOk (w : Sub) : Prop :=
  match w.status with
  | .startRequested => True
  | .addrWrSent => w.trans.type ≠ .rx ∧ w.regs.itbufen = false
  | .sendingByte =>
      w.trans.type ≠ .rx ∧ (w.regs.itbufen = true → w.idxBuf.toNat < w.trans.lenW.toNat)
  | .addrRdSent => w.trans.type = .rx ∧ w.regs.itbufen = false
  | .readingLastByte => w.trans.type = .rx ∧ w.trans.lenR = 1
  | .readingByte =>
      w.trans.type = .rx ∧ w.trans.lenR ≠ 1 ∧
        (w.trans.lenR ≠ 2 → w.idxBuf.toNat ≤ w.trans.lenR.toNat ∧
          (w.regs.itbufen = false → w.trans.lenR.toNat ≤ w.idxBuf.toNat + 3))
  | .stopRequested =>
      w.trans.type = .rx ∧ w.trans.lenR ≠ 1 ∧ w.trans.lenR ≠ 2 ∧ w.regs.itbufen = true ∧
        w.trans.lenR.toNat ≤ w.idxBuf.toNat + 1
  | _ => False

/-- The interrupts of the second half of a write and read. -/
def readPart (t : Transaction) : Nat := if t.type = .txRx then t.lenR.toNat + 6 else 0

/-- A bound on the interrupts until the end of the transaction. -/
def work (w : Sub) : Nat :=
  match w.status with
  | .startRequested =>
      if w.trans.type = .rx then w.trans.lenR.toNat + 6
      else w.trans.lenW.toNat + 3 + readPart w.trans
  | .addrWrSent => w.trans.lenW.toNat + 2 + readPart w.trans
  | .sendingByte =>
      (if w.regs.itbufen then w.trans.lenW.toNat - w.idxBuf.toNat + 1 else 1) + readPart w.trans
  | .addrRdSent => w.trans.lenR.toNat + 5
  | .readingByte => if w.regs.itbufen then w.trans.lenR.toNat - w.idxBuf.toNat + 3 else 2
  | _ => 1

def workBound : Nat := 2 * bufLen + 9

theorem work_pos (w : Sub) : 0 < work w := by
  unfold work
  split <;> (try split_ifs) <;> omega

theorem work_le {w : Sub} (h : LenOk w.trans) : work w ≤ workBound := by
  obtain ⟨hr, hw⟩ := h
  have hpart : readPart w.trans ≤ w.trans.lenR.toNat + 6 := by
    unfold readPart
    split_ifs <;> omega
  unfold work workBound bufLen at *
  split <;> (try split_ifs) <;> omega

/-- The call leaves less work, or ends the transaction or its first half. -/
inductive Progress (w : Sub) : Sub × SubTra → Prop
  | moved {w' : Sub} (hhead : HeadOk w') (hwork : work w' < work w) : Progress w (w', .busy)
  | finished {r : Sub × SubTra} (hret : r.2 ≠ .busy)
      (hwork : r.1.trans.type = .txRx → work r.1.restart < work w) : Progress w r

section

variable {sr1 : Sr1} {w : Sub}

theorem toNat_succ {i : UInt8} (h : i.toNat + 1 < 256) : (i + 1).toNat = i.toNat + 1 := by
  rw [UInt8.toNat_add]
  exact Nat.mod_eq_of_lt h

theorem work_restart_sending (h : w.status = .sendingByte) (htype : w.trans.type = .txRx) :
    work w.restart < work w := by
  simp only [work, h, Sub.restart, readPart, htype, if_true]
  split_ifs <;> omega

theorem progress_send (hhead : HeadOk w) (hlen : LenOk w.trans) (hrx : w.trans.type ≠ .rx)
    (herr : sr1.err = false) (hexpected : Expected w.status sr1) :
    Progress w (stmi2cSend sr1 w) := by
  have hflags := hexpected.resolve_left (by simp [herr])
  obtain ⟨regs, status, idxBuf, trans⟩ := w
  obtain ⟨-, hlenW⟩ := hlen
  dsimp only [bufLen] at hlenW hrx hflags
  cases status with
  | startRequested =>
      simp only [stmi2cSend, hflags, if_true]
      refine .moved ⟨hrx, rfl⟩ ?_
      simp only [work, if_neg hrx]
      omega
  | addrWrSent =>
      obtain ⟨-, hoff⟩ := hhead
      dsimp only at hoff
      simp only [stmi2cSend, hflags.1, hflags.2, Bool.false_eq_true, if_false, if_true]
      generalize hidx : (if trans.lenW > 1 then 2 else 1 : UInt8) = idx
      have hbound : 1 ≤ idx.toNat := by
        rw [← hidx]
        split_ifs <;> decide
      generalize hregs : (if trans.lenW > 1 then _ else _ : Regs) = regs'
      have hregs' : regs'.itbufen = false := by
        rw [← hregs]
        split_ifs <;> exact hoff
      refine .moved ⟨hrx, ?_⟩ ?_
      · dsimp only
        rw [hregs', Bool.false_or, decide_eq_true_eq]
        exact UInt8.lt_iff_toNat_lt.mp
      · simp only [work, readPart]
        split_ifs <;> omega
  | sendingByte =>
      obtain ⟨-, hon⟩ := hhead
      dsimp only at hon
      simp only [stmi2cSend, hflags.1, hflags.2, Bool.false_eq_true, if_false]
      split_ifs with htxe _ htx
      · rw [Bool.and_eq_true] at htxe
        have hidx := hon htxe.2
        have hnext := toNat_succ (i := idxBuf) (by omega)
        refine .moved ⟨hrx, ?_⟩ ?_
        · simp only [Regs.put, decide_eq_true_eq]
          exact UInt8.lt_iff_toNat_lt.mp
        · simp only [work, Regs.put, htxe.2, if_true, decide_eq_true_eq, UInt8.lt_iff_toNat_lt,
            hnext, readPart]
          split_ifs <;> omega
      · refine .finished nofun fun htype => ?_
        exact absurd (htx.symm.trans htype) nofun
      · exact .finished nofun (work_restart_sending rfl)
      · exact .finished nofun (work_restart_sending rfl)
  | addrRdSent => exact absurd hhead.1 hrx
  | readingByte => exact absurd hhead.1 hrx
  | readingLastByte => exact absurd hhead.1 hrx
  | stopRequested => exact absurd hhead.1 hrx
  | idle | restartRequested | complete | failed => exact hhead.elim

/-- Nothing of a reception is restarted. -/
theorem progress_over (hrx : w.trans.type = .rx) {r : Sub × SubTra} (hret : r.2 ≠ .busy)
    (htype : r.1.trans.type = w.trans.type) : Progress w r := by
  refine .finished hret fun htxRx => ?_
  rw [htype, hrx] at htxRx
  cases htxRx

theorem progress_read1 (hhead : HeadOk w) (hrx : w.trans.type = .rx) (hlenR : w.trans.lenR = 1)
    (herr : sr1.err = false) (hexpected : Expected w.status sr1) (rd : UInt8) :
    Progress w (stmi2cRead1 sr1 rd w) := by
  have hflags := hexpected.resolve_left (by simp [herr])
  obtain ⟨regs, status, idxBuf, trans⟩ := w
  dsimp only at hrx hlenR hflags
  cases status with
  | startRequested =>
      simp only [stmi2cRead1, hflags, if_true]
      refine .moved ⟨hrx, rfl⟩ ?_
      simp only [work, if_pos hrx]
      omega
  | addrRdSent =>
      simp only [stmi2cRead1, hflags.1, hflags.2, Bool.false_eq_true, if_false, if_true]
      refine .moved ⟨hrx, hlenR⟩ ?_
      simp only [work]
      omega
  | readingLastByte =>
      simp only [stmi2cRead1, hflags.1, hflags.2.1, Bool.false_eq_true, if_false]
      split_ifs
      · exact progress_over hrx nofun rfl
      · exact progress_over hrx nofun rfl
  | addrWrSent => exact absurd hrx hhead.1
  | sendingByte => exact absurd hrx hhead.1
  | readingByte => exact absurd hlenR hhead.2.1
  | stopRequested => exact absurd hlenR hhead.2.1
  | idle | restartRequested | complete | failed => exact hhead.elim

theorem progress_read2 (hhead : HeadOk w) (hrx : w.trans.type = .rx) (hlenR : w.trans.lenR = 2)
    (herr : sr1.err = false) (hexpected : Expected w.status sr1) (rd : UInt8 × UInt8) :
    Progress w (stmi2cRead2 sr1 rd w) := by
  have hflags := hexpected.resolve_left (by simp [herr])
  obtain ⟨regs, status, idxBuf, trans⟩ := w
  dsimp only at hrx hlenR hflags
  cases status with
  | startRequested =>
      simp only [stmi2cRead2, hflags, if_true]
      refine .moved ⟨hrx, rfl⟩ ?_
      simp only [work, if_pos hrx]
      omega
  | addrRdSent =>
      simp only [stmi2cRead2, hflags.1, hflags.2, Bool.false_eq_true, if_false, if_true]
      refine .moved ⟨hrx, ?_, fun h => absurd hlenR h⟩ ?_
      · simp [hlenR]
      · simp only [work, Bool.false_eq_true, if_false]
        omega
  | readingByte =>
      simp only [stmi2cRead2, hflags.1, hflags.2.1, Bool.false_eq_true, if_false]
      split_ifs
      · exact progress_over hrx nofun rfl
      · exact progress_over hrx nofun rfl
  | addrWrSent => exact absurd hrx hhead.1
  | sendingByte => exact absurd hrx hhead.1
  | readingLastByte => exact absurd (hlenR.symm.trans hhead.2) (by decide)
  | stopRequested => exact absurd hlenR hhead.2.2.1
  | idle | restartRequested | complete | failed => exact hhead.elim

theorem progress_readmany (hhead : HeadOk w) (hlen : LenOk w.trans) (hrx : w.trans.type = .rx)
    (hone : w.trans.lenR ≠ 1) (htwo : w.trans.lenR ≠ 2) (herr : sr1.err = false)
    (hexpected : Expected w.status sr1) (rd : UInt8 × UInt8) :
    Progress w (stmi2cReadmany sr1 rd w) := by
  have hflags := hexpected.resolve_left (by simp [herr])
  obtain ⟨regs, status, idxBuf, trans⟩ := w
  obtain ⟨hlenR, -⟩ := hlen
  dsimp only [bufLen] at hrx hone htwo hflags hlenR
  cases status with
  | startRequested =>
      simp only [stmi2cReadmany, hflags, if_true]
      refine .moved ⟨hrx, rfl⟩ ?_
      simp only [work, if_pos hrx]
      omega
  | addrRdSent =>
      obtain ⟨-, hoff⟩ := hhead
      dsimp only at hoff
      simp only [stmi2cReadmany, hflags.1, hflags.2, hoff, Bool.false_eq_true, if_false, if_true,
        Bool.false_or]
      refine .moved ⟨hrx, hone, fun _ => ⟨by simp, ?_⟩⟩ ?_
      · simp only [moreThanThree, decide_eq_false_iff_not]
        omega
      · simp only [work]
        split_ifs <;> omega
  | readingByte =>
      obtain ⟨-, -, hbytes⟩ := hhead
      obtain ⟨hidx, hrest⟩ := hbytes htwo
      dsimp only at hidx hrest
      simp only [stmi2cReadmany, hflags.1, hflags.2.1, Bool.false_eq_true, if_false]
      split_ifs with hrxne hmore hlast hbtf
      · rw [Bool.and_eq_true] at hrxne
        simp only [moreThanThree, decide_eq_true_eq] at hmore
        have hnext := toNat_succ (i := idxBuf) (by omega)
        refine .moved ⟨hrx, hone, fun _ => ⟨?_, ?_⟩⟩ ?_
        · simp only [Transaction.store, hnext]
          omega
        · simp only [Transaction.store, moreThanThree, decide_eq_false_iff_not, hnext]
          omega
        · simp only [work, hrxne.2, if_true, Transaction.store, moreThanThree, hnext]
          split_ifs <;> omega
      · exact progress_over hrx nofun rfl
      · rw [Bool.and_eq_true] at hrxne
        simp only [moreThanThree, decide_eq_true_eq] at hmore
        have hrest' : trans.lenR.toNat ≤ idxBuf.toNat + 3 := by omega
        refine .moved ⟨hrx, hone, fun _ => ⟨hidx, fun _ => hrest'⟩⟩ ?_
        simp only [work, hrxne.2, if_true, Bool.false_eq_true, if_false]
        omega
      · have hoff : regs.itbufen = false := by
          simpa [hflags.2.2 hbtf] using hrxne
        have hlast := hrest hoff
        have hnext := toNat_succ (i := idxBuf) (by omega)
        have hnext' := toNat_succ (i := idxBuf + 1) (by omega)
        refine .moved ⟨hrx, hone, htwo, rfl, ?_⟩ ?_
        · simp only [Transaction.store, hnext', hnext]
          omega
        · simp [work, hoff]
      · exact progress_over hrx nofun rfl
  | stopRequested =>
      obtain ⟨-, -, -, hon, hidx⟩ := hhead
      dsimp only at hon hidx
      have hmore : moreThanThree idxBuf trans.lenR = false := by
        simp only [moreThanThree, decide_eq_false_iff_not]
        omega
      simp only [stmi2cReadmany, hflags.1, hflags.2.1, hon, hmore, Bool.and_true,
        Bool.false_eq_true, if_false]
      split_ifs with hrxne hbtf
      · exact progress_over hrx nofun rfl
      · exact absurd (hflags.2.2 hbtf) hrxne
      · exact progress_over hrx nofun rfl
  | addrWrSent => exact absurd hrx hhead.1
  | sendingByte => exact absurd hrx hhead.1
  | readingLastByte => exact absurd hhead.2 hone
  | idle | restartRequested | complete | failed => exact hhead.elim

theorem progress_handler (hhead : HeadOk w) (hlen : LenOk w.trans) (herr : sr1.err = false)
    (hexpected : Expected w.status sr1) (rd : UInt8 × UInt8) :
    Progress w (handler sr1 rd w) := by
  unfold handler
  split_ifs with hrx hone htwo
  · exact progress_read1 hhead hrx hone herr hexpected rd.1
  · exact progress_read2 hhead hrx htwo herr hexpected rd
  · exact progress_readmany hhead hlen hrx hone htwo herr hexpected rd
  · exact progress_send hhead hlen hrx herr hexpected

theorem progress_subTransaction (hhead : HeadOk w) (hlen : LenOk w.trans)
    (hexpected : Expected w.status sr1) (rd : UInt8 × UInt8) :
    Progress w (subTransaction sr1 rd w) := by
  unfold subTransaction
  dsimp only
  split_ifs with herr herror
  · exact .finished nofun nofun
  · exact .finished nofun nofun
  · exact progress_handler hhead hlen (Bool.eq_false_iff.mpr herr) hexpected rd

end

/-! ### The queue -/

/-- The transaction that `i2c_submit` is at work on. -/
def Pc.trans : Pc → Option Nat
  | .idle => none
  | .testRoom p _ | .markPending p _ | .enqueue p _ => some p

/-- What the callers and the hardware keep to: transactions fit their buffers and are not
written while they are queued, and interrupts are those expected. -/
def CallOk (queueLen : Nat) (s : State) : Event → Prop
  | .write p _ => p ∉ s.queue queueLen
  | .submit p => LenOk (s.trans p)
  | .main => True
  | .interrupt sr1 _ => s.queue queueLen ≠ [] → Expected s.status sr1

structure Live (queueLen : Nat) (s : State) : Prop where
  head : s.queue queueLen ≠ [] → HeadOk s.sub
  len : ∀ p ∈ s.queue queueLen, LenOk (s.trans p)
  call : ∀ p, s.pc.trans = some p → LenOk (s.trans p)

/-- The interrupts that may still come before `target` transactions have ended. -/
def remaining (target : Nat) (s : State) : Nat :=
  if target ≤ s.ended.length then 0
  else work s.sub + workBound * (target - s.ended.length - 1)

def isInterrupt : Event → Bool
  | .interrupt _ _ => true
  | _ => false

section

variable {queueLen : Nat} {s : State}

theorem head_mem (h : s.ring.Ok (cells queueLen)) (hne : s.queue queueLen ≠ []) :
    s.ring.head ∈ s.queue queueLen := by
  have hidx := (queue_eq_nil_iff h).not.mp hne
  rw [State.queue, Ring.contents_eq_cons h (Ne.symm hidx)]
  exact List.mem_cons_self

theorem queue_ne_nil_of_lt (h : Inv queueLen s) {target : Nat}
    (htarget : target ≤ s.accepted.length) (hlt : s.ended.length < target) :
    s.queue queueLen ≠ [] := by
  intro hnil
  have hlength := congrArg List.length h.fifo
  rw [hnil, List.append_nil, List.length_map] at hlength
  omega

theorem le_of_nil (h : Inv queueLen s) (hnil : s.queue queueLen = []) {target : Nat}
    (htarget : target ≤ s.accepted.length) : target ≤ s.ended.length := by
  by_contra hlt
  exact queue_ne_nil_of_lt h htarget (Nat.lt_of_not_le hlt) hnil

theorem remaining_of_le {target : Nat} (h : target ≤ s.ended.length) : remaining target s = 0 := by
  unfold remaining
  rw [if_pos h]

@[simp] theorem sub_setSub (w : Sub) : (s.setSub w).sub = w := by
  unfold State.sub
  rw [setSub_head]
  rfl

theorem lenOk_setSub {w : Sub} (hlenR : w.trans.lenR = s.sub.trans.lenR)
    (hlenW : w.trans.lenW = s.sub.trans.lenW) {p : Nat} (h : LenOk (s.trans p)) :
    LenOk ((s.setSub w).trans p) := by
  by_cases hp : p = s.ring.head
  · subst hp
    unfold State.setSub LenOk
    dsimp only
    rw [Function.update_self, hlenR, hlenW]
    exact h
  · unfold State.setSub
    dsimp only
    rwa [Function.update_of_ne hp]

theorem live_setSub (h : Live queueLen s) {w : Sub} (hhead : HeadOk w)
    (hlenR : w.trans.lenR = s.sub.trans.lenR) (hlenW : w.trans.lenW = s.sub.trans.lenW) :
    Live queueLen (s.setSub w) where
  head _ := by rwa [sub_setSub]
  len p hp := lenOk_setSub hlenR hlenW (h.len p hp)
  call p hp := lenOk_setSub hlenR hlenW (h.call p hp)

/-- What the end of a transaction changes. -/
structure Ended (queueLen : Nat) (s s' : State) : Prop where
  trans : s'.trans = s.trans
  pc : s'.pc = s.pc
  accepted : s'.accepted = s.accepted
  ended : s'.ended.length = s.ended.length + 1
  queue : s.queue queueLen = s.ring.head :: s'.queue queueLen
  status : s'.queue queueLen ≠ [] → s'.status = .startRequested

theorem ended_endTransaction (h : s.ring.Ok (cells queueLen))
    (hne : s.ring.extractIdx ≠ s.ring.insertIdx) (ret : SubTra) :
    Ended queueLen s (endTransaction queueLen ret s) := by
  have hcons := Ring.contents_eq_cons h (Ne.symm hne)
  have hidx := nextIdx_eq h.extract_lt
  simp only [endTransaction, hidx]
  generalize (if ret = .ready then { s.regs with stop := true }.put 0 else s.regs) = regs
  split_ifs with hlast
  · refine ⟨rfl, rfl, rfl, by simp, hcons, fun hqueue => ?_⟩
    exact absurd ((Ring.contents_eq_nil_iff h.drop).mpr hlast.symm) hqueue
  · exact ⟨rfl, rfl, rfl, by simp [sendStart], hcons, fun _ => rfl⟩

theorem live_of_ended (hlen : ∀ p ∈ s.queue queueLen, LenOk (s.trans p))
    (hcall : ∀ p, s.pc.trans = some p → LenOk (s.trans p)) {s' : State}
    (hended : Ended queueLen s s') : Live queueLen s' where
  head hne := by
    unfold HeadOk
    rw [show s'.sub.status = .startRequested from hended.status hne]
    trivial
  len p hp := by
    rw [hended.trans]
    exact hlen p (by rw [hended.queue]; exact List.mem_cons_of_mem _ hp)
  call p hp := by
    rw [hended.trans]
    exact hcall p (by rwa [← hended.pc])

/-- The next transaction has at most the bound left to do. -/
theorem remaining_of_ended {s' : State} {target : Nat}
    (hended : s'.ended.length = s.ended.length + 1)
    (hwork : s'.ended.length < target → work s'.sub ≤ workBound) :
    remaining target s' ≤ remaining target s - 1 := by
  have hpos := work_pos s.sub
  unfold remaining
  split_ifs with hover hbefore hbefore
  · omega
  · omega
  · omega
  · have hle := hwork (by omega)
    simp only [workBound, bufLen] at hle ⊢
    omega

theorem remaining_of_work {s' : State} {target : Nat} (hended : s'.ended = s.ended)
    (hwork : s.ended.length < target → work s'.sub < work s.sub) :
    remaining target s' ≤ remaining target s - 1 := by
  unfold remaining
  rw [hended]
  split_ifs with hover
  · omega
  · have hlt := hwork (by omega)
    omega

theorem interrupt_step (h : Inv queueLen s) (hlive : Live queueLen s) {sr1 : Sr1}
    (hexpected : s.queue queueLen ≠ [] → Expected s.status sr1) (rd : UInt8 × UInt8) :
    Live queueLen (i2cIrq queueLen sr1 rd s) ∧
      ∀ target, target ≤ s.accepted.length →
        remaining target (i2cIrq queueLen sr1 rd s) ≤ remaining target s - 1 := by
  unfold i2cIrq
  split_ifs with hempty
  · have hnil := (queue_eq_nil_iff h.ok).mpr hempty
    refine ⟨⟨fun hne => absurd hnil hne, hlive.len, hlive.call⟩, fun target htarget => ?_⟩
    rw [remaining_of_le (s := { s with
      regs := stmi2cClearPendingInterrupts sr1 s.regs
      status := .idle }) (le_of_nil h hnil htarget)]
    exact Nat.zero_le _
  · have hne := (queue_eq_nil_iff h.ok).not.mpr hempty
    have hlen := hlive.len _ (head_mem h.ok hne)
    have hmoved := @moved_subTransaction sr1 s.sub (h.idle.not.mpr hne) rd
    have hprogress := progress_subTransaction (hlive.head hne) hlen (hexpected hne) rd
    dsimp only
    generalize subTransaction sr1 rd s.sub = r at hmoved hprogress
    cases hprogress with
    | moved hhead hwork =>
        rw [if_pos rfl]
        refine ⟨live_setSub hlive hhead hmoved.lenR hmoved.lenW, fun target _ => ?_⟩
        refine remaining_of_work rfl fun _ => ?_
        rwa [sub_setSub]
    | finished hret hwork =>
        rw [if_neg hret]
        split_ifs with htype
        · refine ⟨live_setSub hlive trivial hmoved.lenR hmoved.lenW, fun target _ => ?_⟩
          refine remaining_of_work rfl fun _ => ?_
          rw [sub_setSub]
          exact hwork htype
        · have hset := inv_setSub h hempty hmoved.status
          have hended := ended_endTransaction (s := s.setSub r.1) hset.ok hempty r.2
          have hover := hmoved.finished hret htype
          have hinv := inv_endTransaction hset hempty (by rwa [setSub_head]) r.2
          have hlive' := live_of_ended (s := s.setSub r.1)
            (fun p hp => lenOk_setSub hmoved.lenR hmoved.lenW (hlive.len p hp))
            (fun p hp => lenOk_setSub hmoved.lenR hmoved.lenW (hlive.call p hp)) hended
          refine ⟨hlive', fun target htarget => ?_⟩
          refine remaining_of_ended hended.ended fun hlt => work_le ?_
          have haccepted : target ≤ (endTransaction queueLen r.2 (s.setSub r.1)).accepted.length := by
            rwa [hended.accepted]
          exact hlive'.len _ (head_mem hinv.ok (queue_ne_nil_of_lt hinv haccepted hlt))

/-! ### The main loop -/

/-- Nothing of the transaction at the head has changed but its status. -/
theorem remaining_of_same {s' : State} {target : Nat} (hended : s'.ended = s.ended)
    (hwork : s.ended.length < target → work s'.sub = work s.sub) :
    remaining target s' = remaining target s := by
  unfold remaining
  rw [hended]
  split_ifs with hover
  · rfl
  · rw [hwork (by omega)]

theorem headOk_setStatus {w : Sub} (h : HeadOk w) (status : TransStatus) :
    HeadOk { w with trans := { w.trans with status := status } } := h

theorem work_setStatus (w : Sub) (status : TransStatus) :
    work { w with trans := { w.trans with status := status } } = work w := rfl

theorem write_step (h : Inv queueLen s) (hlive : Live queueLen s) (hpc : s.pc = .idle) {p : Nat}
    (hp : p ∉ s.queue queueLen) (t : Transaction) :
    Live queueLen { s with trans := Function.update s.trans p t } ∧
      ∀ target, target ≤ s.accepted.length →
        remaining target { s with trans := Function.update s.trans p t } = remaining target s := by
  have hsub : s.queue queueLen ≠ [] →
      ({ s with trans := Function.update s.trans p t } : State).sub = s.sub := by
    intro hne
    unfold State.sub
    dsimp only
    rw [Function.update_of_ne]
    intro hhead
    rw [← hhead] at hp
    exact hp (head_mem h.ok hne)
  refine ⟨⟨fun hne => ?_, fun q hq => ?_, fun q hq => ?_⟩, fun target htarget => ?_⟩
  · rw [hsub hne]
    exact hlive.head hne
  · dsimp only
    rw [Function.update_of_ne]
    · exact hlive.len q hq
    · rintro rfl
      exact hp hq
  · dsimp only at hq
    rw [hpc] at hq
    cases hq
  · refine remaining_of_same rfl fun hlt => ?_
    rw [hsub (queue_ne_nil_of_lt h htarget hlt)]

theorem lenOk_setStatus {p q : Nat} {status : TransStatus} (h : LenOk (s.trans q)) :
    LenOk (Function.update s.trans p { s.trans p with status := status } q) := by
  by_cases hq : q = p
  · subst hq
    rwa [Function.update_self]
  · rwa [Function.update_of_ne hq]

theorem markPending_step (hlive : Live queueLen s) {p temp : Nat}
    (hpc : s.pc = .markPending p temp) :
    Live queueLen (mainStep s) ∧ ∀ target, remaining target (mainStep s) = remaining target s := by
  have hcall := hlive.call
  unfold mainStep
  rw [hpc] at hcall ⊢
  dsimp only
  generalize hs' : ({ s with
    trans := Function.update s.trans p { s.trans p with status := .pending }
    pc := .enqueue p temp } : State) = s'
  have hsub : s'.sub = s.sub ∨
      s'.sub = { s.sub with trans := { s.sub.trans with status := .pending } } := by
    subst hs'
    unfold State.sub
    dsimp only
    by_cases hp : s.ring.head = p
    · subst hp
      rw [Function.update_self]
      exact Or.inr rfl
    · rw [Function.update_of_ne hp]
      exact Or.inl rfl
  have hlen : ∀ q, LenOk (s.trans q) → LenOk (s'.trans q) := by
    subst hs'
    exact fun q hq => lenOk_setStatus hq
  have hqueue : s'.queue queueLen = s.queue queueLen := by
    subst hs'
    rfl
  have hpc' : s'.pc = .enqueue p temp := by
    subst hs'
    rfl
  have hended : s'.ended = s.ended := by
    subst hs'
    rfl
  refine ⟨⟨fun hne => ?_, fun q hq => ?_, fun q hq => ?_⟩, fun target => ?_⟩
  · rw [hqueue] at hne
    rcases hsub with hsub | hsub
    · rw [hsub]
      exact hlive.head hne
    · rw [hsub]
      exact headOk_setStatus (hlive.head hne) _
  · exact hlen q (hlive.len q (by rwa [hqueue] at hq))
  · exact hlen q (hcall q (by rwa [hpc'] at hq))
  · refine remaining_of_same hended fun _ => ?_
    rcases hsub with hsub | hsub
    · rw [hsub]
    · rw [hsub]
      exact work_setStatus _ _

theorem enqueue_step (h : Inv queueLen s) (hlive : Live queueLen s) {p temp : Nat}
    (hpc : s.pc = .enqueue p temp) :
    Live queueLen (mainStep s) ∧
      ∀ target, target ≤ s.accepted.length → remaining target (mainStep s) = remaining target s := by
  have hcall := hlive.call p
  have hfresh := h.fresh
  unfold mainStep
  rw [hpc] at hcall hfresh ⊢
  obtain ⟨-, hqueue⟩ := Ring.push h.ok hfresh.1 hfresh.2 p
  have hlen : ∀ q ∈ s.queue queueLen ++ [p], LenOk (s.trans q) := by
    intro q hq
    rcases List.mem_append.mp hq with hq | hq
    · exact hlive.len q hq
    · rw [List.mem_singleton.mp hq]
      exact hcall rfl
  simp only [enqueue]
  split_ifs with hidle
  · have hnil := h.idle.mp hidle
    refine ⟨⟨fun _ => trivial, fun q hq => hlen q ?_, by rintro _ ⟨⟩⟩, fun target htarget => ?_⟩
    · exact hqueue ▸ hq
    · have hover := le_of_nil h hnil htarget
      rw [remaining_of_le hover]
      exact remaining_of_le (s := sendStart _) hover
  · have hne := h.idle.not.mp hidle
    have hidx := (queue_eq_nil_iff h.ok).not.mp hne
    have hhead : (s.ring.store p).head = s.ring.head := Function.update_of_ne hidx _ _
    generalize hs' : ({ s with
      ring := { s.ring.store p with insertIdx := temp }
      pc := .idle
      accepted := s.accepted ++ [p] } : State) = s'
    have hsub : s'.sub = s.sub := by
      subst hs'
      unfold State.sub
      dsimp only
      rw [show ({ s.ring.store p with insertIdx := temp } : Library.Ring Nat).head =
        s.ring.head from hhead]
    have hqueue' : s'.queue queueLen = s.queue queueLen ++ [p] := by
      subst hs'
      exact hqueue
    refine ⟨⟨fun _ => ?_, fun q hq => ?_, ?_⟩, fun target _ => ?_⟩
    · rw [hsub]
      exact hlive.head hne
    · subst hs'
      exact hlen q (hqueue' ▸ hq)
    · subst hs'
      rintro _ ⟨⟩
    · subst hs'
      exact remaining_of_same rfl fun _ => by rw [hsub]

theorem main_step (h : Inv queueLen s) (hlive : Live queueLen s) :
    Live queueLen (mainStep s) ∧
      ∀ target, target ≤ s.accepted.length → remaining target (mainStep s) = remaining target s := by
  cases hpc : s.pc with
  | idle =>
      unfold mainStep
      rw [hpc]
      exact ⟨hlive, fun _ _ => rfl⟩
  | testRoom p temp =>
      have hcall := hlive.call
      unfold mainStep
      rw [hpc] at hcall ⊢
      dsimp only
      split_ifs
      · exact ⟨⟨hlive.head, hlive.len, nofun⟩, fun _ _ => rfl⟩
      · exact ⟨⟨hlive.head, hlive.len, hcall⟩, fun _ _ => rfl⟩
  | markPending p temp =>
      obtain ⟨hlive', hsame⟩ := markPending_step hlive hpc
      exact ⟨hlive', fun target _ => hsame target⟩
  | enqueue p temp => exact enqueue_step h hlive hpc

theorem progress_step (h : Inv queueLen s) (hlive : Live queueLen s) {e : Event}
    (hok : CallOk queueLen s e) :
    Live queueLen (step queueLen s e) ∧
      ∀ target, target ≤ s.accepted.length →
        remaining target (step queueLen s e) ≤
          remaining target s - [e].countP isInterrupt := by
  cases e with
  | write p t =>
      unfold step
      dsimp only
      split_ifs with hpc
      · obtain ⟨hlive', hsame⟩ := write_step h hlive hpc hok t
        exact ⟨hlive', fun target htarget => Nat.le_of_eq (hsame target htarget)⟩
      · exact ⟨hlive, fun _ _ => Nat.le_refl _⟩
  | submit p =>
      unfold step
      dsimp only
      split_ifs with hpc
      · refine ⟨⟨hlive.head, hlive.len, fun q hq => ?_⟩, fun _ _ => Nat.le_refl _⟩
        cases hq
        exact hok
      · exact ⟨hlive, fun _ _ => Nat.le_refl _⟩
  | main =>
      obtain ⟨hlive', hsame⟩ := main_step h hlive
      exact ⟨hlive', fun target htarget => Nat.le_of_eq (hsame target htarget)⟩
  | interrupt sr1 rd => exact interrupt_step h hlive hok rd

theorem accepted_step (queueLen : Nat) (s : State) (e : Event) :
    s.accepted <+: (step queueLen s e).accepted := by
  cases e with
  | write p t =>
      unfold step
      dsimp only
      split_ifs <;> exact List.prefix_refl _
  | submit p =>
      unfold step
      dsimp only
      split_ifs <;> exact List.prefix_refl _
  | main =>
      unfold step mainStep
      cases s.pc with
      | idle => exact List.prefix_refl _
      | testRoom p temp =>
          dsimp only
          split_ifs <;> exact List.prefix_refl _
      | markPending p temp => exact List.prefix_refl _
      | enqueue p temp =>
          simp only [enqueue]
          split_ifs <;> exact List.prefix_append _ _
  | interrupt sr1 rd =>
      simp only [step, i2cIrq, endTransaction]
      split_ifs <;> exact List.prefix_refl _

theorem live_initial (queueLen : Nat) (buf : Nat → Nat) (idxBuf : UInt8) (regs : Regs)
    (trans : Nat → Transaction) : Live queueLen (initial buf idxBuf regs trans) := by
  have hnil : (initial buf idxBuf regs trans).queue queueLen = [] := by
    simp [initial, State.queue, Ring.contents, Ring.count]
  refine ⟨fun hne => absurd hnil hne, fun p hp => ?_, by rintro _ ⟨⟩⟩
  rw [hnil] at hp
  cases hp

theorem remaining_run (h : Inv queueLen s) (hlive : Live queueLen s) {es : List Event}
    (hok : Machine.RunOk (step queueLen) (CallOk queueLen) s es) {target : Nat}
    (htarget : target ≤ s.accepted.length) :
    remaining target (Machine.run (step queueLen) s es) ≤
      remaining target s - es.countP isInterrupt := by
  induction es generalizing s with
  | nil => exact Nat.le_refl _
  | cons e es ih =>
      obtain ⟨hlive', hstep⟩ := progress_step h hlive hok.1
      have hlength := (accepted_step queueLen s e).length_le
      have hrest := ih (inv_step h e) hlive' hok.2 (Nat.le_trans htarget hlength)
      have hfirst := hstep target htarget
      rw [← List.singleton_append, List.countP_append, Machine.run_append]
      exact Nat.le_trans hrest (by omega)

theorem remaining_le (h : Inv queueLen s) (hlive : Live queueLen s) :
    remaining s.accepted.length s ≤ workBound * (s.queue queueLen).length := by
  have hlength := congrArg List.length h.fifo
  rw [List.length_append, List.length_map] at hlength
  unfold remaining
  split_ifs with hover
  · exact Nat.zero_le _
  · have hne := queue_ne_nil_of_lt h (Nat.le_refl _) (Nat.lt_of_not_le hover)
    have hwork := work_le (w := s.sub) (hlive.len _ (head_mem h.ok hne))
    simp only [workBound, bufLen] at hwork ⊢
    omega

theorem le_of_remaining {target : Nat} (h : remaining target s = 0) : target ≤ s.ended.length := by
  have hpos := work_pos s.sub
  unfold remaining at h
  split_ifs at h with hover
  · exact hover
  · omega

/-- Enough expected interrupts end everything that was accepted. -/
theorem accepted_ended (h : Inv queueLen s) (hlive : Live queueLen s) {es : List Event}
    (hok : Machine.RunOk (step queueLen) (CallOk queueLen) s es)
    (hcount : workBound * (s.queue queueLen).length ≤ es.countP isInterrupt) :
    s.accepted <+: (Machine.run (step queueLen) s es).ended.map Prod.fst := by
  have hrun := remaining_run h hlive hok (Nat.le_refl _)
  have hbound := remaining_le h hlive
  have hover := le_of_remaining (Nat.eq_zero_of_le_zero (Nat.le_trans hrun (by omega)))
  have hfifo := (@Machine.run_history _ _ (step queueLen) (fun _ => Inv queueLen)
    (fun _ _ e h => inv_step h e) _ h es).fifo
  have haccepted : s.accepted <+: (Machine.run (step queueLen) s es).accepted :=
    Machine.run_history (fun _ s' => s.accepted <+: s'.accepted)
      (fun _ s' e h => h.trans (accepted_step queueLen s' e)) (List.prefix_refl _) es
  refine List.prefix_of_prefix_length_le haccepted ?_ (by simpa using hover)
  rw [← hfifo]
  exact List.prefix_append _ _

end

/-- What the queue guarantees: the transactions accepted have ended, each once and in order, or
are queued; those that have ended and the first of the queue were started; an end is a success
or a failure; and the driver is idle only with an empty queue. -/
structure Served (queueLen : Nat) (s : State) : Prop where
  fifo : s.ended.map Prod.fst ++ s.queue queueLen = s.accepted
  started : s.started = s.ended.map Prod.fst ++ (s.queue queueLen).take 1
  ended : ∀ x ∈ s.ended, x.2 = .success ∨ x.2 = .failed
  idle : ∀ busy, i2cIdle busy s = true → s.queue queueLen = []

/-- In every run the queue serves its transactions in order, whatever the interrupts and the
writes to the transactions; and where the callers and the hardware keep to their part, a bounded
number of interrupts for each queued transaction ends all that were accepted. -/
theorem i2c_queue (queueLen : Nat) (buf : Nat → Nat) (idxBuf : UInt8) (regs : Regs)
    (trans : Nat → Transaction) (events : List Event) (s : State)
    (hs : s = Machine.run (step queueLen) (initial buf idxBuf regs trans) events) :
    Served queueLen s ∧
      (Machine.RunOk (step queueLen) (CallOk queueLen) (initial buf idxBuf regs trans) events →
        ∀ es, Machine.RunOk (step queueLen) (CallOk queueLen) s es →
          workBound * (s.queue queueLen).length ≤ es.countP isInterrupt →
          s.accepted <+: (Machine.run (step queueLen) s es).ended.map Prod.fst) := by
  subst hs
  have h := inv_run queueLen buf idxBuf regs trans events
  refine ⟨⟨h.fifo, h.started, h.ended, fun busy => queue_eq_nil_of_idle h⟩, ?_⟩
  intro hok es hes hcount
  have hboth : Inv queueLen (Machine.run (step queueLen) (initial buf idxBuf regs trans) events) ∧
      Live queueLen (Machine.run (step queueLen) (initial buf idxBuf regs trans) events) :=
    Machine.run_invariant (fun s => Inv queueLen s ∧ Live queueLen s)
      (fun _ e h hok => ⟨inv_step h.1 e, (progress_step h.1 h.2 hok).1⟩)
      ⟨inv_initial buf idxBuf regs trans, live_initial queueLen buf idxBuf regs trans⟩ hok
  exact accepted_ended hboth.1 hboth.2 hes hcount

/-! ### A run -/

/-- A write of one byte. -/
def oneByte : Transaction :=
  { type := .tx, slaveAddr := 0x68, lenR := 0, lenW := 1, buf := fun _ => 1, status := .done }

def submitOne : List Event := [.submit 3, .main, .main, .main]

theorem runOk_errors (queueLen : Nat) (s : State) (n : Nat) :
    Machine.RunOk (step queueLen) (CallOk queueLen) s
      (List.replicate n (.interrupt { err := true } (0, 0))) := by
  induction n generalizing s with
  | zero => trivial
  | succ n ih => exact ⟨fun _ => Or.inl rfl, ih _⟩

/-- The byte is sent after the address, and BTF ends the transaction. -/
example :
    (Machine.run (step 8) (initial (fun _ => 0) 0 ⟨false, false, false, false, false, []⟩
      fun _ => oneByte) (submitOne ++ [.interrupt { sb := true } (0, 0),
        .interrupt { addr := true } (0, 0), .interrupt { txe := true, btf := true } (0, 0)])).ended =
      [(3, .success)] := by
  decide +kernel

theorem i2c_queue_ends_one :
    Served 8 (Machine.run (step 8) (initial (fun _ => 0) 0
        ⟨false, false, false, false, false, []⟩ fun _ => oneByte) submitOne) ∧
      [3] <+: (Machine.run (step 8) (Machine.run (step 8) (initial (fun _ => 0) 0
        ⟨false, false, false, false, false, []⟩ fun _ => oneByte) submitOne)
        (List.replicate 73 (.interrupt { err := true } (0, 0)))).ended.map Prod.fst := by
  have h := i2c_queue 8 (fun _ => 0) 0 ⟨false, false, false, false, false, []⟩ (fun _ => oneByte)
    submitOne _ rfl
  refine ⟨h.1, h.2 ⟨⟨by decide, by decide⟩, trivial, trivial, trivial, trivial⟩ _
    (runOk_errors 8 _ 73) (by decide +kernel)⟩

end Paparazzi.McuPeriph.I2c
