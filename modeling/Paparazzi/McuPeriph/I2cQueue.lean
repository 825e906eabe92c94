import Mathlib.Tactic.SplitIfs
import Paparazzi.McuPeriph.I2c

/-!
The queue of the I2C driver over every order of calls and interrupts, whatever the flags of the
interrupts are and whatever the main loop writes to the transactions: nothing is lost, the
transactions start and end in the order of their submission, and the driver is idle exactly when
the queue is empty.
-/

namespace Paparazzi.McuPeriph.I2c

open Paparazzi.Library

/-! ### Sub-transactions -/

/-- What one call of a handler leaves: the transaction but for its buffer and status, a
peripheral that is not idle, and success where the transaction is over. -/
structure Handled (w : Sub) (r : Sub × SubTra) : Prop where
  type : r.1.trans.type = w.trans.type
  lenR : r.1.trans.lenR = w.trans.lenR
  lenW : r.1.trans.lenW = w.trans.lenW
  status : r.1.status ≠ .idle
  success : r.2 = .ready ∨ r.2 = .readyStopRequested →
    r.1.trans.status = .success ∨ w.trans.type = .txRx

section

variable {sr1 : Sr1} {w : Sub}

theorem handled_send (h : w.status ≠ .idle) (hrx : w.trans.type ≠ .rx) :
    Handled w (stmi2cSend sr1 w) := by
  unfold stmi2cSend
  dsimp only
  split_ifs with _ _ _ _ _ htx
  · exact ⟨rfl, rfl, rfl, nofun, nofun⟩
  · exact ⟨rfl, rfl, rfl, nofun, nofun⟩
  · exact ⟨rfl, rfl, rfl, nofun, nofun⟩
  · exact ⟨rfl, rfl, rfl, h, nofun⟩
  · exact ⟨rfl, rfl, rfl, h, fun _ => Or.inl rfl⟩
  · refine ⟨rfl, rfl, rfl, h, fun _ => Or.inr ?_⟩
    cases htype : w.trans.type with
    | tx => exact absurd htype htx
    | rx => exact absurd htype hrx
    | txRx => rfl
  · exact ⟨rfl, rfl, rfl, h, nofun⟩

theorem handled_read1 (h : w.status ≠ .idle) (rd : UInt8) : Handled w (stmi2cRead1 sr1 rd w) := by
  unfold stmi2cRead1
  split_ifs
  · exact ⟨rfl, rfl, rfl, nofun, nofun⟩
  · exact ⟨rfl, rfl, rfl, nofun, nofun⟩
  · exact ⟨rfl, rfl, rfl, nofun, fun _ => Or.inl rfl⟩
  · exact ⟨rfl, rfl, rfl, h, nofun⟩

theorem handled_read2 (h : w.status ≠ .idle) (rd : UInt8 × UInt8) :
    Handled w (stmi2cRead2 sr1 rd w) := by
  unfold stmi2cRead2
  split_ifs
  · exact ⟨rfl, rfl, rfl, nofun, nofun⟩
  · exact ⟨rfl, rfl, rfl, nofun, nofun⟩
  · exact ⟨rfl, rfl, rfl, nofun, fun _ => Or.inl rfl⟩
  · exact ⟨rfl, rfl, rfl, h, nofun⟩

theorem handled_readmany (h : w.status ≠ .idle) (rd : UInt8 × UInt8) :
    Handled w (stmi2cReadmany sr1 rd w) := by
  unfold stmi2cReadmany
  split_ifs
  · exact ⟨rfl, rfl, rfl, nofun, nofun⟩
  · exact ⟨rfl, rfl, rfl, nofun, nofun⟩
  · exact ⟨rfl, rfl, rfl, h, nofun⟩
  · exact ⟨rfl, rfl, rfl, h, fun _ => Or.inl rfl⟩
  · exact ⟨rfl, rfl, rfl, h, nofun⟩
  · exact ⟨rfl, rfl, rfl, nofun, nofun⟩
  · exact ⟨rfl, rfl, rfl, h, nofun⟩

theorem handled_handler (h : w.status ≠ .idle) (rd : UInt8 × UInt8) :
    Handled w (handler sr1 rd w) := by
  unfold handler
  split_ifs with hrx
  · exact handled_read1 h rd.1
  · exact handled_read2 h rd
  · exact handled_readmany h rd
  · exact handled_send h hrx

/-- What an interrupt does to the transaction at the head. -/
structure Moved (w : Sub) (r : Sub × SubTra) : Prop where
  lenR : r.1.trans.lenR = w.trans.lenR
  lenW : r.1.trans.lenW = w.trans.lenW
  status : r.1.status ≠ .idle
  finished : r.2 ≠ .busy → r.1.trans.type ≠ .txRx →
    r.1.trans.status = .success ∨ r.1.trans.status = .failed

theorem moved_subTransaction (h : w.status ≠ .idle) (rd : UInt8 × UInt8) :
    Moved w (subTransaction sr1 rd w) := by
  have hhandled := @handled_handler sr1 _ h rd
  unfold subTransaction
  dsimp only
  split_ifs with herr herror
  · exact ⟨rfl, rfl, nofun, fun _ _ => Or.inr rfl⟩
  · exact ⟨hhandled.lenR, hhandled.lenW, nofun, fun _ _ => Or.inr rfl⟩
  · refine ⟨hhandled.lenR, hhandled.lenW, hhandled.status, fun hbusy htype => Or.inl ?_⟩
    rw [hhandled.type] at htype
    refine (hhandled.success ?_).resolve_right htype
    cases hret : (handler sr1 rd w).2 with
    | busy => exact absurd hret hbusy
    | readyStopRequested => exact Or.inr rfl
    | ready => exact Or.inl rfl
    | error => exact absurd hret herror

end

/-! ### The queue -/

/-- The cells of the queue that the indices reach. -/
def cells (queueLen : Nat) : Nat := max 1 (min queueLen 256)

theorem cells_pos (queueLen : Nat) : 0 < cells queueLen := by
  unfold cells
  omega

theorem nextIdx_eq {queueLen i : Nat} (h : i < cells queueLen) :
    nextIdx queueLen i = Ring.next (cells queueLen) i := by
  rw [Ring.next_eq h]
  unfold cells at *
  unfold nextIdx
  split_ifs <;> omega

section

variable (queueLen : Nat)

/-- The transactions in the queue, the running one first. -/
def State.queue (s : State) : List Nat := s.ring.contents (cells queueLen)

/-- The index that `i2c_submit` has computed is still the next one. -/
def IndexFresh (s : State) : Pc → Prop
  | .idle => True
  | .testRoom _ temp => temp = Ring.next (cells queueLen) s.ring.insertIdx
  | .markPending _ temp | .enqueue _ temp =>
      temp = Ring.next (cells queueLen) s.ring.insertIdx ∧ temp ≠ s.ring.extractIdx

structure Inv (s : State) : Prop where
  ok : s.ring.Ok (cells queueLen)
  fifo : s.ended.map Prod.fst ++ s.queue queueLen = s.accepted
  started : s.started = s.ended.map Prod.fst ++ (s.queue queueLen).take 1
  idle : s.status = .idle ↔ s.queue queueLen = []
  ended : ∀ x ∈ s.ended, x.2 = .success ∨ x.2 = .failed
  fresh : IndexFresh queueLen s s.pc

end

variable {queueLen : Nat} {s : State}

theorem queue_eq_nil_iff (h : s.ring.Ok (cells queueLen)) :
    s.queue queueLen = [] ↔ s.ring.extractIdx = s.ring.insertIdx :=
  (Ring.contents_eq_nil_iff h).trans eq_comm

theorem inv_initial (buf : Nat → Nat) (idxBuf : UInt8) (regs : Regs) (trans : Nat → Transaction) :
    Inv queueLen (initial buf idxBuf regs trans) where
  ok := ⟨cells_pos queueLen, cells_pos queueLen⟩
  fifo := by simp [initial, State.queue, Ring.contents, Ring.count]
  started := by simp [initial, State.queue, Ring.contents, Ring.count]
  idle := by simp [initial, State.queue, Ring.contents, Ring.count]
  ended := nofun
  fresh := trivial

/-- The START condition of the first transaction of an idle peripheral. -/
theorem inv_sendStart (hok : s.ring.Ok (cells queueLen))
    (hfifo : s.ended.map Prod.fst ++ s.queue queueLen = s.accepted)
    (hstarted : s.started = s.ended.map Prod.fst)
    (hended : ∀ x ∈ s.ended, x.2 = .success ∨ x.2 = .failed)
    (hne : s.ring.extractIdx ≠ s.ring.insertIdx) (hfresh : IndexFresh queueLen s s.pc) :
    Inv queueLen (sendStart s) := by
  have hcons := Ring.contents_eq_cons hok (Ne.symm hne)
  have hqueue : (sendStart s).queue queueLen = s.queue queueLen := rfl
  refine ⟨hok, hfifo, ?_, ?_, hended, hfresh⟩
  · rw [hqueue, State.queue, hcons]
    exact congrArg (· ++ [s.ring.head]) hstarted
  · rw [hqueue, State.queue, hcons]
    exact ⟨nofun, nofun⟩

theorem inv_enqueue (h : Inv queueLen s) (hpc : s.pc = .idle) {p temp : Nat}
    (htemp : temp = Ring.next (cells queueLen) s.ring.insertIdx)
    (hroom : temp ≠ s.ring.extractIdx) : Inv queueLen (enqueue p temp s) := by
  obtain ⟨hok, hqueue⟩ := Ring.push h.ok htemp hroom p
  have hfifo : s.ended.map Prod.fst ++ (s.queue queueLen ++ [p]) = s.accepted ++ [p] := by
    rw [← List.append_assoc, h.fifo]
  have hfresh : IndexFresh queueLen
      { s with ring := { s.ring.store p with insertIdx := temp }, accepted := s.accepted ++ [p] }
      s.pc := by
    rw [hpc]
    trivial
  have hnil : s.queue queueLen ++ [p] ≠ [] := by simp
  simp only [enqueue]
  split_ifs with hidle
  · refine inv_sendStart hok ?_ ?_ h.ended ?_ hfresh
    · exact (congrArg (s.ended.map Prod.fst ++ ·) hqueue).trans hfifo
    · have hstarted := h.started
      rw [h.idle.mp hidle] at hstarted
      simpa using hstarted
    · intro heq
      have hempty := (Ring.contents_eq_nil_iff hok).mpr heq.symm
      rw [hqueue] at hempty
      exact hnil hempty
  · have hne := h.idle.not.mp hidle
    refine ⟨hok, ?_, ?_, ?_, h.ended, hfresh⟩
    · exact (congrArg (s.ended.map Prod.fst ++ ·) hqueue).trans hfifo
    · have htake : (s.queue queueLen ++ [p]).take 1 = (s.queue queueLen).take 1 :=
        List.take_append_of_le_length (List.length_pos_iff.mpr hne)
      simp only [State.queue, hqueue]
      exact h.started.trans (congrArg (s.ended.map Prod.fst ++ ·) htake.symm)
    · simp only [State.queue, hqueue]
      exact ⟨fun h => absurd h hidle, fun h => absurd h hnil⟩

theorem inv_mainStep (h : Inv queueLen s) : Inv queueLen (mainStep s) := by
  have hfresh := h.fresh
  unfold mainStep
  cases hpc : s.pc with
  | idle => exact h
  | testRoom p temp =>
      rw [hpc] at hfresh
      dsimp only
      split_ifs with hfull
      · exact { h with fresh := trivial }
      · exact { h with fresh := ⟨hfresh, hfull⟩ }
  | markPending p temp =>
      rw [hpc] at hfresh
      exact { h with fresh := hfresh }
  | enqueue p temp =>
      rw [hpc] at hfresh
      have hreturned : Inv queueLen { s with pc := .idle } := { h with fresh := trivial }
      exact inv_enqueue hreturned rfl hfresh.1 hfresh.2

/-! ### The interrupt -/

theorem indexFresh_drop (h : s.ring.Ok (cells queueLen))
    (hne : s.ring.extractIdx ≠ s.ring.insertIdx) {pc : Pc} (hfresh : IndexFresh queueLen s pc) :
    IndexFresh queueLen { s with ring := s.ring.drop (cells queueLen) } pc := by
  cases pc with
  | idle => trivial
  | testRoom p temp => exact hfresh
  | markPending p temp | enqueue p temp =>
      refine ⟨hfresh.1, ?_⟩
      rw [hfresh.1]
      exact Ring.room_drop h (Ne.symm hne)

theorem inv_endTransaction (h : Inv queueLen s) (hne : s.ring.extractIdx ≠ s.ring.insertIdx)
    (hover : (s.trans s.ring.head).status = .success ∨ (s.trans s.ring.head).status = .failed)
    (ret : SubTra) : Inv queueLen (endTransaction queueLen ret s) := by
  have hcons := Ring.contents_eq_cons h.ok (Ne.symm hne)
  have hidx := nextIdx_eq h.ok.extract_lt
  have hfifo := h.fifo
  have hstarted := h.started
  rw [State.queue, hcons] at hfifo hstarted
  have hended : ∀ x ∈ s.ended ++ [(s.ring.head, (s.trans s.ring.head).status)],
      x.2 = .success ∨ x.2 = .failed := by
    intro x hx
    rcases List.mem_append.mp hx with hx | hx
    · exact h.ended x hx
    · rw [List.mem_singleton.mp hx]
      exact hover
  have hfresh := indexFresh_drop h.ok hne h.fresh
  simp only [endTransaction, hidx]
  generalize (if ret = .ready then { s.regs with stop := true }.put 0 else s.regs) = regs
  split_ifs with hlast
  · have hnil := (Ring.contents_eq_nil_iff h.ok.drop).mpr hlast.symm
    refine ⟨h.ok.drop, ?_, ?_, ?_, hended, hfresh⟩
    · rw [← hfifo]
      simp [State.queue, Ring.drop]
    · rw [hstarted]
      have hqueue := congrArg (List.take 1) hnil
      simp only [Ring.drop] at hqueue
      simp [State.queue, hqueue]
    · exact ⟨fun _ => hnil, fun _ => rfl⟩
  · refine inv_sendStart (s :=
      { s with
        regs := regs
        ring := s.ring.drop (cells queueLen)
        status := .idle
        ended := s.ended ++ [(s.ring.head, (s.trans s.ring.head).status)] })
      h.ok.drop ?_ ?_ hended hlast hfresh
    · rw [← hfifo]
      simp [State.queue, Ring.drop]
    · rw [hstarted]
      simp

/-- The transaction at the head is moved, and stays at the head. -/
theorem inv_setSub (h : Inv queueLen s) (hne : s.ring.extractIdx ≠ s.ring.insertIdx) {w : Sub}
    (hw : w.status ≠ .idle) : Inv queueLen (s.setSub w) := by
  have hqueue := (queue_eq_nil_iff h.ok).not.mpr hne
  exact { h with idle := ⟨fun hidle => absurd hidle hw, fun hnil => absurd hnil hqueue⟩ }

@[simp] theorem setSub_head (w : Sub) : (s.setSub w).trans (s.setSub w).ring.head = w.trans :=
  Function.update_self _ _ _

theorem inv_i2cIrq (h : Inv queueLen s) (sr1 : Sr1) (rd : UInt8 × UInt8) :
    Inv queueLen (i2cIrq queueLen sr1 rd s) := by
  unfold i2cIrq
  split_ifs with hempty
  · exact { h with idle := ⟨fun _ => (queue_eq_nil_iff h.ok).mpr hempty, fun _ => rfl⟩ }
  · have hstatus : s.sub.status ≠ .idle :=
      h.idle.not.mpr ((queue_eq_nil_iff h.ok).not.mpr hempty)
    have hmoved := @moved_subTransaction sr1 _ hstatus rd
    dsimp only
    split_ifs with hbusy htype
    · exact inv_setSub h hempty hmoved.status
    · exact inv_setSub h hempty nofun
    · refine inv_endTransaction (inv_setSub h hempty hmoved.status) hempty ?_ _
      rw [setSub_head]
      exact hmoved.finished hbusy htype

theorem inv_step (h : Inv queueLen s) (e : Event) : Inv queueLen (step queueLen s e) := by
  cases e with
  | write p t =>
      unfold step
      dsimp only
      split_ifs
      · exact { h with }
      · exact h
  | submit p =>
      unfold step
      dsimp only
      split_ifs
      · exact { h with fresh := nextIdx_eq h.ok.insert_lt }
      · exact h
  | main => exact inv_mainStep h
  | interrupt sr1 rd => exact inv_i2cIrq h sr1 rd

theorem inv_run (queueLen : Nat) (buf : Nat → Nat) (idxBuf : UInt8) (regs : Regs)
    (trans : Nat → Transaction) (events : List Event) :
    Inv queueLen (Machine.run (step queueLen) (initial buf idxBuf regs trans) events) :=
  Machine.run_history (fun _ => Inv queueLen) (fun _ _ e h => inv_step h e)
    (inv_initial buf idxBuf regs trans) events

/-- `i2c_idle` holds only with an empty queue. -/
theorem queue_eq_nil_of_idle (h : Inv queueLen s) {busy : Bool} (hidle : i2cIdle busy s = true) :
    s.queue queueLen = [] := by
  unfold i2cIdle at hidle
  rw [Bool.and_eq_true, decide_eq_true_eq] at hidle
  exact h.idle.mp hidle.1

end Paparazzi.McuPeriph.I2c
