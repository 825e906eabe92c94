import Paparazzi.Library.Machine
import Paparazzi.Library.Ring

/-!
The I2C driver of the STM32: the queue of transactions filled by `i2c_submit` from the main
loop, and the interrupt that moves the transaction at its head. The event and the error
interrupt run the same code. The flags of the status register and the bytes read from the
data register are given with each interrupt; error counters are left out.
-/

namespace Paparazzi.McuPeriph.I2c

open Paparazzi.Library

/-! ### Transactions -/

/-- `enum I2CTransactionType`. -/
inductive TransType where
  | tx
  | rx
  | txRx
  deriving DecidableEq, Repr

/-- `enum I2CTransactionStatus`. -/
inductive TransStatus where
  | pending
  | running
  | success
  | failed
  | done
  deriving DecidableEq, Repr

inductive I2cStatus where
  | idle
  | startRequested
  | addrWrSent
  | addrRdSent
  | sendingByte
  | readingByte
  | readingLastByte
  | stopRequested
  | restartRequested
  | complete
  | failed
  deriving DecidableEq, Repr

/-- `struct i2c_transaction`. -/
structure Transaction where
  type : TransType
  slaveAddr : UInt8
  lenR : UInt16
  lenW : UInt8
  buf : Nat → UInt8
  status : TransStatus

def Transaction.store (t : Transaction) (i : Nat) (b : UInt8) : Transaction :=
  { t with buf := Function.update t.buf i b }

/-- The flags of `I2C_SR1` that the driver reads; `err` is any of `I2C_SR1_ERR_MASK`. -/
structure Sr1 where
  sb : Bool := false
  addr : Bool := false
  txe : Bool := false
  rxne : Bool := false
  btf : Bool := false
  err : Bool := false
  deriving DecidableEq, Repr

/-- The control bits as last written, and what was written to the data register. -/
structure Regs where
  start : Bool
  stop : Bool
  ack : Bool
  pos : Bool
  itbufen : Bool
  dr : List UInt8
  deriving DecidableEq, Repr

def Regs.put (r : Regs) (b : UInt8) : Regs := { r with dr := r.dr ++ [b] }

def stmi2cClearPendingInterrupts (sr1 : Sr1) (r : Regs) : Regs :=
  let r := { r with itbufen := false }
  let r := if sr1.sb then r.put 0 else r
  if sr1.btf then r.put 0 else r

/-! ### Sub-transactions -/

/-- What the handlers of a sub-transaction work on. -/
structure Sub where
  regs : Regs
  status : I2cStatus
  idxBuf : UInt8
  trans : Transaction

/-- `enum STMI2CSubTransactionStatus`. -/
inductive SubTra where
  | busy
  | readyStopRequested
  | ready
  | error
  deriving DecidableEq, Repr

def stmi2cSend (sr1 : Sr1) (w : Sub) : Sub × SubTra :=
  if sr1.sb then
    ({ w with
        regs := { w.regs with itbufen := false }.put w.trans.slaveAddr
        status := .addrWrSent }, .busy)
  else if sr1.addr then
    let regs := w.regs.put (w.trans.buf 0)
    let regs := if w.trans.lenW > 1 then regs.put (w.trans.buf 1) else regs
    let idxBuf : UInt8 := if w.trans.lenW > 1 then 2 else 1
    ({ w with
        regs := { regs with itbufen := regs.itbufen || decide (idxBuf < w.trans.lenW) }
        idxBuf := idxBuf
        status := .sendingByte }, .busy)
  else if sr1.txe && w.regs.itbufen then
    ({ w with
        regs :=
          { w.regs with itbufen := decide (w.idxBuf + 1 < w.trans.lenW) }.put
            (w.trans.buf w.idxBuf.toNat)
        idxBuf := w.idxBuf + 1 }, .busy)
  else if sr1.btf then
    (if w.trans.type = .tx then { w with trans := { w.trans with status := .success } } else w,
      .ready)
  else (w, .error)

/-- One byte: the stop is requested with the address. -/
def stmi2cRead1 (sr1 : Sr1) (rd : UInt8) (w : Sub) : Sub × SubTra :=
  if sr1.sb then
    ({ w with
        regs := { w.regs with itbufen := false }.put (w.trans.slaveAddr ||| 1)
        status := .addrRdSent }, .busy)
  else if sr1.addr then
    ({ w with
        regs := { w.regs with pos := false, ack := false, stop := true, itbufen := true }
        status := .readingLastByte }, .busy)
  else if sr1.rxne then
    ({ w with
        regs := { w.regs with itbufen := false }
        trans := { w.trans.store 0 rd with status := .success }
        status := .stopRequested }, .readyStopRequested)
  else (w, .error)

/-- Two bytes, read together when both have come. -/
def stmi2cRead2 (sr1 : Sr1) (rd : UInt8 × UInt8) (w : Sub) : Sub × SubTra :=
  if sr1.sb then
    ({ w with
        regs :=
          { w.regs with itbufen := false, ack := true, pos := true }.put (w.trans.slaveAddr ||| 1)
        status := .addrRdSent }, .busy)
  else if sr1.addr then
    ({ w with
        regs := { w.regs with ack := false, itbufen := false }
        status := .readingByte }, .busy)
  else if sr1.btf then
    ({ w with
        regs := { w.regs with stop := true }
        trans := { (w.trans.store 0 rd.1).store 1 rd.2 with status := .success }
        status := .stopRequested }, .readyStopRequested)
  else (w, .error)

/-- `periph->idx_buf < (trans->len_r - 3)`, in `int`. -/
def moreThanThree (idxBuf : UInt8) (lenR : UInt16) : Bool :=
  decide (idxBuf.toNat + 3 < lenR.toNat)

/-- The last three bytes are read without interrupts for single bytes. -/
def stmi2cReadmany (sr1 : Sr1) (rd : UInt8 × UInt8) (w : Sub) : Sub × SubTra :=
  if sr1.sb then
    ({ w with
        regs :=
          { w.regs with itbufen := false, pos := false, ack := true }.put (w.trans.slaveAddr ||| 1)
        status := .addrRdSent }, .busy)
  else if sr1.addr then
    ({ w with
        regs := { w.regs with itbufen := w.regs.itbufen || moreThanThree 0 w.trans.lenR }
        idxBuf := 0
        status := .readingByte }, .busy)
  else if sr1.rxne && w.regs.itbufen then
    if moreThanThree w.idxBuf w.trans.lenR then
      ({ w with
          regs := { w.regs with itbufen := moreThanThree (w.idxBuf + 1) w.trans.lenR }
          trans := w.trans.store w.idxBuf.toNat rd.1
          idxBuf := w.idxBuf + 1 }, .busy)
    else if w.idxBuf.toNat + 1 ≥ w.trans.lenR.toNat then
      ({ w with
          regs := { w.regs with itbufen := false }
          trans := { w.trans.store w.idxBuf.toNat rd.1 with status := .success }
          idxBuf := w.idxBuf + 1 }, .readyStopRequested)
    else ({ w with regs := { w.regs with itbufen := false } }, .busy)
  else if sr1.btf then
    ({ w with
        regs := { w.regs with ack := false, stop := true, itbufen := true }
        trans := (w.trans.store w.idxBuf.toNat rd.1).store (w.idxBuf + 1).toNat rd.2
        idxBuf := w.idxBuf + 1 + 1
        status := .stopRequested }, .busy)
  else (w, .error)

/-- The transaction has failed, and is not restarted. -/
def Sub.fail (sr1 : Sr1) (w : Sub) : Sub :=
  { w with
    regs := stmi2cClearPendingInterrupts sr1 w.regs
    status := .failed
    trans := { w.trans with type := .rx, status := .failed } }

def handler (sr1 : Sr1) (rd : UInt8 × UInt8) (w : Sub) : Sub × SubTra :=
  if w.trans.type = .rx then
    if w.trans.lenR = 1 then stmi2cRead1 sr1 rd.1 w
    else if w.trans.lenR = 2 then stmi2cRead2 sr1 rd w
    else stmi2cReadmany sr1 rd w
  else stmi2cSend sr1 w

def subTransaction (sr1 : Sr1) (rd : UInt8 × UInt8) (w : Sub) : Sub × SubTra :=
  if sr1.err then (w.fail sr1, .ready)
  else
    let r := handler sr1 rd w
    if r.2 = .error then (r.1.fail sr1, .error) else r

/-- The second half of a write and read. -/
def Sub.restart (w : Sub) : Sub :=
  { w with
    regs := { w.regs with start := true }.put 0
    status := .startRequested
    trans := { w.trans with type := .rx } }

/-! ### The driver -/

/-- Where the main loop stands in `i2c_submit`, before the access that the constructor names;
what runs with the interrupts disabled is one step. -/
inductive Pc where
  | idle
  | testRoom (p : Nat) (temp : Nat)
  | markPending (p : Nat) (temp : Nat)
  | enqueue (p : Nat) (temp : Nat)
  deriving DecidableEq, Repr

/-- `struct i2c_periph` and the memory of the transactions, with the transactions that were
accepted, started, and ended with their status; no step reads these three. -/
structure State where
  ring : Library.Ring Nat
  status : I2cStatus
  idxBuf : UInt8
  regs : Regs
  trans : Nat → Transaction
  pc : Pc
  accepted : List Nat
  started : List Nat
  ended : List (Nat × TransStatus)

/-- An index, as `uint8_t`, is advanced and wrapped in a queue of `queueLen`. -/
def nextIdx (queueLen i : Nat) : Nat :=
  if (i + 1) % 256 ≥ queueLen then 0 else (i + 1) % 256

/-- `PPRZ_I2C_SEND_START`. -/
def sendStart (s : State) : State :=
  { s with
    idxBuf := 0
    regs :=
      { s.regs with start := true, stop := false, ack := false, pos := false, itbufen := false }
    status := .startRequested
    started := s.started ++ [s.ring.head] }

/-- The transaction at the head of the queue. -/
def State.sub (s : State) : Sub :=
  { regs := s.regs, status := s.status, idxBuf := s.idxBuf, trans := s.trans s.ring.head }

def State.setSub (s : State) (w : Sub) : State :=
  { s with
    regs := w.regs
    status := w.status
    idxBuf := w.idxBuf
    trans := Function.update s.trans s.ring.head w.trans }

def endTransaction (queueLen : Nat) (ret : SubTra) (s : State) : State :=
  let regs := if ret = .ready then { s.regs with stop := true }.put 0 else s.regs
  let ring : Library.Ring Nat :=
    { s.ring with extractIdx := nextIdx queueLen s.ring.extractIdx }
  let s :=
    { s with
      regs := regs
      ring := ring
      status := .idle
      ended := s.ended ++ [(s.ring.head, (s.trans s.ring.head).status)] }
  if ring.extractIdx = ring.insertIdx then s else sendStart s

def i2cIrq (queueLen : Nat) (sr1 : Sr1) (rd : UInt8 × UInt8) (s : State) : State :=
  if s.ring.extractIdx = s.ring.insertIdx then
    { s with regs := stmi2cClearPendingInterrupts sr1 s.regs, status := .idle }
  else
    let r := subTransaction sr1 rd s.sub
    if r.2 = .busy then s.setSub r.1
    else if r.1.trans.type = .txRx then s.setSub r.1.restart
    else endTransaction queueLen r.2 (s.setSub r.1)

/-- `i2c_idle`; `busy` is the flag of `I2C_SR2`. -/
def i2cIdle (busy : Bool) (s : State) : Bool :=
  decide (s.status = .idle) && !busy

/-- The part of `i2c_submit` that runs with the interrupts disabled. -/
def enqueue (p temp : Nat) (s : State) : State :=
  let s :=
    { s with
      ring := { s.ring.store p with insertIdx := temp }
      accepted := s.accepted ++ [p] }
  if s.status = .idle then sendStart s else s

/-- The next step of the main loop in `i2c_submit`. -/
def mainStep (s : State) : State :=
  match s.pc with
  | .idle => s
  | .testRoom p temp =>
      if temp = s.ring.extractIdx then { s with pc := .idle }
      else { s with pc := .markPending p temp }
  | .markPending p temp =>
      { s with
        trans := Function.update s.trans p { s.trans p with status := .pending }
        pc := .enqueue p temp }
  | .enqueue p temp => enqueue p temp { s with pc := .idle }

/-- The main loop writes a transaction or calls `i2c_submit`; it takes a step of the call; an
interrupt comes. -/
inductive Event where
  | write (p : Nat) (t : Transaction)
  | submit (p : Nat)
  | main
  | interrupt (sr1 : Sr1) (rd : UInt8 × UInt8)

def step (queueLen : Nat) (s : State) : Event → State
  | .write p t => if s.pc = .idle then { s with trans := Function.update s.trans p t } else s
  | .submit p =>
      if s.pc = .idle then { s with pc := .testRoom p (nextIdx queueLen s.ring.insertIdx) } else s
  | .main => mainStep s
  | .interrupt sr1 rd => i2cIrq queueLen sr1 rd s

/-- After `i2c_init`, with anything in the buffer of the queue, in the registers and in the
transactions. -/
def initial (buf : Nat → Nat) (idxBuf : UInt8) (regs : Regs) (trans : Nat → Transaction) :
    State where
  ring := ⟨buf, 0, 0⟩
  status := .idle
  idxBuf := idxBuf
  regs := regs
  trans := trans
  pc := .idle
  accepted := []
  started := []
  ended := []

end Paparazzi.McuPeriph.I2c
