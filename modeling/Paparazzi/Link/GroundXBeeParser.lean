import Paparazzi.Link.GroundXBee

/-!
Reading on the ground: `XBEE_read_into_recv_buff` and `XBEE_parse_XBEE_msg`, a parser that
refills its own buffer in the middle of a frame.
-/

namespace Paparazzi.Link.GroundXBeeParser

open Paparazzi.Library.Machine
open Paparazzi.Link.XBee (xbeeStart)
open Paparazzi.Link.GroundXBee

/-! ### The parser -/

def xbeeBuffSize : Nat := 5 * 1024 * 1024

/-- The variable `state`, 0 to 5. -/
inductive ParserState where
  | notDetected
  | lengthHI
  | lengthLO
  | frameType
  | frameData
  | checkSum
  deriving DecidableEq, Repr

/-- The local variables of a call of `XBEE_parse_XBEE_msg`. -/
structure Locals where
  current : Nat
  frameCount : Nat
  state : ParserState
  /-- What `msg_p` points to, the last message of the queue. -/
  msgP : Option XBeeMsg

def Locals.init : Locals := ⟨0, 0, .notDetected, none⟩

/-- Where a call is: at the head of its loop, or in a loop
`while (need > recv_pos) XBEE_read_into_recv_buff()`. -/
inductive Control where
  | returned
  | loop (l : Locals)
  | refill (need : Nat) (l : Locals)

/-- The class `XBEE`, as far as it receives; `msg` is the queue up to `msg_p`. -/
structure Recv where
  recvBuff : Nat → UInt8
  recvPos : Nat
  msg : List XBeeMsg
  control : Control

def initialRecv : Recv := ⟨fun _ => 0, 0, [], .returned⟩

/-- The bytes received and not yet parsed. -/
def Recv.buf (x : Recv) : List UInt8 := (List.range x.recvPos).map x.recvBuff

/-- `XBEE_read_into_recv_buff`, where `read` delivers `bytes`; without bytes, or with an
error, nothing changes. -/
def xbeeReadIntoRecvBuff (bytes : List UInt8) (x : Recv) : Recv :=
  { x with
    recvBuff := fun i =>
      if i < x.recvPos then x.recvBuff i else bytes.getD (i - x.recvPos) (x.recvBuff i)
    recvPos := x.recvPos + bytes.length }

def await (need : Nat) (l : Locals) (x : Recv) : Recv :=
  { x with control := if need > x.recvPos then .refill need l else .loop l }

section

variable (useXBeeEsc : Bool) (fresh : Nat → Nat → UInt8)

/-- The byte at `current` and the position behind it. The loop that waits for an escaped byte
is never entered: it tests `current + 1 > recv_pos` where `current < recv_pos`. -/
def readByte (x : Recv) (current : Nat) : UInt8 × Nat :=
  if useXBeeEsc && x.recvBuff current = 0x7d then (x.recvBuff (current + 1) ^^^ 0x20, current + 2)
  else (x.recvBuff current, current + 1)

def parseNotDetected (x : Recv) (l : Locals) : Recv :=
  let next := l.current + 1
  if x.recvBuff l.current = xbeeStart then
    match l.msgP with
    | none =>
        await next
          { l with
            current := next
            msgP := some (XBeeMsg.new (fresh x.msg.length))
            state := .lengthHI } x
    | some msgP =>
        await next { l with current := next, msgP := none }
          { x with msg := x.msg ++ [{ msgP with errorcode := 0 }] }
  else await next { l with current := next } x

def parseLengthHI (x : Recv) (l : Locals) : Recv :=
  let (data, current) := readByte useXBeeEsc x l.current
  await (current + 1)
    { l with
      current := current
      state := .lengthLO
      msgP := l.msgP.map fun msgP => { msgP with lengthHI := data } } x

def parseLengthLO (x : Recv) (l : Locals) : Recv :=
  let (data, current) := readByte useXBeeEsc x l.current
  await (current + 1)
    { l with
      current := current
      state := .frameType
      msgP := l.msgP.map fun msgP => XBeeMsg.setFrameLength { msgP with lengthLO := data } } x

def parseFrameType (x : Recv) (l : Locals) : Recv :=
  let (data, current) := readByte useXBeeEsc x l.current
  await (current + 1)
    { l with
      current := current
      frameCount := l.frameCount + 1
      state := .frameData
      msgP := l.msgP.map fun msgP => msgP.setByte 0 data } x

def detectEsc (msg : XBeeMsg) : XBeeMsg :=
  { msg with frameLength := (msg.frameLength + (2 ^ 16 - 1)) % 2 ^ 16 }

/-- One round of the inner loop, or its exit. -/
def parseFrameData (x : Recv) (l : Locals) : Recv :=
  if l.frameCount < (l.msgP.map XBeeMsg.frameLength).getD 0 then
    let escaped := useXBeeEsc && x.recvBuff l.current = 0x7d
    let (data, current) := readByte useXBeeEsc x l.current
    await (current + 1)
      { l with
        current := current
        frameCount := l.frameCount + 1
        msgP := l.msgP.map fun msgP =>
          (if escaped then detectEsc msgP else msgP).setByte l.frameCount data } x
  else { x with control := .loop { l with state := .checkSum } }

/-- After an escaped checksum `current` stays at its second byte. -/
def parseCheckSum (x : Recv) (l : Locals) : Recv :=
  { x with
    msg := x.msg ++
      (l.msgP.map fun msgP =>
        { msgP with recvCheckSum := (readByte useXBeeEsc x l.current).1 }).toList
    control := .loop ⟨l.current + 1, 0, .notDetected, none⟩ }

/-- The end of the call clears the buffer and forgets the locals. -/
def returnCall (x : Recv) (l : Locals) : Recv :=
  { recvBuff :=
      if x.recvPos + 1 ≥ xbeeBuffSize then memset xbeeBuffSize x.recvBuff
      else memset (x.recvPos + 1) x.recvBuff
    recvPos := 0
    msg := x.msg ++ l.msgP.toList
    control := .returned }

/-- One round of the loop. -/
def tick (x : Recv) : Recv :=
  match x.control with
  | .returned => x
  | .refill _ _ => x
  | .loop l =>
      if l.current < x.recvPos then
        match l.state with
        | .notDetected => parseNotDetected fresh x l
        | .lengthHI => parseLengthHI useXBeeEsc x l
        | .lengthLO => parseLengthLO useXBeeEsc x l
        | .frameType => parseFrameType useXBeeEsc x l
        | .frameData => parseFrameData useXBeeEsc x l
        | .checkSum => parseCheckSum useXBeeEsc x l
      else returnCall x l

/-- Bounds the rounds that the call makes before it returns or waits. -/
def rounds (x : Recv) : Nat :=
  match x.control with
  | .returned => 0
  | .refill _ _ => 0
  | .loop l => 2 * (x.recvPos - l.current) + if l.state = .frameData then 2 else 1

/-- The call runs until it returns or waits for bytes. -/
def settle (x : Recv) : Recv := (tick useXBeeEsc fresh)^[rounds x] x

/-- What the caller and the port do: a `read` delivers bytes, to the caller or to the call
that waits, or the caller parses. -/
inductive RecvEvent where
  | read (bytes : List UInt8)
  | parse
  deriving DecidableEq, Repr

def step (x : Recv) : RecvEvent → Recv
  | .read bytes =>
      let x := xbeeReadIntoRecvBuff bytes x
      match x.control with
      | .refill need l => settle useXBeeEsc fresh (await need l x)
      | _ => x
  | .parse =>
      match x.control with
      | .returned => settle useXBeeEsc fresh { x with control := .loop Locals.init }
      | _ => x

/-- The bytes that the port delivers. -/
def delivered : List RecvEvent → List UInt8
  | [] => []
  | .read bytes :: es => bytes ++ delivered es
  | .parse :: es => delivered es

end

/-! ### Rounds -/

section

variable {useXBeeEsc : Bool} {fresh : Nat → Nat → UInt8} {x : Recv} {l : Locals}

theorem readByte_lt (current : Nat) : current < (readByte useXBeeEsc x current).2 := by
  unfold readByte
  split_ifs <;> simp

theorem rounds_await_lt (need : Nat) {current : Nat} (hlt : current < x.recvPos)
    (hnext : current < l.current) :
    rounds (await need l x) < 2 * (x.recvPos - current) + 1 := by
  unfold await
  by_cases hneed : need > x.recvPos
  · simp only [if_pos hneed, rounds]
    omega
  · simp only [if_neg hneed, rounds]
    split_ifs <;> omega

/-- Every round takes a byte, leaves the frame data or ends the call. -/
theorem rounds_tick (hloop : x.control = .loop l) :
    rounds (tick useXBeeEsc fresh x) < rounds x := by
  have hread := @readByte_lt useXBeeEsc x l.current
  have hrounds : rounds x = 2 * (x.recvPos - l.current) + if l.state = .frameData then 2 else 1 := by
    simp only [rounds, hloop]
  by_cases hlt : l.current < x.recvPos
  · have hawait (need : Nat) (l' : Locals) (hnext : l.current < l'.current) :=
      rounds_await_lt need hlt hnext
    simp only [tick, hloop, hlt, if_true, hrounds]
    cases l.state with
    | notDetected =>
        have hnext : l.current < l.current + 1 := Nat.lt_succ_self _
        simp only [parseNotDetected, reduceCtorEq, if_false]
        by_cases hstart : x.recvBuff l.current = xbeeStart
        · rw [if_pos hstart]
          cases l.msgP with
          | none => exact hawait _ _ hnext
          | some msgP => exact rounds_await_lt _ hlt hnext
        · rw [if_neg hstart]
          exact hawait _ _ hnext
    | lengthHI => exact hawait _ _ hread
    | lengthLO => exact hawait _ _ hread
    | frameType => exact hawait _ _ hread
    | frameData =>
        simp only [parseFrameData, if_true]
        by_cases hdata : l.frameCount < (l.msgP.map XBeeMsg.frameLength).getD 0
        · rw [if_pos hdata]
          exact Nat.lt_succ_of_lt (hawait _ _ hread)
        · simp [hdata, rounds]
    | checkSum =>
        simp only [parseCheckSum, rounds, reduceCtorEq, if_false]
        omega
  · simp only [tick, hloop, hlt, if_false, returnCall, rounds]
    split_ifs <;> omega

theorem control_iterate (n : Nat) (hn : rounds x ≤ n) (l : Locals) :
    ((tick useXBeeEsc fresh)^[n] x).control ≠ .loop l := by
  induction n generalizing x with
  | zero =>
      intro hloop
      have hlt := @rounds_tick useXBeeEsc fresh _ _ hloop
      rw [Function.iterate_zero_apply] at hlt
      omega
  | succ n ih =>
      rw [Function.iterate_succ_apply]
      apply ih
      cases hcontrol : x.control with
      | returned => simp [tick, hcontrol, rounds]
      | refill need l => simp [tick, hcontrol, rounds]
      | loop l =>
          have hlt := @rounds_tick useXBeeEsc fresh _ _ hcontrol
          omega

/-- A call that is not interrupted returns or waits for bytes. -/
theorem control_settle (l : Locals) : (settle useXBeeEsc fresh x).control ≠ .loop l :=
  control_iterate _ (Nat.le_refl _) l

theorem settle_invariant (inv : Recv → Prop)
    (htick : ∀ x, inv x → inv (tick useXBeeEsc fresh x)) (hx : inv x) :
    inv (settle useXBeeEsc fresh x) := by
  unfold settle
  generalize rounds x = n
  induction n generalizing x with
  | zero => exact hx
  | succ n ih =>
      rw [Function.iterate_succ_apply]
      exact ih (htick x hx)

end

end Paparazzi.Link.GroundXBeeParser
