import Mathlib
import Paparazzi.Link.GroundXBeeParser

/-!
A stream of XBee frames read on the ground in any pieces, with any calls of the parser in
between: which messages the queue receives.
-/

namespace Paparazzi.Link.GroundXBeeStream

open Paparazzi.Library.Machine
open Paparazzi.Link.XBee (xbeeStart)
open Paparazzi.Link.GroundXBee
open Paparazzi.Link.GroundXBeeParser

/-! ### Well-formed streams -/

/-- The bytes between the length and the checksum, and the checksum. -/
structure ApiFrame where
  data : List UInt8
  checkSum : UInt8
  data_ne : data ≠ []
  length_le : data.length ≤ frameMaxSize

/-- The bytes behind the start byte as they are on the port. -/
def escape (useXBeeEsc : Bool) (bytes : List UInt8) : List UInt8 :=
  bytes.flatMap fun x => if useXBeeEsc && isSpecial x then [0x7d, x ^^^ 0x20] else [x]

def ApiFrame.lengthHI (f : ApiFrame) : UInt8 := UInt8.ofNat (f.data.length / 2 ^ 8)

def ApiFrame.lengthLO (f : ApiFrame) : UInt8 := UInt8.ofNat f.data.length

def ApiFrame.bytes (useXBeeEsc : Bool) (f : ApiFrame) : List UInt8 :=
  xbeeStart :: escape useXBeeEsc (f.lengthHI :: f.lengthLO :: (f.data ++ [f.checkSum]))

def stream (useXBeeEsc : Bool) (fs : List ApiFrame) : List UInt8 :=
  fs.flatMap (ApiFrame.bytes useXBeeEsc)

/-- The message holds the frame. -/
def IsMsg (f : ApiFrame) (msg : XBeeMsg) : Prop :=
  msg.contents = f.data ∧ msg.recvCheckSum = f.checkSum

/-- In the mode with escapes, no byte of the data behind the frame type is escaped. -/
def Plain (useXBeeEsc : Bool) (f : ApiFrame) : Prop :=
  useXBeeEsc = true → ∀ x ∈ f.data.tail, isSpecial x = false

/-- The received bytes end with the start byte of a frame, or between the two bytes of an
escaped one. -/
def SplitAtStart (useXBeeEsc : Bool) (buf : List UInt8) : Prop :=
  (∃ fs, buf = stream useXBeeEsc fs ++ [xbeeStart]) ∨
    (useXBeeEsc = true ∧ ∃ bytes, buf = bytes ++ [0x7d])

section

variable {useXBeeEsc : Bool}

@[simp] theorem escape_nil : escape useXBeeEsc [] = [] := rfl

@[simp] theorem stream_nil : stream useXBeeEsc [] = [] := rfl

@[simp] theorem stream_cons (f : ApiFrame) (fs : List ApiFrame) :
    stream useXBeeEsc (f :: fs) = f.bytes useXBeeEsc ++ stream useXBeeEsc fs := rfl

@[simp] theorem stream_append (fs fs' : List ApiFrame) :
    stream useXBeeEsc (fs ++ fs') = stream useXBeeEsc fs ++ stream useXBeeEsc fs' := by
  simp [stream]

end

/-! ### What a round reads -/

section

variable {useXBeeEsc : Bool} {x : Recv} {current : Nat} {future rest : List UInt8}

@[simp] theorem length_buf (x : Recv) : x.buf.length = x.recvPos := by simp [Recv.buf]

theorem drop_buf (hlt : current < x.recvPos) :
    x.buf.drop current = x.recvBuff current :: x.buf.drop (current + 1) := by
  rw [List.drop_eq_getElem_cons (by simpa using hlt)]
  simp [Recv.buf]

theorem buf_of_last (hlast : current + 1 = x.recvPos) :
    x.buf = x.buf.take current ++ [x.recvBuff current] := by
  conv_lhs => rw [← List.take_append_drop current x.buf]
  rw [drop_buf (by omega), List.drop_eq_nil_of_le (by simp [hlast])]

theorem isSpecial_xor {b : UInt8} (hb : isSpecial b = true) : b ^^^ 0x20 ≠ xbeeStart := by
  simp only [isSpecial, Bool.or_eq_true, decide_eq_true_eq] at hb
  rcases hb with ((rfl | rfl) | rfl) | rfl <;> decide

/-- Between two bytes of the stream a round reads the first one. -/
theorem readByte_eq {b : UInt8} {bytes : List UInt8} (hlt : current < x.recvPos)
    (hview : x.buf.drop current ++ future = escape useXBeeEsc (b :: bytes) ++ rest)
    (hsplit : ¬ SplitAtStart useXBeeEsc x.buf) :
    (readByte useXBeeEsc x current).1 = b ∧
      (readByte useXBeeEsc x current).2 ≤ x.recvPos ∧
      x.buf.drop (readByte useXBeeEsc x current).2 ++ future =
        escape useXBeeEsc bytes ++ rest := by
  rw [drop_buf hlt] at hview
  by_cases hspecial : useXBeeEsc && isSpecial b
  · simp only [escape, List.flatMap_cons, hspecial, if_true, List.cons_append, List.nil_append,
      List.cons.injEq] at hview
    obtain ⟨hesc, hview⟩ := hview
    rw [Bool.and_eq_true] at hspecial
    by_cases hnext : current + 1 < x.recvPos
    · rw [drop_buf hnext, List.cons_append, List.cons.injEq] at hview
      have hread : readByte useXBeeEsc x current =
          (x.recvBuff (current + 1) ^^^ 0x20, current + 2) := by
        simp [readByte, hspecial.1, hesc]
      rw [hread, hview.1, UInt8.xor_assoc, UInt8.xor_self, UInt8.xor_zero]
      exact ⟨rfl, hnext, hview.2⟩
    · refine absurd (Or.inr ⟨hspecial.1, x.buf.take current, ?_⟩) hsplit
      rw [← hesc]
      exact buf_of_last (by omega)
  · simp only [escape, List.flatMap_cons, hspecial, Bool.false_eq_true, if_false, List.cons_append,
      List.nil_append, List.cons.injEq] at hview
    obtain ⟨hbyte, hview⟩ := hview
    have hread : readByte useXBeeEsc x current = (b, current + 1) := by
      unfold readByte
      rw [hbyte, if_neg]
      intro hesc
      simp only [Bool.and_eq_true, decide_eq_true_eq] at hesc
      apply hspecial
      rw [hesc.1, hesc.2]
      rfl
    rw [hread]
    exact ⟨rfl, hlt, hview⟩

end

/-! ### The invariant -/

/-- The message and the state fit the frame, of which `text` is left. -/
def InFrame (f : ApiFrame) (msg : XBeeMsg) (frameCount : Nat) (text : List UInt8) :
    ParserState → Prop
  | .notDetected => False
  | .lengthHI =>
      frameCount = 0 ∧ text = f.lengthHI :: f.lengthLO :: (f.data ++ [f.checkSum])
  | .lengthLO =>
      frameCount = 0 ∧ msg.lengthHI = f.lengthHI ∧ text = f.lengthLO :: (f.data ++ [f.checkSum])
  | .frameType =>
      frameCount = 0 ∧ msg.frameLength = f.data.length ∧ text = f.data ++ [f.checkSum]
  | .frameData =>
      0 < frameCount ∧ frameCount ≤ f.data.length ∧ msg.frameLength = f.data.length ∧
        (List.range frameCount).map msg.frame = f.data.take frameCount ∧
        text = f.data.drop frameCount ++ [f.checkSum]
  | .checkSum => msg.contents = f.data ∧ text = [f.checkSum]

/-- The call stands before the frames `fs`, at most a byte of an escaped checksum is left. -/
def BeforeFrames (useXBeeEsc : Bool) (l : Locals) (view future : List UInt8)
    (fs : List ApiFrame) : Prop :=
  l.state = .notDetected ∧ l.msgP = none ∧ l.frameCount = 0 ∧
    (view ++ future = stream useXBeeEsc fs ∨
      ∃ raw view', raw ≠ xbeeStart ∧ view = raw :: view' ∧ view' ++ future = stream useXBeeEsc fs)

/-- The call is in the first of the frames `fs`. -/
def InsideFrames (useXBeeEsc : Bool) (l : Locals) (rest : List UInt8) (fs : List ApiFrame) : Prop :=
  ∃ f fs' msg text, fs = f :: fs' ∧ l.msgP = some msg ∧ InFrame f msg l.frameCount text l.state ∧
    rest = escape useXBeeEsc text ++ stream useXBeeEsc fs'

/-- The messages of the frames `old`, and of those of the buffer that the call has parsed. -/
def InCall (useXBeeEsc : Bool) (old base : List ApiFrame) (future : List UInt8) (x : Recv)
    (l : Locals) : Prop :=
  ∃ done fs, base = done ++ fs ∧ List.Forall₂ IsMsg (old ++ done) x.msg ∧ l.current ≤ x.recvPos ∧
    (BeforeFrames useXBeeEsc l (x.buf.drop l.current) future fs ∨
      InsideFrames useXBeeEsc l (x.buf.drop l.current ++ future) fs)

/-- The frames of the stream are those with a message, `old`, and those that begin in the
buffer or later, `base`. -/
def Inv (useXBeeEsc : Bool) (fs : List ApiFrame) (future : List UInt8) (x : Recv) : Prop :=
  ∃ old base, fs = old ++ base ∧ x.buf ++ future = stream useXBeeEsc base ∧
    match x.control with
    | .returned => List.Forall₂ IsMsg old x.msg
    | .loop l =>
        InCall useXBeeEsc old base future x l ∧ (l.state ≠ .notDetected → l.current < x.recvPos)
    | .refill need l =>
        InCall useXBeeEsc old base future x l ∧ need = l.current + 1 ∧ l.current = x.recvPos ∧
          l.state ≠ .notDetected

section

variable {useXBeeEsc : Bool} {fresh : Nat → Nat → UInt8} {fs old base : List ApiFrame}
  {future : List UInt8} {x : Recv} {l : Locals}

theorem InFrame.state_ne {f : ApiFrame} {msg : XBeeMsg} {frameCount : Nat} {text : List UInt8}
    {state : ParserState} (h : InFrame f msg frameCount text state) : state ≠ .notDetected := by
  rintro rfl
  exact h

/-- A call that waits for the byte at `current`. -/
theorem inv_await (hfs : fs = old ++ base) (hbuf : x.buf ++ future = stream useXBeeEsc base)
    (hcall : InCall useXBeeEsc old base future x l) (hstate : l.state ≠ .notDetected) :
    Inv useXBeeEsc fs future (await (l.current + 1) l x) := by
  refine ⟨old, base, hfs, hbuf, ?_⟩
  obtain ⟨done, fs', hbase, hmsg, hcurrent, hrest⟩ := hcall
  unfold await
  by_cases hneed : l.current + 1 > x.recvPos
  · rw [if_pos hneed]
    exact ⟨⟨done, fs', hbase, hmsg, hcurrent, hrest⟩, rfl,
      Nat.le_antisymm hcurrent (Nat.lt_succ_iff.mp hneed), hstate⟩
  · rw [if_neg hneed]
    exact ⟨⟨done, fs', hbase, hmsg, hcurrent, hrest⟩, fun _ => Nat.not_lt.mp hneed⟩

/-- A byte of the frame is read, and the message and the state take it in. -/
theorem inv_read (hfs : fs = old ++ base) (hbuf : x.buf ++ future = stream useXBeeEsc base)
    (hsplit : ¬ SplitAtStart useXBeeEsc x.buf) {done fs' : List ApiFrame} {f : ApiFrame}
    (hbase : base = done ++ f :: fs') (hmsg : List.Forall₂ IsMsg (old ++ done) x.msg)
    {current : Nat} (hlt : current < x.recvPos) {b : UInt8} {text : List UInt8}
    (hview : x.buf.drop current ++ future =
      escape useXBeeEsc (b :: text) ++ stream useXBeeEsc fs')
    {need : Nat} (hneed : need = l.current + 1)
    (hcurrent : l.current = (readByte useXBeeEsc x current).2)
    (hframe : ∃ msg, l.msgP = some msg ∧ InFrame f msg l.frameCount text l.state) :
    Inv useXBeeEsc fs future (await need l x) := by
  subst hneed
  obtain ⟨msg, hl, hframe⟩ := hframe
  obtain ⟨-, hle, hnext⟩ := readByte_eq hlt hview hsplit
  rw [← hcurrent] at hle hnext
  refine inv_await hfs hbuf ⟨done, f :: fs', hbase, hmsg, hle, Or.inr ?_⟩ hframe.state_ne
  exact ⟨f, fs', msg, text, rfl, hl, hframe, hnext⟩

/-! ### The states of the parser -/

theorem inFrame_frameType {f : ApiFrame} {msg : XBeeMsg} (hHI : msg.lengthHI = f.lengthHI) :
    InFrame f (XBeeMsg.setFrameLength { msg with lengthLO := f.lengthLO }) 0
      (f.data ++ [f.checkSum]) .frameType := by
  refine ⟨rfl, ?_, rfl⟩
  have hle := f.length_le
  simp only [XBeeMsg.setFrameLength, hHI, ApiFrame.lengthHI, ApiFrame.lengthLO,
    UInt8.toNat_ofNat', frameMaxSize] at hle ⊢
  omega

theorem inFrame_frameData {f : ApiFrame} {msg : XBeeMsg} {n : Nat} {b : UInt8} {text : List UInt8}
    (hlength : msg.frameLength = f.data.length) (hn : n < f.data.length)
    (hmsg : (List.range n).map msg.frame = f.data.take n)
    (htext : f.data.drop n ++ [f.checkSum] = b :: text) :
    InFrame f (msg.setByte n b) (n + 1) text .frameData := by
  rw [List.drop_eq_getElem_cons hn, List.cons_append, List.cons.injEq] at htext
  refine ⟨Nat.succ_pos n, hn, hlength, ?_, htext.2.symm⟩
  rw [List.take_succ_eq_append_getElem hn, List.range_succ, List.map_append, ← hmsg, htext.1]
  congr 1
  · apply List.map_congr_left
    intro i hi
    rw [frame_setByte, if_neg (Nat.ne_of_lt (List.mem_range.mp hi))]
  · rw [List.map_singleton, frame_setByte, if_pos rfl]

theorem drop_buf_append (hlt : l.current < x.recvPos) :
    x.buf.drop l.current ++ future =
      x.recvBuff l.current :: (x.buf.drop (l.current + 1) ++ future) := by
  rw [drop_buf hlt]
  rfl

theorem inv_notDetected (hfs : fs = old ++ base)
    (hbuf : x.buf ++ future = stream useXBeeEsc base)
    (hsplit : ¬ SplitAtStart useXBeeEsc x.buf) {done fs' : List ApiFrame}
    (hbase : base = done ++ fs') (hmsg : List.Forall₂ IsMsg (old ++ done) x.msg)
    (hlt : l.current < x.recvPos)
    (hbefore : BeforeFrames useXBeeEsc l (x.buf.drop l.current) future fs') :
    Inv useXBeeEsc fs future (parseNotDetected fresh x l) := by
  obtain ⟨hstate, hl, hcount, hrest⟩ := hbefore
  have hneed : ¬ l.current + 1 > x.recvPos := by omega
  unfold parseNotDetected await
  rcases hrest with hstream | ⟨raw, view', hraw, hview, hstream⟩
  · rw [drop_buf_append hlt] at hstream
    cases fs' with
    | nil => exact absurd hstream (by simp)
    | cons f fs' =>
        have hstart : x.recvBuff l.current = xbeeStart := (List.cons.inj hstream).1
        have hframe : x.buf.drop (l.current + 1) ++ future =
            escape useXBeeEsc (f.lengthHI :: f.lengthLO :: (f.data ++ [f.checkSum])) ++
              stream useXBeeEsc fs' := (List.cons.inj hstream).2
        simp only [hstart, if_true, hl, if_neg hneed]
        refine ⟨old, base, hfs, hbuf, ⟨done, f :: fs', hbase, hmsg, hlt, Or.inr ?_⟩, ?_⟩
        · exact ⟨f, fs', _, _, rfl, rfl, ⟨hcount, rfl⟩, hframe⟩
        · -- the start byte is not the last byte of the buffer
          rintro -
          by_contra hlast
          have hend : l.current + 1 = x.recvPos := Nat.le_antisymm hlt (Nat.not_lt.mp hlast)
          apply hsplit
          refine Or.inl ⟨done, ?_⟩
          have hnil : x.buf.drop (l.current + 1) = [] := List.drop_eq_nil_of_le (by simp [hend])
          rw [hnil, List.nil_append] at hframe
          rw [hbase, stream_append, stream_cons, ApiFrame.bytes, List.cons_append, ← hframe] at hbuf
          apply @List.append_cancel_right _ x.buf future
          simpa using hbuf
  · rw [drop_buf hlt] at hview
    obtain ⟨hbyte, hview⟩ := List.cons.inj hview
    simp only [hbyte, hraw, if_false, if_neg hneed]
    refine ⟨old, base, hfs, hbuf, ⟨done, fs', hbase, hmsg, hlt, Or.inl ?_⟩, fun h => absurd hstate h⟩
    exact ⟨hstate, hl, hcount, Or.inl (hview ▸ hstream)⟩

theorem inv_checkSum (hfs : fs = old ++ base) (hbuf : x.buf ++ future = stream useXBeeEsc base)
    (hsplit : ¬ SplitAtStart useXBeeEsc x.buf) {done fs' : List ApiFrame} {f : ApiFrame}
    (hbase : base = done ++ f :: fs') (hmsg : List.Forall₂ IsMsg (old ++ done) x.msg)
    (hlt : l.current < x.recvPos)
    (hview : x.buf.drop l.current ++ future =
      escape useXBeeEsc [f.checkSum] ++ stream useXBeeEsc fs')
    {msg : XBeeMsg} (hl : l.msgP = some msg) (hcontents : msg.contents = f.data) :
    Inv useXBeeEsc fs future (parseCheckSum useXBeeEsc x l) := by
  obtain ⟨hck, hle, hnext⟩ := readByte_eq hlt hview hsplit
  refine ⟨old, base, hfs, hbuf, ⟨done ++ [f], fs', by simp [hbase], ?_, hlt, Or.inl ?_⟩,
    fun h => absurd rfl h⟩
  · simp only [parseCheckSum, hl, Option.map_some, Option.toList_some]
    rw [← List.append_assoc]
    exact List.rel_append hmsg (List.Forall₂.cons ⟨hcontents, hck⟩ List.Forall₂.nil)
  · refine ⟨rfl, rfl, rfl, ?_⟩
    rw [drop_buf_append hlt] at hview
    by_cases hspecial : useXBeeEsc && isSpecial f.checkSum
    · -- the second byte of the escaped checksum is left
      simp only [escape, List.flatMap_cons, List.flatMap_nil, hspecial, if_true, List.cons_append,
        List.nil_append, List.cons.injEq] at hview
      obtain ⟨hesc, hview⟩ := hview
      rw [Bool.and_eq_true] at hspecial
      have hread : (readByte useXBeeEsc x l.current).2 = l.current + 2 := by
        simp [readByte, hspecial.1, hesc]
      have hraw : l.current + 1 < x.recvPos := by omega
      rw [drop_buf hraw] at hview
      refine Or.inr ⟨x.recvBuff (l.current + 1), _, ?_, drop_buf hraw, (List.cons.inj hview).2⟩
      rw [(List.cons.inj hview).1]
      exact isSpecial_xor hspecial.2
    · refine Or.inl ?_
      simp only [escape, List.flatMap_cons, List.flatMap_nil, hspecial, Bool.false_eq_true, if_false,
        List.cons_append, List.nil_append, List.cons.injEq] at hview
      exact hview.2

theorem inv_return (hfs : fs = old ++ base) {done fs' : List ApiFrame}
    (hbase : base = done ++ fs') (hmsg : List.Forall₂ IsMsg (old ++ done) x.msg)
    (hlast : ¬ l.current < x.recvPos)
    (hbefore : BeforeFrames useXBeeEsc l (x.buf.drop l.current) future fs') :
    Inv useXBeeEsc fs future (returnCall x l) := by
  obtain ⟨-, hl, -, hrest⟩ := hbefore
  have hnil : x.buf.drop l.current = [] := List.drop_eq_nil_of_le (by simpa using hlast)
  rw [hnil] at hrest
  rcases hrest with hstream | ⟨raw, view', -, hview, -⟩
  · refine ⟨old ++ done, fs', by simp [hfs, hbase], hstream, ?_⟩
    simpa [returnCall, hl] using hmsg
  · exact absurd hview (by simp)

/-- In the mode with escapes, a plain byte is not taken for the escape byte. -/
theorem not_escaped {b : UInt8} {text rest : List UInt8} (hlt : l.current < x.recvPos)
    (hplain : useXBeeEsc = true → isSpecial b = false)
    (hview : x.buf.drop l.current ++ future = escape useXBeeEsc (b :: text) ++ rest) :
    (useXBeeEsc && x.recvBuff l.current = 0x7d) = false := by
  cases useXBeeEsc with
  | false => rfl
  | true =>
      have hb := hplain rfl
      rw [drop_buf_append hlt] at hview
      simp only [escape, List.flatMap_cons, hb, Bool.and_false, Bool.false_eq_true, if_false,
        List.cons_append, List.nil_append, List.cons.injEq] at hview
      rw [hview.1]
      by_contra hesc
      simp only [Bool.true_and, Bool.not_eq_false, decide_eq_true_eq] at hesc
      rw [hesc] at hb
      exact absurd hb (by decide)

theorem getElem_mem_tail {bytes : List UInt8} {i : Nat} (hpos : 0 < i) (hi : i < bytes.length) :
    bytes[i] ∈ bytes.tail := by
  cases bytes with
  | nil => exact absurd hi (Nat.not_lt_zero i)
  | cons b bytes =>
      obtain ⟨n, rfl⟩ := Nat.exists_eq_succ_of_ne_zero (Nat.pos_iff_ne_zero.mp hpos)
      exact List.getElem_mem _

theorem inv_inside (hplain : ∀ f ∈ fs, Plain useXBeeEsc f) (hfs : fs = old ++ base)
    (hbuf : x.buf ++ future = stream useXBeeEsc base)
    (hsplit : ¬ SplitAtStart useXBeeEsc x.buf) {done fs' : List ApiFrame}
    (hbase : base = done ++ fs') (hmsg : List.Forall₂ IsMsg (old ++ done) x.msg)
    (hloop : x.control = .loop l) (hlt : l.current < x.recvPos)
    (hinside : InsideFrames useXBeeEsc l (x.buf.drop l.current ++ future) fs') :
    Inv useXBeeEsc fs future (tick useXBeeEsc fresh x) := by
  obtain ⟨f, fs', msg, text, rfl, hl, hframe, hrest⟩ := hinside
  simp only [tick, hloop, hlt, if_true]
  cases hstate : l.state with
  | notDetected => exact absurd hstate hframe.state_ne
  | lengthHI =>
      simp only [parseLengthHI]
      rw [hstate] at hframe
      obtain ⟨hcount, rfl⟩ := hframe
      obtain ⟨hbyte, -, -⟩ := readByte_eq hlt hrest hsplit
      refine inv_read hfs hbuf hsplit hbase hmsg hlt hrest ?_ ?_ ?_
      · rfl
      · rfl
      · refine ⟨_, congrArg (Option.map _) hl, ?_⟩
        exact ⟨hcount, hbyte, rfl⟩
  | lengthLO =>
      simp only [parseLengthLO]
      rw [hstate] at hframe
      obtain ⟨hcount, hHI, rfl⟩ := hframe
      obtain ⟨hbyte, -, -⟩ := readByte_eq hlt hrest hsplit
      refine inv_read hfs hbuf hsplit hbase hmsg hlt hrest ?_ ?_ ?_
      · rfl
      · rfl
      · refine ⟨_, congrArg (Option.map _) hl, ?_⟩
        rw [hbyte, hcount]
        exact inFrame_frameType hHI
  | frameType =>
      simp only [parseFrameType]
      rw [hstate] at hframe
      obtain ⟨hcount, hlength, rfl⟩ := hframe
      have hpos : 0 < f.data.length := List.length_pos_iff.mpr f.data_ne
      obtain ⟨b, text, htext⟩ := List.exists_cons_of_ne_nil f.data_ne
      rw [htext, List.cons_append] at hrest
      obtain ⟨hbyte, -, -⟩ := readByte_eq hlt hrest hsplit
      refine inv_read hfs hbuf hsplit hbase hmsg hlt hrest ?_ ?_ ?_
      · rfl
      · rfl
      · refine ⟨_, congrArg (Option.map _) hl, ?_⟩
        rw [hbyte, hcount]
        exact inFrame_frameData hlength hpos rfl (by rw [List.drop_zero, htext, List.cons_append])
  | frameData =>
      rw [hstate] at hframe
      obtain ⟨hpos, hle, hlength, hbytes, rfl⟩ := hframe
      by_cases hlt' : l.frameCount < f.data.length
      · have hmore : l.frameCount < (l.msgP.map XBeeMsg.frameLength).getD 0 := by
          simpa [hl, hlength] using hlt'
        have htext := List.drop_eq_getElem_cons hlt'
        rw [htext, List.cons_append] at hrest
        obtain ⟨hbyte, -, -⟩ := readByte_eq hlt hrest hsplit
        have hnot := not_escaped hlt (fun hesc => hplain f (by simp [hfs, hbase]) hesc
          f.data[l.frameCount] (getElem_mem_tail hpos hlt')) hrest
        simp only [parseFrameData, if_pos hmore, hnot, Bool.false_eq_true, if_false, hstate]
        refine inv_read hfs hbuf hsplit hbase hmsg hlt hrest ?_ ?_ ?_
        · rfl
        · rfl
        · refine ⟨_, congrArg (Option.map _) hl, ?_⟩
          rw [hbyte]
          exact inFrame_frameData hlength hlt' hbytes (by rw [htext, List.cons_append])
      · have hend : l.frameCount = f.data.length := by omega
        have hmore : ¬ l.frameCount < (l.msgP.map XBeeMsg.frameLength).getD 0 := by
          simpa [hl, hlength] using hend.ge
        simp only [parseFrameData, if_neg hmore]
        rw [hend, List.drop_length, List.nil_append] at hrest
        refine ⟨old, base, hfs, hbuf, ⟨done, f :: fs', hbase, hmsg, hlt.le, Or.inr ?_⟩, fun _ => hlt⟩
        refine ⟨f, fs', msg, _, rfl, hl, ⟨?_, rfl⟩, hrest⟩
        rw [XBeeMsg.contents, hlength, ← hend, hbytes, hend, List.take_length]
  | checkSum =>
      rw [hstate] at hframe
      obtain ⟨hcontents, rfl⟩ := hframe
      exact inv_checkSum hfs hbuf hsplit hbase hmsg hlt hrest hl hcontents

theorem inv_tick (hplain : ∀ f ∈ fs, Plain useXBeeEsc f)
    (hsplit : ¬ SplitAtStart useXBeeEsc x.buf) (h : Inv useXBeeEsc fs future x) :
    Inv useXBeeEsc fs future (tick useXBeeEsc fresh x) := by
  cases hcontrol : x.control with
  | returned => simpa only [tick, hcontrol] using h
  | refill need l => simpa only [tick, hcontrol] using h
  | loop l =>
      obtain ⟨old, base, hfs, hbuf, hcall⟩ := h
      rw [hcontrol] at hcall
      obtain ⟨⟨done, fs', hbase, hmsg, hle, hrest⟩, hpos⟩ := hcall
      by_cases hlt : l.current < x.recvPos
      · rcases hrest with hbefore | hinside
        · simp only [tick, hcontrol, hlt, if_true, hbefore.1]
          exact inv_notDetected hfs hbuf hsplit hbase hmsg hlt hbefore
        · exact inv_inside hplain hfs hbuf hsplit hbase hmsg hcontrol hlt hinside
      · simp only [tick, hcontrol, hlt, if_false]
        rcases hrest with hbefore | hinside
        · exact inv_return hfs hbase hmsg hlt hbefore
        · obtain ⟨f, fs', msg, text, -, -, hframe, -⟩ := hinside
          exact absurd (hpos hframe.state_ne) hlt

end

/-! ### Runs -/

/-- The bytes of a read find room in the buffer. -/
def Fits (x : Recv) : RecvEvent → Prop
  | .read bytes => x.recvPos + bytes.length ≤ xbeeBuffSize
  | .parse => True

/-- What the parser has in the buffer, in a new call or in one that waits, does not end with
the start byte of a frame. -/
def NotSplit (useXBeeEsc : Bool) (x : Recv) : RecvEvent → Prop
  | .read bytes =>
      match x.control with
      | .refill _ _ => ¬ SplitAtStart useXBeeEsc (x.buf ++ bytes)
      | _ => True
  | .parse => ¬ SplitAtStart useXBeeEsc x.buf

section

variable {useXBeeEsc : Bool} {fresh : Nat → Nat → UInt8} {fs : List ApiFrame}
  {future : List UInt8} {x : Recv}

/-- A round keeps what is received, or the call returns and forgets it. -/
theorem received_tick (useXBeeEsc : Bool) (fresh : Nat → Nat → UInt8) (x : Recv) :
    ((tick useXBeeEsc fresh x).recvPos = x.recvPos ∧ (tick useXBeeEsc fresh x).buf = x.buf ∧
        (x.control ≠ .returned → (tick useXBeeEsc fresh x).control ≠ .returned)) ∨
      ((tick useXBeeEsc fresh x).recvPos = 0 ∧ (tick useXBeeEsc fresh x).buf = []) := by
  have hawait (need : Nat) (l : Locals) (y : Recv) : (await need l y).control ≠ .returned := by
    unfold await
    by_cases hneed : need > y.recvPos <;> simp [hneed]
  unfold tick
  cases hcontrol : x.control with
  | returned => exact Or.inl ⟨rfl, rfl, fun h => absurd rfl h⟩
  | refill need l => exact Or.inl ⟨rfl, rfl, by simp [hcontrol]⟩
  | loop l =>
      dsimp only
      by_cases hlt : l.current < x.recvPos
      · rw [if_pos hlt]
        left
        cases l.state with
        | notDetected =>
            simp only [parseNotDetected]
            by_cases hstart : x.recvBuff l.current = xbeeStart
            · rw [if_pos hstart]
              cases l.msgP with
              | none => exact ⟨rfl, rfl, fun _ => hawait _ _ _⟩
              | some msgP => exact ⟨rfl, rfl, fun _ => hawait _ _ _⟩
            · rw [if_neg hstart]
              exact ⟨rfl, rfl, fun _ => hawait _ _ _⟩
        | lengthHI => exact ⟨rfl, rfl, fun _ => hawait _ _ _⟩
        | lengthLO => exact ⟨rfl, rfl, fun _ => hawait _ _ _⟩
        | frameType => exact ⟨rfl, rfl, fun _ => hawait _ _ _⟩
        | frameData =>
            simp only [parseFrameData]
            by_cases hmore : l.frameCount < (l.msgP.map XBeeMsg.frameLength).getD 0
            · rw [if_pos hmore]
              exact ⟨rfl, rfl, fun _ => hawait _ _ _⟩
            · rw [if_neg hmore]
              exact ⟨rfl, rfl, fun _ => by rintro ⟨⟩⟩
        | checkSum => exact ⟨rfl, rfl, fun _ => by rintro ⟨⟩⟩
      · rw [if_neg hlt]
        exact Or.inr ⟨rfl, rfl⟩

theorem not_splitAtStart_nil : ¬ SplitAtStart useXBeeEsc [] := by
  rintro (⟨fs, h⟩ | ⟨-, bytes, h⟩) <;> simp at h

theorem inv_settle (hplain : ∀ f ∈ fs, Plain useXBeeEsc f)
    (hsplit : ¬ SplitAtStart useXBeeEsc x.buf) (h : Inv useXBeeEsc fs future x) :
    Inv useXBeeEsc fs future (settle useXBeeEsc fresh x) := by
  have hboth := @settle_invariant useXBeeEsc fresh _
    (fun x => Inv useXBeeEsc fs future x ∧ ¬ SplitAtStart useXBeeEsc x.buf)
    (fun x hx => ⟨inv_tick hplain hx.2 hx.1, by
      rcases received_tick useXBeeEsc fresh x with ⟨-, hbuf, -⟩ | ⟨-, hbuf⟩
      · rw [hbuf]
        exact hx.2
      · rw [hbuf]
        exact not_splitAtStart_nil⟩)
    ⟨h, hsplit⟩
  exact hboth.1

theorem recvPos_settle (hx : x.recvPos ≤ xbeeBuffSize) :
    (settle useXBeeEsc fresh x).recvPos ≤ xbeeBuffSize := by
  refine settle_invariant (fun x => x.recvPos ≤ xbeeBuffSize) (fun x hx => ?_) hx
  rcases received_tick useXBeeEsc fresh x with ⟨hpos, -, -⟩ | ⟨hpos, -⟩
  · rw [hpos]
    exact hx
  · rw [hpos]
    exact Nat.zero_le _

/-- A call that returns leaves an empty buffer. -/
theorem buf_settle (hx : x.control ≠ .returned)
    (hreturned : (settle useXBeeEsc fresh x).control = .returned) :
    (settle useXBeeEsc fresh x).buf = [] := by
  refine settle_invariant (fun y => y.control = .returned → y.buf = []) (fun y hy => ?_)
    (fun h => absurd h hx) hreturned
  intro hcontrol
  rcases received_tick useXBeeEsc fresh y with ⟨-, hbuf, hkeep⟩ | ⟨-, hbuf⟩
  · rw [hbuf]
    exact hy (not_imp_not.mp hkeep hcontrol)
  · exact hbuf

theorem buf_read (bytes : List UInt8) (x : Recv) :
    (xbeeReadIntoRecvBuff bytes x).buf = x.buf ++ bytes := by
  apply List.ext_getElem
  · simp [Recv.buf, xbeeReadIntoRecvBuff]
  · intro i hi hi'
    simp only [Recv.buf, xbeeReadIntoRecvBuff, List.getElem_map, List.getElem_range]
    by_cases hlt : i < x.recvPos
    · rw [if_pos hlt, List.getElem_append_left (by simpa using hlt)]
      simp
    · have hin : i - x.recvPos < bytes.length := by
        simp at hi'
        omega
      rw [if_neg hlt, List.getElem_append_right (by simpa using hlt),
        List.getD_eq_getElem _ _ hin]
      simp

theorem inv_read_returned {bytes : List UInt8} (hcontrol : x.control = .returned)
    (h : Inv useXBeeEsc fs (bytes ++ future) x) :
    Inv useXBeeEsc fs future (xbeeReadIntoRecvBuff bytes x) := by
  obtain ⟨old, base, hfs, hbuf, hmsg⟩ := h
  refine ⟨old, base, hfs, ?_, ?_⟩
  · rw [buf_read, List.append_assoc]
    exact hbuf
  · simpa only [xbeeReadIntoRecvBuff, hcontrol] using hmsg

theorem inv_read_refill {bytes : List UInt8} {need : Nat} {l : Locals}
    (hcontrol : x.control = .refill need l) (h : Inv useXBeeEsc fs (bytes ++ future) x) :
    Inv useXBeeEsc fs future (await need l (xbeeReadIntoRecvBuff bytes x)) := by
  obtain ⟨old, base, hfs, hbuf, hcall⟩ := h
  rw [hcontrol] at hcall
  obtain ⟨⟨done, fs', hbase, hmsg, hle, hrest⟩, rfl, hcurrent, hstate⟩ := hcall
  have hview : (xbeeReadIntoRecvBuff bytes x).buf.drop l.current = x.buf.drop l.current ++ bytes := by
    rw [buf_read, List.drop_append_of_le_length (by simpa using hle)]
  refine inv_await hfs (by rw [buf_read, List.append_assoc]; exact hbuf) ?_ hstate
  refine ⟨done, fs', hbase, hmsg, Nat.le_add_right_of_le hle, Or.inr ?_⟩
  rcases hrest with hbefore | hinside
  · exact absurd hbefore.1 hstate
  · rw [hview, List.append_assoc]
    exact hinside

theorem inv_parse (hcontrol : x.control = .returned) (h : Inv useXBeeEsc fs future x) :
    Inv useXBeeEsc fs future { x with control := .loop Locals.init } := by
  obtain ⟨old, base, hfs, hbuf, hmsg⟩ := h
  rw [hcontrol] at hmsg
  refine ⟨old, base, hfs, hbuf, ⟨[], base, rfl, by simpa using hmsg, Nat.zero_le _, Or.inl ?_⟩,
    fun h => absurd rfl h⟩
  exact ⟨rfl, rfl, rfl, Or.inl hbuf⟩

/-- Between two events no call is at the head of its loop. -/
def Settled (x : Recv) : Prop := ∀ l, x.control ≠ .loop l

theorem settled_step (e : RecvEvent) (h : Settled x) : Settled (step useXBeeEsc fresh x e) := by
  cases e with
  | read bytes =>
      simp only [step]
      cases hcontrol : (xbeeReadIntoRecvBuff bytes x).control with
      | returned =>
          intro l
          simp [hcontrol]
      | loop l => exact absurd hcontrol (h l)
      | refill need l => exact control_settle
  | parse =>
      simp only [step]
      cases hcontrol : x.control with
      | returned => exact control_settle
      | loop l => exact absurd hcontrol (h l)
      | refill need l => exact h

theorem inv_step (hplain : ∀ f ∈ fs, Plain useXBeeEsc f) {e : RecvEvent}
    (hsettled : Settled x) (hok : NotSplit useXBeeEsc x e)
    (h : Inv useXBeeEsc fs (delivered [e] ++ future) x) :
    Inv useXBeeEsc fs future (step useXBeeEsc fresh x e) := by
  cases e with
  | read bytes =>
      simp only [delivered, List.append_nil] at h
      simp only [step, NotSplit] at hok ⊢
      cases hcontrol : x.control with
      | returned =>
          simp only [xbeeReadIntoRecvBuff, hcontrol]
          simpa only [xbeeReadIntoRecvBuff, hcontrol] using inv_read_returned hcontrol h
      | loop l => exact absurd hcontrol (hsettled l)
      | refill need l =>
          rw [hcontrol] at hok
          have hread : (xbeeReadIntoRecvBuff bytes x).control = .refill need l := hcontrol
          rw [hread]
          refine inv_settle hplain ?_ (inv_read_refill hcontrol h)
          exact fun hsplit => hok (buf_read bytes x ▸ hsplit)
  | parse =>
      simp only [step]
      cases hcontrol : x.control with
      | returned => exact inv_settle hplain hok (inv_parse hcontrol h)
      | loop l => exact absurd hcontrol (hsettled l)
      | refill need l => exact h

theorem delivered_cons (e : RecvEvent) (es : List RecvEvent) :
    delivered (e :: es) = delivered [e] ++ delivered es := by
  cases e <;> simp [delivered]

theorem inv_run (hplain : ∀ f ∈ fs, Plain useXBeeEsc f) {es : List RecvEvent}
    (hsettled : Settled x)
    (hok : RunOk (step useXBeeEsc fresh) (fun x e => Fits x e ∧ NotSplit useXBeeEsc x e) x es)
    (h : Inv useXBeeEsc fs (delivered es ++ future) x) :
    Inv useXBeeEsc fs future (run (step useXBeeEsc fresh) x es) := by
  induction es generalizing x with
  | nil => exact h
  | cons e es ih =>
      rw [delivered_cons, List.append_assoc] at h
      exact ih (settled_step e hsettled) hok.2 (inv_step hplain hsettled hok.1.2 h)

theorem recvPos_step {e : RecvEvent} (hx : x.recvPos ≤ xbeeBuffSize) (hfits : Fits x e) :
    (step useXBeeEsc fresh x e).recvPos ≤ xbeeBuffSize := by
  cases e with
  | read bytes =>
      simp only [step]
      cases (xbeeReadIntoRecvBuff bytes x).control with
      | returned => exact hfits
      | loop l => exact hfits
      | refill need l => exact recvPos_settle hfits
  | parse =>
      simp only [step]
      cases x.control with
      | returned => exact recvPos_settle hx
      | loop l => exact hx
      | refill need l => exact hx

theorem recvPos_run {es : List RecvEvent} (hx : x.recvPos ≤ xbeeBuffSize)
    (hok : RunOk (step useXBeeEsc fresh) (fun x e => Fits x e ∧ NotSplit useXBeeEsc x e) x es) :
    (run (step useXBeeEsc fresh) x es).recvPos ≤ xbeeBuffSize :=
  run_invariant (fun x => x.recvPos ≤ xbeeBuffSize) (fun _ _ hx hok => recvPos_step hx hok.1) hx hok

theorem inv_initialRecv (fs : List ApiFrame) :
    Inv useXBeeEsc fs (stream useXBeeEsc fs) initialRecv :=
  ⟨[], fs, rfl, rfl, List.Forall₂.nil⟩

theorem settled_run {es : List RecvEvent} (h : Settled x) :
    Settled (run (step useXBeeEsc fresh) x es) := by
  induction es generalizing x with
  | nil => exact h
  | cons e es ih => exact ih (settled_step e h)

theorem settled_initialRecv : Settled initialRecv := nofun

/-- The messages of the frames whose bytes are no longer in the buffer. -/
theorem inv_messages (h : Inv useXBeeEsc fs future x) (hcontrol : x.control = .returned) :
    ∃ old base, fs = old ++ base ∧ List.Forall₂ IsMsg old x.msg ∧
      x.buf ++ future = stream useXBeeEsc base := by
  obtain ⟨old, base, hfs, hbuf, hmsg⟩ := h
  rw [hcontrol] at hmsg
  exact ⟨old, base, hfs, hmsg, hbuf⟩

theorem escape_ne_nil (b : UInt8) (bytes : List UInt8) : escape useXBeeEsc (b :: bytes) ≠ [] := by
  simp only [escape, List.flatMap_cons]
  split_ifs <;> simp

theorem InFrame.text_ne {f : ApiFrame} {msg : XBeeMsg} {frameCount : Nat} {text : List UInt8}
    {state : ParserState} (h : InFrame f msg frameCount text state) : text ≠ [] := by
  cases state with
  | notDetected => exact h.elim
  | lengthHI => simp [h.2]
  | lengthLO => simp [h.2.2]
  | frameType => simp [h.2.2]
  | frameData => simp [h.2.2.2.2]
  | checkSum => simp [h.2]

/-- With all the bytes received, no call waits for more. -/
theorem returned_of_inv (hsettled : Settled x) (h : Inv useXBeeEsc fs [] x) :
    x.control = .returned := by
  obtain ⟨old, base, -, -, hcall⟩ := h
  cases hcontrol : x.control with
  | returned => rfl
  | loop l => exact absurd hcontrol (hsettled l)
  | refill need l =>
      rw [hcontrol] at hcall
      obtain ⟨⟨done, fs', -, -, -, hrest⟩, -, hcurrent, hstate⟩ := hcall
      rcases hrest with hbefore | ⟨f, fs', msg, text, -, -, hframe, htext⟩
      · exact absurd hbefore.1 hstate
      · rw [List.drop_eq_nil_of_le (by simp [hcurrent]), List.nil_append] at htext
        obtain ⟨b, bytes, rfl⟩ := List.exists_cons_of_ne_nil hframe.text_ne
        exact absurd (List.append_eq_nil_iff.mp htext.symm).1 (escape_ne_nil b bytes)

/-- After a call that has returned, nothing is left in the buffer. -/
theorem buf_parse (hsettled : Settled x)
    (hreturned : (step useXBeeEsc fresh x .parse).control = .returned) :
    (step useXBeeEsc fresh x .parse).buf = [] := by
  simp only [step] at hreturned ⊢
  cases hcontrol : x.control with
  | returned =>
      rw [hcontrol] at hreturned
      exact buf_settle nofun hreturned
  | loop l => exact absurd hcontrol (hsettled l)
  | refill need l =>
      rw [hcontrol] at hreturned
      exact absurd (hcontrol.symm.trans hreturned) nofun

theorem eq_nil_of_stream (hfs : stream useXBeeEsc fs = []) : fs = [] := by
  cases fs with
  | nil => rfl
  | cons f fs => exact absurd hfs (by simp [ApiFrame.bytes])

end

/-- However the stream is split over the reads and the calls: as long as the bytes find room
and no buffer to parse ends with a start byte, the queue has the messages of the frames that
left the buffer, and of all of them after a call with all the bytes. -/
theorem parse_stream (useXBeeEsc : Bool) (fresh : Nat → Nat → UInt8) (fs : List ApiFrame)
    (hplain : ∀ f ∈ fs, Plain useXBeeEsc f) (es : List RecvEvent)
    (hstream : delivered es <+: stream useXBeeEsc fs)
    (hok : RunOk (step useXBeeEsc fresh) (fun x e => Fits x e ∧ NotSplit useXBeeEsc x e)
      initialRecv es) :
    (run (step useXBeeEsc fresh) initialRecv es).recvPos ≤ xbeeBuffSize ∧
    ((run (step useXBeeEsc fresh) initialRecv es).control = .returned →
      ∃ old base, fs = old ++ base ∧
        List.Forall₂ IsMsg old (run (step useXBeeEsc fresh) initialRecv es).msg ∧
        delivered es =
          stream useXBeeEsc old ++ (run (step useXBeeEsc fresh) initialRecv es).buf) ∧
    (delivered es = stream useXBeeEsc fs →
      (run (step useXBeeEsc fresh) initialRecv es).control = .returned ∧
      ∀ es', es = es' ++ [.parse] →
        List.Forall₂ IsMsg fs (run (step useXBeeEsc fresh) initialRecv es).msg) := by
  obtain ⟨future, hfuture⟩ := hstream
  have hinv := inv_run hplain settled_initialRecv hok (hfuture ▸ inv_initialRecv fs)
  refine ⟨recvPos_run (Nat.zero_le _) hok, ?_, ?_⟩
  · intro hcontrol
    obtain ⟨old, base, hfs, hmsg, hbuf⟩ := inv_messages hinv hcontrol
    refine ⟨old, base, hfs, hmsg, ?_⟩
    rw [hfs, stream_append, ← hbuf, ← List.append_assoc] at hfuture
    exact List.append_cancel_right hfuture
  · intro hall
    obtain rfl : future = [] := by simpa [hall] using hfuture
    have hcontrol := returned_of_inv (settled_run settled_initialRecv) hinv
    refine ⟨hcontrol, ?_⟩
    rintro es' rfl
    obtain ⟨old, base, rfl, hmsg, hbuf⟩ := inv_messages hinv hcontrol
    rw [run_append] at hcontrol hbuf
    have hnil := buf_parse (settled_run settled_initialRecv) hcontrol
    rw [List.append_nil] at hbuf
    obtain rfl := eq_nil_of_stream (hbuf.symm.trans hnil)
    rwa [List.append_nil]

/-- A frame of one byte. -/
def shortFrame : ApiFrame := ⟨[0x90], 0x6f, nofun, by decide⟩

theorem getLast?_of_splitAtStart {useXBeeEsc : Bool} {buf : List UInt8}
    (h : SplitAtStart useXBeeEsc buf) :
    buf.getLast? = some xbeeStart ∨ buf.getLast? = some 0x7d := by
  rcases h with ⟨fs, rfl⟩ | ⟨-, bytes, rfl⟩
  · exact Or.inl (by simp)
  · exact Or.inr (by simp)

theorem parse_shortFrame :
    List.Forall₂ IsMsg [shortFrame] (run (step true fun _ _ => 0) initialRecv
      [.read (stream true [shortFrame]), .parse]).msg := by
  have hplain : ∀ f ∈ [shortFrame], Plain true f := by
    rintro f hf -
    rw [List.mem_singleton.mp hf]
    nofun
  have hsplit : ¬ SplitAtStart true
      (xbeeReadIntoRecvBuff (stream true [shortFrame]) initialRecv).buf := by
    intro h
    exact absurd (getLast?_of_splitAtStart h) (by decide +kernel)
  have hfits : 0 + (stream true [shortFrame]).length ≤ xbeeBuffSize := by decide +kernel
  have h := parse_stream true (fun _ _ => 0) [shortFrame] hplain
    [.read (stream true [shortFrame]), .parse] (by decide +kernel)
    ⟨⟨hfits, trivial⟩, ⟨trivial, hsplit⟩, trivial⟩
  exact (h.2.2 rfl).2 [_] rfl

/-- A frame with a byte that is escaped, behind its type. -/
def escapedFrame : ApiFrame := ⟨[0x90, 0x11], 0x5e, nofun, by decide⟩

/-- The start byte comes alone: the frame is lost, and its message stays empty. In the mode
with escapes, an escaped byte of the data takes the last one out of the message. -/
theorem frame_lost :
    (delivered [.read [xbeeStart], .parse, .read [0, 1, 0x90, 0x6f], .parse] =
        stream false [shortFrame] ∧
      (run (step false fun _ _ => 0) initialRecv
        [.read [xbeeStart], .parse, .read [0, 1, 0x90, 0x6f], .parse]).msg.map XBeeMsg.contents =
          [[]]) ∧
    (delivered [.read [xbeeStart], .parse, .read [0, 1, 0x90, 0x6f], .parse] =
        stream true [shortFrame] ∧
      (run (step true fun _ _ => 0) initialRecv
        [.read [xbeeStart], .parse, .read [0, 1, 0x90, 0x6f], .parse]).msg.map XBeeMsg.contents =
          [[]]) ∧
    (stream true [escapedFrame] = [xbeeStart, 0, 2, 0x90, 0x7d, 0x31, 0x5e] ∧
      (run (step true fun _ _ => 0) initialRecv
        [.read (stream true [escapedFrame]), .parse]).msg.map XBeeMsg.contents = [[0x90]]) := by
  decide +kernel

end Paparazzi.Link.GroundXBeeStream
