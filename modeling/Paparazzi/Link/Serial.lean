import Mathlib.Data.List.Basic
import Mathlib.Tactic.SplitIfs

/-!
The byte-stream reader of the ground: the functor `Serial.Transport`, which finds
the frames of a protocol in a string, and `Serial.input`, which keeps the bytes
that are not used yet at the start of its buffer. The framing of a stream does
not depend on how it is cut into reads, for a protocol whose answers do not
change when more bytes arrive.
-/

namespace Paparazzi.Link.Serial

def bufferLen : Nat := 2048

/-! ### The parser -/

/-- `PROTOCOL`. The functions that raise an exception return `none`: `Not_found`
for `index_start`, `Not_enough` for `length`, any other exception for `checksum`
and `payload`. -/
structure Protocol where
  indexStart : List UInt8 → Option Nat
  length : List UInt8 → Nat → Option Nat
  checksum : List UInt8 → Option Bool
  payload : List UInt8 → Option (List UInt8)
  indexStart_lt : ∀ {buf start}, indexStart buf = some start → start < buf.length
  length_pos : ∀ {buf start len}, length buf start = some len → 0 < len

/-- How a call of `parse` goes on: no start of a frame, a frame that is not
complete, or a complete frame. -/
inductive Scan where
  | notFound
  | notEnough (start : Nat)
  | frame (start length : Nat)
  deriving DecidableEq, Repr

variable (P : Protocol)

def scan (buf : List UInt8) : Scan :=
  match P.indexStart buf with
  | none => .notFound
  | some start =>
      match P.length buf start with
      | none => .notEnough start
      | some length =>
          if buf.length < start + length then .notEnough start else .frame start length

/-- What the handler gets from a complete frame: its payload if the checksum is
right. -/
def deliver (msg : List UInt8) : Option (List (List UInt8)) :=
  match P.checksum msg with
  | none => none
  | some false => some []
  | some true => (P.payload msg).map fun payload => [payload]

section Scan

variable {P} {buf : List UInt8}

theorem scan_notFound_iff : scan P buf = .notFound ↔ P.indexStart buf = none := by
  constructor
  · intro h
    unfold scan at h
    split at h
    · assumption
    · split at h
      · cases h
      · split_ifs at h
  · intro hindex
    rw [scan, hindex]

theorem scan_notEnough_iff {start : Nat} :
    scan P buf = .notEnough start ↔
      P.indexStart buf = some start ∧
        ∀ length, P.length buf start = some length → buf.length < start + length := by
  constructor
  · intro h
    unfold scan at h
    split at h
    · cases h
    · rename_i start' hindex
      split at h
      · rename_i hnone
        obtain rfl : start' = start := by injection h
        exact ⟨hindex, fun length hlen => absurd (hnone.symm.trans hlen) nofun⟩
      · rename_i length' hlen'
        split_ifs at h with hlt
        obtain rfl : start' = start := by injection h
        refine ⟨hindex, ?_⟩
        intro length hlen
        obtain rfl := Option.some.inj (hlen'.symm.trans hlen)
        exact hlt
  · rintro ⟨hindex, hshort⟩
    rw [scan, hindex]
    dsimp only
    cases hlen : P.length buf start with
    | none => rfl
    | some length => exact if_pos (hshort length hlen)

theorem scan_frame_iff {start length : Nat} :
    scan P buf = .frame start length ↔
      P.indexStart buf = some start ∧ P.length buf start = some length ∧
        start + length ≤ buf.length := by
  constructor
  · intro h
    unfold scan at h
    split at h
    · cases h
    · rename_i start' hindex
      split at h
      · cases h
      · rename_i length' hlen
        split_ifs at h with hlt
        injection h with hstart hlength
        subst hstart hlength
        exact ⟨hindex, hlen, by omega⟩
  · rintro ⟨hindex, hlen, hle⟩
    rw [scan, hindex]
    dsimp only
    rw [hlen]
    exact if_neg (by omega)

theorem scan_frame_bound {start length : Nat} (h : scan P buf = .frame start length) :
    0 < length ∧ start + length ≤ buf.length :=
  have hframe := scan_frame_iff.mp h
  ⟨P.length_pos hframe.2.1, hframe.2.2⟩

end Scan

theorem drop_frame_lt {P : Protocol} {buf : List UInt8} {start length : Nat}
    (h : scan P buf = .frame start length) :
    (buf.drop (start + length)).length < buf.length := by
  have hbound := scan_frame_bound h
  rw [List.length_drop]
  omega

/-- `Transport(P).parse`: the payloads given to the handler and the number of
bytes used, or `none` where it raises an exception. -/
def parse (buf : List UInt8) : Option (List (List UInt8) × Nat) :=
  match _h : scan P buf with
  | .notFound => some ([], buf.length)
  | .notEnough start => some ([], start)
  | .frame start length =>
      match deliver P ((buf.drop start).take length) with
      | none => none
      | some payloads =>
          match parse (buf.drop (start + length)) with
          | none => none
          | some (payloads', used) => some (payloads ++ payloads', start + length + used)
termination_by buf.length
decreasing_by exact drop_frame_lt ‹_›

/-! ### Framing and delivery -/

/-- The complete frames that `parse` finds, in order. -/
def messages (buf : List UInt8) : List (List UInt8) :=
  match _h : scan P buf with
  | .notFound => []
  | .notEnough _ => []
  | .frame start length =>
      (buf.drop start).take length :: messages (buf.drop (start + length))
termination_by buf.length
decreasing_by exact drop_frame_lt ‹_›

/-- The number of bytes that `parse` uses. -/
def used (buf : List UInt8) : Nat :=
  match _h : scan P buf with
  | .notFound => buf.length
  | .notEnough start => start
  | .frame start length =>
      start + length + used (buf.drop (start + length))
termination_by buf.length
decreasing_by exact drop_frame_lt ‹_›

/-- The bytes in which `parse` finds no start of a frame before it returns. -/
def givenUp (buf : List UInt8) : List UInt8 :=
  match _h : scan P buf with
  | .notFound => buf
  | .notEnough _ => []
  | .frame start length =>
      givenUp (buf.drop (start + length))
termination_by buf.length
decreasing_by exact drop_frame_lt ‹_›

/-- The payloads of the frames, unless one of them raises an exception. -/
def deliverAll : List (List UInt8) → Option (List (List UInt8))
  | [] => some []
  | msg :: msgs => do
      let payloads ← deliver P msg
      let payloads' ← deliverAll msgs
      return payloads ++ payloads'

section Equations

variable {P} {buf : List UInt8}

theorem messages_of_notFound (h : scan P buf = .notFound) : messages P buf = [] := by
  rw [messages]
  split <;> simp_all

theorem messages_of_notEnough {start : Nat} (h : scan P buf = .notEnough start) :
    messages P buf = [] := by
  rw [messages]
  split <;> simp_all

theorem messages_of_frame {start length : Nat} (h : scan P buf = .frame start length) :
    messages P buf =
      (buf.drop start).take length :: messages P (buf.drop (start + length)) := by
  rw [messages]
  split <;> simp_all

theorem used_of_notFound (h : scan P buf = .notFound) : used P buf = buf.length := by
  rw [used]
  split <;> simp_all

theorem used_of_notEnough {start : Nat} (h : scan P buf = .notEnough start) :
    used P buf = start := by
  rw [used]
  split <;> simp_all

theorem used_of_frame {start length : Nat} (h : scan P buf = .frame start length) :
    used P buf = start + length + used P (buf.drop (start + length)) := by
  rw [used]
  split <;> simp_all

theorem givenUp_of_notFound (h : scan P buf = .notFound) : givenUp P buf = buf := by
  rw [givenUp]
  split <;> simp_all

theorem givenUp_of_notEnough {start : Nat} (h : scan P buf = .notEnough start) :
    givenUp P buf = [] := by
  rw [givenUp]
  split <;> simp_all

theorem givenUp_of_frame {start length : Nat} (h : scan P buf = .frame start length) :
    givenUp P buf = givenUp P (buf.drop (start + length)) := by
  rw [givenUp]
  split <;> simp_all

/-- Induction along the frames of a string. -/
theorem scan_induction {motive : List UInt8 → Prop}
    (notFound : ∀ buf, scan P buf = .notFound → motive buf)
    (notEnough : ∀ buf start, scan P buf = .notEnough start → motive buf)
    (frame : ∀ buf start length, scan P buf = .frame start length →
      motive (buf.drop (start + length)) → motive buf) (buf : List UInt8) : motive buf := by
  induction hn : buf.length using Nat.strongRecOn generalizing buf with
  | ind n ih =>
      cases hscan : scan P buf with
      | notFound => exact notFound buf hscan
      | notEnough start => exact notEnough buf start hscan
      | frame start length =>
          exact frame buf start length hscan (ih _ (hn ▸ drop_frame_lt hscan) _ rfl)

/-- `parse` finds the frames first and then delivers them. -/
theorem parse_eq (buf : List UInt8) :
    parse P buf = (deliverAll P (messages P buf)).map fun payloads => (payloads, used P buf) := by
  induction buf using scan_induction (P := P) with
  | notFound buf hscan =>
      rw [messages_of_notFound hscan, used_of_notFound hscan, parse]
      split <;> simp_all [deliverAll]
  | notEnough buf start hscan =>
      rw [messages_of_notEnough hscan, used_of_notEnough hscan, parse]
      split <;> simp_all [deliverAll]
  | frame buf start length hscan ih =>
      rw [messages_of_frame hscan, used_of_frame hscan, parse]
      split <;> simp only [hscan, reduceCtorEq, Scan.frame.injEq] at *
      rename_i start' length' heq
      obtain ⟨rfl, rfl⟩ := heq
      rw [ih, deliverAll]
      cases deliver P ((buf.drop start).take length) with
      | none => rfl
      | some payloads =>
          cases deliverAll P (messages P (buf.drop (start + length))) <;> rfl

theorem deliverAll_append (msgs msgs' : List (List UInt8)) :
    deliverAll P (msgs ++ msgs') =
      (do let payloads ← deliverAll P msgs
          let payloads' ← deliverAll P msgs'
          return payloads ++ payloads') := by
  induction msgs with
  | nil => cases h : deliverAll P msgs' <;> simp [deliverAll, h]
  | cons msg msgs ih =>
      rw [List.cons_append, deliverAll, deliverAll, ih]
      cases deliver P msg with
      | none => rfl
      | some payloads =>
          cases deliverAll P msgs with
          | none => rfl
          | some payloads' => cases deliverAll P msgs' <;> simp

/-- No exception exactly if no frame raises one. -/
theorem deliverAll_isSome_iff (msgs : List (List UInt8)) :
    (deliverAll P msgs).isSome ↔ ∀ msg ∈ msgs, (deliver P msg).isSome := by
  induction msgs with
  | nil => simp [deliverAll]
  | cons msg msgs ih =>
      rw [deliverAll, List.forall_mem_cons, ← ih]
      cases deliver P msg with
      | none => simp
      | some payloads => cases deliverAll P msgs <;> simp

theorem used_le (buf : List UInt8) : used P buf ≤ buf.length := by
  induction buf using scan_induction (P := P) with
  | notFound buf hscan => exact Nat.le_of_eq (used_of_notFound hscan)
  | notEnough buf start hscan =>
      rw [used_of_notEnough hscan]
      exact Nat.le_of_lt (P.indexStart_lt (scan_notEnough_iff.mp hscan).1)
  | frame buf start length hscan ih =>
      have hbound := scan_frame_bound hscan
      rw [used_of_frame hscan]
      rw [List.length_drop] at ih
      omega

theorem indexStart_nil : P.indexStart [] = none := by
  cases hindex : P.indexStart [] with
  | none => rfl
  | some start => exact absurd (P.indexStart_lt hindex) (Nat.not_lt_zero start)

theorem indexStart_givenUp (buf : List UInt8) : P.indexStart (givenUp P buf) = none := by
  induction buf using scan_induction (P := P) with
  | notFound buf hscan =>
      rw [givenUp_of_notFound hscan]
      exact scan_notFound_iff.mp hscan
  | notEnough buf start hscan =>
      rw [givenUp_of_notEnough hscan]
      exact indexStart_nil
  | frame buf start length hscan ih =>
      rw [givenUp_of_frame hscan]
      exact ih

/-- A complete frame is a part of a string that starts and ends where the
protocol says. -/
theorem exists_of_mem_messages {stream msg : List UInt8} (h : msg ∈ messages P stream) :
    ∃ buf start length, P.indexStart buf = some start ∧ P.length buf start = some length ∧
      start + length ≤ buf.length ∧ msg = (buf.drop start).take length := by
  induction stream using scan_induction (P := P) with
  | notFound buf hscan =>
      rw [messages_of_notFound hscan] at h
      cases h
  | notEnough buf start hscan =>
      rw [messages_of_notEnough hscan] at h
      cases h
  | frame buf start length hscan ih =>
      rw [messages_of_frame hscan, List.mem_cons] at h
      rcases h with rfl | h
      · obtain ⟨hindex, hlen, hle⟩ := scan_frame_iff.mp hscan
        exact ⟨buf, start, length, hindex, hlen, hle, rfl⟩
      · exact ih h

end Equations

/-! ### More bytes arrive -/

/-- The answers of the protocol do not change when more bytes arrive and do not
depend on the bytes before the start of a frame; a length is found in the first
bytes of a frame. -/
structure Stable : Prop where
  indexStart_append : ∀ {a start} b, P.indexStart a = some start →
    P.indexStart (a ++ b) = some start
  indexStart_drop : ∀ {a start}, P.indexStart a = some start →
    P.indexStart (a.drop start) = some 0
  length_append : ∀ {a start len} b, P.length a start = some len →
    P.length (a ++ b) start = some len
  length_drop : ∀ a i j, P.length a (i + j) = P.length (a.drop i) j
  length_none : ∀ {a start}, P.length a start = none → a.length < start + bufferLen

/-- Nothing is lost when the bytes `a`, in which no frame starts, are given up
before the bytes `b` arrive. -/
def KeepsStart (a b : List UInt8) : Prop :=
  P.indexStart (a ++ b) = (P.indexStart b).map (a.length + ·)

/-- The frame is found `k` bytes later. -/
def Scan.shift (k : Nat) : Scan → Scan
  | .notFound => .notFound
  | .notEnough start => .notEnough (k + start)
  | .frame start length => .frame (k + start) length

section Append

variable {P}

/-- What `parse` finds later when the bytes before are skipped. -/
theorem frames_shift {a b : List UInt8} (k : Nat) (hdrop : a.drop k = b)
    (hlen : a.length = k + b.length) (hscan : scan P a = (scan P b).shift k) :
    messages P a = messages P b ∧ used P a = k + used P b := by
  cases hb : scan P b with
  | notFound =>
      rw [hb] at hscan
      rw [messages_of_notFound hscan, messages_of_notFound hb, used_of_notFound hscan,
        used_of_notFound hb, hlen]
      exact ⟨rfl, rfl⟩
  | notEnough start =>
      rw [hb] at hscan
      rw [messages_of_notEnough hscan, messages_of_notEnough hb, used_of_notEnough hscan,
        used_of_notEnough hb]
      exact ⟨rfl, rfl⟩
  | frame start length =>
      rw [hb] at hscan
      rw [messages_of_frame hscan, messages_of_frame hb, used_of_frame hscan, used_of_frame hb,
        ← hdrop, List.drop_drop, List.drop_drop, Nat.add_assoc]
      exact ⟨rfl, by omega⟩

variable (hP : Stable P)

include hP

theorem scan_shift {a b : List UInt8} (k : Nat) (hdrop : a.drop k = b)
    (hlen : a.length = k + b.length)
    (hindex : P.indexStart a = (P.indexStart b).map (k + ·)) :
    scan P a = (scan P b).shift k := by
  unfold scan
  rw [hindex]
  cases P.indexStart b with
  | none => rfl
  | some start =>
      simp only [Option.map_some]
      rw [hP.length_drop a k start, hdrop]
      cases P.length b start with
      | none => rfl
      | some length =>
          simp only [hlen]
          split_ifs with h₁ h₂ h₂
          · rfl
          · omega
          · omega
          · rfl

theorem scan_append_frame {a : List UInt8} {start length : Nat}
    (h : scan P a = .frame start length) (b : List UInt8) :
    scan P (a ++ b) = .frame start length := by
  obtain ⟨hindex, hlen, hle⟩ := scan_frame_iff.mp h
  refine scan_frame_iff.mpr ⟨hP.indexStart_append b hindex, hP.length_append b hlen, ?_⟩
  rw [List.length_append]
  omega

/-- The bytes that are kept begin with a frame that is not complete, or there are
none. -/
theorem scan_rest (a : List UInt8) :
    a.drop (used P a) = [] ∨ scan P (a.drop (used P a)) = .notEnough 0 := by
  induction a using scan_induction (P := P) with
  | notFound a hscan =>
      rw [used_of_notFound hscan]
      exact Or.inl (List.drop_length)
  | notEnough a start hscan =>
      refine Or.inr ?_
      rw [used_of_notEnough hscan]
      have hindex := (scan_notEnough_iff.mp hscan).1
      have hlt := P.indexStart_lt hindex
      have hshift := scan_shift hP start (a := a) rfl
        (by rw [List.length_drop]; omega)
        (by rw [hindex, hP.indexStart_drop hindex]; rfl)
      rw [hscan] at hshift
      cases hrest : scan P (a.drop start) with
      | notFound => rw [hrest] at hshift; cases hshift
      | notEnough start' =>
          rw [hrest] at hshift
          injection hshift with hstart
          have hzero : start' = 0 := by omega
          rw [hzero]
      | frame start' length => rw [hrest] at hshift; cases hshift
  | frame a start length hscan ih =>
      rw [used_of_frame hscan, ← List.drop_drop]
      exact ih

/-- Framing a string in two parts. -/
theorem frames_append (a b : List UInt8) (hkeep : KeepsStart P (givenUp P a) b) :
    messages P (a ++ b) = messages P a ++ messages P (a.drop (used P a) ++ b) ∧
      used P (a ++ b) = used P a + used P (a.drop (used P a) ++ b) := by
  induction a using scan_induction (P := P) with
  | notFound a hscan =>
      rw [givenUp_of_notFound hscan] at hkeep
      have hshift := scan_shift hP a.length (a := a ++ b) (b := b) (by simp) (by simp) hkeep
      have hframes := frames_shift a.length (by simp) (by simp) hshift
      rw [messages_of_notFound hscan, used_of_notFound hscan, List.drop_length]
      exact hframes
  | notEnough a start hscan =>
      have hindex := (scan_notEnough_iff.mp hscan).1
      have hlt := P.indexStart_lt hindex
      have hdrop : (a ++ b).drop start = a.drop start ++ b := by
        rw [List.drop_append_of_le_length (by omega)]
      have hlen : (a ++ b).length = start + (a.drop start ++ b).length := by
        rw [List.length_append, List.length_append, List.length_drop]
        omega
      have hshift := scan_shift hP start hdrop hlen
        (by rw [hP.indexStart_append b hindex,
          hP.indexStart_append b (hP.indexStart_drop hindex)]; rfl)
      have hframes := frames_shift start hdrop hlen hshift
      rw [messages_of_notEnough hscan, used_of_notEnough hscan]
      exact hframes
  | frame a start length hscan ih =>
      have hbound := scan_frame_bound hscan
      have happend := scan_append_frame hP hscan b
      have hdrop : (a ++ b).drop (start + length) = a.drop (start + length) ++ b := by
        rw [List.drop_append_of_le_length (by omega)]
      have htake : ((a ++ b).drop start).take length = (a.drop start).take length := by
        rw [List.drop_append_of_le_length (by omega), List.take_append_of_le_length]
        rw [List.length_drop]
        omega
      rw [givenUp_of_frame hscan] at hkeep
      obtain ⟨hmessages, hused⟩ := ih hkeep
      rw [messages_of_frame happend, messages_of_frame hscan, used_of_frame happend,
        used_of_frame hscan, hdrop, htake, hmessages, hused, List.drop_drop]
      exact ⟨rfl, by omega⟩

end Append

/-! ### The reader -/

theorem parse_used_le {P : Protocol} {buf : List UInt8} {payloads : List (List UInt8)}
    {nbUsed : Nat} (h : parse P buf = some (payloads, nbUsed)) : nbUsed ≤ buf.length := by
  rw [parse_eq, Option.map_eq_some_iff] at h
  obtain ⟨_, -, heq⟩ := h
  injection heq with _ hused
  rw [← hused]
  exact used_le buf

/-- Put payloads before those of a later call. -/
def prepend {α : Type} (payloads : List (List UInt8)) (x : List (List UInt8) × α) :
    List (List UInt8) × α :=
  (payloads ++ x.1, x.2)

/-- The loop of `Serial.input`: call the parser on the bytes in the buffer as
long as it uses some, and give up one byte if the buffer is full. -/
def inputParse (pending : List UInt8) : Option (List (List UInt8) × List UInt8) :=
  match _h : parse P pending with
  | none => none
  | some (payloads, nbUsed) =>
      if _hused : nbUsed > 0 then (inputParse (pending.drop nbUsed)).map (prepend payloads)
      else if _hfull : pending.length = bufferLen then
        (inputParse (pending.drop 1)).map (prepend payloads)
      else some (payloads, pending)
termination_by pending.length
decreasing_by
  · have hle := parse_used_le ‹parse P pending = _›
    rw [List.length_drop]
    omega
  · rw [List.length_drop, ‹pending.length = bufferLen›]
    decide

/-- `Serial.input` for a sequence of reads: the payloads given to the handler and
the bytes left at the start of the buffer. A read never returns more bytes than
there is room for in the buffer. -/
def input : List UInt8 → List (List UInt8) → Option (List (List UInt8) × List UInt8)
  | pending, [] => some ([], pending)
  | pending, chunk :: chunks =>
      match inputParse P (pending ++ chunk) with
      | none => none
      | some (payloads, pending') => (input pending' chunks).map (prepend payloads)

/-- A condition on every read: on the bytes that the parser gives up for want of a
start and the bytes that arrive later. -/
def CutsOk (ok : List UInt8 → List UInt8 → Prop) : List UInt8 → List (List UInt8) → Prop
  | _, [] => True
  | pending, chunk :: chunks =>
      ok (givenUp P (pending ++ chunk)) chunks.flatten ∧
        match inputParse P (pending ++ chunk) with
        | none => True
        | some (_, pending') => CutsOk ok pending' chunks

/-- Every frame of the stream fits the buffer, the one at its end too. -/
structure FitsBuffer (stream : List UInt8) : Prop where
  messages : ∀ msg ∈ messages P stream, msg.length ≤ bufferLen
  rest : (stream.drop (used P stream)).length < bufferLen

/-- The reader gives the handler what the parser finds in the whole stream, and
keeps the bytes that the parser does not use. -/
def ChunkIndependent (chunks : List (List UInt8)) : Prop :=
  ∃ payloads nbUsed, parse P chunks.flatten = some (payloads, nbUsed) ∧
    input P [] chunks = some (payloads, chunks.flatten.drop nbUsed)

section Reader

variable {P}

/-- One call of the parser is enough if what it leaves does not fill the buffer. -/
theorem inputParse_of_rest (hP : Stable P) (payloads : List (List UInt8))
    {pending : List UInt8} (hdeliver : deliverAll P (messages P pending) = some payloads)
    (hrest : (pending.drop (used P pending)).length < bufferLen) :
    inputParse P pending = some (payloads, pending.drop (used P pending)) := by
  have hparse : parse P pending = some (payloads, used P pending) := by
    rw [parse_eq, hdeliver]
    rfl
  have hagain : parse P (pending.drop (used P pending)) = some ([], 0) := by
    rw [parse_eq]
    rcases scan_rest hP pending with hnil | hscan
    · rw [hnil]
      have hscan : scan P [] = .notFound := by
        rw [scan, indexStart_nil]
      rw [messages_of_notFound hscan, used_of_notFound hscan]
      rfl
    · rw [messages_of_notEnough hscan, used_of_notEnough hscan]
      rfl
  have hstop : inputParse P (pending.drop (used P pending)) =
      some ([], pending.drop (used P pending)) := by
    rw [inputParse]
    split <;> simp_all
    omega
  rw [inputParse]
  split
  · simp_all
  · rename_i payloads' nbUsed heq
    obtain ⟨rfl, rfl⟩ : payloads = payloads' ∧ used P pending = nbUsed := by
      simpa [hparse] using heq
    by_cases hzero : used P pending > 0
    · rw [dif_pos hzero, hstop]
      simp [prepend]
    · have hused : used P pending = 0 := by omega
      rw [hused, List.drop_zero] at hrest ⊢
      rw [dif_neg (by omega), dif_neg (by omega)]

/-- What is kept does not fill the buffer if the whole stream fits. -/
theorem rest_lt_bufferLen (hP : Stable P) {a b : List UInt8}
    (hrest : a = [] ∨ scan P a = .notEnough 0) (hfits : FitsBuffer P (a ++ b)) :
    a.length < bufferLen := by
  rcases hrest with rfl | hscan
  · decide
  obtain ⟨hindex, hshort⟩ := scan_notEnough_iff.mp hscan
  have happend := hP.indexStart_append b hindex
  cases hab : scan P (a ++ b) with
  | notFound => exact absurd (happend.symm.trans (scan_notFound_iff.mp hab)) nofun
  | notEnough start =>
      have hstart := Option.some.inj (happend.symm.trans (scan_notEnough_iff.mp hab).1)
      have hlt := hfits.rest
      rw [used_of_notEnough hab, ← hstart, List.drop_zero, List.length_append] at hlt
      omega
  | frame start length =>
      obtain ⟨hindex', hlen', hle⟩ := scan_frame_iff.mp hab
      obtain rfl := Option.some.inj (happend.symm.trans hindex')
      have hmem : ((a ++ b).drop 0).take length ∈ messages P (a ++ b) := by
        rw [messages_of_frame hab]
        exact List.mem_cons_self
      have hlen := hfits.messages _ hmem
      rw [List.length_take, List.length_drop] at hlen
      -- the frame was not complete in `a`: its length was not there yet or exceeds `a`
      cases ha : P.length a 0 with
      | none =>
          have := hP.length_none ha
          omega
      | some len =>
          have hlt := hshort len ha
          have heq := Option.some.inj ((hP.length_append b ha).symm.trans hlen')
          omega

/-- What follows the frames of a part of the stream fits too. -/
theorem FitsBuffer.drop_used (hP : Stable P) {a b : List UInt8}
    (hkeep : KeepsStart P (givenUp P a) b) (hfits : FitsBuffer P (a ++ b)) :
    FitsBuffer P (a.drop (used P a) ++ b) := by
  obtain ⟨hmessages, hused⟩ := frames_append hP a b hkeep
  constructor
  · intro msg hmsg
    refine hfits.messages msg ?_
    rw [hmessages]
    exact List.mem_append_right _ hmsg
  · have hrest := hfits.rest
    rw [hused, ← List.drop_drop, List.drop_append_of_le_length (used_le a)] at hrest
    exact hrest

theorem CutsOk.tail {ok : List UInt8 → List UInt8 → Prop} {pending chunk : List UInt8}
    {chunks : List (List UInt8)} {payloads : List (List UInt8)} {pending' : List UInt8}
    (h : CutsOk P ok pending (chunk :: chunks))
    (hparse : inputParse P (pending ++ chunk) = some (payloads, pending')) :
    CutsOk P ok pending' chunks := by
  have htail := h.2
  rw [hparse] at htail
  exact htail

/-- Reading in pieces is parsing the whole, from any bytes left by a former read. -/
theorem input_eq (hP : Stable P) {ok : List UInt8 → List UInt8 → Prop}
    (hkeep : ∀ a b, ok (givenUp P a) b → KeepsStart P (givenUp P a) b)
    {pending : List UInt8} {chunks : List (List UInt8)}
    (hrest : pending = [] ∨ scan P pending = .notEnough 0)
    (hcuts : CutsOk P ok pending chunks)
    (hfits : FitsBuffer P (pending ++ chunks.flatten)) {payloads : List (List UInt8)}
    (hdeliver : deliverAll P (messages P (pending ++ chunks.flatten)) = some payloads) :
    input P pending chunks = some (payloads,
      (pending ++ chunks.flatten).drop (used P (pending ++ chunks.flatten))) := by
  induction chunks generalizing pending payloads with
  | nil =>
      rw [List.flatten_nil, List.append_nil] at hdeliver ⊢
      have hnone : messages P pending = [] ∧ pending.drop (used P pending) = pending := by
        rcases hrest with rfl | hscan
        · refine ⟨?_, List.drop_nil⟩
          have hused := used_le (P := P) []
          cases hscan : scan P [] with
          | notFound => exact messages_of_notFound hscan
          | notEnough start => exact messages_of_notEnough hscan
          | frame start length =>
              have hbound := scan_frame_bound hscan
              rw [List.length_nil] at hbound
              omega
        · exact ⟨messages_of_notEnough hscan, by rw [used_of_notEnough hscan, List.drop_zero]⟩
      rw [hnone.1] at hdeliver
      injection hdeliver with hpayloads
      rw [hnone.2, ← hpayloads]
      rfl
  | cons chunk chunks ih =>
      have hflat : pending ++ (chunk :: chunks).flatten = (pending ++ chunk) ++ chunks.flatten := by
        rw [List.flatten_cons, List.append_assoc]
      rw [hflat] at hfits hdeliver ⊢
      obtain ⟨hmessages, hused⟩ :=
        frames_append hP (pending ++ chunk) chunks.flatten (hkeep _ _ hcuts.1)
      have hle := used_le (P := P) (pending ++ chunk)
      have hsplit : (pending ++ chunk ++ chunks.flatten).drop (used P (pending ++ chunk)) =
          (pending ++ chunk).drop (used P (pending ++ chunk)) ++ chunks.flatten :=
        List.drop_append_of_le_length hle
      have hrest' := scan_rest hP (pending ++ chunk)
      have hfits' := hfits.drop_used hP (hkeep _ _ hcuts.1)
      rw [hmessages, deliverAll_append] at hdeliver
      obtain ⟨first, hfirst, hdeliver⟩ := Option.bind_eq_some_iff.mp hdeliver
      obtain ⟨later, hlater, hdeliver⟩ := Option.bind_eq_some_iff.mp hdeliver
      injection hdeliver with hpayloads
      have hparse := inputParse_of_rest hP _ hfirst (rest_lt_bufferLen hP hrest' hfits')
      have htail := ih hrest' (hcuts.tail hparse) hfits' hlater
      rw [input, hparse, hused, ← List.drop_drop, hsplit, ← hpayloads]
      dsimp only
      rw [htail]
      rfl

theorem chunkIndependent_of (hP : Stable P) {ok : List UInt8 → List UInt8 → Prop}
    (hkeep : ∀ a b, ok (givenUp P a) b → KeepsStart P (givenUp P a) b)
    {chunks : List (List UInt8)} (hcuts : CutsOk P ok [] chunks)
    (hfits : FitsBuffer P chunks.flatten)
    (hdeliver : ∀ msg ∈ messages P chunks.flatten, (deliver P msg).isSome) :
    ChunkIndependent P chunks := by
  obtain ⟨payloads, hpayloads⟩ :=
    Option.isSome_iff_exists.mp ((deliverAll_isSome_iff (P := P) _).mpr hdeliver)
  refine ⟨payloads, used P chunks.flatten, ?_, ?_⟩
  · rw [parse_eq, hpayloads]
    rfl
  · exact input_eq hP hkeep (Or.inl rfl) hcuts hfits hpayloads

end Reader

/-! ### A stream of whole frames -/

/-- One whole frame, whose payload goes to the handler. -/
structure Carries (P : Protocol) (frame payload : List UInt8) : Prop where
  scan_eq : scan P frame = .frame 0 frame.length
  deliver_eq : deliver P frame = some [payload]

section Frames

variable {P : Protocol} {ι : Type*} {frame payload : ι → List UInt8}

theorem deliverAll_of_carries {items : List ι}
    (h : ∀ x ∈ items, Carries P (frame x) (payload x)) :
    deliverAll P (items.map frame) = some (items.map payload) := by
  induction items with
  | nil => rfl
  | cons x items ih =>
      obtain ⟨hx, hitems⟩ := List.forall_mem_cons.mp h
      rw [List.map_cons, deliverAll, hx.deliver_eq, ih hitems]
      rfl

theorem cutsOk_of_forall {ok : List UInt8 → List UInt8 → Prop} (hok : ∀ a b, ok a b)
    (pending : List UInt8) (chunks : List (List UInt8)) : CutsOk P ok pending chunks := by
  induction chunks generalizing pending with
  | nil => trivial
  | cons chunk chunks ih =>
      refine ⟨hok _ _, ?_⟩
      cases inputParse P (pending ++ chunk) with
      | none => trivial
      | some result => exact ih result.2

variable (hP : Stable P)

include hP

/-- In the beginning of a frame no frame is found. -/
theorem messages_of_proper {bytes stream : List UInt8}
    (hframe : scan P bytes = .frame 0 bytes.length) (hbegins : stream <+: bytes)
    (hshort : stream.length < bytes.length) : messages P stream = [] := by
  obtain ⟨rest, rfl⟩ := hbegins
  cases hscan : scan P stream with
  | notFound => exact messages_of_notFound hscan
  | notEnough start => exact messages_of_notEnough hscan
  | frame start length =>
      have hsame := (scan_append_frame hP hscan rest).symm.trans hframe
      have hbound := (scan_frame_bound hscan).2
      injection hsame with hstart hlength
      omega

/-- What is found in the beginning of a stream of frames: those that are complete. -/
theorem messages_of_isPrefix {items : List ι}
    (hframes : ∀ x ∈ items, scan P (frame x) = .frame 0 (frame x).length) {stream : List UInt8}
    (hbegins : stream <+: items.flatMap frame) :
    ∃ k, k ≤ items.length ∧ messages P stream = (items.take k).map frame ∧
      (items.take k).flatMap frame <+: stream ∧
      (k < items.length → stream.length < ((items.take (k + 1)).flatMap frame).length) := by
  induction items generalizing stream with
  | nil =>
      obtain rfl := List.prefix_nil.mp hbegins
      have hscan : scan P [] = .notFound := scan_notFound_iff.mpr indexStart_nil
      exact ⟨0, Nat.le_refl 0, messages_of_notFound hscan, List.nil_prefix, by simp⟩
  | cons x items ih =>
      obtain ⟨hx, hitems⟩ := List.forall_mem_cons.mp hframes
      rw [List.flatMap_cons] at hbegins
      rcases Nat.lt_or_ge stream.length (frame x).length with hshort | hlong
      · have hpart := List.prefix_of_prefix_length_le hbegins (List.prefix_append _ _)
          (Nat.le_of_lt hshort)
        exact ⟨0, Nat.zero_le _, messages_of_proper hP hx hpart hshort, List.nil_prefix,
          fun _ => by simpa using hshort⟩
      · obtain ⟨later, rfl⟩ :=
          List.prefix_of_prefix_length_le (List.prefix_append (frame x) _) hbegins hlong
        obtain ⟨k, hk, hmessages, htaken, hnext⟩ :=
          ih hitems ((List.prefix_append_right_inj _).mp hbegins)
        refine ⟨k + 1, ?_, ?_, ?_, ?_⟩
        · simpa using hk
        · rw [messages_of_frame (scan_append_frame hP hx later)]
          simp [hmessages]
        · rw [List.take_succ_cons, List.flatMap_cons]
          exact (List.prefix_append_right_inj _).mpr htaken
        · intro hlt
          have hlater := hnext (by simpa using hlt)
          rw [List.take_succ_cons, List.flatMap_cons, List.length_append, List.length_append]
          omega

/-- Reads of a stream of frames, cut anywhere and stopped anywhere, give the handler the payloads
of the complete frames. -/
theorem input_of_frames (hkeep : ∀ a b, P.indexStart a = none → KeepsStart P a b)
    {items : List ι} (hframes : ∀ x ∈ items, Carries P (frame x) (payload x))
    {chunks : List (List UInt8)} (hbegins : chunks.flatten <+: items.flatMap frame)
    (hfits : FitsBuffer P chunks.flatten) :
    ∃ k pending, k ≤ items.length ∧ input P [] chunks = some ((items.take k).map payload, pending) ∧
      (items.take k).flatMap frame <+: chunks.flatten ∧
      (k < items.length →
        chunks.flatten.length < ((items.take (k + 1)).flatMap frame).length) := by
  obtain ⟨k, hk, hmessages, htaken, hnext⟩ :=
    messages_of_isPrefix hP (fun x hx => (hframes x hx).scan_eq) hbegins
  have hdeliver : deliverAll P (messages P ([] ++ chunks.flatten)) =
      some ((items.take k).map payload) := by
    rw [List.nil_append, hmessages]
    exact deliverAll_of_carries fun x hx => hframes x (List.mem_of_mem_take hx)
  have hcuts : CutsOk P (fun _ _ => True) [] chunks := cutsOk_of_forall (fun _ _ => trivial) [] chunks
  have hinput := input_eq hP (fun a b _ => hkeep _ b (indexStart_givenUp a)) (Or.inl rfl) hcuts hfits
    hdeliver
  exact ⟨k, _, hk, hinput, htaken, hnext⟩

end Frames

end Paparazzi.Link.Serial
