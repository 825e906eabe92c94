import Paparazzi.Library.Machine
import Paparazzi.Link.Serial

/-!
`Serial.Transport` and `Serial.input` with a handler that raises exceptions. An exception of the
handler leaves the parser and the reader; the index of the buffer stays what it was before the
read.
-/

namespace Paparazzi.Link.Handler

open Paparazzi.Library.Machine
open Paparazzi.Link.Serial

/-! ### The parser -/

section

variable (P : Protocol) (raises : List UInt8 → Bool)

/-- A complete frame: what the handler is called with, and whether the parser goes on. -/
def handle (msg : List UInt8) : List (List UInt8) × Bool :=
  match deliver P msg with
  | none => ([], false)
  | some payloads => (payloads, !payloads.any raises)

/-- `parse`, with the payloads that the handler has been called with and the number of bytes used,
which is none after an exception. -/
def parse (buf : List UInt8) : List (List UInt8) × Option Nat :=
  match _h : scan P buf with
  | .notFound => ([], some buf.length)
  | .notEnough start => ([], some start)
  | .frame start length =>
      match handle P raises ((buf.drop start).take length) with
      | (payloads, false) => (payloads, none)
      | (payloads, true) =>
          let (payloads', used) := parse (buf.drop (start + length))
          (payloads ++ payloads', used.map (start + length + ·))
termination_by buf.length
decreasing_by exact drop_frame_lt ‹_›

/-- The frames one after the other, up to an exception. -/
def handleAll : List (List UInt8) → List (List UInt8) × Bool
  | [] => ([], true)
  | msg :: msgs =>
      match handle P raises msg with
      | (payloads, false) => (payloads, false)
      | (payloads, true) => (payloads ++ (handleAll msgs).1, (handleAll msgs).2)

end

section

variable {P : Protocol} {raises : List UInt8 → Bool} {msg buf : List UInt8}
  {msgs : List (List UInt8)}

theorem parse_eq (buf : List UInt8) :
    parse P raises buf =
      ((handleAll P raises (messages P buf)).1,
        if (handleAll P raises (messages P buf)).2 then some (used P buf) else none) := by
  induction buf using scan_induction (P := P) with
  | notFound buf hscan =>
      rw [messages_of_notFound hscan, used_of_notFound hscan, parse]
      split <;> simp_all [handleAll]
  | notEnough buf start hscan =>
      rw [messages_of_notEnough hscan, used_of_notEnough hscan, parse]
      split <;> simp_all [handleAll]
  | frame buf start length hscan ih =>
      rw [messages_of_frame hscan, used_of_frame hscan, parse]
      split <;> simp only [hscan, reduceCtorEq, Scan.frame.injEq] at *
      rename_i start' length' heq
      obtain ⟨rfl, rfl⟩ := heq
      rw [handleAll, ih]
      obtain ⟨payloads, goesOn⟩ := handle P raises ((buf.drop start).take length)
      cases goesOn with
      | false => rfl
      | true =>
          cases (handleAll P raises (messages P (buf.drop (start + length)))).2 with
          | false => simp
          | true => simp

/-- What the handler is called with if no exception gets in the way. -/
def payloads (P : Protocol) (msgs : List (List UInt8)) : List (List UInt8) :=
  msgs.flatMap fun msg => (deliver P msg).getD []

/-- The calls of the handler that do not raise an exception. -/
def others (raises : List UInt8 → Bool) (payloads : List (List UInt8)) : List (List UInt8) :=
  payloads.filter fun payload => !raises payload

theorem handle_fst (msg : List UInt8) : (handle P raises msg).1 = (deliver P msg).getD [] := by
  unfold handle
  cases deliver P msg with
  | none => rfl
  | some payloads => rfl

theorem handle_of_goesOn (h : (handle P raises msg).2 = true) :
    handle P raises msg = ((deliver P msg).getD [], true) :=
  Prod.ext (handle_fst msg) h

theorem handleAll_of_goesOn (h : ∀ msg ∈ msgs, (handle P raises msg).2 = true) :
    handleAll P raises msgs = (payloads P msgs, true) := by
  induction msgs with
  | nil => rfl
  | cons msg msgs ih =>
      rw [handleAll, handle_of_goesOn (h msg List.mem_cons_self),
        ih fun msg' hmsg' => h msg' (List.mem_cons_of_mem msg hmsg')]
      rfl

/-- An exception in the last frame only. -/
theorem handleAll_concat (h : ∀ m ∈ msgs, (handle P raises m).2 = true) :
    others raises (handleAll P raises (msgs ++ [msg])).1 =
        others raises (payloads P (msgs ++ [msg])) ∧
      (handleAll P raises (msgs ++ [msg])).2 = (handle P raises msg).2 := by
  induction msgs with
  | nil =>
      have hpayloads : payloads P [msg] = (handle P raises msg).1 := by
        rw [handle_fst]
        simp [payloads]
      rw [List.nil_append, hpayloads, handleAll]
      obtain ⟨first, goesOn⟩ := handle P raises msg
      cases goesOn with
      | false => exact ⟨rfl, rfl⟩
      | true => exact ⟨by simp [handleAll], rfl⟩
  | cons m msgs ih =>
      obtain ⟨hothers, hgoes⟩ := ih fun m' hm' => h m' (List.mem_cons_of_mem m hm')
      rw [List.cons_append, handleAll, handle_of_goesOn (h m List.mem_cons_self)]
      refine ⟨?_, hgoes⟩
      change others raises ((deliver P m).getD [] ++ _) = others raises ((deliver P m).getD [] ++ _)
      unfold others at hothers ⊢
      rw [List.filter_append, List.filter_append, hothers]
      rfl

end

/-! ### The reader -/

theorem parse_used_le {P : Protocol} {raises : List UInt8 → Bool} {buf : List UInt8}
    {payloads : List (List UInt8)} {nbUsed : Nat}
    (h : parse P raises buf = (payloads, some nbUsed)) : nbUsed ≤ buf.length := by
  rw [parse_eq, Prod.mk.injEq] at h
  obtain ⟨-, hused⟩ := h
  split_ifs at hused
  cases hused
  exact used_le buf

section

variable (P : Protocol) (raises : List UInt8 → Bool)

/-- The loop of `Serial.input`; no bytes are left after an exception. -/
def inputParse (pending : List UInt8) : List (List UInt8) × Option (List UInt8) :=
  match _h : parse P raises pending with
  | (payloads, none) => (payloads, none)
  | (payloads, some nbUsed) =>
      if _hused : nbUsed > 0 then
        let (payloads', rest) := inputParse (pending.drop nbUsed)
        (payloads ++ payloads', rest)
      else if _hfull : pending.length = bufferLen then
        let (payloads', rest) := inputParse (pending.drop 1)
        (payloads ++ payloads', rest)
      else (payloads, some pending)
termination_by pending.length
decreasing_by
  · have hle := parse_used_le ‹parse P raises pending = _›
    rw [List.length_drop]
    omega
  · rw [List.length_drop, ‹pending.length = bufferLen›]
    decide

/-- The bytes at the start of the buffer, up to its index, and the calls of the handler so far. -/
structure State where
  pending : List UInt8
  handed : List (List UInt8)

def start : State := ⟨[], []⟩

/-- `read_fd`: every exception is caught, that of the end of the file too. -/
def readFd (s : State) (chunk : List UInt8) : State :=
  if chunk = [] then s
  else
    match inputParse P raises (s.pending ++ chunk) with
    | (payloads, some pending) => ⟨pending, s.handed ++ payloads⟩
    | (payloads, none) => ⟨s.pending, s.handed ++ payloads⟩

/-- No exception in the read; or one in its last frame, with nothing waiting before the read and
no start of a frame behind the last one. -/
def ReadOk (s : State) (chunk : List UInt8) : Prop :=
  (∀ msg ∈ messages P (s.pending ++ chunk), (handle P raises msg).2 = true) ∨
    s.pending = [] ∧ (∀ msg ∈ (messages P chunk).dropLast, (handle P raises msg).2 = true) ∧
      used P chunk = chunk.length

/-- The frames of the stream whose handling raises no exception are handed to the handler, each of
them once. -/
def OthersHanded (reads : List (List UInt8)) : Prop :=
  others raises (run (readFd P raises) start reads).handed =
    others raises (payloads P (messages P reads.flatten))

end

section

variable {P : Protocol} {raises : List UInt8 → Bool} {pending chunk : List UInt8}
  {reads : List (List UInt8)}

/-- What is kept from a read has no complete frame. -/
theorem frames_of_rest (hrest : pending = [] ∨ scan P pending = .notEnough 0) :
    messages P pending = [] ∧ used P pending = 0 := by
  rcases hrest with rfl | hscan
  · have hscan : scan P [] = .notFound := scan_notFound_iff.2 indexStart_nil
    exact ⟨messages_of_notFound hscan, used_of_notFound hscan⟩
  · exact ⟨messages_of_notEnough hscan, used_of_notEnough hscan⟩

theorem inputParse_of_raises (h : (handleAll P raises (messages P pending)).2 = false) :
    inputParse P raises pending = ((handleAll P raises (messages P pending)).1, none) := by
  have hparse : parse P raises pending = ((handleAll P raises (messages P pending)).1, none) := by
    rw [parse_eq, h]
    rfl
  rw [inputParse]
  split <;> simp_all

/-- One call of the parser is enough if what it leaves does not fill the buffer. -/
theorem inputParse_of_goesOn (hP : Stable P)
    (h : (handleAll P raises (messages P pending)).2 = true)
    (hfull : (pending.drop (used P pending)).length < bufferLen) :
    inputParse P raises pending =
      ((handleAll P raises (messages P pending)).1, some (pending.drop (used P pending))) := by
  have hparse : ∀ pending, (handleAll P raises (messages P pending)).2 = true →
      parse P raises pending =
        ((handleAll P raises (messages P pending)).1, some (used P pending)) := by
    intro pending h
    rw [parse_eq, h]
    rfl
  have hstop : ∀ rest : List UInt8, rest = [] ∨ scan P rest = .notEnough 0 →
      rest.length < bufferLen → inputParse P raises rest = ([], some rest) := by
    intro rest hrest hlt
    obtain ⟨hmessages, hused⟩ := frames_of_rest hrest
    have hrestParse := hparse rest (by rw [hmessages]; rfl)
    rw [hmessages, hused] at hrestParse
    have hne := Nat.ne_of_lt hlt
    rw [inputParse]
    split
    · simp_all
    · rename_i heq
      rw [hrestParse, Prod.mk.injEq, Option.some.injEq] at heq
      obtain ⟨rfl, rfl⟩ := heq
      rw [dif_neg (Nat.lt_irrefl 0), dif_neg hne]
      rfl
  have hrest := scan_rest hP pending
  rw [inputParse]
  split
  · simp_all
  · rename_i heq
    rw [hparse pending h, Prod.mk.injEq, Option.some.injEq] at heq
    obtain ⟨rfl, rfl⟩ := heq
    by_cases hpos : used P pending > 0
    · rw [dif_pos hpos, hstop _ hrest hfull]
      simp
    · have hzero : used P pending = 0 := Nat.eq_zero_of_not_pos hpos
      rw [hzero, List.drop_zero] at hfull ⊢
      rw [dif_neg (Nat.lt_irrefl 0), dif_neg (Nat.ne_of_lt hfull)]

/-- A read as it should be: the bytes that are not used are kept, and the other frames are
handed on. -/
theorem readFd_of_ok (hP : Stable P) {s : State} (hne : chunk ≠ []) (hok : ReadOk P raises s chunk)
    (hfull : ((s.pending ++ chunk).drop (used P (s.pending ++ chunk))).length < bufferLen) :
    (readFd P raises s chunk).pending =
        (s.pending ++ chunk).drop (used P (s.pending ++ chunk)) ∧
      others raises (readFd P raises s chunk).handed =
        others raises s.handed ++ others raises (payloads P (messages P (s.pending ++ chunk))) := by
  have hsplit : ∀ handed, others raises (s.handed ++ handed) =
      others raises s.handed ++ others raises handed := fun _ => List.filter_append _ _
  rw [readFd, if_neg hne]
  rcases hok with hgoesOn | ⟨hpending, hgoesOn, hused⟩
  · have hall := handleAll_of_goesOn hgoesOn
    rw [inputParse_of_goesOn hP (by rw [hall]) hfull, hall]
    exact ⟨rfl, hsplit _⟩
  · rw [hpending, List.nil_append] at hfull ⊢
    have hall : others raises (handleAll P raises (messages P chunk)).1 =
        others raises (payloads P (messages P chunk)) := by
      rcases List.eq_nil_or_concat (messages P chunk) with hnil | ⟨msgs, msg, hmsgs⟩
      · rw [hnil]
        rfl
      · rw [hmsgs, List.concat_eq_append, List.dropLast_concat] at hgoesOn
        rw [hmsgs, List.concat_eq_append]
        exact (handleAll_concat hgoesOn).1
    cases hlast : (handleAll P raises (messages P chunk)).2 with
    | false =>
        rw [inputParse_of_raises hlast]
        refine ⟨?_, ?_⟩
        · rw [hused, List.drop_length]
        · rw [hsplit, hall]
    | true =>
        rw [inputParse_of_goesOn hP hlast hfull]
        refine ⟨rfl, ?_⟩
        rw [hsplit, hall]

/-- The reads of a stream, from any bytes left by a former read. -/
theorem others_run (hP : Stable P) (hkeep : ∀ a b, KeepsStart P (givenUp P a) b) {s : State}
    (hrest : s.pending = [] ∨ scan P s.pending = .notEnough 0)
    (hfits : FitsBuffer P (s.pending ++ reads.flatten))
    (hok : RunOk (readFd P raises) (ReadOk P raises) s reads) :
    others raises (run (readFd P raises) s reads).handed =
      others raises s.handed ++
        others raises (payloads P (messages P (s.pending ++ reads.flatten))) := by
  induction reads generalizing s with
  | nil =>
      rw [List.flatten_nil, List.append_nil, (frames_of_rest hrest).1]
      exact (List.append_nil _).symm
  | cons chunk reads ih =>
      obtain ⟨hread, hok⟩ := hok
      by_cases hne : chunk = []
      · have hsame : readFd P raises s chunk = s := if_pos hne
        rw [hsame] at hok
        rw [hne, List.flatten_cons, List.nil_append] at hfits ⊢
        rw [run_cons, ← hne, hsame]
        exact ih hrest hfits hok
      · rw [List.flatten_cons, ← List.append_assoc] at hfits ⊢
        have hrest' := scan_rest hP (s.pending ++ chunk)
        have hfits' := hfits.drop_used hP (hkeep _ _)
        obtain ⟨hpending, hhanded⟩ :=
          readFd_of_ok hP hne hread (rest_lt_bufferLen hP hrest' hfits')
        obtain ⟨hmessages, -⟩ := frames_append hP (s.pending ++ chunk) reads.flatten (hkeep _ _)
        have htail := ih (hpending ▸ hrest') (hpending ▸ hfits') hok
        rw [run_cons, htail, hhanded, hpending, hmessages, List.append_assoc]
        have hpayloads : ∀ a b, others raises (payloads P (a ++ b)) =
            others raises (payloads P a) ++ others raises (payloads P b) := by
          intro a b
          rw [payloads, List.flatMap_append]
          exact List.filter_append _ _
        rw [hpayloads]

theorem othersHanded_of_ok (hP : Stable P) (hkeep : ∀ a b, KeepsStart P (givenUp P a) b)
    (hfits : FitsBuffer P reads.flatten)
    (hok : RunOk (readFd P raises) (ReadOk P raises) start reads) :
    OthersHanded P raises reads :=
  others_run hP hkeep (Or.inl rfl) hfits hok

end

end Paparazzi.Link.Handler
