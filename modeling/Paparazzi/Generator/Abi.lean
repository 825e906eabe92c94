import Mathlib
import Paparazzi.Library.LinkedList
import Paparazzi.Library.Machine

/-!
The onboard middleware: the bind and send functions that `gen_abi` prints for each message, over
the linked lists of events in `abi_queues`, and the check of the message ids.
-/

namespace Paparazzi.Generator.Abi

open Paparazzi.Library.LinkedList
open Paparazzi.Library.Machine

/-- A message of the class: its name and its number. -/
structure Message where
  name : String
  id : Int
  deriving DecidableEq, Repr

/-- `check_single_ids` with the table `tab`; `false` where it raises an exception. -/
def checkSingleIds : (Int → Bool) → List Message → Bool
  | _, [] => true
  | tab, msg :: msgs =>
      if msg.id < 0 ∨ 256 ≤ msg.id then false
      else if tab msg.id then false
      else checkSingleIds (Function.update tab msg.id true) msgs

/-- `print_message_id`: the highest number. -/
def highestId (msgs : List Message) : Int :=
  msgs.foldl (fun highest msg => if msg.id > highest then msg.id else highest) 0

/-- `ABI_MESSAGE_NB`: the size of `abi_queues`. -/
def abiMessageNb (msgs : List Message) : Int := highestId msgs + 1

def abiBroadcast : UInt8 := 0

/-- `abi_event`: a cell of a queue. -/
structure AbiEvent (ι κ : Type*) where
  id : UInt8
  cb : κ
  next : Option ι

/-- The events in memory, and `abi_queues`. -/
structure State (ι κ : Type*) where
  heap : ι → AbiEvent ι κ
  queues : Int → Option ι

/-- A call of `AbiBindMsg<name>`. -/
structure Bind (ι κ : Type*) where
  msg : Message
  senderId : UInt8
  ev : ι
  cb : κ

section

variable {ι κ : Type*} [DecidableEq ι]

def abiBindMsg (s : State ι κ) (b : Bind ι κ) : State ι κ where
  heap := Function.update s.heap b.ev ⟨b.senderId, b.cb, s.queues b.msg.id⟩
  queues := Function.update s.queues b.msg.id (some b.ev)

/-- The loop of `AbiSendMsg<name>`: the events whose callbacks are called. -/
def sendLoop (heap : ι → AbiEvent ι κ) (senderId : UInt8) : Nat → Option ι → Option (List ι)
  | _, none => some []
  | 0, some _ => none
  | fuel + 1, some e =>
      (sendLoop heap senderId fuel (heap e).next).map fun called =>
        if (heap e).id = abiBroadcast ∨ (heap e).id = senderId then e :: called else called

def abiSendMsg (fuel : Nat) (msg : Message) (senderId : UInt8) (s : State ι κ) :
    Option (List κ) :=
  (sendLoop s.heap senderId fuel (s.queues msg.id)).map fun called =>
    called.map fun e => (s.heap e).cb

/-- Before the first call. -/
def initial (heap : ι → AbiEvent ι κ) : State ι κ := ⟨heap, fun _ => none⟩

/-! ### The queues as lists -/

/-- The queue of a message as the list of its events, the newest first: an event that is bound
again takes the end of its old queue with it. -/
def bindList (queues : Int → List ι) (b : Bind ι κ) : Int → List ι := fun id =>
  if id = b.msg.id then b.ev :: queues id
  else if b.ev ∈ queues id then (queues id).takeWhile (· ≠ b.ev) ++ b.ev :: queues b.msg.id
  else queues id

def Represents (queues : Int → List ι) (s : State ι κ) : Prop :=
  ∀ id, Chain (fun e => (s.heap e).next) (s.queues id) (queues id)

/-- The event is not yet in the queue of the message. -/
def NotQueued (queues : Int → List ι) (b : Bind ι κ) : Prop := b.ev ∉ queues b.msg.id

theorem next_abiBindMsg (s : State ι κ) (b : Bind ι κ) :
    (fun e => ((abiBindMsg s b).heap e).next) =
      Function.update (fun e => (s.heap e).next) b.ev (s.queues b.msg.id) := by
  funext e
  rcases eq_or_ne e b.ev with rfl | hne
  · simp [abiBindMsg]
  · simp [abiBindMsg, hne]

theorem queues_abiBindMsg (s : State ι κ) (b : Bind ι κ) (id : Int) :
    (abiBindMsg s b).queues id = if id = b.msg.id then some b.ev else s.queues id := by
  simp only [abiBindMsg, Function.update_apply]

theorem represents_bind {queues : Int → List ι} {s : State ι κ} (h : Represents queues s)
    {b : Bind ι κ} (hb : NotQueued queues b) :
    Represents (bindList queues b) (abiBindMsg s b) := by
  intro id
  rw [next_abiBindMsg, queues_abiBindMsg]
  rcases eq_or_ne id b.msg.id with rfl | hne
  · rw [bindList, if_pos rfl, if_pos rfl]
    exact (h b.msg.id).prepend hb
  · rw [bindList, if_neg hne, if_neg hne]
    split_ifs with hmem
    · obtain ⟨front, rest, hsplit⟩ := List.append_of_mem hmem
      have hchain := h id
      rw [hsplit] at hchain
      have hnot : ∀ e ∈ front, e ≠ b.ev := by
        rintro e he rfl
        exact (List.nodup_append.mp hchain.nodup).2.2 _ he _ List.mem_cons_self rfl
      have hfront : (queues id).takeWhile (· ≠ b.ev) = front := by
        rw [hsplit, List.takeWhile_append_of_pos (by simpa using hnot)]
        simp
      rw [hfront]
      exact hchain.redirect (h b.msg.id) hb
    · exact (h id).update hmem _

omit [DecidableEq ι] in
theorem sendLoop_of_chain {heap : ι → AbiEvent ι κ} {senderId : UInt8} {head : Option ι}
    {l : List ι} (h : Chain (fun e => (heap e).next) head l) {fuel : Nat}
    (hfuel : l.length ≤ fuel) :
    sendLoop heap senderId fuel head =
      some (l.filter fun e => (heap e).id = abiBroadcast ∨ (heap e).id = senderId) := by
  induction l generalizing head fuel with
  | nil =>
      rw [h]
      cases fuel <;> rfl
  | cons e l ih =>
      rw [h.1]
      cases fuel with
      | zero => simp at hfuel
      | succ fuel =>
          rw [sendLoop, ih h.2 (by simpa using hfuel), Option.map_some, List.filter_cons]
          simp

omit [DecidableEq ι] in
/-- A loop that ends has gone through a list. -/
theorem chain_of_sendLoop {heap : ι → AbiEvent ι κ} {senderId : UInt8} {head : Option ι}
    {fuel : Nat} (h : (sendLoop heap senderId fuel head).isSome) :
    ∃ l, Chain (fun e => (heap e).next) head l := by
  induction fuel generalizing head with
  | zero =>
      cases head with
      | none => exact ⟨[], rfl⟩
      | some e => cases h
  | succ fuel ih =>
      cases head with
      | none => exact ⟨[], rfl⟩
      | some e =>
          rw [sendLoop, Option.isSome_map] at h
          obtain ⟨l, hl⟩ := ih h
          exact ⟨e :: l, rfl, hl⟩

theorem represents_run (heap : ι → AbiEvent ι κ) {binds : List (Bind ι κ)}
    (h : RunOk bindList NotQueued (fun _ => []) binds) :
    Represents (run bindList (fun _ => []) binds) (run abiBindMsg (initial heap) binds) := by
  have hstep : ∀ (s : State ι κ) (queues : Int → List ι) (b : Bind ι κ), Represents queues s →
      NotQueued queues b → Represents (bindList queues b) (abiBindMsg s b) :=
    fun _ _ _ h hb => represents_bind h hb
  refine run_simulation hstep ?_ h
  exact fun _ => rfl

/-- The events that were bound to a message number, the newest first. -/
def boundTo (binds : List (Bind ι κ)) (id : Int) : List ι :=
  ((binds.filter fun b => b.msg.id = id).map Bind.ev).reverse

theorem run_bindList_once {binds : List (Bind ι κ)} (honce : (binds.map Bind.ev).Nodup) :
    RunOk bindList NotQueued (fun _ => []) binds ∧
      run bindList (fun _ => []) binds = boundTo binds := by
  induction binds using List.reverseRecOn with
  | nil => exact ⟨trivial, rfl⟩
  | append_singleton binds b ih =>
      rw [List.map_append, List.nodup_append] at honce
      obtain ⟨hok, hrun⟩ := ih honce.1
      have hfresh (id : Int) : b.ev ∉ boundTo binds id := by
        intro hmem
        obtain ⟨b', hb', heq⟩ := List.mem_map.mp (List.mem_reverse.mp hmem)
        exact honce.2.2 b.ev (List.mem_map.mpr ⟨b', (List.mem_filter.mp hb').1, heq⟩) b.ev
          (by simp) rfl
      rw [runOk_append, run_append, hrun]
      refine ⟨⟨hok, hfresh b.msg.id, trivial⟩, ?_⟩
      funext id
      rw [run_cons, run_nil, bindList, if_neg (hfresh id)]
      rcases eq_or_ne id b.msg.id with rfl | hne
      · simp [boundTo]
      · simp [boundTo, hne, Ne.symm hne]

theorem heap_run {heap : ι → AbiEvent ι κ} {binds : List (Bind ι κ)}
    (honce : (binds.map Bind.ev).Nodup) {b : Bind ι κ} (hb : b ∈ binds) :
    ((run abiBindMsg (initial heap) binds).heap b.ev).id = b.senderId ∧
      ((run abiBindMsg (initial heap) binds).heap b.ev).cb = b.cb := by
  induction binds using List.reverseRecOn with
  | nil => cases hb
  | append_singleton binds b' ih =>
      rw [List.map_append, List.nodup_append] at honce
      rw [run_append, run_cons, run_nil]
      rcases List.mem_append.mp hb with hold | hnew
      · have hne : b.ev ≠ b'.ev := honce.2.2 b.ev (List.mem_map_of_mem hold) b'.ev (by simp)
        simp only [abiBindMsg, Function.update_of_ne hne]
        exact ih honce.1 hold
      · rw [List.mem_singleton.mp hnew]
        simp [abiBindMsg]

theorem of_checkSingleIds {tab : Int → Bool} {msgs : List Message}
    (h : checkSingleIds tab msgs = true) :
    (∀ m ∈ msgs, 0 ≤ m.id ∧ m.id < 256 ∧ tab m.id = false) ∧
      ∀ m ∈ msgs, ∀ m' ∈ msgs, m.id = m'.id → m = m' := by
  induction msgs generalizing tab with
  | nil => simp
  | cons msg msgs ih =>
      rw [checkSingleIds] at h
      split_ifs at h with hrange hused
      obtain ⟨hids, hinj⟩ := ih h
      have hother : ∀ m ∈ msgs, m.id ≠ msg.id := by
        intro m hm heq
        have hfalse := (hids m hm).2.2
        rw [heq, Function.update_self] at hfalse
        cases hfalse
      constructor
      · rw [List.forall_mem_cons]
        refine ⟨⟨by omega, by omega, Bool.eq_false_iff.mpr hused⟩, fun m hm => ?_⟩
        obtain ⟨hle, hlt, htab⟩ := hids m hm
        rw [Function.update_of_ne (hother m hm)] at htab
        exact ⟨hle, hlt, htab⟩
      · intro m hm m' hm' heq
        rcases List.mem_cons.mp hm with hfirst | hlater <;>
          rcases List.mem_cons.mp hm' with hfirst' | hlater'
        · rw [hfirst, hfirst']
        · exact absurd (heq.symm.trans (congrArg Message.id hfirst)) (hother m' hlater')
        · exact absurd (heq.trans (congrArg Message.id hfirst')) (hother m hlater)
        · exact hinj m hlater m' hlater' heq

theorem le_foldl_highest (msgs : List Message) (start : Int) :
    start ≤ msgs.foldl (fun highest msg => if msg.id > highest then msg.id else highest) start ∧
      ∀ m ∈ msgs, m.id ≤
        msgs.foldl (fun highest msg => if msg.id > highest then msg.id else highest) start := by
  induction msgs generalizing start with
  | nil => simp
  | cons msg msgs ih =>
      obtain ⟨hstart, hall⟩ := ih (if msg.id > start then msg.id else start)
      refine ⟨le_trans ?_ hstart, List.forall_mem_cons.mpr ⟨le_trans ?_ hstart, hall⟩⟩
      · split_ifs <;> omega
      · split_ifs <;> omega

/-- Messages whose numbers pass the check, and events each bound once: a message that is sent calls
the callbacks that were bound to it for its sender or for all senders, each once and the newest
first, and no other; the queue of the message is inside the array. -/
theorem abi_delivers (heap : ι → AbiEvent ι κ) (msgs : List Message)
    (hcheck : checkSingleIds (fun _ => false) msgs = true) (binds : List (Bind ι κ))
    (hmsgs : ∀ b ∈ binds, b.msg ∈ msgs) (honce : (binds.map Bind.ev).Nodup) {msg : Message}
    (hmsg : msg ∈ msgs) (senderId : UInt8) {fuel : Nat} (hfuel : binds.length ≤ fuel) :
    abiSendMsg fuel msg senderId (run abiBindMsg (initial heap) binds) =
        some ((binds.filter fun b =>
          b.msg = msg ∧ (b.senderId = abiBroadcast ∨ b.senderId = senderId)).map Bind.cb).reverse ∧
      0 ≤ msg.id ∧ msg.id < abiMessageNb msgs := by
  obtain ⟨hids, hinj⟩ := of_checkSingleIds hcheck
  refine ⟨?_, (hids msg hmsg).1, Int.lt_add_one_of_le ((le_foldl_highest msgs 0).2 msg hmsg)⟩
  obtain ⟨hok, hrun⟩ := run_bindList_once honce
  have hchain := represents_run heap hok msg.id
  rw [hrun] at hchain
  have hlength : (boundTo binds msg.id).length ≤ fuel := by
    rw [boundTo, List.length_reverse, List.length_map]
    exact le_trans (List.length_filter_le _ _) hfuel
  have hcalled : (boundTo binds msg.id).filter (fun e =>
        ((run abiBindMsg (initial heap) binds).heap e).id = abiBroadcast ∨
          ((run abiBindMsg (initial heap) binds).heap e).id = senderId) =
      ((binds.filter fun b => b.msg = msg ∧
        (b.senderId = abiBroadcast ∨ b.senderId = senderId)).map Bind.ev).reverse := by
    rw [boundTo, List.filter_reverse, List.filter_map, List.filter_filter]
    congr 2
    refine List.filter_congr fun b hb => ?_
    have hsame : b.msg.id = msg.id ↔ b.msg = msg :=
      ⟨hinj b.msg (hmsgs b hb) msg hmsg, congrArg Message.id⟩
    simp [(heap_run honce hb).1, hsame, Bool.and_comm]
  rw [abiSendMsg, sendLoop_of_chain hchain hlength, Option.map_some, hcalled, ← List.map_reverse,
    ← List.map_reverse, List.map_map]
  congr 1
  refine List.map_congr_left fun b hb => ?_
  exact (heap_run honce (List.mem_filter.mp (List.mem_reverse.mp hb)).1).2

theorem abi_delivers_baro :
    abiSendMsg 2 ⟨"BARO_ABS", 0⟩ 7
        (run abiBindMsg (initial fun _ => (⟨0, "", none⟩ : AbiEvent Bool String))
          [⟨⟨"BARO_ABS", 0⟩, 0, true, "ins_cb"⟩, ⟨⟨"BARO_ABS", 0⟩, 3, false, "other_cb"⟩]) =
      some ["ins_cb"] :=
  (abi_delivers (fun _ => (⟨0, "", none⟩ : AbiEvent Bool String))
    [⟨"BARO_ABS", 0⟩, ⟨"BARO_DIFF", 1⟩] (by decide)
    [⟨⟨"BARO_ABS", 0⟩, 0, true, "ins_cb"⟩, ⟨⟨"BARO_ABS", 0⟩, 3, false, "other_cb"⟩]
    (by simp) (by decide) (by simp) 7 (le_refl 2)).1

end

end Paparazzi.Generator.Abi
