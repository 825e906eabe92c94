import Mathlib.Data.List.Nodup
import Mathlib.Logic.Function.Basic
import Mathlib.Tactic.SplitIfs
import Paparazzi.Library.Imperative
import Paparazzi.Library.Machine

/-!
The link combiner of the ground segment: the messages of several links are forwarded once, with
a circular buffer of the last messages for each link.
-/

namespace Paparazzi.Link.LinkCombiner

open Paparazzi.Library.EntryLoop
open Paparazzi.Library.Machine

/-! ### The circular buffer -/

/-- `Circular_Buffer`: the cells below `size`, and where the next message goes. -/
structure CircularBuffer where
  size : Nat
  buffer : Nat → String
  index : Nat
  index_lt : index < size

namespace CircularBuffer

def new (size : Nat) (h : 0 < size) : CircularBuffer where
  size := size
  buffer := fun _ => ""
  index := 0
  index_lt := h

/-- The index after `incr`. -/
def incr (b : CircularBuffer) : Nat := if b.index ≥ b.size - 1 then 0 else b.index + 1

def add (contents : String) (b : CircularBuffer) : CircularBuffer where
  size := b.size
  buffer := Function.update b.buffer b.index contents
  index := b.incr
  index_lt := by
    have hlt := b.index_lt
    unfold incr
    split_ifs <;> omega

/-- The cells in the order in which the loops come to them: from the index down to 0, then from
the end down to the index. -/
def counters (b : CircularBuffer) : List Nat :=
  (List.range (b.index + 1)).reverse ++
    (List.range' (b.index + 1) (b.size - (b.index + 1))).reverse

def contains (contents : String) (b : CircularBuffer) : Bool :=
  b.counters.any fun counter => b.buffer counter = contents

/-- One turn of the loop of `remove`. -/
def clear (contents : String) (buffer : Nat → String) (counter : Nat) : Nat → String :=
  if buffer counter = contents then Function.update buffer counter "" else buffer

def remove (contents : String) (b : CircularBuffer) : CircularBuffer :=
  { b with buffer := b.counters.foldl (clear contents) b.buffer }

/-! The messages of a buffer by their age. -/

/-- The cell of the message of age `p`. -/
def cell (b : CircularBuffer) (p : Nat) : Nat := (b.index + (b.size - 1 - p)) % b.size

/-- The message that was added before `p` others. -/
def recent (b : CircularBuffer) (p : Nat) : String := b.buffer (b.cell p)

variable {b : CircularBuffer} {x y : String}

theorem size_pos (b : CircularBuffer) : 0 < b.size := Nat.zero_lt_of_lt b.index_lt

theorem cell_lt (p : Nat) : b.cell p < b.size := Nat.mod_lt _ b.size_pos

theorem mem_counters {c : Nat} : c ∈ b.counters ↔ c < b.size := by
  have hlt := b.index_lt
  simp only [counters, List.mem_append, List.mem_reverse, List.mem_range, List.mem_range'_1]
  omega

theorem nodup_counters : b.counters.Nodup := by
  refine List.nodup_append.2 ⟨List.nodup_reverse.2 List.nodup_range,
    List.nodup_reverse.2 List.nodup_range', ?_⟩
  intro c hc c' hc'
  simp only [List.mem_reverse, List.mem_range, List.mem_range'_1] at hc hc'
  omega

/-- The cell of a message, and the message of a cell. -/
theorem cell_cell {c : Nat} (hc : c < b.size) :
    ∃ p < b.size, b.cell p = c := by
  have hlt := b.index_lt
  unfold cell
  by_cases h : c < b.index
  · refine ⟨b.index - 1 - c, by omega, ?_⟩
    rw [show b.index + (b.size - 1 - (b.index - 1 - c)) = c + b.size by omega,
      Nat.add_mod_right, Nat.mod_eq_of_lt hc]
  · refine ⟨b.index + b.size - 1 - c, by omega, ?_⟩
    rw [show b.index + (b.size - 1 - (b.index + b.size - 1 - c)) = c by omega,
      Nat.mod_eq_of_lt hc]

theorem contains_iff : b.contains x = true ↔ ∃ p < b.size, b.recent p = x := by
  simp only [contains, List.any_eq_true, decide_eq_true_eq, mem_counters]
  constructor
  · rintro ⟨c, hc, hx⟩
    obtain ⟨p, hp, rfl⟩ := b.cell_cell hc
    exact ⟨p, hp, hx⟩
  · rintro ⟨p, -, hx⟩
    exact ⟨b.cell p, cell_lt p, hx⟩

theorem incr_eq (b : CircularBuffer) : b.incr = (b.index + 1) % b.size := by
  have hlt := b.index_lt
  unfold incr
  split_ifs with h
  · rw [show b.index + 1 = b.size by omega, Nat.mod_self]
  · rw [Nat.mod_eq_of_lt (by omega)]

theorem cell_add_zero : (b.add x).cell 0 = b.index := by
  have hlt := b.index_lt
  change (b.incr + (b.size - 1 - 0)) % b.size = b.index
  rw [incr_eq, Nat.mod_add_mod, show b.index + 1 + (b.size - 1 - 0) = b.index + b.size by omega,
    Nat.add_mod_right, Nat.mod_eq_of_lt hlt]

theorem cell_add_succ {p : Nat} (hp : p + 1 < b.size) : (b.add x).cell (p + 1) = b.cell p := by
  change (b.incr + (b.size - 1 - (p + 1))) % b.size = (b.index + (b.size - 1 - p)) % b.size
  rw [incr_eq, Nat.mod_add_mod,
    show b.index + 1 + (b.size - 1 - (p + 1)) = b.index + (b.size - 1 - p) by omega]

theorem recent_add_zero : (b.add x).recent 0 = x := by
  rw [recent, cell_add_zero]
  exact Function.update_self _ _ _

theorem recent_add_succ {p : Nat} (hp : p + 1 < b.size) :
    (b.add x).recent (p + 1) = b.recent p := by
  have hne : b.cell p ≠ b.index := by
    have hlt := b.index_lt
    intro heq
    rw [cell] at heq
    by_cases h : b.index + (b.size - 1 - p) < b.size
    · rw [Nat.mod_eq_of_lt h] at heq
      omega
    · rw [Nat.mod_eq_sub_mod (by omega), Nat.mod_eq_of_lt (by omega)] at heq
      omega
  rw [recent, cell_add_succ hp]
  exact Function.update_of_ne hne _ _

theorem recent_remove (p : Nat) :
    (b.remove x).recent p = if b.recent p = x then "" else b.recent p := by
  have hself : ∀ (buffer : Nat → String) (c : Nat),
      clear x buffer c c = if buffer c = x then "" else buffer c := by
    intro buffer c
    unfold clear
    split_ifs with h
    · exact Function.update_self _ _ _
    · rfl
  have hother : ∀ (buffer : Nat → String) (c c' : Nat), c' ≠ c → clear x buffer c c' = buffer c' := by
    intro buffer c c' hne
    unfold clear
    split_ifs
    · exact Function.update_of_ne hne _ _
    · rfl
  exact @foldl_of_mem _ _ _ (fun buffer c => buffer c) (clear x)
    (fun _ y => if y = x then "" else y) hself hother _ nodup_counters _
    (mem_counters.2 (cell_lt p)) b.buffer

end CircularBuffer

/-! ### The combiner -/

/-- A message on a link. The pattern of the subscription lets no empty text through. -/
structure Message (Name : Type) where
  linkName : Name
  message : String
  message_ne : message ≠ ""

/-- The command line. -/
structure Config where
  bufferSize : Nat
  bufferSize_pos : 0 < bufferSize

/-- `Link_Combiner`: the names of the links so far and their buffers, with the messages sent on
the bus. -/
structure Combiner (Name : Type) where
  names : List Name
  buffer : Name → CircularBuffer
  sent : List String

section

variable {Name : Type} [DecidableEq Name] (cfg : Config)

def start : Combiner Name where
  names := []
  buffer := fun _ => .new cfg.bufferSize cfg.bufferSize_pos
  sent := []

/-- A link that is new gets an empty buffer. -/
def addLink (name : Name) (s : Combiner Name) : Combiner Name :=
  if name ∈ s.names then s
  else
    { s with
      names := s.names ++ [name]
      buffer := Function.update s.buffer name (.new cfg.bufferSize cfg.bufferSize_pos) }

/-- `checkBuffers`: the best guess at whether the message is a duplicate. A message that the link
itself has buffered counts as new, and is removed from all buffers. -/
def checkBuffers (m : Message Name) (s : Combiner Name) : Bool × Combiner Name :=
  if (s.buffer m.linkName).contains m.message then
    (false,
      { s with
        buffer := fun name =>
          if name ∈ s.names then (s.buffer name).remove m.message else s.buffer name })
  else (s.names.any fun name => name ≠ m.linkName ∧ (s.buffer name).contains m.message, s)

def sendMessage (m : Message Name) (s : Combiner Name) : Combiner Name :=
  let (inBuffer, s) := checkBuffers m s
  if inBuffer then s else { s with sent := s.sent ++ [m.message] }

def bufferMessage (m : Message Name) (s : Combiner Name) : Combiner Name :=
  { s with buffer := Function.update s.buffer m.linkName ((s.buffer m.linkName).add m.message) }

def onIvyMessage (s : Combiner Name) (m : Message Name) : Combiner Name :=
  bufferMessage m (sendMessage m (addLink cfg m.linkName s))

/-- The message is sent on. -/
def forwards (s : Combiner Name) (m : Message Name) : Bool :=
  !(checkBuffers m (addLink cfg m.linkName s)).1

/-! What one message changes. -/

variable {cfg} {s : Combiner Name} {m : Message Name} {name link : Name}

theorem mem_addLink : link ∈ (addLink cfg name s).names ↔ link ∈ s.names ∨ link = name := by
  unfold addLink
  split_ifs with hmem
  · exact ⟨Or.inl, fun h => h.elim id fun heq => heq ▸ hmem⟩
  · rw [List.mem_append, List.mem_singleton]

theorem sent_addLink : (addLink cfg name s).sent = s.sent := by
  unfold addLink
  split_ifs <;> rfl

theorem names_checkBuffers : (checkBuffers m s).2.names = s.names := by
  unfold checkBuffers
  split_ifs <;> rfl

theorem sent_checkBuffers : (checkBuffers m s).2.sent = s.sent := by
  unfold checkBuffers
  split_ifs <;> rfl

theorem buffer_checkBuffers :
    (checkBuffers m s).2.buffer link =
      if (s.buffer m.linkName).contains m.message = true ∧ link ∈ s.names then
        (s.buffer link).remove m.message
      else s.buffer link := by
  unfold checkBuffers
  by_cases hown : (s.buffer m.linkName).contains m.message = true
  · simp [hown]
  · simp [hown]

theorem names_sendMessage : (sendMessage m s).names = s.names := by
  rw [← @names_checkBuffers _ _ s m, sendMessage]
  dsimp only
  split_ifs <;> rfl

theorem buffer_sendMessage :
    (sendMessage m s).buffer link =
      if (s.buffer m.linkName).contains m.message = true ∧ link ∈ s.names then
        (s.buffer link).remove m.message
      else s.buffer link := by
  rw [← buffer_checkBuffers, sendMessage]
  dsimp only
  split_ifs <;> rfl

theorem sent_sendMessage :
    (sendMessage m s).sent =
      if (checkBuffers m s).1 then s.sent else s.sent ++ [m.message] := by
  rw [← @sent_checkBuffers _ _ s m, sendMessage]
  dsimp only
  split_ifs <;> rfl

theorem names_onIvyMessage :
    link ∈ (onIvyMessage cfg s m).names ↔ link ∈ s.names ∨ link = m.linkName := by
  change link ∈ (sendMessage m (addLink cfg m.linkName s)).names ↔ _
  rw [names_sendMessage, mem_addLink]

theorem sent_onIvyMessage :
    (onIvyMessage cfg s m).sent = if forwards cfg s m then s.sent ++ [m.message] else s.sent := by
  change (sendMessage m (addLink cfg m.linkName s)).sent = _
  rw [sent_sendMessage, sent_addLink, forwards]
  cases (checkBuffers m (addLink cfg m.linkName s)).1 with
  | true => rfl
  | false => rfl

end

end Paparazzi.Link.LinkCombiner
