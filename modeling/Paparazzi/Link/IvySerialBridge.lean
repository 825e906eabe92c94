import Mathlib.Data.Nat.Basic
import Mathlib.Order.Basic
import Mathlib.Tactic.SplitIfs
import Paparazzi.Library.Bytes
import Paparazzi.Library.Machine

/-!
The receiver of `ivy_serial_bridge.c`: `read_port` fills a buffer of one record, looks for the
header only when it is full, and forwards it to the bus with `send_ivy`.
-/

namespace Paparazzi.Link.IvySerialBridge

open Paparazzi.Library
open Paparazzi.Library.Machine

/-- The size of the packed `_uav_type_`. -/
def recordSize : Nat := 34

/-- The character `@`. -/
def header : UInt8 := 0x40

structure State where
  /-- The first `counter` bytes of `buf_rx`. -/
  rx : List UInt8
  /-- What the serial port has not yet been asked for. -/
  port : List UInt8
  rxBytes : Nat
  rxError : Nat
  /-- `remote_uav` at every call of `send_ivy`. -/
  sent : List (List UInt8)
  deriving DecidableEq, Repr

def init (port : List UInt8) : State where
  rx := []
  port := port
  rxBytes := 0
  rxError := 0
  sent := []

/-- The sum of all bytes but the footer. -/
def crc (buf : List UInt8) : UInt8 := Checksum.sum 0 (buf.take (recordSize - 1))

/-- What `read` returns when `size` bytes are there. -/
def bytesRead (s : State) (size : Nat) : List UInt8 :=
  s.port.take (min size (recordSize - s.rx.length))

def received (s : State) (size : Nat) : State :=
  let bytes := bytesRead s size
  { s with
    rx := s.rx ++ bytes
    port := s.port.drop bytes.length
    rxBytes := s.rxBytes + bytes.length }

/-- What `read_port` does when the buffer is full. -/
def takeRecord (s : State) : State :=
  if s.rx.head? ≠ some header then
    let head := s.rx.findIdx (· == header)
    if head < recordSize then { s with rx := s.rx.drop head }
    else { s with rx := s.rx.drop head, rxError := s.rxError + 1 }
  else
    -- a wrong sum is only counted
    { s with
      rxError := if s.rx[recordSize - 1]? ≠ some (crc s.rx) then s.rxError + 1 else s.rxError
      rx := s.rx.drop recordSize
      sent := s.sent ++ [s.rx] }

def readPort (s : State) (size : Nat) : State :=
  if bytesRead s size = [] then s
  else if recordSize ≤ (received s size).rx.length then takeRecord (received s size)
  else received s size

/-! ### What is asked -/

structure IsRecord (buf : List UInt8) : Prop where
  length_eq : buf.length = recordSize
  head_eq : buf.head? = some header
  footer_eq : buf[recordSize - 1]? = some (crc buf)

/-- A record and the bytes between the previous one and it. -/
structure Item where
  noise : List UInt8
  record : List UInt8
  header_notMem : header ∉ noise
  isRecord : IsRecord record

def Item.bytes (item : Item) : List UInt8 := item.noise ++ item.record

/-- From a point between two records on, the records that come next are forwarded, each once and in
this order. -/
def Forwards (s : State) : Prop :=
  s.rx = [] → ∀ (items : List Item) (rest : List UInt8),
    s.port = items.flatMap Item.bytes ++ rest → ∀ sizes,
      let s' := run readPort s sizes
      (s'.port.length ≤ rest.length → s.sent ++ items.map Item.record <+: s'.sent) ∧
        (s'.port = rest → s'.sent = s.sent ++ items.map Item.record) ∧
        ((items.flatMap Item.bytes).length ≤ sizes.countP (0 < ·) →
          s'.port.length ≤ rest.length)

def SendsRecords (s : State) : Prop := ∀ buf ∈ s.sent, IsRecord buf

def Right (port : List UInt8) (sizes : List Nat) : Prop :=
  let s := run readPort (init port) sizes
  SendsRecords s ∧ Forwards s

/-- Where the bytes read fill the buffer and `@` stands first, the sum is right. -/
def SumRight (s : State) (size : Nat) : Prop :=
  (received s size).rx.length = recordSize → (received s size).rx.head? = some header →
    (received s size).rx[recordSize - 1]? = some (crc (received s size).rx)

/-! ### One read -/

theorem length_received_le {s : State} (h : s.rx.length < recordSize) (size : Nat) :
    (received s size).rx.length ≤ recordSize := by
  simp only [received, bytesRead, List.length_append, List.length_take]
  omega

/-- Bytes are moved from the port to the buffer. -/
theorem received_bytes (s : State) (size : Nat) :
    (received s size).rx ++ (received s size).port = s.rx ++ s.port := by
  have hsplit : bytesRead s size ++ s.port.drop (bytesRead s size).length = s.port := by
    rw [bytesRead, List.length_take]
    rcases Nat.le_total (min size (recordSize - s.rx.length)) s.port.length with h | h
    · rw [Nat.min_eq_left h, List.take_append_drop]
    · rw [Nat.min_eq_right h, List.take_of_length_le h, List.drop_length, List.append_nil]
  simp only [received, List.append_assoc]
  rw [hsplit]

theorem received_of_nil {s : State} {size : Nat} (h : bytesRead s size = []) :
    received s size = s := by
  simp [received, h]

/-- A read leaves the buffer as it is or fills it in part, moves a header to the front, or sends. -/
theorem readPort_cases {s : State} (h : s.rx.length < recordSize) (size : Nat) :
    ((received s size).rx.length < recordSize ∧ readPort s size = received s size) ∨
    ((received s size).rx.length = recordSize ∧ (received s size).rx.head? ≠ some header ∧
      (readPort s size).rx =
        (received s size).rx.drop ((received s size).rx.findIdx (· == header)) ∧
      (readPort s size).port = (received s size).port ∧ (readPort s size).sent = s.sent) ∨
    ((received s size).rx.length = recordSize ∧ (received s size).rx.head? = some header ∧
      (readPort s size).rx = [] ∧ (readPort s size).port = (received s size).port ∧
      (readPort s size).sent = s.sent ++ [(received s size).rx]) := by
  have hle := length_received_le h size
  rcases eq_or_ne (bytesRead s size) [] with hnil | hsome
  · left
    rw [readPort, if_pos hnil, received_of_nil hnil]
    exact ⟨h, rfl⟩
  rcases Nat.lt_or_eq_of_le hle with hlt | hfull
  · left
    rw [readPort, if_neg hsome, if_neg (Nat.not_le.mpr hlt)]
    exact ⟨hlt, rfl⟩
  · right
    rw [readPort, if_neg hsome, if_pos hfull.ge, takeRecord]
    rcases eq_or_ne (received s size).rx.head? (some header) with hhead | hhead
    · right
      rw [if_neg (not_not.mpr hhead)]
      exact ⟨hfull, hhead, List.drop_of_length_le hfull.le, rfl, rfl⟩
    · left
      rw [if_pos hhead]
      dsimp only
      split_ifs <;> exact ⟨hfull, hhead, rfl, rfl, rfl⟩

/-- A header that is not first is moved. -/
theorem findIdx_pos {buf : List UInt8} (hne : buf ≠ []) (h : buf.head? ≠ some header) :
    0 < buf.findIdx (· == header) := by
  cases buf with
  | nil => exact absurd rfl hne
  | cons b buf =>
      have hb : (b == header) = false := beq_eq_false_iff_ne.mpr fun heq => h (congrArg some heq)
      rw [List.findIdx_cons, hb]
      exact Nat.succ_pos _

theorem length_rx_lt {s : State} (h : s.rx.length < recordSize) (size : Nat) :
    (readPort s size).rx.length < recordSize := by
  rcases readPort_cases h size with ⟨hlt, heq⟩ | ⟨hfull, hhead, hrx, -⟩ | ⟨-, -, hrx, -⟩
  · rwa [heq]
  · have hpos := findIdx_pos (List.ne_nil_of_length_eq_add_one hfull) hhead
    rw [hrx, List.length_drop, hfull]
    exact Nat.sub_lt (by decide) hpos
  · rw [hrx]
    decide

theorem port_readPort {s : State} (h : s.rx.length < recordSize) (size : Nat) :
    (readPort s size).port = (received s size).port := by
  rcases readPort_cases h size with ⟨-, heq⟩ | ⟨-, -, -, hport, -⟩ | ⟨-, -, -, hport, -⟩
  · rw [heq]
  · exact hport
  · exact hport

/-- What has been sent stays so. -/
theorem sent_isPrefix {s : State} (h : s.rx.length < recordSize) (size : Nat) :
    s.sent <+: (readPort s size).sent := by
  rcases readPort_cases h size with ⟨-, heq⟩ | ⟨-, -, -, -, hsent⟩ | ⟨-, -, -, -, hsent⟩
  · rw [heq]
    exact List.prefix_rfl
  · exact ⟨[], by rw [hsent, List.append_nil]⟩
  · rw [hsent]
    exact List.prefix_append _ _

theorem sent_isPrefix_run {s : State} (h : s.rx.length < recordSize) (sizes : List Nat) :
    s.sent <+: (run readPort s sizes).sent := by
  induction sizes generalizing s with
  | nil => exact List.prefix_rfl
  | cons size sizes ih => exact (sent_isPrefix h size).trans (ih (length_rx_lt h size))

/-! ### Only records are sent -/

theorem sendsRecords_step_iff {s : State} (h : s.rx.length < recordSize) (hs : SendsRecords s)
    (size : Nat) : SendsRecords (readPort s size) ↔ SumRight s size := by
  rcases readPort_cases h size with
    ⟨hlt, heq⟩ | ⟨-, hhead, -, -, hsent⟩ | ⟨hfull, hhead, -, -, hsent⟩
  · refine iff_of_true ?_ fun hfull => absurd hfull hlt.ne
    rw [heq]
    exact hs
  · refine iff_of_true ?_ fun _ hhead' => absurd hhead' hhead
    rw [SendsRecords, hsent]
    exact hs
  · rw [SendsRecords, hsent, SumRight]
    constructor
    · intro hall hfull hhead
      exact (hall _ (List.mem_append_right _ (List.mem_singleton_self _))).footer_eq
    · intro hsum buf hbuf
      rcases List.mem_append.mp hbuf with hold | hnew
      · exact hs buf hold
      · rw [List.mem_singleton.mp hnew]
        exact ⟨hfull, hhead, hsum hfull hhead⟩

/-- Only records are sent in a run if and only if no full buffer has a wrong sum. -/
theorem sendsRecords_run_iff {s : State} (h : s.rx.length < recordSize) (hs : SendsRecords s)
    (sizes : List Nat) :
    SendsRecords (run readPort s sizes) ↔ RunOk readPort SumRight s sizes := by
  induction sizes generalizing s with
  | nil => exact iff_of_true hs trivial
  | cons size sizes ih =>
      have hlt := length_rx_lt h size
      have hstep := sendsRecords_step_iff h hs size
      constructor
      · intro hall
        have hnext : SendsRecords (readPort s size) := fun buf hbuf =>
          hall buf ((sent_isPrefix_run hlt sizes).subset hbuf)
        exact ⟨hstep.mp hnext, (ih hlt hnext).mp hall⟩
      · rintro ⟨hsum, hrest⟩
        exact (ih hlt (hstep.mpr hsum)).mpr hrest

/-! ### Every record is sent -/

/-- The items of `ahead` are what comes next, in the buffer or at the port, and `target` will have
been sent with their records. -/
structure Awaits (target : List (List UInt8)) (ahead : List Item) (rest : List UInt8)
    (s : State) : Prop where
  bytes_eq : s.rx ++ s.port = ahead.flatMap Item.bytes ++ rest
  length_lt : s.rx.length < recordSize
  sent_eq : s.sent ++ ahead.map Item.record = target
  rx_nil : ahead = [] → s.rx = []

/-- Bytes behind the target were read. -/
def Past (target : List (List UInt8)) (rest : List UInt8) (s : State) : Prop :=
  s.rx.length < recordSize ∧ target <+: s.sent ∧ s.port.length < rest.length

/-- An item with noise that was thrown away in part. -/
def Item.skip (item : Item) (n : Nat) : Item where
  noise := item.noise.drop n
  record := item.record
  header_notMem hmem := item.header_notMem (List.mem_of_mem_drop hmem)
  isRecord := item.isRecord

theorem Item.length_bytes (item : Item) :
    item.bytes.length = item.noise.length + recordSize := by
  rw [Item.bytes, List.length_append, item.isRecord.length_eq]

/-- A full buffer is the front of the next item. -/
theorem rx_eq_take {item : Item} {rx port more : List UInt8} (hfull : rx.length = recordSize)
    (hbytes : rx ++ port = item.bytes ++ more) : rx = item.bytes.take recordSize := by
  have htake := congrArg (List.take recordSize) hbytes
  have hle : recordSize ≤ item.bytes.length := by
    rw [item.length_bytes]
    exact Nat.le_add_left _ _
  rwa [List.take_append_of_le_length hfull.ge, List.take_of_length_le hfull.le,
    List.take_append_of_le_length hle] at htake

/-- The search for the header stops at the record. -/
theorem findIdx_le_length_noise {item : Item} {rx : List UInt8}
    (hrx : rx = item.bytes.take recordSize) :
    rx.findIdx (· == header) ≤ item.noise.length := by
  rcases Nat.lt_or_ge item.noise.length recordSize with hlt | hge
  · have hget : rx[item.noise.length]? = some header := by
      rw [hrx, List.getElem?_take_of_lt hlt, Item.bytes, List.getElem?_append_right (Nat.le_refl _),
        Nat.sub_self, ← List.head?_eq_getElem?]
      exact item.isRecord.head_eq
    obtain ⟨hbound, hat⟩ := List.getElem?_eq_some_iff.mp hget
    apply Nat.le_of_not_lt
    intro hnot
    have hfalse := List.not_of_lt_findIdx hnot
    rw [hat] at hfalse
    exact absurd hfalse (by decide)
  · calc
      rx.findIdx (· == header) ≤ rx.length := List.findIdx_le_length
      _ ≤ recordSize := by
        rw [hrx]
        exact List.length_take_le _ _
      _ ≤ item.noise.length := hge

/-- A header first in a full buffer is that of the record. -/
theorem noise_eq_nil {item : Item} {rx : List UInt8} (hrx : rx = item.bytes.take recordSize)
    (hhead : rx.head? = some header) : item.noise = [] := by
  obtain ⟨noise, record, hnot, hrecord⟩ := item
  cases noise with
  | nil => rfl
  | cons b noise =>
      rw [hrx] at hhead
      exact absurd (Option.some.inj hhead ▸ List.mem_cons_self) hnot

theorem Awaits.step {target : List (List UInt8)} {item : Item} {ahead : List Item}
    {rest : List UInt8} {s : State} (h : Awaits target (item :: ahead) rest s) (size : Nat) :
    ∃ ahead', Awaits target ahead' rest (readPort s size) := by
  have hbytes : (received s size).rx ++ (received s size).port =
      item.bytes ++ (ahead.flatMap Item.bytes ++ rest) := by
    rw [received_bytes, h.bytes_eq, List.flatMap_cons, List.append_assoc]
  rcases readPort_cases h.length_lt size with
    ⟨hlt, heq⟩ | ⟨hfull, hhead, hrx, hport, hsent⟩ | ⟨hfull, hhead, hrx, hport, hsent⟩
  · refine ⟨item :: ahead, ?_⟩
    rw [heq]
    exact ⟨(received_bytes s size).trans h.bytes_eq, hlt, h.sent_eq, fun hnil => by cases hnil⟩
  · have hle := findIdx_le_length_noise (rx_eq_take hfull hbytes)
    refine ⟨item.skip ((received s size).rx.findIdx (· == header)) :: ahead, ?_, ?_, ?_, ?_⟩
    · rw [hrx, hport, ← List.drop_append_of_le_length List.findIdx_le_length, hbytes, Item.bytes,
        List.append_assoc, List.drop_append_of_le_length hle]
      simp only [List.flatMap_cons, Item.skip, Item.bytes, List.append_assoc]
    · exact length_rx_lt h.length_lt size
    · rw [hsent]
      exact h.sent_eq
    · intro hnil
      cases hnil
  · have htake := rx_eq_take hfull hbytes
    have hitem : item.bytes = item.record := by
      rw [Item.bytes, noise_eq_nil htake hhead, List.nil_append]
    have hrecord : (received s size).rx = item.record := by
      rw [htake, hitem]
      exact List.take_of_length_le item.isRecord.length_eq.le
    refine ⟨ahead, ?_, ?_, ?_, fun _ => hrx⟩
    · rw [hrx, hport, List.nil_append]
      rw [hrecord, hitem] at hbytes
      exact List.append_cancel_left hbytes
    · rw [hrx]
      decide
    · rw [hsent, hrecord, List.append_assoc]
      exact h.sent_eq

theorem length_port_le {s : State} (h : s.rx.length < recordSize) (size : Nat) :
    (readPort s size).port.length + (bytesRead s size).length = s.port.length := by
  rw [port_readPort h]
  simp only [received, bytesRead, List.length_drop, List.length_take]
  omega

theorem Awaits.step_nil {target : List (List UInt8)} {rest : List UInt8} {s : State}
    (h : Awaits target [] rest s) (size : Nat) :
    Awaits target [] rest (readPort s size) ∨ Past target rest (readPort s size) := by
  have hport : s.port = rest := by
    have hbytes := h.bytes_eq
    rwa [h.rx_nil rfl] at hbytes
  have hsent : s.sent = target := (List.append_nil _).symm.trans h.sent_eq
  rcases eq_or_ne (bytesRead s size) [] with hnil | hsome
  · left
    rw [readPort, if_pos hnil]
    exact h
  · right
    have hlen := length_port_le h.length_lt size
    have hpos := List.length_pos_iff.mpr hsome
    refine ⟨length_rx_lt h.length_lt size, hsent ▸ sent_isPrefix h.length_lt size, ?_⟩
    rw [← hport]
    omega

theorem Past.step {target : List (List UInt8)} {rest : List UInt8} {s : State}
    (h : Past target rest s) (size : Nat) : Past target rest (readPort s size) := by
  obtain ⟨hlt, hsent, hport⟩ := h
  have hlen := length_port_le hlt size
  exact ⟨length_rx_lt hlt size, hsent.trans (sent_isPrefix hlt size), by omega⟩

theorem awaits_or_past_run {target : List (List UInt8)} {rest : List UInt8} {s : State}
    (h : (∃ ahead, Awaits target ahead rest s) ∨ Past target rest s) (sizes : List Nat) :
    (∃ ahead, Awaits target ahead rest (run readPort s sizes)) ∨
      Past target rest (run readPort s sizes) := by
  induction sizes generalizing s with
  | nil => exact h
  | cons size sizes ih =>
      apply ih
      rcases h with ⟨ahead, hawaits⟩ | hpast
      · cases ahead with
        | nil => exact (hawaits.step_nil size).imp (fun hnext => ⟨[], hnext⟩) id
        | cons item ahead => exact Or.inl (hawaits.step size)
      · exact Or.inr (hpast.step size)

/-- While items are ahead, not all of their bytes were read. -/
theorem Awaits.length_rest_lt {target : List (List UInt8)} {item : Item} {ahead : List Item}
    {rest : List UInt8} {s : State} (h : Awaits target (item :: ahead) rest s) :
    rest.length < s.port.length := by
  have hlen := congrArg List.length h.bytes_eq
  have hlt := h.length_lt
  simp only [List.length_append, List.flatMap_cons, item.length_bytes] at hlen
  omega

/-- Every read takes a byte off the port that has some. -/
theorem length_port_run {s : State} (h : s.rx.length < recordSize) (sizes : List Nat) :
    (run readPort s sizes).port.length ≤ s.port.length - sizes.countP (0 < ·) := by
  induction sizes generalizing s with
  | nil => exact Nat.le_refl _
  | cons size sizes ih =>
      have hrest := ih (length_rx_lt h size)
      have hlen := length_port_le h size
      simp only [bytesRead, List.length_take] at hlen
      rw [run_cons, List.countP_cons]
      refine hrest.trans ?_
      split_ifs with hsize
      · have hpos := of_decide_eq_true hsize
        omega
      · omega

theorem forwards (s : State) : Forwards s := by
  intro hrx items rest hport sizes s'
  have hlt : s.rx.length < recordSize := by
    rw [hrx]
    decide
  have hstart : Awaits (s.sent ++ items.map Item.record) items rest s :=
    ⟨by rw [hrx, hport, List.nil_append], hlt, rfl, fun _ => hrx⟩
  have hend := awaits_or_past_run (Or.inl ⟨items, hstart⟩) sizes
  refine ⟨?_, ?_, ?_⟩
  · intro hread
    rcases hend with ⟨ahead, hawaits⟩ | ⟨-, hsent, -⟩
    · cases ahead with
      | nil =>
          have hsent := hawaits.sent_eq
          rw [List.map_nil, List.append_nil] at hsent
          exact ⟨[], by rw [hsent, List.append_nil]⟩
      | cons item ahead => exact absurd hread (Nat.not_le.mpr hawaits.length_rest_lt)
    · exact hsent
  · intro hread
    rcases hend with ⟨ahead, hawaits⟩ | ⟨-, -, hless⟩
    · cases ahead with
      | nil => exact (List.append_nil _).symm.trans hawaits.sent_eq
      | cons item ahead =>
          exact absurd (congrArg List.length hread) (Nat.ne_of_gt hawaits.length_rest_lt)
    · exact absurd (congrArg List.length hread) (Nat.ne_of_lt hless)
  · intro hcount
    have hlen := length_port_run hlt sizes
    rw [hport, List.length_append] at hlen
    change s'.port.length ≤ _ at hlen
    omega

/-- The bridge forwards records and nothing else if and only if no full buffer that begins with `@`
has a wrong sum. -/
theorem serialBridge_right_iff (port : List UInt8) (sizes : List Nat) :
    Right port sizes ↔ RunOk readPort SumRight (init port) sizes := by
  have hlt : (init port).rx.length < recordSize := Nat.succ_pos _
  have hinit : SendsRecords (init port) := fun buf hbuf => absurd hbuf (List.not_mem_nil)
  rw [← sendsRecords_run_iff hlt hinit sizes]
  exact and_iff_left (forwards _)

/-- A record with a wrong sum is forwarded. -/
theorem bad_sum_forwarded : ¬ Right (header :: List.replicate 33 0) [34] := by
  rintro ⟨hsends, -⟩
  have hrecord := hsends (header :: List.replicate 33 0) (by decide)
  exact absurd hrecord.footer_eq (by decide)

end Paparazzi.Link.IvySerialBridge
