import Mathlib.Logic.Function.Basic
import Mathlib.Data.List.Basic

/-!
Ring buffers with an insert and an extract index that count modulo the size of
the buffer; one cell stays free, so that equal indices mean an empty ring.
-/

namespace Paparazzi.Library

/-- A buffer of `n` cells, of which only those below `n` are used, and its indices. -/
structure Ring (α : Type*) where
  buf : Nat → α
  insertIdx : Nat
  extractIdx : Nat

namespace Ring

variable {α : Type*} {n : Nat}

/-- The next index. -/
def next (n i : Nat) : Nat := (i + 1) % n

/-- The indices lie in the buffer. -/
structure Ok (n : Nat) (r : Ring α) : Prop where
  insert_lt : r.insertIdx < n
  extract_lt : r.extractIdx < n

/-- The number of elements. -/
def count (n : Nat) (r : Ring α) : Nat := (r.insertIdx + n - r.extractIdx) % n

/-- The elements, the oldest first. -/
def contents (n : Nat) (r : Ring α) : List α :=
  (List.range (r.count n)).map fun i => r.buf ((r.extractIdx + i) % n)

/-- Writing at the insert index, without moving it. -/
def store (r : Ring α) (x : α) : Ring α :=
  { r with buf := Function.update r.buf r.insertIdx x }

/-- Moving the insert index. -/
def advance (n : Nat) (r : Ring α) : Ring α := { r with insertIdx := next n r.insertIdx }

/-- Moving the extract index. -/
def drop (n : Nat) (r : Ring α) : Ring α := { r with extractIdx := next n r.extractIdx }

/-- The element at the extract index. -/
def head (r : Ring α) : α := r.buf r.extractIdx

variable {r : Ring α}

theorem next_lt {i : Nat} (h : 0 < n) : next n i < n := Nat.mod_lt _ h

theorem next_eq {i : Nat} (h : i < n) : next n i = if i + 1 = n then 0 else i + 1 := by
  unfold next
  split_ifs with hlast
  · rw [hlast, Nat.mod_self]
  · exact Nat.mod_eq_of_lt (by omega)

theorem count_eq (h : r.Ok n) :
    r.count n =
      if r.extractIdx ≤ r.insertIdx then r.insertIdx - r.extractIdx
      else r.insertIdx + n - r.extractIdx := by
  have hinsert := h.insert_lt
  have hextract := h.extract_lt
  unfold count
  split_ifs with hle
  · rw [show r.insertIdx + n - r.extractIdx = r.insertIdx - r.extractIdx + n by omega,
      Nat.add_mod_right]
    exact Nat.mod_eq_of_lt (by omega)
  · exact Nat.mod_eq_of_lt (by omega)

@[simp] theorem length_contents : (r.contents n).length = r.count n := by
  simp [contents]

theorem contents_eq_nil_iff (h : r.Ok n) : r.contents n = [] ↔ r.insertIdx = r.extractIdx := by
  have hinsert := h.insert_lt
  have hextract := h.extract_lt
  rw [← List.length_eq_zero_iff, length_contents, count_eq h]
  split_ifs <;> omega

/-- The ring is full where the next insert index is the extract index. -/
theorem next_eq_extract_iff (h : r.Ok n) :
    next n r.insertIdx = r.extractIdx ↔ r.count n + 1 = n := by
  have hinsert := h.insert_lt
  have hextract := h.extract_lt
  rw [next_eq hinsert, count_eq h]
  split_ifs <;> omega

theorem count_lt (h : r.Ok n) : r.count n < n := by
  have hinsert := h.insert_lt
  exact Nat.mod_lt _ (by omega)

theorem Ok.store (h : r.Ok n) (x : α) : (r.store x).Ok n := ⟨h.insert_lt, h.extract_lt⟩

theorem Ok.advance (h : r.Ok n) : (r.advance n).Ok n := by
  have hinsert := h.insert_lt
  exact ⟨next_lt (by omega), h.extract_lt⟩

theorem Ok.drop (h : r.Ok n) : (r.drop n).Ok n := by
  have hinsert := h.insert_lt
  exact ⟨h.insert_lt, next_lt (by omega)⟩

/-- The place of an element of the ring. -/
theorem place_eq (h : r.Ok n) {i : Nat} (hi : i < n) :
    (r.extractIdx + i) % n =
      if r.extractIdx + i < n then r.extractIdx + i else r.extractIdx + i - n := by
  have hextract := h.extract_lt
  split_ifs with hlt
  · exact Nat.mod_eq_of_lt hlt
  · rw [Nat.mod_eq_sub_mod (by omega)]
    exact Nat.mod_eq_of_lt (by omega)

/-- The free cell is not one of the elements. -/
theorem place_ne_insert (h : r.Ok n) {i : Nat} (hi : i < r.count n) :
    (r.extractIdx + i) % n ≠ r.insertIdx := by
  have hinsert := h.insert_lt
  have hextract := h.extract_lt
  have hcount := count_lt h
  rw [place_eq h (by omega)]
  rw [count_eq h] at hi
  split_ifs at hi ⊢ <;> omega

theorem contents_store (h : r.Ok n) (x : α) : (r.store x).contents n = r.contents n := by
  apply List.map_congr_left
  intro i hi
  have hne := place_ne_insert h (List.mem_range.mp hi)
  exact Function.update_of_ne hne _ _

theorem count_advance (h : r.Ok n) (hroom : next n r.insertIdx ≠ r.extractIdx) :
    (r.advance n).count n = r.count n + 1 := by
  have hinsert := h.insert_lt
  have hextract := h.extract_lt
  have hfull := (next_eq_extract_iff h).not.mp hroom
  rw [count_eq h.advance]
  simp only [advance, next_eq hinsert]
  rw [count_eq h] at hfull ⊢
  split_ifs at hfull ⊢ <;> omega

/-- The place of the element that comes next is the insert index. -/
theorem place_count (h : r.Ok n) : (r.extractIdx + r.count n) % n = r.insertIdx := by
  have hinsert := h.insert_lt
  have hextract := h.extract_lt
  rw [place_eq h (count_lt h)]
  rw [count_eq h]
  split_ifs <;> omega

/-- What was stored at the insert index becomes the newest element. -/
theorem contents_advance (h : r.Ok n) (hroom : next n r.insertIdx ≠ r.extractIdx) :
    (r.advance n).contents n = r.contents n ++ [r.buf r.insertIdx] := by
  have hplace := place_count h
  simp only [contents, count_advance h hroom, List.range_succ, List.map_append, List.map_cons,
    List.map_nil]
  simp only [advance, hplace]

/-- Storing an element and moving the insert index to `idx`. -/
theorem push (h : r.Ok n) {idx : Nat} (hidx : idx = next n r.insertIdx)
    (hroom : idx ≠ r.extractIdx) (x : α) :
    ({ r.store x with insertIdx := idx } : Ring α).Ok n ∧
      ({ r.store x with insertIdx := idx } : Ring α).contents n = r.contents n ++ [x] := by
  have hadvance : ({ r.store x with insertIdx := idx } : Ring α) = (r.store x).advance n := by
    rw [hidx]
    rfl
  rw [hadvance]
  refine ⟨(h.store x).advance, ?_⟩
  rw [contents_advance (h.store x) (by rw [hidx] at hroom; exact hroom), contents_store h]
  simp [store]

/-- The element at the extract index is the oldest. -/
theorem contents_eq_cons (h : r.Ok n) (hne : r.insertIdx ≠ r.extractIdx) :
    r.contents n = r.head :: (r.drop n).contents n := by
  have hinsert := h.insert_lt
  have hextract := h.extract_lt
  have hcount : r.count n = (r.drop n).count n + 1 := by
    rw [count_eq h, count_eq h.drop]
    simp only [drop, next_eq hextract]
    split_ifs <;> omega
  simp only [contents, hcount, List.range_succ_eq_map, List.map_cons, List.map_map]
  congr 1
  · rw [Nat.add_zero, Nat.mod_eq_of_lt hextract]
    rfl
  · apply List.map_congr_left
    intro i _
    simp only [Function.comp, drop, next]
    rw [Nat.mod_add_mod, Nat.succ_eq_add_one, Nat.add_right_comm, Nat.add_assoc]

/-- Extracting an element leaves room. -/
theorem room_drop (h : r.Ok n) (hne : r.insertIdx ≠ r.extractIdx) :
    next n r.insertIdx ≠ (r.drop n).extractIdx := by
  have hcount := congrArg List.length (contents_eq_cons h hne)
  have hlt := count_lt h
  simp only [List.length_cons, length_contents] at hcount
  exact (next_eq_extract_iff h.drop).not.mpr (by omega)

end Ring

end Paparazzi.Library
