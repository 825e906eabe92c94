import Mathlib.Data.List.Nodup
import Mathlib.Logic.Function.Basic

/-!
Lists in a heap of cells with `next` pointers: the list that a pointer begins, what it becomes when
one cell is changed, and a cell put in front of a list in which it is already.
-/

namespace Paparazzi.Library.LinkedList

variable {ι : Type*} {next : ι → Option ι} {head : Option ι} {l l' : List ι} {p : ι}

/-- From `head`, the pointers go through the cells of `l` and end there. -/
def Chain (next : ι → Option ι) : Option ι → List ι → Prop
  | head, [] => head = none
  | head, p :: l => head = some p ∧ Chain next (next p) l

theorem chain_none : Chain next none l ↔ l = [] := by
  cases l <;> simp [Chain]

theorem chain_some : Chain next (some p) l ↔ ∃ l', l = p :: l' ∧ Chain next (next p) l' := by
  cases l with
  | nil => simp [Chain]
  | cons q l =>
      constructor
      · rintro ⟨hq, hl⟩
        cases hq
        exact ⟨l, rfl, hl⟩
      · rintro ⟨l', heq, hl⟩
        cases heq
        exact ⟨rfl, hl⟩

theorem Chain.unique (h : Chain next head l) (h' : Chain next head l') : l = l' := by
  induction l generalizing head l' with
  | nil =>
      rw [Chain] at h
      rw [h, chain_none] at h'
      exact h'.symm
  | cons p l ih =>
      obtain ⟨rfl, hl⟩ := h
      obtain ⟨rest, rfl, hrest⟩ := chain_some.mp h'
      rw [ih hl hrest]

theorem Chain.drop {front : List ι} (h : Chain next head (front ++ p :: l)) :
    Chain next (some p) (p :: l) := by
  induction front generalizing head with
  | nil => exact ⟨rfl, h.2⟩
  | cons q front ih => exact ih h.2

/-- Pointers that end do not come back to a cell. -/
theorem Chain.nodup (h : Chain next head l) : l.Nodup := by
  induction l generalizing head with
  | nil => exact List.nodup_nil
  | cons p l ih =>
      refine List.nodup_cons.mpr ⟨fun hp => ?_, ih h.2⟩
      obtain ⟨front, rest, rfl⟩ := List.append_of_mem hp
      have hsame := congrArg List.length (h.2.unique (Chain.drop h.2).2)
      simp at hsame
      omega

variable [DecidableEq ι]

theorem Chain.update (h : Chain next head l) (hp : p ∉ l) (q : Option ι) :
    Chain (Function.update next p q) head l := by
  induction l generalizing head with
  | nil => exact h
  | cons r l ih =>
      obtain ⟨hne, hl⟩ := not_or.mp (mt List.mem_cons.mpr hp)
      refine ⟨h.1, ?_⟩
      rw [Function.update_of_ne (Ne.symm hne)]
      exact ih h.2 hl

/-- A cell that is not in the list is put in front of it. -/
theorem Chain.prepend (h : Chain next head l) (hp : p ∉ l) :
    Chain (Function.update next p head) (some p) (p :: l) := by
  refine ⟨rfl, ?_⟩
  rw [Function.update_self]
  exact h.update hp head

/-- The other lists with the cell end now like this one. -/
theorem Chain.redirect {front rest : List ι} {head' : Option ι}
    (h' : Chain next head' (front ++ p :: rest)) (h : Chain next head l) (hp : p ∉ l) :
    Chain (Function.update next p head) head' (front ++ p :: l) := by
  have hnodup := h'.nodup
  induction front generalizing head' with
  | nil =>
      rw [h'.1]
      exact h.prepend hp
  | cons q front ih =>
      rw [List.cons_append, List.nodup_cons] at hnodup
      have hne : q ≠ p := by
        rintro rfl
        exact hnodup.1 (by simp)
      refine ⟨h'.1, ?_⟩
      rw [Function.update_of_ne hne]
      exact ih h'.2 hnodup.2

/-- The pointers of a list still lead to a cell after the cell is changed. -/
theorem Chain.mem_of_update {front rest : List ι} {q : Option ι}
    (h : Chain next head (front ++ p :: rest)) (h' : Chain (Function.update next p q) head l) :
    p ∈ l := by
  induction front generalizing head l with
  | nil =>
      rw [h.1] at h'
      obtain ⟨_, rfl, -⟩ := chain_some.mp h'
      exact List.mem_cons_self
  | cons r front ih =>
      rw [h.1] at h'
      obtain ⟨l', rfl, hl'⟩ := chain_some.mp h'
      rcases eq_or_ne r p with rfl | hne
      · exact List.mem_cons_self
      · rw [Function.update_of_ne hne] at hl'
        exact List.mem_cons_of_mem r (ih h.2 hl')

/-- A cell put in front of a list in which it is already makes a ring. -/
theorem Chain.not_prepend (h : Chain next head l) (hp : p ∈ l) (l' : List ι) :
    ¬ Chain (Function.update next p head) (some p) l' := by
  intro hring
  obtain ⟨rest, rfl, hrest⟩ := chain_some.mp hring
  rw [Function.update_self] at hrest
  obtain ⟨front, back, rfl⟩ := List.append_of_mem hp
  exact (List.nodup_cons.mp hring.nodup).1 (h.mem_of_update hrest)

end Paparazzi.Library.LinkedList
