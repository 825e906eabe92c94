import Mathlib.Data.List.Basic

/-!
Links that keep the order of what they carry but may lose an element anywhere or
deliver it again: the elements in flight, oldest first.
-/

namespace Paparazzi.Library.FifoLink

variable {α : Type*}

/-- The element at a position is lost. -/
def lose (k : Nat) (l : List α) : List α := l.eraseIdx k

/-- The element at a position will arrive twice. -/
def duplicate : Nat → List α → List α
  | _, [] => []
  | 0, x :: l => x :: x :: l
  | k + 1, x :: l => x :: duplicate k l

theorem mem_of_mem_lose {k : Nat} {l : List α} {x : α} (h : x ∈ lose k l) : x ∈ l :=
  List.mem_of_mem_eraseIdx h

theorem mem_of_mem_duplicate {k : Nat} {l : List α} {x : α} (h : x ∈ duplicate k l) : x ∈ l := by
  induction l generalizing k with
  | nil => cases k <;> exact h
  | cons y l ih =>
      cases k with
      | zero =>
          rcases List.mem_cons.mp h with rfl | h
          · exact List.mem_cons_self
          · exact h
      | succ k =>
          rcases List.mem_cons.mp h with rfl | h
          · exact List.mem_cons_self
          · exact List.mem_cons_of_mem _ (ih h)

/-- The serial numbers of the elements in flight do not decrease. -/
def InOrder (serial : α → Nat) (l : List α) : Prop :=
  l.Pairwise fun x y => serial x ≤ serial y

namespace InOrder

variable {serial : α → Nat} {l : List α}

theorem nil : InOrder serial [] := List.Pairwise.nil

theorem tail {x : α} (h : InOrder serial (x :: l)) : InOrder serial l := (List.pairwise_cons.mp h).2

theorem head_le {x : α} (h : InOrder serial (x :: l)) : ∀ y ∈ l, serial x ≤ serial y :=
  (List.pairwise_cons.mp h).1

theorem send {x : α} (h : InOrder serial l) (hx : ∀ y ∈ l, serial y ≤ serial x) :
    InOrder serial (l ++ [x]) := by
  refine List.pairwise_append.mpr ⟨h, List.pairwise_singleton _ _, ?_⟩
  intro y hy z hz
  rw [List.mem_singleton.mp hz]
  exact hx y hy

theorem lose (k : Nat) (h : InOrder serial l) : InOrder serial (FifoLink.lose k l) :=
  List.Pairwise.sublist (List.eraseIdx_sublist l k) h

theorem duplicate (k : Nat) (h : InOrder serial l) : InOrder serial (FifoLink.duplicate k l) := by
  induction l generalizing k with
  | nil => cases k <;> exact h
  | cons x l ih =>
      cases k with
      | zero =>
          refine List.pairwise_cons.mpr ⟨?_, h⟩
          intro y hy
          rcases List.mem_cons.mp hy with rfl | hy
          · exact Nat.le_refl _
          · exact h.head_le y hy
      | succ k =>
          refine List.pairwise_cons.mpr ⟨?_, ih k h.tail⟩
          intro y hy
          exact h.head_le y (mem_of_mem_duplicate hy)

end InOrder

end Paparazzi.Library.FifoLink
