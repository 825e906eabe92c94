import Mathlib.Algebra.BigOperators.Group.Finset.Basic
import Mathlib.Data.Nat.ModEq
import Mathlib.Logic.Function.Iterate

/-!
Doubly linked rings whose links are maps: going along them, taking an element out, and sums round
them.
-/

namespace Paparazzi.Library.LinkedRing

/-! ### Sums over a period -/

theorem sum_range_add_of_periodic {M : Type*} [AddCommMonoid M] {f : ℕ → M} {n : ℕ}
    (h : ∀ i, f (i + n) = f i) (m : ℕ) :
    ∑ i ∈ Finset.range n, f (i + m) = ∑ i ∈ Finset.range n, f i := by
  induction m with
  | zero => rfl
  | succ m ih =>
      rw [← ih]
      rcases n with _ | n
      · rfl
      · rw [Finset.sum_range_succ, Finset.sum_range_succ' fun i => f (i + m)]
        have hlast : f (n + (m + 1)) = f (0 + m) := by
          rw [← h (0 + m)]
          congr 1
          omega
        rw [hlast]
        congr 1
        refine Finset.sum_congr rfl fun i _ => ?_
        congr 1
        omega

/-! ### Rings -/

variable {α : Type*} {prev next : α → α} {n : ℕ} {r : ℕ → α}

/-- The places `r 0`, `r 1`, ..., `r (n - 1)` are a ring under the two maps. -/
structure IsRing (prev next : α → α) (n : ℕ) (r : ℕ → α) : Prop where
  periodic : ∀ i, r (i + n) = r i
  modEq_of_eq : ∀ {i j}, r i = r j → i ≡ j [MOD n]
  next_eq : ∀ i, next (r i) = r (i + 1)
  prev_eq : ∀ i, prev (r (i + 1)) = r i

namespace IsRing

theorem eq_of_lt (h : IsRing prev next n r) {i j : ℕ} (hi : i < n) (hj : j < n)
    (heq : r i = r j) : i = j :=
  Nat.ModEq.eq_of_lt_of_lt (h.modEq_of_eq heq) hi hj

theorem apply_mod (h : IsRing prev next n r) (i : ℕ) : r (i % n) = r i := by
  have hmul : ∀ k, r (i % n + n * k) = r (i % n) := by
    intro k
    induction k with
    | zero => rfl
    | succ k ih => rw [Nat.mul_succ, ← Nat.add_assoc, h.periodic, ih]
  rw [← hmul (i / n), Nat.mod_add_div]

theorem iterate_next (h : IsRing prev next n r) (m : ℕ) : next^[m] (r 0) = r m := by
  induction m with
  | zero => rfl
  | succ m ih => rw [Function.iterate_succ_apply', ih, h.next_eq]

theorem shift (h : IsRing prev next n r) (m : ℕ) : IsRing prev next n fun i => r (i + m) where
  periodic i := by rw [Nat.add_right_comm, h.periodic]
  modEq_of_eq heq := Nat.ModEq.add_right_cancel' m (h.modEq_of_eq heq)
  next_eq i := by rw [h.next_eq, Nat.add_right_comm]
  prev_eq i := by rw [Nat.add_right_comm, h.prev_eq]

end IsRing

/-- The place after one in a ring is the first one after the last. -/
theorem succ_mod_cases (n i : ℕ) :
    (i % (n + 1) = n ∧ (i + 1) % (n + 1) = 0) ∨
      (i % (n + 1) < n ∧ (i + 1) % (n + 1) = i % (n + 1) + 1) := by
  have hlt : i % (n + 1) < n + 1 := Nat.mod_lt i (Nat.succ_pos n)
  rw [← Nat.mod_add_mod]
  rcases Nat.lt_or_ge (i % (n + 1)) n with hin | hin
  · exact Or.inr ⟨hin, Nat.mod_eq_of_lt (Nat.succ_lt_succ hin)⟩
  · have heq : i % (n + 1) = n := by omega
    exact Or.inl ⟨heq, by rw [heq, Nat.mod_self]⟩

/-- Counting round from `0`. -/
theorem isRing_mod {prev next : ℕ → ℕ} (n : ℕ) (hnext : ∀ i < n, next i = i + 1)
    (hnextLast : next n = 0) (hprev : ∀ i < n, prev (i + 1) = i) (hprevZero : prev 0 = n) :
    IsRing prev next (n + 1) fun i => i % (n + 1) where
  periodic i := Nat.add_mod_right i (n + 1)
  modEq_of_eq heq := heq
  next_eq i := by
    rcases succ_mod_cases n i with ⟨hi, hsucc⟩ | ⟨hi, hsucc⟩
    · rw [hi, hsucc, hnextLast]
    · rw [hsucc, hnext _ hi]
  prev_eq i := by
    rcases succ_mod_cases n i with ⟨hi, hsucc⟩ | ⟨hi, hsucc⟩
    · rw [hi, hsucc, hprevZero]
    · rw [hsucc, hprev _ hi]

/-- The last place is taken out. -/
theorem IsRing.remove [DecidableEq α] (h : IsRing prev next (n + 2) r) :
    IsRing (Function.update prev (r 0) (r n)) (Function.update next (r n) (r 0)) (n + 1)
      fun i => r (i % (n + 1)) where
  periodic i := by rw [Nat.add_mod_right]
  modEq_of_eq := by
    intro i j heq
    have hi : i % (n + 1) < n + 1 := Nat.mod_lt i (Nat.succ_pos n)
    have hj : j % (n + 1) < n + 1 := Nat.mod_lt j (Nat.succ_pos n)
    exact h.eq_of_lt (by omega) (by omega) heq
  next_eq i := by
    change Function.update next (r n) (r 0) (r (i % (n + 1))) = r ((i + 1) % (n + 1))
    rcases succ_mod_cases n i with ⟨hi, hsucc⟩ | ⟨hi, hsucc⟩
    · rw [hi, hsucc, Function.update_self]
    · have hne : r (i % (n + 1)) ≠ r n := by
        intro heq
        have := h.eq_of_lt (by omega) (by omega) heq
        omega
      rw [hsucc, Function.update_of_ne hne, h.next_eq]
  prev_eq i := by
    change Function.update prev (r 0) (r n) (r ((i + 1) % (n + 1))) = r (i % (n + 1))
    rcases succ_mod_cases n i with ⟨hi, hsucc⟩ | ⟨hi, hsucc⟩
    · rw [hi, hsucc, Function.update_self]
    · have hne : r (i % (n + 1) + 1) ≠ r 0 := by
        intro heq
        have := h.eq_of_lt (by omega) (by omega) heq
        omega
      rw [hsucc, Function.update_of_ne hne, h.prev_eq]

end Paparazzi.Library.LinkedRing
