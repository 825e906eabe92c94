import Mathlib.Data.List.Basic
import Mathlib.Tactic.SplitIfs

/-!
Choices in a list of alternatives with conditions. A sequence of truth values says how the
conditions come out, from the place `k` on.
-/

namespace Paparazzi.Library.GuardedChoice

section

variable {α : Type*} (truth : Nat → Bool)

/-- The first alternative whose condition holds and that `ok` lets through. -/
def first (ok : α → Bool) : List α → Nat → Option α
  | [], _ => none
  | a :: rest, k => if truth k && ok a then some a else first ok rest (k + 1)

/-- The last alternative whose condition holds. -/
def last : List α → Nat → Option α
  | [], _ => none
  | a :: rest, k => (last rest (k + 1)).or (if truth k then some a else none)

variable {truth} {ok : α → Bool} {l pre post : List α} {a : α} {k : Nat}

theorem first_cons : first truth ok (a :: l) k =
    if truth k && ok a then some a else first truth ok l (k + 1) :=
  rfl

theorem last_cons : last truth (a :: l) k =
    (last truth l (k + 1)).or (if truth k then some a else none) :=
  rfl

/-- No alternative is chosen when the conditions of those that are let through fail. -/
theorem first_eq_none
    (h : ∀ (i : Nat) (a : α), l[i]? = some a → truth (k + i) = true → ok a = false) :
    first truth ok l k = none := by
  induction l generalizing k with
  | nil => rfl
  | cons a rest ih =>
      have hhead : (truth k && ok a) = false := by
        cases htruth : truth k with
        | false => rfl
        | true => exact h 0 a rfl htruth
      rw [first_cons, hhead, if_neg Bool.false_ne_true]
      refine ih fun i a' ha' htruth => h (i + 1) a' ha' ?_
      rwa [Nat.add_comm i, ← Nat.add_assoc]

theorem first_eq_some
    (h : ∀ (i : Nat) (a : α), pre[i]? = some a → truth (k + i) = true → ok a = false)
    (htruth : truth (k + pre.length) = true) (hok : ok a = true) :
    first truth ok (pre ++ a :: post) k = some a := by
  induction pre generalizing k with
  | nil =>
      have hhead : truth k = true := htruth
      rw [List.nil_append, first_cons, hok, Bool.and_true, if_pos hhead]
  | cons b pre ih =>
      have hhead : (truth k && ok b) = false := by
        cases htruth : truth k with
        | false => rfl
        | true => exact h 0 b rfl htruth
      rw [List.cons_append, first_cons, hhead, if_neg Bool.false_ne_true]
      refine ih (fun i a' ha' htruth => h (i + 1) a' ha' ?_) ?_
      · rwa [Nat.add_comm i, ← Nat.add_assoc]
      · rwa [Nat.add_assoc, Nat.add_comm 1]

theorem mem_of_first (h : first truth ok l k = some a) : a ∈ l := by
  induction l generalizing k with
  | nil => cases h
  | cons b rest ih =>
      rw [first_cons] at h
      split_ifs at h with hb
      · cases h
        exact List.mem_cons_self
      · exact List.mem_cons_of_mem b (ih h)

theorem ok_of_first (h : first truth ok l k = some a) : ok a = true := by
  induction l generalizing k with
  | nil => cases h
  | cons b rest ih =>
      rw [first_cons] at h
      split_ifs at h with hb
      · cases h
        exact (Bool.and_eq_true_iff.1 hb).2
      · exact ih h

theorem mem_of_last (h : last truth l k = some a) : a ∈ l := by
  induction l generalizing k with
  | nil => cases h
  | cons b rest ih =>
      rw [last_cons, Option.or_eq_some_iff] at h
      rcases h with h | ⟨-, h⟩
      · exact List.mem_cons_of_mem b (ih h)
      · split_ifs at h
        cases h
        exact List.mem_cons_self

theorem last_eq_none (h : ∀ i, truth (k + i) = false) : last truth l k = none := by
  induction l generalizing k with
  | nil => rfl
  | cons a rest ih =>
      have hrest : last truth rest (k + 1) = none := by
        refine ih fun i => ?_
        rw [Nat.add_assoc]
        exact h (1 + i)
      have hhead : truth k = false := h 0
      rw [last_cons, hrest, hhead]
      rfl

theorem last_eq_some (htruth : truth (k + pre.length) = true)
    (h : ∀ i, truth (k + pre.length + 1 + i) = false) :
    last truth (pre ++ a :: post) k = some a := by
  induction pre generalizing k with
  | nil =>
      have hhead : truth k = true := htruth
      have hrest : last truth post (k + 1) = none := last_eq_none h
      rw [List.nil_append, last_cons, hrest, if_pos hhead]
      rfl
  | cons b pre ih =>
      rw [List.length_cons, Nat.add_comm pre.length, ← Nat.add_assoc] at htruth h
      rw [List.cons_append, last_cons, ih htruth h]
      rfl

end

end Paparazzi.Library.GuardedChoice
