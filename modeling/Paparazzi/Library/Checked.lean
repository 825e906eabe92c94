import Mathlib.Algebra.BigOperators.Group.List.Basic
import Mathlib.Algebra.Order.Group.Int
import Mathlib.Algebra.Order.Ring.Abs
import Mathlib.Algebra.Order.Ring.Int
import Mathlib.Tactic.NormNum

/-!
Signed arithmetic that has no value where the language leaves it undefined: the exact result of
a 32-bit operation, provided it fits, and the accumulation of products in 64 bits.
-/

namespace Paparazzi.Library.Checked32

/-- Held by 32 signed bits. -/
def Fits (z : ℤ) : Prop := -2 ^ 31 ≤ z ∧ z < 2 ^ 31

instance (z : ℤ) : Decidable (Fits z) := inferInstanceAs (Decidable (_ ∧ _))

def check (z : ℤ) : Option ℤ := if Fits z then some z else none

/-- The quotient truncated towards zero, for a divisor other than 0. -/
def div (a b : ℤ) : Option ℤ := if b = 0 then none else check (a.tdiv b)

theorem check_of_fits {z : ℤ} (h : Fits z) : check z = some z := if_pos h

theorem check_eq_some_iff {z c : ℤ} : check z = some c ↔ Fits z ∧ c = z := by
  rw [check, Option.ite_none_right_eq_some, Option.some.injEq, eq_comm (a := z)]

/-- A value under a condition, and what is computed from it. -/
theorem ite_bind_eq_some_iff {α β : Type} {p : Prop} [Decidable p] {a : α} {f : α → Option β}
    {b : β} : ((if p then some a else none).bind f) = some b ↔ p ∧ f a = some b := by
  split_ifs with h
  · rw [Option.bind_some, and_iff_right h]
  · exact iff_of_false (Option.some_ne_none b).symm fun hp => h hp.1

theorem check_bind_eq_some_iff {α : Type} {z : ℤ} {f : ℤ → Option α} {b : α} :
    (check z).bind f = some b ↔ Fits z ∧ f z = some b := ite_bind_eq_some_iff

theorem fits_of_abs_lt {z : ℤ} (h : |z| < 2 ^ 31) : Fits z :=
  ⟨(abs_lt.mp h).1.le, (abs_lt.mp h).2⟩

theorem fits_toInt (a : Int32) : Fits a.toInt := ⟨a.le_toInt, a.toInt_lt⟩

theorem abs_tdiv_le (a b : ℤ) : |a.tdiv b| ≤ |a| := by
  rw [Int.abs_eq_natAbs, Int.abs_eq_natAbs, Int.natAbs_tdiv]
  exact_mod_cast Nat.div_le_self _ _

theorem abs_tdiv_le_of_le {a b c : ℤ} (hb : 0 < b) (h : |a| ≤ b * c) : |a.tdiv b| ≤ c := by
  have hc : 0 ≤ c := by
    by_contra hneg
    have hprod := Int.mul_neg_of_pos_of_neg hb (Int.not_le.mp hneg)
    have hnonneg := abs_nonneg a
    omega
  obtain ⟨n, rfl⟩ := Int.eq_ofNat_of_zero_le hb.le
  obtain ⟨m, rfl⟩ := Int.eq_ofNat_of_zero_le hc
  rw [Int.abs_eq_natAbs] at h ⊢
  rw [Int.natAbs_tdiv, Int.natAbs_natCast]
  exact_mod_cast Nat.div_le_of_le_mul (by exact_mod_cast h)

/-- A truncated quotient is less than one unit off. -/
theorem abs_mul_tdiv_sub_lt {a b : ℤ} (hb : 0 < b) : |b * a.tdiv b - a| < b := by
  have hsplit := Int.mul_tdiv_add_tmod a b
  have hmod : (a.tmod b).natAbs < b.natAbs := by
    rw [Int.natAbs_tmod]
    exact Nat.mod_lt _ (Int.natAbs_pos.mpr hb.ne')
  rw [Int.abs_eq_natAbs]
  omega

end Paparazzi.Library.Checked32

namespace Paparazzi.Library.Checked64

open Paparazzi.Library.Checked32

/-- Held by 64 signed bits. -/
def Fits64 (z : ℤ) : Prop := -2 ^ 63 ≤ z ∧ z < 2 ^ 63

instance (z : ℤ) : Decidable (Fits64 z) := inferInstanceAs (Decidable (_ ∧ _))

def check64 (z : ℤ) : Option ℤ := if Fits64 z then some z else none

theorem check64_of_fits {z : ℤ} (h : Fits64 z) : check64 z = some z := if_pos h

theorem check64_bind_eq_some_iff {α : Type} {z : ℤ} {f : ℤ → Option α} {b : α} :
    (check64 z).bind f = some b ↔ Fits64 z ∧ f z = some b := ite_bind_eq_some_iff

theorem fits64_of_abs_lt {z : ℤ} (h : |z| < 2 ^ 63) : Fits64 z :=
  ⟨(abs_lt.mp h).1.le, (abs_lt.mp h).2⟩

/-- The products are added one after the other to `sum`. -/
def addProducts (sum : ℤ) : List (ℤ × ℤ) → Option ℤ
  | [] => some sum
  | (a, b) :: terms => do
      let product ← check64 (a * b)
      let sum ← check64 (sum + product)
      addProducts sum terms

def sumOfProducts (terms : List (ℤ × ℤ)) : ℤ := (terms.map fun t => t.1 * t.2).sum

@[simp] theorem sumOfProducts_nil : sumOfProducts [] = 0 := rfl

@[simp] theorem sumOfProducts_cons (a b : ℤ) (terms : List (ℤ × ℤ)) :
    sumOfProducts ((a, b) :: terms) = a * b + sumOfProducts terms := List.sum_cons

/-- A value is the exact sum, in 64 bits. -/
theorem addProducts_eq_some {sum total : ℤ} {terms : List (ℤ × ℤ)} (hsum : Fits64 sum)
    (h : addProducts sum terms = some total) :
    Fits64 total ∧ total = sum + sumOfProducts terms := by
  induction terms generalizing sum with
  | nil =>
      cases h
      exact ⟨hsum, (add_zero _).symm⟩
  | cons t terms ih =>
      obtain ⟨a, b⟩ := t
      simp only [addProducts, Option.bind_eq_bind, check64_bind_eq_some_iff] at h
      obtain ⟨hfits, htotal⟩ := ih h.2.1 h.2.2
      refine ⟨hfits, ?_⟩
      rw [htotal, sumOfProducts_cons, add_assoc]

/-- Factors within `A` and `B` do not overflow, as long as there are few enough of them. -/
theorem addProducts_of_bounds {A B : ℤ} (hA : 0 ≤ A) (hB : 0 ≤ B) {sum : ℤ} {terms : List (ℤ × ℤ)}
    (hterms : ∀ t ∈ terms, |t.1| ≤ A ∧ |t.2| ≤ B)
    (hsum : |sum| + terms.length * (A * B) < 2 ^ 63) :
    addProducts sum terms = some (sum + sumOfProducts terms) := by
  induction terms generalizing sum with
  | nil => rw [addProducts, sumOfProducts_nil, add_zero]
  | cons t terms ih =>
      obtain ⟨a, b⟩ := t
      obtain ⟨⟨ha, hb⟩, hrest⟩ := List.forall_mem_cons.mp hterms
      have hprod : |a * b| ≤ A * B := by
        rw [abs_mul]
        exact mul_le_mul ha hb (abs_nonneg b) hA
      have hadd := abs_add_le sum (a * b)
      have hmore : (0 : ℤ) ≤ terms.length * (A * B) := by positivity
      rw [List.length_cons] at hsum
      push_cast at hsum
      rw [add_one_mul] at hsum
      have hnonneg := abs_nonneg sum
      rw [addProducts, check64_of_fits (fits64_of_abs_lt (by omega)), Option.bind_eq_bind,
        Option.bind_some, check64_of_fits (fits64_of_abs_lt (by omega)), Option.bind_some,
        ih hrest (by omega), sumOfProducts_cons, add_assoc]

end Paparazzi.Library.Checked64
