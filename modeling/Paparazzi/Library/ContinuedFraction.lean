import Mathlib.Algebra.Order.Field.Basic
import Mathlib.Algebra.Order.Field.Rat
import Mathlib.Data.Nat.Cast.Order.Ring
import Mathlib.Data.Rat.Cast.Order
import Mathlib.Tactic.FieldSimp
import Mathlib.Tactic.Linarith
import Mathlib.Tactic.Ring

/-!
Convergents of a quotient of natural numbers, with the pair that Euclid's algorithm has come to: how
large they are and how far from the quotient.
-/

namespace Paparazzi.Library.ContinuedFraction

/-- Two convergents of `P / Q`, one after the other, and the numbers `a` and `b` that are left. -/
structure Convergents (P Q p₁ p₂ q₁ q₂ a b : ℕ) : Prop where
  num : P = a * p₂ + b * p₁
  den : Q = a * q₂ + b * q₁
  det : (p₁ : ℤ) * q₂ - p₂ * q₁ = 1 ∨ (p₁ : ℤ) * q₂ - p₂ * q₁ = -1
  den_pos : 0 < q₂
  lt : b < a

variable {P Q p₁ p₂ q₁ q₂ a b : ℕ}

theorem convergents_start (P : ℕ) (hQ : 0 < Q) : Convergents P Q 1 (P / Q) 0 1 Q (P % Q) where
  num := by rw [Nat.mul_one, Nat.div_add_mod]
  den := by rw [Nat.mul_one, Nat.mul_zero, Nat.add_zero]
  det := Or.inl (by simp)
  den_pos := Nat.one_pos
  lt := Nat.mod_lt P hQ

namespace Convergents

variable (h : Convergents P Q p₁ p₂ q₁ q₂ a b)

include h

theorem next (hb : 0 < b) :
    Convergents P Q p₂ (a / b * p₂ + p₁) q₂ (a / b * q₂ + q₁) b (a % b) where
  num := by
    calc
      P = (b * (a / b) + a % b) * p₂ + b * p₁ := by rw [Nat.div_add_mod, h.num]
      _ = b * (a / b * p₂ + p₁) + a % b * p₂ := by ring
  den := by
    calc
      Q = (b * (a / b) + a % b) * q₂ + b * q₁ := by rw [Nat.div_add_mod, h.den]
      _ = b * (a / b * q₂ + q₁) + a % b * q₂ := by ring
  det := by
    have heq : (p₂ : ℤ) * (a / b * q₂ + q₁ : ℕ) - (a / b * p₂ + p₁ : ℕ) * q₂ =
        -(p₁ * q₂ - p₂ * q₁) := by
      push_cast
      ring
    rw [heq]
    obtain hdet | hdet := h.det
    · exact Or.inr (by rw [hdet])
    · exact Or.inl (by rw [hdet, neg_neg])
  den_pos := Nat.add_pos_left (Nat.mul_pos (Nat.div_pos h.lt.le hb) h.den_pos) _
  lt := Nat.mod_lt a hb

/-- The next convergent is not larger than the quotient in its terms. -/
theorem next_mul_le : (a / b * p₂ + p₁) * b ≤ P ∧ (a / b * q₂ + q₁) * b ≤ Q := by
  have hdiv := Nat.div_mul_le_self a b
  have hnum := Nat.mul_le_mul_right p₂ hdiv
  have hden := Nat.mul_le_mul_right q₂ hdiv
  constructor
  · calc
      (a / b * p₂ + p₁) * b = a / b * b * p₂ + b * p₁ := by ring
      _ ≤ P := by
        rw [h.num]
        omega
  · calc
      (a / b * q₂ + q₁) * b = a / b * b * q₂ + b * q₁ := by ring
      _ ≤ Q := by
        rw [h.den]
        omega

/-- The last convergent is the quotient. -/
theorem div_eq_of_mod_eq_zero (hb : 0 < b) (hmod : a % b = 0) :
    ((a / b * p₂ + p₁ : ℕ) : ℚ) / (a / b * q₂ + q₁ : ℕ) = P / Q := by
  have hnext := h.next hb
  have hnum := hnext.num
  have hden := hnext.den
  rw [hmod, Nat.zero_mul, Nat.add_zero] at hnum hden
  have hb' : (b : ℚ) ≠ 0 := Nat.cast_ne_zero.mpr hb.ne'
  rw [hnum, hden, Nat.cast_mul, Nat.cast_mul, mul_div_mul_left _ _ hb']

/-- What the quotient and a convergent differ by. -/
theorem abs_sub_eq (hQ : 0 < Q) : |(P : ℚ) / Q - p₂ / q₂| = b / (Q * q₂) := by
  have hq := Nat.cast_ne_zero (R := ℚ).mpr h.den_pos.ne'
  have hQ' := Nat.cast_ne_zero (R := ℚ).mpr hQ.ne'
  have hdet : |(p₁ : ℚ) * q₂ - p₂ * q₁| = 1 := by
    obtain hdet | hdet := h.det
    · have hcast : (p₁ : ℚ) * q₂ - p₂ * q₁ = 1 := by exact_mod_cast hdet
      rw [hcast, abs_one]
    · have hcast : (p₁ : ℚ) * q₂ - p₂ * q₁ = -1 := by exact_mod_cast hdet
      rw [hcast, abs_neg, abs_one]
  have hnum : (P : ℚ) = a * p₂ + b * p₁ := by exact_mod_cast h.num
  have hden : (Q : ℚ) = a * q₂ + b * q₁ := by exact_mod_cast h.den
  have hcross : (P : ℚ) * q₂ - Q * p₂ = b * (p₁ * q₂ - p₂ * q₁) := by
    rw [hnum, hden]
    ring
  rw [div_sub_div _ _ hQ' hq, hcross, abs_div, abs_mul, hdet, mul_one, Nat.abs_cast,
    abs_of_nonneg (by positivity)]

end Convergents

end Paparazzi.Library.ContinuedFraction
