import Mathlib.Data.Nat.Sqrt
import Mathlib.Tactic.Linarith

/-!
Newton's step for the integer square root: what one step does to an approximation from above.
-/

namespace Paparazzi.Library.IntSqrt

/-- The mean of `s` and `n / s`. -/
def newton (n s : Nat) : Nat := (n / s + s) / 2

theorem sqrt_le_newton {n s : Nat} (hs : 0 < s) : n.sqrt ≤ newton n s := by
  rw [newton, Nat.le_div_iff_mul_le Nat.two_pos]
  apply Nat.le_of_not_lt
  intro hlt
  have hsqrt := Nat.sqrt_le n
  have hdiv := Nat.lt_mul_div_succ n hs
  -- (2 r - s) s is at most r ^ 2
  obtain ⟨d, hd⟩ := Nat.exists_eq_add_of_le (show n / s + 1 + s ≤ n.sqrt * 2 by omega)
  nlinarith [sq_nonneg ((n.sqrt : ℤ) - s)]

theorem newton_pos {n s : Nat} (hn : 0 < n) (hs : 0 < s) : 0 < newton n s :=
  (Nat.sqrt_pos.mpr hn).trans_le (sqrt_le_newton hs)

theorem newton_le {n s : Nat} (hs : 0 < s) (hle : s ≤ n) : newton n s ≤ n := by
  have hdiv := Nat.div_mul_le_self n s
  rw [newton]
  apply Nat.div_le_of_le_mul
  nlinarith

/-- The error is halved. -/
theorem two_mul_newton_le {n s : Nat} (h : n.sqrt < s) : 2 * newton n s ≤ s + n.sqrt := by
  have hdiv : n / s < n.sqrt + 1 := by
    rw [Nat.div_lt_iff_lt_mul (Nat.zero_lt_of_lt h)]
    calc
      n < (n.sqrt + 1) * (n.sqrt + 1) := Nat.lt_succ_sqrt n
      _ ≤ (n.sqrt + 1) * s := Nat.mul_le_mul_left _ h
  rw [newton]
  omega

/-- Where a step changes little, the result is as good as it gets. -/
theorem newton_mul_self_le_of_near {n s : Nat} (hle : newton n s ≤ s)
    (hnear : s ≤ newton n s + 1) : newton n s * newton n s ≤ n + 1 := by
  have hdiv := Nat.div_mul_le_self n s
  have htwo : 2 * newton n s ≤ n / s + s := Nat.mul_div_le _ 2
  rcases Nat.lt_or_eq_of_le hle with hlt | heq
  · have hs : s = newton n s + 1 := by omega
    nlinarith
  · nlinarith

/-- A good approximation stays good. -/
theorem newton_mul_self_le {n s : Nat} (hs : 0 < s) (hle : n.sqrt ≤ s) (h : s * s ≤ n + 1) :
    newton n s * newton n s ≤ n + 1 := by
  have hsqrt := Nat.sqrt_le n
  have hsucc := Nat.lt_succ_sqrt n
  rcases Nat.lt_or_eq_of_le hle with hlt | heq
  · have hgap := two_mul_newton_le hlt
    have hnewton : newton n s ≤ s := by omega
    exact (Nat.mul_le_mul hnewton hnewton).trans h
  · have hdiv := Nat.div_mul_le_self n s
    have htwo : 2 * newton n s ≤ n / s + s := Nat.mul_div_le _ 2
    rw [heq] at hsucc
    have hquot : n / s < s + 3 := by
      rw [Nat.div_lt_iff_lt_mul hs]
      nlinarith
    rcases Nat.lt_or_ge (n / s) (s + 2) with hless | hmore
    · have hnewton : newton n s ≤ s := by omega
      exact (Nat.mul_le_mul hnewton hnewton).trans h
    · have hquot' : n / s = s + 2 := by omega
      have hnewton : newton n s = s + 1 := by
        rw [newton, hquot']
        omega
      rw [hquot'] at hdiv
      rw [hnewton]
      nlinarith

end Paparazzi.Library.IntSqrt
