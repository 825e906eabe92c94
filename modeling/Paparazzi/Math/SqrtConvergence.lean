import Paparazzi.Math.AlgebraInt

/-!
`INT32_SQRT` ends by its own test: its loop with what the text of the macro computes on the way.
-/

namespace Paparazzi.Math.AlgebraInt

open Paparazzi.Library.IntSqrt

/-- The variables of `INT32_SQRT` behind its loop. -/
structure SqrtExit where
  s1 : UInt32
  s2 : UInt32
  iter : ℕ
  deriving DecidableEq, Repr

/-- The loop with the iterations that are left, without a value where it divides by 0 or where a sum
leaves 32 bits. -/
def int32SqrtCheckedLoop (input : UInt32) : ℕ → UInt32 → Option SqrtExit
  | 0, _ => none
  | left + 1, s1 =>
      if s1 = 0 ∨ 2 ^ 32 ≤ (input / s1).toNat + s1.toNat then none
      else
        let s2 := (input / s1 + s1) / 2
        if 1 < s1 - s2 ∧ left ≠ 0 then int32SqrtCheckedLoop input left s2
        else some ⟨s1, s2, int32SqrtMaxIter - left⟩

def int32SqrtChecked (input : ℤ) : Option SqrtExit :=
  if input = 0 then some ⟨0, 0, 0⟩
  else int32SqrtCheckedLoop (UInt32.ofInt input) int32SqrtMaxIter (UInt32.ofInt input)

/-- The loop ended because of the difference, not because of the number of iterations. -/
def SqrtExit.Converged (e : SqrtExit) : Prop := ¬ 1 < e.s1 - e.s2

instance (e : SqrtExit) : Decidable e.Converged := inferInstanceAs (Decidable (¬ _))

theorem int32SqrtCheckedLoop_succ_eq_some {input s : UInt32} {left : ℕ} {e : SqrtExit}
    (h : int32SqrtCheckedLoop input (left + 1) s = some e) :
    ((1 < s - (input / s + s) / 2 ∧ left ≠ 0) ∧
      int32SqrtCheckedLoop input left ((input / s + s) / 2) = some e) ∨
    (¬ (1 < s - (input / s + s) / 2 ∧ left ≠ 0) ∧
      e = ⟨s, (input / s + s) / 2, int32SqrtMaxIter - left⟩) := by
  rw [int32SqrtCheckedLoop] at h
  dsimp only at h
  split_ifs at h with hbad hgo
  · exact Or.inl ⟨hgo, h⟩
  · exact Or.inr ⟨hgo, (Option.some.inj h).symm⟩

theorem int32SqrtLoop_of_checked {input : UInt32} {left : ℕ} {s : UInt32} {e : SqrtExit}
    (h : int32SqrtCheckedLoop input left s = some e) :
    int32SqrtLoop input left s = e.s2 ∧ e.iter ≤ int32SqrtMaxIter := by
  induction left generalizing s with
  | zero => cases h
  | succ left ih =>
      rw [int32SqrtLoop]
      obtain ⟨hgo, hrest⟩ | ⟨hstop, rfl⟩ := int32SqrtCheckedLoop_succ_eq_some h
      · rw [if_pos hgo.1]
        exact ih hrest
      · refine ⟨?_, Nat.sub_le _ _⟩
        split_ifs with hlt
        · obtain rfl : left = 0 := of_not_not fun hne => hstop ⟨hlt, hne⟩
          rfl
        · rfl

section

variable {input s : UInt32} (hinput : input.toNat < 2 ^ 31) (hs : 0 < s.toNat)
  (hle : s.toNat ≤ input.toNat)

include hinput hs hle

/-- One pass of the loop, from an approximation between 1 and the number. -/
theorem int32SqrtCheckedLoop_succ (left : ℕ) :
    int32SqrtCheckedLoop input (left + 1) s =
      if 1 < s - (input / s + s) / 2 ∧ left ≠ 0 then
        int32SqrtCheckedLoop input left ((input / s + s) / 2)
      else some ⟨s, (input / s + s) / 2, int32SqrtMaxIter - left⟩ := by
  rw [int32SqrtCheckedLoop, if_neg]
  rintro (hzero | hbig)
  · rw [hzero] at hs
    exact absurd hs (by decide)
  · have hdiv := Nat.div_le_self input.toNat s.toNat
    rw [UInt32.toNat_div] at hbig
    omega

/-- What a pass makes of an approximation from above. -/
theorem pass_mem :
    ((input / s + s) / 2).toNat = newton input.toNat s.toNat ∧
      0 < newton input.toNat s.toNat ∧ newton input.toNat s.toNat ≤ input.toNat ∧
      input.toNat.sqrt ≤ newton input.toNat s.toNat :=
  ⟨toNat_newton hinput hle, newton_pos (hs.trans_le hle) hs, newton_le hs hle, sqrt_le_newton hs⟩

/-- Where the difference ends the loop, the result is good. -/
theorem exists_of_stop {left : ℕ}
    (hstop : ¬ 1 < s - (input / s + s) / 2) :
    ∃ e, int32SqrtCheckedLoop input (left + 1) s = some e ∧ e.Converged ∧
      input.toNat.sqrt ≤ e.s2.toNat ∧ e.s2.toNat ≤ input.toNat.sqrt + 1 := by
  obtain ⟨heq, -, hle', hsqrt'⟩ := pass_mem hinput hs hle
  refine ⟨⟨s, (input / s + s) / 2, int32SqrtMaxIter - left⟩, ?_, hstop, ?_, ?_⟩
  · rw [int32SqrtCheckedLoop_succ hinput hs hle, if_neg fun hgo => hstop hgo.1]
  · rwa [heq]
  · rw [one_lt_sub_iff (by omega) (by omega), not_or, heq] at hstop
    have hgood := newton_mul_self_le_of_near (Nat.not_lt.mp hstop.2) (by omega)
    have hsucc := Nat.lt_succ_sqrt input.toNat
    rw [heq]
    by_contra hfar
    have hmul := Nat.mul_le_mul (Nat.not_le.mp hfar) (Nat.not_le.mp hfar)
    nlinarith

/-- A root that is left in front of a square is found again by the next pass. -/
theorem exists_of_eq_sqrt {left : ℕ} (hsqrt : s.toNat = input.toNat.sqrt) :
    ∃ e, int32SqrtCheckedLoop input (left + 2) s = some e ∧ e.Converged ∧
      input.toNat.sqrt ≤ e.s2.toNat ∧ e.s2.toNat ≤ input.toNat.sqrt + 1 := by
  obtain ⟨heq, hpos', hle', hsqrt'⟩ := pass_mem hinput hs hle
  rcases Decidable.em (1 < s - (input / s + s) / 2) with hgo | hstop
  · have hgrown := (one_lt_sub_iff (hle.trans_lt hinput) (by omega)).mp hgo
    have hself := Nat.sqrt_le input.toNat
    have hsucc := Nat.lt_succ_sqrt input.toNat
    have hgood := newton_mul_self_le hs hsqrt.ge (by rw [hsqrt]; omega)
    have hnext : newton input.toNat s.toNat = input.toNat.sqrt + 1 := by
      refine Nat.le_antisymm ?_ (by omega)
      by_contra hfar
      have hmul := Nat.mul_le_mul (Nat.not_le.mp hfar) (Nat.not_le.mp hfar)
      nlinarith
    rw [int32SqrtCheckedLoop_succ hinput hs hle, if_pos ⟨hgo, Nat.succ_ne_zero left⟩]
    rw [← heq] at hpos' hle' hsqrt'
    apply exists_of_stop hinput hpos' hle'
    have hgap : input.toNat.sqrt < ((input / s + s) / 2).toNat := by omega
    have hback := two_mul_newton_le hgap
    obtain ⟨heq'', -, hle'', hsqrt''⟩ := pass_mem hinput hpos' hle'
    rw [one_lt_sub_iff (by omega) (by omega), heq'']
    omega
  · exact exists_of_stop hinput hs hle hstop

omit hs hle in
/-- An approximation less than `2 ^ k` too large is good behind `k + 2` passes: the error is halved
each time. -/
theorem exists_converged {k left : ℕ} (hs : 0 < s.toNat) (hle : s.toNat ≤ input.toNat)
    (hsqrt : input.toNat.sqrt ≤ s.toNat) (hnear : s.toNat < input.toNat.sqrt + 2 ^ k) :
    ∃ e, int32SqrtCheckedLoop input (left + k + 2) s = some e ∧ e.Converged ∧
      input.toNat.sqrt ≤ e.s2.toNat ∧ e.s2.toNat ≤ input.toNat.sqrt + 1 := by
  induction k generalizing s with
  | zero => exact exists_of_eq_sqrt hinput hs hle (by omega)
  | succ k ih =>
      rcases Nat.lt_or_eq_of_le hsqrt with hlt | heq
      · obtain ⟨hnewton, hpos', hle', hsqrt'⟩ := pass_mem hinput hs hle
        rcases Decidable.em (1 < s - (input / s + s) / 2) with hgo | hstop
        · have hhalf := two_mul_newton_le hlt
          rw [show left + (k + 1) + 2 = left + k + 2 + 1 by omega,
            int32SqrtCheckedLoop_succ hinput hs hle, if_pos ⟨hgo, by omega⟩]
          rw [← hnewton] at hpos' hle' hsqrt' hhalf
          rw [Nat.pow_succ] at hnear
          exact ih hpos' hle' hsqrt' (by omega)
        · exact exists_of_stop hinput hs hle hstop
      · exact exists_of_eq_sqrt hinput hs hle heq.symm

end

/-- For every number of 31 bits the loop ends by its own test, no division is by 0, no sum leaves 32
bits, and the result is the root or one more. -/
theorem int32Sqrt_converges (n : ℤ) (hn : 0 ≤ n ∧ n < 2 ^ 31) :
    ∃ e, int32SqrtChecked n = some e ∧ e.Converged ∧ e.iter ≤ int32SqrtMaxIter ∧
      int32Sqrt n = e.s2.toNat ∧
      (int32Sqrt n = n.toNat.sqrt ∨ int32Sqrt n = n.toNat.sqrt + 1) ∧
      (1 ≤ n → 1 ≤ int32Sqrt n) := by
  obtain ⟨hnonneg, hlt⟩ := hn
  rcases eq_or_ne n 0 with rfl | hne
  · exact ⟨⟨0, 0, 0⟩, rfl, by decide, by decide, rfl, by decide, by decide⟩
  · have hinput := toNat_ofInt hnonneg hlt
    have hnat : (UInt32.ofInt n).toNat = n.toNat := by omega
    obtain ⟨e, he, hconverged, hlow, hhigh⟩ :
        ∃ e, int32SqrtCheckedLoop (UInt32.ofInt n) (7 + 31 + 2) (UInt32.ofInt n) = some e ∧
          e.Converged ∧ _ ∧ _ :=
      exists_converged (by omega) (by omega) (Nat.le_refl _) (Nat.sqrt_le_self _) (by omega)
    obtain ⟨hloop, hiter⟩ := int32SqrtLoop_of_checked he
    have hout : int32Sqrt n = e.s2.toNat := by
      rw [int32Sqrt, if_neg hne]
      exact congrArg (fun s : UInt32 => (s.toNat : ℤ)) hloop
    rw [hnat] at hlow hhigh
    refine ⟨e, ?_, hconverged, hiter, hout, ?_, fun hone => ?_⟩
    · rw [int32SqrtChecked, if_neg hne]
      exact he
    · rw [hout]
      omega
    · have hpos : 0 < n.toNat.sqrt := Nat.sqrt_pos.mpr (by omega)
      rw [hout]
      omega

/-- The loop behind a number that is one less than a square. -/
theorem int32Sqrt_converges_99 :
    ∃ e, int32SqrtChecked 99 = some e ∧ e.Converged ∧ e.iter ≤ int32SqrtMaxIter :=
  (int32Sqrt_converges 99 ⟨by decide, by decide⟩).imp fun _ h => ⟨h.1, h.2.1, h.2.2.1⟩

end Paparazzi.Math.AlgebraInt
