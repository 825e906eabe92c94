import Mathlib.Analysis.CStarAlgebra.Matrix
import Mathlib.Analysis.Matrix.Normed

/-!
Orthogonal matrices with rounded entries: what is lost when the transpose carries a vector over
and the matrix carries it back, each with a rounding of the result. The norm of a vector is its
largest entry, that of a matrix the operator norm for it.
-/

namespace Paparazzi.Library.RoundedRotation

open Matrix
open scoped Matrix.Norms.Operator

variable {ι : Type*} {ε : ℝ} {A R : Matrix ι ι ℝ}

/-- The entries of `A` are at most `ε` off those of `R`. -/
def Near (ε : ℝ) (A R : Matrix ι ι ℝ) : Prop := ∀ i j, |A i j - R i j| ≤ ε

theorem Near.transpose (h : Near ε A R) : Near ε Aᵀ Rᵀ := fun i j => h j i

variable [Fintype ι]

theorem norm_le_of_entries {a : ℝ} (ha : 0 ≤ a) (h : ∀ i j, |A i j| ≤ a) :
    ‖A‖ ≤ Fintype.card ι * a := by
  lift a to NNReal using ha
  rw [linfty_opNorm_def]
  norm_cast
  refine Finset.sup_le fun i _ => ?_
  calc
    ∑ j, ‖A i j‖₊ ≤ ∑ _j : ι, a := Finset.sum_le_sum fun j _ => by exact_mod_cast h i j
    _ = Fintype.card ι * a := by rw [Finset.sum_const, nsmul_eq_mul, Finset.card_univ]

theorem Near.norm_sub_le (hε : 0 ≤ ε) (h : Near ε A R) : ‖A - R‖ ≤ Fintype.card ι * ε :=
  norm_le_of_entries hε h

theorem Near.norm_mulVec_sub_le (hε : 0 ≤ ε) (h : Near ε A R) (v : ι → ℝ) :
    ‖A *ᵥ v - R *ᵥ v‖ ≤ Fintype.card ι * ε * ‖v‖ := by
  rw [← sub_mulVec]
  exact (linfty_opNorm_mulVec (A - R) v).trans
    (mul_le_mul_of_nonneg_right (h.norm_sub_le hε) (norm_nonneg v))

variable [DecidableEq ι]

theorem norm_le_card (hR : R ∈ orthogonalGroup ι ℝ) : ‖R‖ ≤ Fintype.card ι := by
  have h := norm_le_of_entries zero_le_one fun i j => entry_norm_bound_of_unitary hR i j
  rwa [mul_one] at h

theorem transpose_mem (hR : R ∈ orthogonalGroup ι ℝ) : Rᵀ ∈ orthogonalGroup ι ℝ :=
  transpose_mem_unitaryGroup_iff.mpr hR

theorem mul_transpose (hR : R ∈ orthogonalGroup ι ℝ) : R * Rᵀ = 1 :=
  (mem_orthogonalGroup_iff ι ℝ).mp hR

/-- A vector is not much longer than its rotation. -/
theorem norm_le_of_mulVec (hR : R ∈ orthogonalGroup ι ℝ) (v : ι → ℝ) :
    ‖v‖ ≤ Fintype.card ι * ‖R *ᵥ v‖ := by
  have hRT := transpose_mem hR
  have hone : Rᵀ * R = 1 := mul_transpose hRT
  calc
    ‖v‖ = ‖Rᵀ *ᵥ (R *ᵥ v)‖ := by rw [mulVec_mulVec, hone, one_mulVec]
    _ ≤ ‖Rᵀ‖ * ‖R *ᵥ v‖ := linfty_opNorm_mulVec Rᵀ (R *ᵥ v)
    _ ≤ Fintype.card ι * ‖R *ᵥ v‖ :=
      mul_le_mul_of_nonneg_right (norm_le_card hRT) (norm_nonneg _)

namespace Near

theorem norm_le (hε : 0 ≤ ε) (hR : R ∈ orthogonalGroup ι ℝ) (h : Near ε A R) :
    ‖A‖ ≤ Fintype.card ι * (1 + ε) := by
  have hsum := norm_le_norm_add_norm_sub' A R
  have hcard := norm_le_card hR
  have hsub := h.norm_sub_le hε
  linarith

theorem norm_mulVec_le (hε : 0 ≤ ε) (hR : R ∈ orthogonalGroup ι ℝ) (h : Near ε A R) {δ : ℝ}
    {v : ι → ℝ} (hv : ‖v‖ ≤ δ) : ‖A *ᵥ v‖ ≤ Fintype.card ι * (1 + ε) * δ :=
  (linfty_opNorm_mulVec A v).trans
    (mul_le_mul (h.norm_le hε hR) hv (norm_nonneg v) (by positivity))

theorem norm_mul_transpose_sub_one_le (hε : 0 ≤ ε) (hR : R ∈ orthogonalGroup ι ℝ)
    (h : Near ε A R) : ‖A * Aᵀ - 1‖ ≤ (Fintype.card ι : ℝ) ^ 2 * (2 * ε + ε ^ 2) := by
  have hsplit : A * Aᵀ - 1 = (A - R) * Rᵀ + A * (Aᵀ - Rᵀ) := by
    rw [sub_mul, mul_sub, mul_transpose hR]
    abel
  have hone : ‖(A - R) * Rᵀ‖ ≤ Fintype.card ι * ε * Fintype.card ι :=
    (norm_mul_le _ _).trans (mul_le_mul (h.norm_sub_le hε) (norm_le_card (transpose_mem hR))
      (norm_nonneg _) (by positivity))
  have htwo : ‖A * (Aᵀ - Rᵀ)‖ ≤ Fintype.card ι * (1 + ε) * (Fintype.card ι * ε) :=
    (norm_mul_le _ _).trans (mul_le_mul (h.norm_le hε hR) (h.transpose.norm_sub_le hε)
      (norm_nonneg _) (by positivity))
  calc
    ‖A * Aᵀ - 1‖ ≤ ‖(A - R) * Rᵀ‖ + ‖A * (Aᵀ - Rᵀ)‖ := hsplit ▸ norm_add_le _ _
    _ ≤ Fintype.card ι * ε * Fintype.card ι + Fintype.card ι * (1 + ε) * (Fintype.card ι * ε) :=
      add_le_add hone htwo
    _ = (Fintype.card ι : ℝ) ^ 2 * (2 * ε + ε ^ 2) := by ring

/-- There and back: `w` is `v` carried over by the transpose up to `δ`, and `u` is `w` carried back
up to `γ`. -/
theorem norm_back_sub_le (hε : 0 ≤ ε) (hR : R ∈ orthogonalGroup ι ℝ) (h : Near ε A R) {δ γ : ℝ}
    {v w u : ι → ℝ} (hw : ‖w - Aᵀ *ᵥ v‖ ≤ δ) (hu : ‖u - A *ᵥ w‖ ≤ γ) :
    ‖u - v‖ ≤ (Fintype.card ι : ℝ) ^ 2 * (2 * ε + ε ^ 2) * ‖v‖ +
      Fintype.card ι * (1 + ε) * δ + γ := by
  have hsplit : u - v = (A * Aᵀ - 1) *ᵥ v + A *ᵥ (w - Aᵀ *ᵥ v) + (u - A *ᵥ w) := by
    rw [sub_mulVec, one_mulVec, mulVec_sub, mulVec_mulVec]
    abel
  have hback : ‖(A * Aᵀ - 1) *ᵥ v‖ ≤ (Fintype.card ι : ℝ) ^ 2 * (2 * ε + ε ^ 2) * ‖v‖ :=
    (linfty_opNorm_mulVec _ v).trans
      (mul_le_mul_of_nonneg_right (h.norm_mul_transpose_sub_one_le hε hR) (norm_nonneg v))
  calc
    ‖u - v‖ ≤ ‖(A * Aᵀ - 1) *ᵥ v‖ + ‖A *ᵥ (w - Aᵀ *ᵥ v)‖ + ‖u - A *ᵥ w‖ := hsplit ▸ norm_add₃_le
    _ ≤ _ := add_le_add_three hback (h.norm_mulVec_le hε hR hw) hu

end Near

end Paparazzi.Library.RoundedRotation
