import Mathlib.Analysis.Convex.Topology
import Mathlib.Tactic.LinearCombination
import Mathlib.Tactic.Linarith

/-!
Lines and convex polygons in the plane: the boundary of a convex polygon has no third point on a
line through its interior, and edges that cross the line in opposite directions do not meet inside
an edge.
-/

namespace Paparazzi.Math.ConvexPolygon

/-- The vertex behind the vertex `i` of `n`. -/
def next (n i : ℕ) : ℕ := if i + 1 = n then 0 else i + 1

theorem next_lt {n i : ℕ} (hi : i < n) : next n i < n := by
  rw [next]
  split_ifs <;> omega

section

variable {K : Type*} [Field K]

/-- On which side of the line from `a` to `b` a point is. -/
def side (a b p : K × K) : K := (b.1 - a.1) * (p.2 - a.2) - (b.2 - a.2) * (p.1 - a.1)

/-- How far along the line from `a` to `b` a point is. -/
def along (a b p : K × K) : K := (b.1 - a.1) * (p.1 - a.1) + (b.2 - a.2) * (p.2 - a.2)

/-- The point that divides the way from `p` to `q`. -/
def toward (p q : K × K) (t : K) : K × K := (p.1 + t * (q.1 - p.1), p.2 + t * (q.2 - p.2))

variable {a b p q : K × K}

theorem side_toward (a b p q : K × K) (t : K) :
    side a b (toward p q t) = (1 - t) * side a b p + t * side a b q := by
  simp only [side, toward]
  ring

theorem side_self (a b : K × K) : side a b a = 0 := by
  simp [side]

theorem side_other (a b : K × K) : side a b b = 0 := by
  simp only [side]
  ring

/-- Two points of a line that are on another line make the lines the same. -/
theorem side_mul_of_parallel (hp : side a b p = 0) (hq : side a b q = 0) (r : K × K) :
    ((b.1 - a.1) * (q.1 - p.1) + (b.2 - a.2) * (q.2 - p.2)) * side p q r =
      ((q.1 - p.1) ^ 2 + (q.2 - p.2) ^ 2) * side a b r := by
  simp only [side] at *
  linear_combination -((q.1 - p.1) * (r.1 - p.1) + (q.2 - p.2) * (r.2 - p.2)) * (hq - hp) -
    ((q.1 - p.1) ^ 2 + (q.2 - p.2) ^ 2) * hp

/-- Parallel edges on one line, against the directions in which they cross another line. -/
theorem side_mul_of_collinear {c d : K × K} (hc : side p q c = 0) (hd : side p q d = 0)
    (r : K × K) :
    (side a b d - side a b c) * side p q r = (side a b q - side a b p) * side c d r := by
  simp only [side] at *
  linear_combination ((b.1 - a.1) * (r.2 - c.2) - (b.2 - a.2) * (r.1 - c.1)) * (hd - hc) +
    ((b.1 - a.1) * (d.2 - c.2) - (b.2 - a.2) * (d.1 - c.1)) * hc

/-- Three points of a line are on one line. -/
theorem normSq_mul_side {c d r : K × K} (hp : side c d p = 0) (hq : side c d q = 0)
    (hr : side c d r = 0) : ((d.1 - c.1) ^ 2 + (d.2 - c.2) ^ 2) * side p q r = 0 := by
  simp only [side] at *
  linear_combination ((d.1 - c.1) * (q.1 - p.1) + (d.2 - c.2) * (q.2 - p.2)) * (hr - hp) -
    ((d.1 - c.1) * (r.1 - p.1) + (d.2 - c.2) * (r.2 - p.2)) * (hq - hp)

/-- On the line, the side with respect to other points is an affine function of the place. -/
theorem side_between {c d r : K × K} (hp : side a b p = 0) (hq : side a b q = 0)
    (hr : side a b r = 0) :
    (along a b q - along a b p) * side c d r =
      (along a b q - along a b r) * side c d p + (along a b r - along a b p) * side c d q := by
  simp only [side, along] at *
  linear_combination ((d.1 - c.1) * (q.1 - p.1) + (d.2 - c.2) * (q.2 - p.2)) * (hr - hp) -
    ((d.1 - c.1) * (r.1 - p.1) + (d.2 - c.2) * (r.2 - p.2)) * (hq - hp)

end

section

variable {K : Type*} [Field K] [LinearOrder K]

def OnSegment (p q r : K × K) : Prop := ∃ t, 0 ≤ t ∧ t ≤ 1 ∧ r = toward p q t

def OnBoundary (n : ℕ) (v : ℕ → K × K) (p : K × K) : Prop :=
  ∃ i < n, OnSegment (v i) (v (next n i)) p

/-- A convex polygon, either way round: no vertex is on the other side of an edge. -/
structure IsConvex (n : ℕ) (v : ℕ → K × K) : Prop where
  three_le : 3 ≤ n
  injective : ∀ i < n, ∀ j < n, v i = v j → i = j
  sides : ∃ σ : K, σ ≠ 0 ∧ ∀ i < n, ∀ j < n, 0 ≤ σ * side (v i) (v (next n i)) (v j)

/-- The line has vertices on both sides, and no edge has all of them on its line. -/
structure Crosses (n : ℕ) (v : ℕ → K × K) (a b : K × K) : Prop where
  pos : ∃ i < n, 0 < side a b (v i)
  neg : ∃ i < n, side a b (v i) < 0
  fat : ∀ i < n, ∃ j < n, side (v i) (v (next n i)) (v j) ≠ 0

variable {n : ℕ} {v : ℕ → K × K} {a b p q r : K × K} {i j : ℕ}

theorem side_of_onSegment (h : OnSegment p q r) : side p q r = 0 := by
  obtain ⟨t, -, -, rfl⟩ := h
  rw [side_toward, side_self, side_other]
  ring

theorem IsConvex.next_ne (h : IsConvex n v) (i : ℕ) : next n i ≠ i := by
  have hthree := h.three_le
  rw [next]
  split_ifs <;> omega

theorem IsConvex.ne_next (h : IsConvex n v) (hi : i < n) : v i ≠ v (next n i) := by
  intro heq
  exact h.next_ne i (h.injective i hi _ (next_lt hi) heq).symm

variable [IsStrictOrderedRing K]

theorem normSq_pos (h : p ≠ q) : 0 < (q.1 - p.1) ^ 2 + (q.2 - p.2) ^ 2 := by
  have h1 := sq_nonneg (q.1 - p.1)
  have h2 := sq_nonneg (q.2 - p.2)
  apply lt_of_le_of_ne (by linarith)
  intro heq
  have hx : (q.1 - p.1) ^ 2 = 0 := by linarith
  have hy : (q.2 - p.2) ^ 2 = 0 := by linarith
  rw [sq_eq_zero_iff, sub_eq_zero] at hx hy
  exact h (Prod.ext hx.symm hy.symm)

/-- Numbers with a common factor that makes them nonnegative. -/
theorem mul_nonneg_of_common {σ x y : K} (hσ : σ ≠ 0) (hx : 0 ≤ σ * x) (hy : 0 ≤ σ * y) :
    0 ≤ x * y := by
  have hprod := mul_nonneg hx hy
  have hsq : 0 < σ * σ := mul_self_pos.mpr hσ
  rw [mul_mul_mul_comm] at hprod
  exact (mul_nonneg_iff_of_pos_left hsq).mp hprod

/-- No edge is on a line with vertices on both sides. -/
theorem not_on_line (h : IsConvex n v) (hc : Crosses n v a b) (hi : i < n) :
    ¬ (side a b (v i) = 0 ∧ side a b (v (next n i)) = 0) := by
  rintro ⟨hp, hq⟩
  obtain ⟨σ, hσ, hsides⟩ := h.sides
  obtain ⟨j, hj, hpos⟩ := hc.pos
  obtain ⟨k, hk, hneg⟩ := hc.neg
  have hnorm := normSq_pos (h.ne_next hi)
  have hj' := mul_pos hnorm hpos
  have hk' := mul_neg_of_pos_of_neg hnorm hneg
  rw [← side_mul_of_parallel hp hq] at hj' hk'
  have hopposite := mul_neg_of_pos_of_neg hj' hk'
  have hsame := mul_nonneg_of_common hσ (hsides i hi j hj) (hsides i hi k hk)
  rw [mul_mul_mul_comm] at hopposite
  exact hopposite.not_ge (mul_nonneg (mul_self_nonneg _) hsame)

/-- Points of the boundary are on no wrong side of an edge either. -/
theorem side_of_onBoundary {σ : K}
    (hsides : ∀ i < n, ∀ j < n, 0 ≤ σ * side (v i) (v (next n i)) (v j)) (hi : i < n)
    (hp : OnBoundary n v p) : 0 ≤ σ * side (v i) (v (next n i)) p := by
  obtain ⟨j, hj, t, h0, h1, rfl⟩ := hp
  have hfirst := mul_nonneg (sub_nonneg.mpr h1) (hsides i hi j hj)
  have hsecond := mul_nonneg h0 (hsides i hi _ (next_lt hj))
  rw [side_toward]
  linarith

/-- A point of the boundary is not between two others on a line through the interior. -/
theorem not_between (h : IsConvex n v) (hc : Crosses n v a b) (hp : OnBoundary n v p)
    (hq : OnBoundary n v q) (hr : OnBoundary n v r) (hpLine : side a b p = 0)
    (hqLine : side a b q = 0) (hrLine : side a b r = 0) (hpr : along a b p < along a b r)
    (hrq : along a b r < along a b q) : False := by
  obtain ⟨σ, hσ, hsides⟩ := h.sides
  obtain ⟨i, hi, hr⟩ := hr
  have hbetween := side_between (c := v i) (d := v (next n i)) hpLine hqLine hrLine
  rw [side_of_onSegment hr, mul_zero] at hbetween
  have hps := mul_nonneg (sub_pos.mpr hrq).le (side_of_onBoundary hsides hi hp)
  have hqs := mul_nonneg (sub_pos.mpr hpr).le (side_of_onBoundary hsides hi hq)
  have hsum : (along a b q - along a b r) * (σ * side (v i) (v (next n i)) p) +
      (along a b r - along a b p) * (σ * side (v i) (v (next n i)) q) = 0 := by
    linear_combination -σ * hbetween
  -- so the edge is on the line, as both points are
  have hp0 : side (v i) (v (next n i)) p = 0 := by
    have hzero := (add_eq_zero_iff_of_nonneg hps hqs).mp hsum
    simpa [hσ, (sub_pos.mpr hrq).ne'] using hzero.1
  have hq0 : side (v i) (v (next n i)) q = 0 := by
    have hzero := (add_eq_zero_iff_of_nonneg hps hqs).mp hsum
    simpa [hσ, (sub_pos.mpr hpr).ne'] using hzero.2
  have hne : p ≠ q := by
    rintro rfl
    exact lt_asymm hpr hrq
  have honLine : ∀ c, side (v i) (v (next n i)) c = 0 → side a b c = 0 := by
    intro c hc0
    have hcollinear := normSq_mul_side hp0 hq0 hc0
    have hparallel := side_mul_of_parallel hpLine hqLine c
    rw [mul_eq_zero_iff_left (normSq_pos (h.ne_next hi)).ne'] at hcollinear
    rw [hcollinear, mul_zero] at hparallel
    exact (mul_eq_zero_iff_left (normSq_pos hne).ne').mp hparallel.symm
  exact not_on_line h hc hi ⟨honLine _ (side_self _ _), honLine _ (side_other _ _)⟩

omit [IsStrictOrderedRing K] in
theorem Crosses.ne (hc : Crosses n v a b) : a ≠ b := by
  rintro rfl
  obtain ⟨i, -, hpos⟩ := hc.pos
  simp [side] at hpos

theorem eq_of_along (hne : a ≠ b) (hp : side a b p = 0) (hq : side a b q = 0)
    (halong : along a b p = along a b q) : p = q := by
  have hnorm := (normSq_pos hne).ne'
  simp only [side, along] at *
  apply Prod.ext
  · apply mul_left_cancel₀ hnorm
    linear_combination (b.1 - a.1) * halong - (b.2 - a.2) * (hp - hq)
  · apply mul_left_cancel₀ hnorm
    linear_combination (b.2 - a.2) * halong + (b.1 - a.1) * (hp - hq)

/-- The line meets the boundary in two points at most. -/
theorem third_eq (h : IsConvex n v) (hc : Crosses n v a b) (hp : OnBoundary n v p)
    (hq : OnBoundary n v q) (hr : OnBoundary n v r) (hpLine : side a b p = 0)
    (hqLine : side a b q = 0) (hrLine : side a b r = 0) (hne : p ≠ q) : r = p ∨ r = q := by
  rcases lt_trichotomy (along a b r) (along a b p) with hrp | hrp | hrp
  · rcases lt_trichotomy (along a b q) (along a b r) with hqr | hqr | hqr
    · exact (not_between h hc hq hp hr hqLine hpLine hrLine hqr hrp).elim
    · exact Or.inr (eq_of_along hc.ne hrLine hqLine hqr.symm)
    · rcases lt_trichotomy (along a b p) (along a b q) with hpq | hpq | hpq
      · exact (not_between h hc hr hq hp hrLine hqLine hpLine hrp hpq).elim
      · exact (hne (eq_of_along hc.ne hpLine hqLine hpq)).elim
      · exact (not_between h hc hr hp hq hrLine hpLine hqLine hqr hpq).elim
  · exact Or.inl (eq_of_along hc.ne hrLine hpLine hrp)
  · rcases lt_trichotomy (along a b q) (along a b r) with hqr | hqr | hqr
    · rcases lt_trichotomy (along a b p) (along a b q) with hpq | hpq | hpq
      · exact (not_between h hc hp hr hq hpLine hrLine hqLine hpq hqr).elim
      · exact (hne (eq_of_along hc.ne hpLine hqLine hpq)).elim
      · exact (not_between h hc hq hr hp hqLine hrLine hpLine hpq hrp).elim
    · exact Or.inr (eq_of_along hc.ne hrLine hqLine hqr.symm)
    · exact (not_between h hc hp hq hr hpLine hqLine hrLine hrp hqr).elim

/-- Edges that cross the line in opposite directions do not meet inside one of them. -/
theorem not_meet (h : IsConvex n v) (hc : Crosses n v a b) (hi : i < n) (hj : j < n)
    (hopposite : (side a b (v (next n i)) - side a b (v i)) *
      (side a b (v (next n j)) - side a b (v j)) < 0)
    {t : K} (h0 : 0 < t) (h1 : t < 1)
    (hp : OnSegment (v i) (v (next n i)) (toward (v j) (v (next n j)) t)) : False := by
  obtain ⟨σ, hσ, hsides⟩ := h.sides
  have hon := side_of_onSegment hp
  rw [side_toward] at hon
  have hfirst := mul_nonneg (sub_pos.mpr h1).le (hsides i hi j hj)
  have hsecond := mul_nonneg h0.le (hsides i hi _ (next_lt hj))
  have hsum : (1 - t) * (σ * side (v i) (v (next n i)) (v j)) +
      t * (σ * side (v i) (v (next n i)) (v (next n j))) = 0 := by
    linear_combination σ * hon
  have hzero := (add_eq_zero_iff_of_nonneg hfirst hsecond).mp hsum
  -- both ends of the other edge are on the line of this one
  have hj0 : side (v i) (v (next n i)) (v j) = 0 := by
    simpa [hσ, (sub_pos.mpr h1).ne'] using hzero.1
  have hnext0 : side (v i) (v (next n i)) (v (next n j)) = 0 := by
    simpa [hσ, h0.ne'] using hzero.2
  obtain ⟨k, hk, hfat⟩ := hc.fat i hi
  have hcollinear := side_mul_of_collinear (a := a) (b := b) hj0 hnext0 (v k)
  have hsame := mul_nonneg_of_common hσ (hsides i hi k hk) (hsides j hj k hk)
  have hne : side a b (v (next n j)) - side a b (v j) ≠ 0 := by
    intro hzero
    rw [hzero, mul_zero] at hopposite
    exact lt_irrefl 0 hopposite
  have hsq := mul_self_pos.mpr (mul_ne_zero hne hfat)
  have hprod := mul_nonpos_of_nonpos_of_nonneg hopposite.le hsame
  have heq : ((side a b (v (next n j)) - side a b (v j)) * side (v i) (v (next n i)) (v k)) *
      ((side a b (v (next n j)) - side a b (v j)) * side (v i) (v (next n i)) (v k)) =
      ((side a b (v (next n i)) - side a b (v i)) * (side a b (v (next n j)) - side a b (v j))) *
        (side (v i) (v (next n i)) (v k) * side (v j) (v (next n j)) (v k)) := by
    linear_combination
      (side a b (v (next n j)) - side a b (v j)) * side (v i) (v (next n i)) (v k) * hcollinear
  linarith

end

section

variable {n : ℕ} {v : ℕ → ℝ × ℝ} {a b c d p q r : ℝ × ℝ}

/-- The polygon with its inside. -/
def region (n : ℕ) (v : ℕ → ℝ × ℝ) : Set (ℝ × ℝ) := convexHull ℝ (v '' Set.Iio n)

theorem vertex_mem_region {i : ℕ} (hi : i < n) : v i ∈ region n v :=
  subset_convexHull ℝ _ (Set.mem_image_of_mem v hi)

theorem toward_mem_region {t : ℝ} (hp : p ∈ region n v) (hq : q ∈ region n v) (h0 : 0 ≤ t)
    (h1 : t ≤ 1) : toward p q t ∈ region n v := by
  have heq : toward p q t = (1 - t) • p + t • q := by
    apply Prod.ext
    · simp only [toward, Prod.fst_add, Prod.smul_fst, smul_eq_mul]
      ring
    · simp only [toward, Prod.snd_add, Prod.smul_snd, smul_eq_mul]
      ring
  rw [heq]
  exact convex_convexHull ℝ (v '' Set.Iio n) hp hq (sub_nonneg.mpr h1) h0 (by ring)

theorem mem_region_of_onBoundary (hp : OnBoundary n v p) : p ∈ region n v := by
  obtain ⟨i, hi, t, h0, h1, rfl⟩ := hp
  exact toward_mem_region (vertex_mem_region hi) (vertex_mem_region (next_lt hi)) h0 h1

/-- With no vertex on one side of a line the polygon has no point there. -/
theorem side_nonpos_of_mem_region (hle : ∀ i < n, side c d (v i) ≤ 0) (hp : p ∈ region n v) :
    side c d p ≤ 0 := by
  have hconvex : Convex ℝ {r | side c d r ≤ 0} := by
    intro x hx y hy s t hs ht hst
    have hcomb : side c d (s • x + t • y) = s * side c d x + t * side c d y := by
      obtain rfl : s = 1 - t := by linarith
      simp only [side, Prod.fst_add, Prod.snd_add, Prod.smul_fst, Prod.smul_snd, smul_eq_mul]
      ring
    change side c d (s • x + t • y) ≤ 0
    rw [hcomb]
    exact add_nonpos (mul_nonpos_of_nonneg_of_nonpos hs hx)
      (mul_nonpos_of_nonneg_of_nonpos ht hy)
  refine convexHull_min ?_ hconvex hp
  rintro _ ⟨i, hi, rfl⟩
  exact hle i hi

/-- From a point inside, one can go a little further to either side of a line. -/
theorem exists_side_pos (hne : c ≠ d) (hp : p ∈ interior (region n v)) (hside : 0 ≤ side c d p) :
    ∃ i < n, 0 < side c d (v i) := by
  by_contra hnone
  push Not at hnone
  let off (ε : ℝ) : ℝ × ℝ := (p.1 - ε * (d.2 - c.2), p.2 + ε * (d.1 - c.1))
  have hoff : Continuous off := by
    apply Continuous.prodMk <;> fun_prop
  have hzero : off 0 = p := by simp [off]
  have hnear : ∀ᶠ ε in nhds (0 : ℝ), off ε ∈ interior (region n v) := by
    apply hoff.continuousAt.eventually
    rw [hzero]
    exact isOpen_interior.mem_nhds hp
  obtain ⟨ε, hε, hmem⟩ := (Filter.Eventually.and (self_mem_nhdsWithin (a := (0 : ℝ))
    (s := Set.Ioi 0)) (hnear.filter_mono nhdsWithin_le_nhds)).exists
  have hgo : side c d (off ε) =
      side c d p + ε * ((d.1 - c.1) ^ 2 + (d.2 - c.2) ^ 2) := by
    simp only [side, off]
    ring
  have hlater := side_nonpos_of_mem_region hnone (interior_subset hmem)
  have hpos := mul_pos hε (normSq_pos hne)
  linarith

theorem side_swap (c d p : ℝ × ℝ) : side d c p = -side c d p := by
  simp only [side]
  ring

/-- A line through the interior has vertices on both sides. -/
theorem crosses_of_meets (h : IsConvex n v) (hne : a ≠ b) (hp : p ∈ interior (region n v))
    (hline : side a b p = 0) : Crosses n v a b where
  pos := exists_side_pos hne hp hline.ge
  neg := by
    have hback : 0 ≤ side b a p := by rw [side_swap, hline, neg_zero]
    obtain ⟨i, hi, hpos⟩ := exists_side_pos hne.symm hp hback
    rw [side_swap] at hpos
    exact ⟨i, hi, neg_pos.mp hpos⟩
  fat i hi := by
    rcases le_total 0 (side (v i) (v (next n i)) p) with hside | hside
    · obtain ⟨j, hj, hpos⟩ := exists_side_pos (h.ne_next hi) hp hside
      exact ⟨j, hj, hpos.ne'⟩
    · have hback : 0 ≤ side (v (next n i)) (v i) p := by
        rw [side_swap]
        exact neg_nonneg.mpr hside
      obtain ⟨j, hj, hpos⟩ := exists_side_pos (h.ne_next hi).symm hp hback
      rw [side_swap] at hpos
      exact ⟨j, hj, (neg_pos.mp hpos).ne⟩

end

end Paparazzi.Math.ConvexPolygon
