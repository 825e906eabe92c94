import Mathlib
import Paparazzi.Library.LinkedRing
import Paparazzi.Math.Tesselation

/-!
Areas in `in_tesselation`: a ring of vertices loses the triangle at a vertex that is taken out, and
turning the polygon round changes the sign.
-/

namespace Paparazzi.Math.Tesselation

open Paparazzi.Library.LinkedRing

/-! ### Absolute values in sums -/

section Signs

variable {K : Type} [AddCommGroup K] [LinearOrder K] [IsOrderedAddMonoid K]

theorem sum_le_sum_map_abs (l : List K) : l.sum ≤ (l.map abs).sum := by
  induction l with
  | nil => rfl
  | cons x l ih =>
      rw [List.map_cons, List.sum_cons, List.sum_cons]
      exact add_le_add (le_abs_self x) ih

theorem neg_sum_le_sum_map_abs (l : List K) : -l.sum ≤ (l.map abs).sum := by
  induction l with
  | nil => rw [List.map_nil, List.sum_nil, neg_zero]
  | cons x l ih =>
      rw [List.map_cons, List.sum_cons, List.sum_cons, neg_add]
      exact add_le_add (neg_le_abs x) ih

theorem sum_eq_sum_map_abs_iff (l : List K) : l.sum = (l.map abs).sum ↔ ∀ x ∈ l, 0 ≤ x := by
  induction l with
  | nil => simp
  | cons x l ih =>
      rw [List.map_cons, List.sum_cons, List.sum_cons,
        add_eq_add_iff_eq_and_eq (le_abs_self x) (sum_le_sum_map_abs l), ih, List.forall_mem_cons,
        eq_comm, abs_eq_self]

theorem neg_sum_eq_sum_map_abs_iff (l : List K) :
    -l.sum = (l.map abs).sum ↔ ∀ x ∈ l, x ≤ 0 := by
  induction l with
  | nil => simp
  | cons x l ih =>
      rw [List.map_cons, List.sum_cons, List.sum_cons, neg_add,
        add_eq_add_iff_eq_and_eq (neg_le_abs x) (neg_sum_le_sum_map_abs l), ih,
        List.forall_mem_cons, eq_comm, abs_eq_neg_self]

/-- Values cancel in a sum unless they are all of one sign. -/
theorem sum_map_abs_eq_abs_sum_iff (l : List K) :
    (l.map abs).sum = |l.sum| ↔ (∀ x ∈ l, 0 ≤ x) ∨ ∀ x ∈ l, x ≤ 0 := by
  have hle : |l.sum| ≤ (l.map abs).sum :=
    abs_le'.mpr ⟨sum_le_sum_map_abs l, neg_sum_le_sum_map_abs l⟩
  rw [← sum_eq_sum_map_abs_iff, ← neg_sum_eq_sum_map_abs_iff]
  constructor
  · intro h
    rcases abs_choice l.sum with habs | habs
    · exact Or.inl (habs.symm.trans h.symm)
    · exact Or.inr (habs.symm.trans h.symm)
  · rintro (h | h)
    · exact le_antisymm (h ▸ le_abs_self l.sum) hle
    · exact le_antisymm (h ▸ neg_le_abs l.sum) hle

end Signs

/-! ### Areas -/

variable {K : Type} [Field K]

/-- The turn at the middle of a triangle of vertices, which is given from the last one to the
first. -/
def turnOf (l : List (K × K)) (t : ℕ × ℕ × ℕ) : K :=
  crossProduct (vectMake (point l t.2.2) (point l t.2.1)) (vectMake (point l t.2.2) (point l t.1))

/-- The cross products along the edges of a ring of vertices. -/
def ringArea (l : List (K × K)) (n : ℕ) (r : ℕ → ℕ) : K :=
  ∑ i ∈ Finset.range n, crossProduct (point l (r i)) (point l (r (i + 1)))

theorem crossProduct_vectMake (a b c : K × K) :
    crossProduct (vectMake a b) (vectMake a c) =
      crossProduct a b + crossProduct b c - crossProduct a c := by
  simp only [crossProduct, vectMake]
  ring

theorem crossProduct_swap (a b : K × K) : crossProduct b a = -crossProduct a b := by
  simp only [crossProduct]
  ring

theorem ringArea_shift {prev next : ℕ → ℕ} {n : ℕ} {r : ℕ → ℕ} (l : List (K × K))
    (h : IsRing prev next n r) (m : ℕ) : ringArea l n (fun i => r (i + m)) = ringArea l n r := by
  have hperiodic : ∀ i, crossProduct (point l (r (i + n))) (point l (r (i + n + 1))) =
      crossProduct (point l (r i)) (point l (r (i + 1))) := by
    intro i
    rw [h.periodic, Nat.add_right_comm, h.periodic]
  rw [ringArea, ringArea]
  refine Eq.trans (Finset.sum_congr rfl fun i _ => ?_) (sum_range_add_of_periodic hperiodic m)
  rw [Nat.add_right_comm]

/-- Taking the last vertex out takes the triangle at it from the area. -/
theorem ringArea_remove {prev next : ℕ → ℕ} {n : ℕ} {r : ℕ → ℕ} (l : List (K × K))
    (h : IsRing prev next (n + 2) r) :
    turnOf l (r 0, r (n + 1), r n) + ringArea l (n + 1) (fun i => r (i % (n + 1))) =
      ringArea l (n + 2) r := by
  have hlast : r (n + 1 + 1) = r 0 := by
    rw [← h.periodic 0]
    congr 1
    omega
  have hstart : ∑ i ∈ Finset.range n, crossProduct (point l (r (i % (n + 1))))
      (point l (r ((i + 1) % (n + 1)))) =
      ∑ i ∈ Finset.range n, crossProduct (point l (r i)) (point l (r (i + 1))) := by
    refine Finset.sum_congr rfl fun i hi => ?_
    have hin : i < n := Finset.mem_range.mp hi
    rw [Nat.mod_eq_of_lt (by omega : i < n + 1), Nat.mod_eq_of_lt (by omega : i + 1 < n + 1)]
  simp only [ringArea, turnOf]
  rw [Finset.sum_range_succ, Finset.sum_range_succ, Finset.sum_range_succ, hstart, hlast,
    Nat.mod_self, Nat.mod_eq_of_lt (Nat.lt_succ_self n), crossProduct_vectMake,
    crossProduct_swap (point l (r 0)) (point l (r n))]
  ring

theorem ringArea_two {prev next : ℕ → ℕ} {r : ℕ → ℕ} (l : List (K × K))
    (h : IsRing prev next 2 r) : ringArea l 2 r = 0 := by
  have hlast : r 2 = r 0 := h.periodic 0
  rw [ringArea, Finset.sum_range_succ, Finset.sum_range_succ, Finset.sum_range_zero, hlast,
    crossProduct_swap (point l (r (0 + 1))) (point l (r 0))]
  ring

/-! ### The polygon turned round -/

theorem point_reverse (l : List (K × K)) {i : ℕ} (h : i < l.length) :
    point l.reverse i = point l (l.length - 1 - i) := by
  rw [point, point, List.getD_eq_getElem _ _ (by simpa using h),
    List.getD_eq_getElem _ _ (by omega), List.getElem_reverse]

theorem signedArea_reverse (l : List (K × K)) : signedArea l.reverse = -signedArea l := by
  have hperiodic : ∀ i, crossProduct (point l ((i + l.length) % l.length))
      (point l ((i + l.length + 1) % l.length)) =
      crossProduct (point l (i % l.length)) (point l ((i + 1) % l.length)) := by
    intro i
    rw [Nat.add_right_comm, Nat.add_mod_right, Nat.add_mod_right]
  -- an edge is met from its other end
  have hcross : ∀ j ∈ Finset.range l.length,
      crossProduct (point l.reverse (l.length - 1 - j))
        (point l.reverse ((l.length - 1 - j + 1) % l.length)) =
      -crossProduct (point l ((j + (l.length - 1)) % l.length))
        (point l ((j + (l.length - 1) + 1) % l.length)) := by
    intro j hj
    have hlt : j < l.length := Finset.mem_range.mp hj
    have hself : j + (l.length - 1) + 1 = j + l.length := by omega
    rw [point_reverse l (by omega), point_reverse l (Nat.mod_lt _ (by omega)), hself,
      Nat.add_mod_right, Nat.mod_eq_of_lt hlt, ← crossProduct_swap]
    congr 2
    · omega
    · rcases j with _ | j
      · have hn : l.length - 1 - 0 + 1 = l.length := by omega
        rw [hn, Nat.mod_self, Nat.mod_eq_of_lt (by omega)]
        omega
      · have hback : j + 1 + (l.length - 1) = j + l.length := by omega
        rw [hback, Nat.add_mod_right, Nat.mod_eq_of_lt (by omega), Nat.mod_eq_of_lt (by omega)]
        omega
  have hshift : ∑ j ∈ Finset.range l.length,
      crossProduct (point l ((j + (l.length - 1)) % l.length))
        (point l ((j + (l.length - 1) + 1) % l.length)) =
      ∑ j ∈ Finset.range l.length,
        crossProduct (point l (j % l.length)) (point l ((j + 1) % l.length)) :=
    @sum_range_add_of_periodic K _
      (fun j => crossProduct (point l (j % l.length)) (point l ((j + 1) % l.length)))
      l.length hperiodic (l.length - 1)
  have hmod : ∑ j ∈ Finset.range l.length,
      crossProduct (point l (j % l.length)) (point l ((j + 1) % l.length)) =
      ∑ j ∈ Finset.range l.length, crossProduct (point l j) (point l ((j + 1) % l.length)) := by
    refine Finset.sum_congr rfl fun j hj => ?_
    rw [Nat.mod_eq_of_lt (Finset.mem_range.mp hj)]
  rw [signedArea, signedArea, List.length_reverse, ← Finset.sum_range_reflect,
    Finset.sum_congr rfl hcross, Finset.sum_neg_distrib, hshift, hmod, neg_div]

section

variable [LinearOrder K]

theorem length_oriented (poly : List (K × K)) : (oriented poly).length = poly.length := by
  rw [oriented]
  split
  · exact List.length_reverse
  · rfl

theorem polyArea_oriented (poly : List (K × K)) : polyArea (oriented poly) = polyArea poly := by
  rw [oriented]
  split
  · rw [polyArea, signedArea_reverse, abs_neg, polyArea]
  · rfl

theorem corners_renumber (poly : List (K × K)) {t : ℕ × ℕ × ℕ} (h₁ : t.1 < poly.length)
    (h₂ : t.2.1 < poly.length) (h₃ : t.2.2 < poly.length) :
    corners poly (renumber poly t) = corners (oriented poly) t := by
  rw [renumber, oriented]
  split
  · rw [corners, corners, point_reverse poly h₁, point_reverse poly h₂, point_reverse poly h₃]
  · rfl

theorem renumber_lt (poly : List (K × K)) {t : ℕ × ℕ × ℕ} (h₁ : t.1 < poly.length)
    (h₂ : t.2.1 < poly.length) (h₃ : t.2.2 < poly.length) :
    (renumber poly t).1 < poly.length ∧ (renumber poly t).2.1 < poly.length ∧
      (renumber poly t).2.2 < poly.length := by
  rw [renumber]
  split
  · refine ⟨?_, ?_, ?_⟩ <;> simp only <;> omega
  · exact ⟨h₁, h₂, h₃⟩

end

variable [LinearOrder K] [IsStrictOrderedRing K]

theorem ringArea_mod (l : List (K × K)) :
    ringArea l l.length (fun i => i % l.length) = 2 * signedArea l := by
  rw [signedArea, mul_div_cancel₀ _ (zero_lt_two.ne' : (2 : K) ≠ 0), ringArea]
  refine Finset.sum_congr rfl fun i hi => ?_
  rw [Nat.mod_eq_of_lt (Finset.mem_range.mp hi)]

theorem polyArea_corners (l : List (K × K)) (t : ℕ × ℕ × ℕ) :
    polyArea (corners l t) = |turnOf l t| / 2 := by
  have hsigned : signedArea (corners l t) = -turnOf l t / 2 := by
    simp only [signedArea, corners, turnOf, crossProduct, vectMake, point, List.length_cons,
      List.length_nil, Finset.sum_range_succ, Finset.sum_range_zero, List.getD_cons_zero,
      List.getD_cons_succ, Nat.reduceAdd, Nat.reduceMod]
    ring
  rw [polyArea, hsigned, abs_div, abs_neg, abs_two]

/-- Triangles have the area of the polygon together if their signed areas do and they turn one
way. -/
theorem sum_polyArea_corners_iff (l : List (K × K)) {triangles : List (ℕ × ℕ × ℕ)}
    (h : (triangles.map (turnOf l)).sum = 2 * signedArea l) :
    (triangles.map fun t => polyArea (corners l t)).sum = polyArea l ↔
      (∀ t ∈ triangles, 0 ≤ turnOf l t) ∨ ∀ t ∈ triangles, turnOf l t ≤ 0 := by
  have htwo : (0 : K) < 2 := zero_lt_two
  have hsum : (triangles.map fun t => polyArea (corners l t)).sum =
      ((triangles.map (turnOf l)).map abs).sum / 2 := by
    rw [div_eq_mul_inv, List.map_map, ← List.sum_map_mul_right]
    refine congrArg List.sum (List.map_congr_left fun t _ => ?_)
    rw [polyArea_corners, div_eq_mul_inv]
    rfl
  have hpoly : polyArea l = |(triangles.map (turnOf l)).sum| / 2 := by
    rw [h, polyArea, abs_mul, abs_two, mul_div_cancel_left₀ _ htwo.ne']
  rw [hsum, hpoly, div_left_inj' htwo.ne', sum_map_abs_eq_abs_sum_iff, List.forall_mem_map,
    List.forall_mem_map]

end Paparazzi.Math.Tesselation
