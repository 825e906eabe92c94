import Mathlib
import Paparazzi.Library.Numerals
import Paparazzi.Math.ConvexPolygon

/-!
The line clipping of the polygon survey: the edges of the polygon are searched in the order of
their numbers, and the search stops at the second edge that the line meets.
-/

namespace Paparazzi.Fixedwing.PolySurvey

open Math.ConvexPolygon

attribute [local instance] Library.Numerals.atLeastTwo_two

section

variable {K : Type*} [Field K] [LinearOrder K]

def interceptTwoLines (x y : K × K) (a1 a2 b1 b2 : K) : Option (K × K) :=
  let divider := (b2 - a2) * (y.1 - x.1) + (x.2 - y.2) * (b1 - a1)
  if divider = 0 then none
  else
    let fac := (y.1 * (x.2 - a2) + x.1 * (a2 - y.2) + a1 * (y.2 - x.2)) / divider
    if fac > 1 then none
    else if fac < 0 then none
    else some (a1 + fac * (b1 - a1), a2 + fac * (b2 - a2))

/-- The variables of the search. -/
structure Found (K : Type*) where
  count : ℕ
  x : K × K
  y : K × K

/-- The loop over the edges from the waypoint `i` to the next one, `m` of them. -/
def searchEdges (waypoints : ℕ → K × K) (a b : K × K) : ℕ → ℕ → Found K → Found K
  | 0, _, s => s
  | m + 1, i, s =>
      match interceptTwoLines a b (waypoints i).1 (waypoints i).2
          (waypoints (i + 1)).1 (waypoints (i + 1)).2 with
      | none => searchEdges waypoints a b m (i + 1) s
      | some tmp =>
          if s.count = 0 then
            searchEdges waypoints a b m (i + 1) { s with x := tmp, count := s.count + 1 }
          else { s with y := tmp, count := s.count + 1 }

/-- The edge from the last waypoint of the polygon to the first. -/
def wrapOver (polyCount : ℕ) (waypoints : ℕ → K × K) (a b : K × K) (s : Found K) : Found K :=
  if s.count = 1 then
    match interceptTwoLines a b (waypoints (polyCount - 1)).1 (waypoints (polyCount - 1)).2
        (waypoints 0).1 (waypoints 0).2 with
    | none => s
    | some tmp => { s with y := tmp, count := s.count + 1 }
  else s

def changePoints (dirVec x y : K × K) : (K × K) × (K × K) :=
  if |dirVec.1| > |dirVec.2| then
    if (y.1 - x.1) / dirVec.1 < 0 then (y, x) else (x, y)
  else
    if (y.2 - x.2) / dirVec.2 < 0 then (y, x) else (x, y)

/-- The answer, and what is in the two points afterwards. The waypoints are those from
`poly_first` on. -/
def getTwoIntersects (polyCount : ℕ) (waypoints : ℕ → K × K) (dirVec x y a b : K × K) :
    Bool × (K × K) × (K × K) :=
  let s := wrapOver polyCount waypoints a b
    (searchEdges waypoints a b (polyCount - 1) 0 ⟨0, x, y⟩)
  if s.count ≠ 2 then (false, s.x, s.y) else (true, changePoints dirVec s.x s.y)

/-- The line meets the edge, and is not the line of the edge. -/
def Met (n : ℕ) (w : ℕ → K × K) (a b : K × K) (i : ℕ) : Prop :=
  side a b (w i) ≠ side a b (w (next n i)) ∧ side a b (w i) * side a b (w (next n i)) ≤ 0

instance (n : ℕ) (w : ℕ → K × K) (a b : K × K) (i : ℕ) : Decidable (Met n w a b i) :=
  inferInstanceAs (Decidable (_ ∧ _))

/-- Where the line crosses the edge. -/
def crossing (n : ℕ) (w : ℕ → K × K) (a b : K × K) (i : ℕ) : K × K :=
  toward (w i) (w (next n i)) (side a b (w i) / (side a b (w i) - side a b (w (next n i))))

/-- The result is the pair of the points in which the line crosses the boundary, the first one
before the second one. -/
structure Clips (n : ℕ) (w : ℕ → K × K) (dirVec a b : K × K)
    (result : Bool × (K × K) × (K × K)) : Prop where
  found : result.1 = true
  distinct : result.2.1 ≠ result.2.2
  boundary : ∀ p, OnBoundary n w p ∧ side a b p = 0 ↔ p = result.2.1 ∨ p = result.2.2
  ordered : ∃ s : K, 0 < s ∧ result.2.2 - result.2.1 = s • dirVec

/-- The lowest-numbered edge that the line meets does not end on the line. -/
def EndsOffLine (n : ℕ) (w : ℕ → K × K) (a b : K × K) : Prop :=
  ∀ i < n, side a b (w i) * side a b (w (next n i)) ≤ 0 →
    (∀ j < i, 0 < side a b (w j) * side a b (w (next n j))) → side a b (w (next n i)) ≠ 0

variable {n i : ℕ} {w : ℕ → K × K} {dirVec a b x y : K × K} {s : Found K}

/-- What the search knows when it has been through the edges before `i`. -/
inductive Searched (n : ℕ) (w : ℕ → K × K) (a b : K × K) (i : ℕ) (s : Found K) : Prop
  | nothing (count : s.count = 0) (unmet : ∀ j < i, ¬Met n w a b j)
  | one (e : ℕ) (count : s.count = 1) (lt : e < i) (met : Met n w a b e)
      (unmet : ∀ j < i, j ≠ e → ¬Met n w a b j) (x_eq : s.x = crossing n w a b e)
  | two (e e' : ℕ) (count : s.count = 2) (lt : e < e') (lt' : e' < i) (met : Met n w a b e)
      (met' : Met n w a b e') (unmet : ∀ j < e', j ≠ e → ¬Met n w a b j)
      (x_eq : s.x = crossing n w a b e) (y_eq : s.y = crossing n w a b e')

theorem Searched.unmet (h : Searched n w a b i s) (hcount : s.count < 2)
    (hunmet : ¬Met n w a b i) : Searched n w a b (i + 1) s := by
  rcases h with ⟨hzero, hnone⟩ | ⟨e, hone, hlt, hmet, hnone, hx⟩ | ⟨e, e', htwo, hrest⟩
  · refine .nothing hzero fun j hj => ?_
    rcases Nat.lt_succ_iff_lt_or_eq.mp hj with hj | rfl
    · exact hnone j hj
    · exact hunmet
  · refine .one e hone (hlt.trans i.lt_succ_self) hmet (fun j hj hne => ?_) hx
    rcases Nat.lt_succ_iff_lt_or_eq.mp hj with hj | rfl
    · exact hnone j hj hne
    · exact hunmet
  · omega

theorem Searched.first (h : Searched n w a b i s) (hzero : s.count = 0) (hmet : Met n w a b i) :
    Searched n w a b (i + 1) { s with x := crossing n w a b i, count := s.count + 1 } := by
  rcases h with ⟨-, hnone⟩ | ⟨e, hone, -⟩ | ⟨e, e', htwo, -⟩
  · refine .one i (by simp [hzero]) i.lt_succ_self hmet (fun j hj hne => ?_) rfl
    exact hnone j (lt_of_le_of_ne (Nat.lt_succ_iff.mp hj) hne)
  · omega
  · omega

theorem Searched.second (h : Searched n w a b i s) (hone : s.count = 1)
    (hmet : Met n w a b i) :
    Searched n w a b (i + 1) { s with y := crossing n w a b i, count := s.count + 1 } := by
  rcases h with ⟨hzero, -⟩ | ⟨e, -, hlt, hmetFirst, hnone, hx⟩ | ⟨e, e', htwo, -⟩
  · omega
  · exact .two e i (by simp [hone]) hlt i.lt_succ_self hmetFirst hmet hnone hx rfl
  · omega

theorem Searched.mono {k : ℕ} (h : Searched n w a b i s) (htwo : s.count = 2) (hik : i ≤ k) :
    Searched n w a b k s := by
  rcases h with ⟨hzero, -⟩ | ⟨e, hone, -⟩ | ⟨e, e', -, hlt, hlt', hmet, hmet', hnone, hx, hy⟩
  · omega
  · omega
  · exact .two e e' htwo hlt (hlt'.trans_le hik) hmet hmet' hnone hx hy

variable [IsStrictOrderedRing K]

/-- The share of the way to the place where an affine function of the place is zero. -/
theorem div_sub_mem_iff {g h : K} (hne : g ≠ h) :
    0 ≤ g / (g - h) ∧ g / (g - h) ≤ 1 ↔ g * h ≤ 0 := by
  rcases lt_or_gt_of_ne hne with hlt | hgt
  · have hneg : g - h < 0 := sub_neg.mpr hlt
    rw [div_nonneg_iff, div_le_one_of_neg hneg]
    constructor
    · rintro ⟨hg, hh⟩
      have hh' : 0 ≤ h := by linarith
      rcases hg with ⟨-, hsub⟩ | ⟨hg, -⟩
      · linarith
      · exact mul_nonpos_of_nonpos_of_nonneg hg hh'
    · intro hprod
      rcases mul_nonpos_iff.mp hprod with ⟨hg, hh⟩ | ⟨hg, hh⟩
      · linarith
      · exact ⟨Or.inr ⟨hg, hneg.le⟩, by linarith⟩
  · have hpos : 0 < g - h := sub_pos.mpr hgt
    rw [div_le_one hpos, le_div_iff₀ hpos, zero_mul]
    constructor
    · rintro ⟨hg, hh⟩
      exact mul_nonpos_of_nonneg_of_nonpos hg (by linarith)
    · intro hprod
      rcases mul_nonpos_iff.mp hprod with ⟨hg, hh⟩ | ⟨hg, hh⟩
      · exact ⟨hg, by linarith⟩
      · linarith

theorem interceptTwoLines_eq (x y p q : K × K) :
    interceptTwoLines x y p.1 p.2 q.1 q.2 =
      if side x y p ≠ side x y q ∧ side x y p * side x y q ≤ 0 then
        some (toward p q (side x y p / (side x y p - side x y q)))
      else none := by
  have hdivider : (q.2 - p.2) * (y.1 - x.1) + (x.2 - y.2) * (q.1 - p.1) =
      -(side x y p - side x y q) := by
    simp only [side]
    ring
  have hfac : y.1 * (x.2 - p.2) + x.1 * (p.2 - y.2) + p.1 * (y.2 - x.2) = -side x y p := by
    simp only [side]
    ring
  simp only [interceptTwoLines, hdivider, hfac, neg_div_neg_eq, neg_eq_zero, sub_eq_zero]
  by_cases hne : side x y p = side x y q
  · simp [hne]
  · rw [if_neg hne]
    by_cases hmet : side x y p * side x y q ≤ 0
    · obtain ⟨h0, h1⟩ := (div_sub_mem_iff hne).mpr hmet
      rw [if_neg h1.not_gt, if_neg h0.not_gt, if_pos ⟨hne, hmet⟩]
      rfl
    · simp only [hmet, and_false, if_false]
      split_ifs with h1 h0
      · rfl
      · rfl
      · exact (hmet ((div_sub_mem_iff hne).mp ⟨not_lt.mp h0, not_lt.mp h1⟩)).elim

theorem intercept_edge (n : ℕ) (w : ℕ → K × K) (a b : K × K) (i : ℕ) :
    interceptTwoLines a b (w i).1 (w i).2 (w (next n i)).1 (w (next n i)).2 =
      if Met n w a b i then some (crossing n w a b i) else none := by
  rw [interceptTwoLines_eq]
  rfl

theorem searched_searchEdges (m : ℕ) (him : i + m < n) (h : Searched n w a b i s)
    (hcount : s.count < 2) :
    Searched n w a b (i + m) (searchEdges w a b m i s) := by
  induction m generalizing i s with
  | zero => exact h
  | succ m ih =>
      have hnext : next n i = i + 1 := if_neg (by omega)
      have hedge := intercept_edge n w a b i
      rw [hnext] at hedge
      rw [searchEdges, hedge, ← Nat.succ_add_eq_add_succ]
      by_cases hmet : Met n w a b i
      · rw [if_pos hmet]
        by_cases hzero : s.count = 0
        · simp only [if_pos hzero]
          exact ih (by omega) (h.first hzero hmet) (by simp [hzero])
        · simp only [if_neg hzero]
          have hone : s.count = 1 := by omega
          exact (h.second hone hmet).mono (by simp [hone]) (by omega)
      · rw [if_neg hmet]
        exact ih (by omega) (h.unmet hcount hmet) hcount

theorem searched_wrapOver {m : ℕ} (h : Searched (m + 1) w a b m s) (hne : s.count ≠ 0) :
    Searched (m + 1) w a b (m + 1) (wrapOver (m + 1) w a b s) := by
  have hedge := intercept_edge (m + 1) w a b m
  rw [show next (m + 1) m = 0 from if_pos rfl] at hedge
  rw [wrapOver, Nat.add_sub_cancel, hedge]
  by_cases hone : s.count = 1
  · rw [if_pos hone]
    by_cases hlast : Met (m + 1) w a b m
    · rw [if_pos hlast]
      exact h.second hone hlast
    · rw [if_neg hlast]
      exact h.unmet (by omega) hlast
  · rw [if_neg hone]
    have htwo : s.count = 2 := by
      rcases h with ⟨hzero, -⟩ | ⟨e, hone', -⟩ | ⟨e, e', htwo, -⟩
      · exact (hne hzero).elim
      · exact (hone hone').elim
      · exact htwo
    exact h.mono htwo m.le_succ

/-- The whole search finds the two lowest-numbered edges that the line meets, if a chain edge is
one of them. -/
theorem searched_getTwoIntersects (hn : 2 ≤ n) (x y : K × K)
    (hmet : ∃ e < n - 1, Met n w a b e) :
    Searched n w a b n (wrapOver n w a b (searchEdges w a b (n - 1) 0 ⟨0, x, y⟩)) := by
  obtain ⟨m, rfl⟩ : ∃ m, n = m + 1 := ⟨n - 1, by omega⟩
  rw [Nat.add_sub_cancel] at hmet ⊢
  have hstart : Searched (m + 1) w a b 0 ⟨0, x, y⟩ := .nothing rfl (by simp)
  have hchain := searched_searchEdges m (by omega) hstart (by simp)
  rw [zero_add] at hchain
  apply searched_wrapOver hchain
  intro hzero
  obtain ⟨e, he, hmet⟩ := hmet
  rcases hchain with ⟨-, hnone⟩ | ⟨e, hone, -⟩ | ⟨e, e', htwo, -⟩
  · exact hnone e he hmet
  · omega
  · omega

/-- Numbers with one sign each as the next have one sign. -/
theorem mul_pos_trans {g h k : K} (hgh : 0 < g * h) (hhk : 0 < h * k) : 0 < g * k := by
  have hprod := mul_pos hgh hhk
  rw [show g * h * (h * k) = h * h * (g * k) by ring] at hprod
  exact (mul_pos_iff_of_pos_left (mul_self_pos.mpr (left_ne_zero_of_mul hhk.ne'))).mp hprod

/-- Along edges that do not meet the line the sides stay the same. -/
theorem same_side {l m : ℕ} (hl : side a b (w l) ≠ 0)
    (hedges : ∀ i, l ≤ i → i < m → 0 < side a b (w i) * side a b (w (i + 1))) {k : ℕ}
    (hk : l ≤ k) (hkm : k ≤ m) : 0 < side a b (w l) * side a b (w k) := by
  induction k, hk using Nat.le_induction with
  | base => exact mul_self_pos.mpr hl
  | succ k hk ih => exact mul_pos_trans (ih (Nat.le_of_succ_le hkm)) (hedges k hk hkm)

theorem next_of_lt (hi : i + 1 < n) : next n i = i + 1 := if_neg hi.ne

/-- A line through the interior misses an edge only if the ends are strictly on one side. -/
theorem pos_of_not_met (h : IsConvex n w) (hc : Crosses n w a b) (hi : i < n)
    (hunmet : ¬Met n w a b i) : 0 < side a b (w i) * side a b (w (next n i)) := by
  rw [Met, not_and, not_le] at hunmet
  by_cases heq : side a b (w i) = side a b (w (next n i))
  · have hoff := not_on_line h hc hi
    rw [← heq] at hoff ⊢
    exact mul_self_pos.mpr fun hzero => hoff ⟨hzero, hzero⟩
  · exact hunmet heq

theorem pos_of_not_met_chain (h : IsConvex n w) (hc : Crosses n w a b) (hi : i + 1 < n)
    (hunmet : ¬Met n w a b i) : 0 < side a b (w i) * side a b (w (i + 1)) := by
  have hpos := pos_of_not_met h hc (Nat.lt_of_succ_lt hi) hunmet
  rwa [next_of_lt hi] at hpos

/-- The vertices are not all on one side. -/
theorem not_same_side (hc : Crosses n w a b) {g : K} (hg : g ≠ 0) :
    ¬∀ k < n, 0 ≤ g * side a b (w k) := by
  intro hsame
  obtain ⟨i, hi, hpos⟩ := hc.pos
  obtain ⟨j, hj, hneg⟩ := hc.neg
  have hgpos : 0 < g := lt_of_le_of_ne ((mul_nonneg_iff_of_pos_right hpos).mp (hsame i hi)) hg.symm
  exact (hsame j hj).not_gt (mul_neg_of_pos_of_neg hgpos hneg)

theorem exists_chain_met (h : IsConvex n w) (hc : Crosses n w a b) :
    ∃ e < n - 1, Met n w a b e := by
  by_contra hnone
  push Not at hnone
  have hthree := h.three_le
  have hedges : ∀ i, 0 ≤ i → i < n - 1 → 0 < side a b (w i) * side a b (w (i + 1)) :=
    fun i _ hi => pos_of_not_met_chain h hc (by omega) (hnone i hi)
  have hfirst := left_ne_zero_of_mul (hedges 0 le_rfl (by omega)).ne'
  exact not_same_side hc hfirst fun k hk => (same_side hfirst hedges k.zero_le (by omega)).le

theorem not_one_met (h : IsConvex n w) (hc : Crosses n w a b) {e : ℕ} (he : e < n)
    (hmet : Met n w a b e) (hunmet : ∀ j < n, j ≠ e → ¬Met n w a b j) : False := by
  have hthree := h.three_le
  obtain ⟨e', he', hmet'⟩ := exists_chain_met h hc
  obtain rfl : e' = e := by
    by_contra hne
    exact hunmet e' (by omega) hne hmet'
  have hprod := hmet.2
  rw [next_of_lt (by omega)] at hprod
  have hchain : ∀ i, i + 1 < n → i ≠ e' → 0 < side a b (w i) * side a b (w (i + 1)) :=
    fun i hi hne => pos_of_not_met_chain h hc hi (hunmet i (by omega) hne)
  have hlast := pos_of_not_met h hc (by omega) (hunmet (n - 1) (by omega) (by omega))
  rw [show next n (n - 1) = 0 from if_pos (by omega)] at hlast
  have hbehind : side a b (w (e' + 1)) ≠ 0 := by
    have hpos := pos_of_not_met h hc (i := e' + 1) (by omega) (hunmet _ (by omega) (by omega))
    exact left_ne_zero_of_mul hpos.ne'
  have hback := same_side (m := n - 1) hbehind
    (fun i hi hin => hchain i (by omega) (by omega)) (k := n - 1) (by omega) le_rfl
  have hfront := same_side (m := e') (right_ne_zero_of_mul hlast.ne')
    (fun i _ hie => hchain i (by omega) (by omega)) e'.zero_le le_rfl
  have hround := mul_pos_trans (mul_pos_trans hback hlast) hfront
  rw [mul_comm] at hround
  exact lt_irrefl _ (hround.trans_le hprod)

theorem crossing_onSegment (hmet : Met n w a b i) :
    OnSegment (w i) (w (next n i)) (crossing n w a b i) := by
  obtain ⟨h0, h1⟩ := (div_sub_mem_iff hmet.1).mpr hmet.2
  exact ⟨_, h0, h1, rfl⟩

omit [IsStrictOrderedRing K] in
theorem side_crossing (hmet : Met n w a b i) : side a b (crossing n w a b i) = 0 := by
  have hne := sub_ne_zero.mpr hmet.1
  rw [crossing, side_toward]
  field_simp
  ring

/-- Two edges the line meets, with no other one met between them. -/
structure Consecutive (n : ℕ) (w : ℕ → K × K) (a b : K × K) (e e' : ℕ) : Prop where
  lt : e < e'
  lt_count : e' < n
  met : Met n w a b e
  met' : Met n w a b e'
  unmet : ∀ j < e', j ≠ e → ¬Met n w a b j

/-- The vertices behind the first edge are on one side, up to the second edge. -/
theorem Consecutive.same {e e' : ℕ} (hcon : Consecutive n w a b e e') (h : IsConvex n w)
    (hc : Crosses n w a b) (hoff : side a b (w (e + 1)) ≠ 0) {k : ℕ} (hk : e < k) (hke : k ≤ e') :
    0 < side a b (w (e + 1)) * side a b (w k) := by
  have hltCount := hcon.lt_count
  exact same_side hoff (fun i hi hie => pos_of_not_met_chain h hc (by omega)
    (hcon.unmet i hie (by omega))) hk hke

/-- The line goes in across one of the edges and out across the other. -/
theorem Consecutive.opposite {e e' : ℕ} (hcon : Consecutive n w a b e e') (h : IsConvex n w)
    (hc : Crosses n w a b) (hoff : side a b (w (e + 1)) ≠ 0) :
    (side a b (w (next n e)) - side a b (w e)) *
      (side a b (w (next n e')) - side a b (w e')) < 0 := by
  have hlt := hcon.lt
  have hltCount := hcon.lt_count
  have hsame := hcon.same h hc hoff hlt le_rfl
  have hin := hcon.met.2
  have hout := hcon.met'.2
  rw [next_of_lt (by omega)] at hin ⊢
  have hinto : 0 < (side a b (w (e + 1)) - side a b (w e)) * side a b (w (e + 1)) := by
    have hsq := mul_self_pos.mpr hoff
    linarith
  have hback : 0 < side a b (w e') * -(side a b (w (next n e')) - side a b (w e')) := by
    have hsq := mul_self_pos.mpr (right_ne_zero_of_mul hsame.ne')
    linarith
  have hpos := mul_pos_trans (mul_pos_trans hinto hsame) hback
  linarith

omit [LinearOrder K] [IsStrictOrderedRing K] in
theorem crossing_of_start (hzero : side a b (w i) = 0) : crossing n w a b i = w i := by
  simp [crossing, toward, hzero]

omit [LinearOrder K] [IsStrictOrderedRing K] in
theorem crossing_of_end (hne : side a b (w i) ≠ side a b (w (next n i)))
    (hzero : side a b (w (next n i)) = 0) : crossing n w a b i = w (next n i) := by
  rw [hzero] at hne
  simp [crossing, toward, hzero, div_self hne]

/-- An edge that does not end on the line on either side is crossed inside. -/
theorem crossing_inside (hmet : Met n w a b i) (hstart : side a b (w i) ≠ 0)
    (hend : side a b (w (next n i)) ≠ 0) :
    ∃ t, 0 < t ∧ t < 1 ∧ crossing n w a b i = toward (w i) (w (next n i)) t := by
  obtain ⟨h0, h1⟩ := (div_sub_mem_iff hmet.1).mpr hmet.2
  have hsub := sub_ne_zero.mpr hmet.1
  refine ⟨_, lt_of_le_of_ne h0 (div_ne_zero hstart hsub).symm, lt_of_le_of_ne h1 ?_, rfl⟩
  rw [Ne, div_eq_one_iff_eq hsub]
  intro heq
  exact hend (by linear_combination heq)

/-- The points are different if the first edge does not end on the line. -/
theorem Consecutive.crossing_ne {e e' : ℕ} (hcon : Consecutive n w a b e e')
    (h : IsConvex n w) (hc : Crosses n w a b) (hoff : side a b (w (e + 1)) ≠ 0) :
    crossing n w a b e ≠ crossing n w a b e' := by
  intro heq
  have hlt := hcon.lt
  have hltCount := hcon.lt_count
  have hopposite := hcon.opposite h hc hoff
  have hon := crossing_onSegment hcon.met
  have hon' := crossing_onSegment hcon.met'
  have hoffStart := right_ne_zero_of_mul (hcon.same h hc hoff hlt le_rfl).ne'
  by_cases hend : side a b (w (next n e')) = 0
  · by_cases hstart : side a b (w e) = 0
    · -- the line comes back to the vertex it started from, with all the others on one side
      rw [crossing_of_start hstart, crossing_of_end hcon.met'.1 hend] at heq
      have hsame := h.injective e (hlt.trans hltCount) _ (next_lt hltCount) heq
      have hlast : e' = n - 1 ∧ e = 0 := by
        rw [next] at hsame
        split_ifs at hsame <;> omega
      refine not_same_side hc hoff fun k hk => ?_
      rcases Nat.eq_zero_or_pos k with rfl | hkpos
      · rw [← hlast.2, hstart, mul_zero]
      · exact (hcon.same h hc hoff (by omega) (by omega)).le
    · rw [← next_of_lt (n := n) (by omega)] at hoff
      obtain ⟨t, h0, h1, hinside⟩ := crossing_inside hcon.met hstart hoff
      rw [← heq, hinside] at hon'
      rw [mul_comm] at hopposite
      exact not_meet h hc hltCount (hlt.trans hltCount) hopposite h0 h1 hon'
  · obtain ⟨t, h0, h1, hinside⟩ := crossing_inside hcon.met' hoffStart hend
    rw [heq, hinside] at hon
    exact not_meet h hc (hlt.trans hltCount) hltCount hopposite h0 h1 hon

/-- The points are the same vertex if the first edge ends on the line. -/
theorem Consecutive.crossing_eq {e e' : ℕ} (hcon : Consecutive n w a b e e')
    (h : IsConvex n w) (hc : Crosses n w a b) (hon : side a b (w (e + 1)) = 0) :
    crossing n w a b e = crossing n w a b e' := by
  have hlt := hcon.lt
  have hltCount := hcon.lt_count
  have hnext : next n e = e + 1 := next_of_lt (by omega)
  have hbehind : e' = e + 1 := by
    by_contra hne
    have hpos := pos_of_not_met h hc (by omega) (hcon.unmet (e + 1) (by omega) (by omega))
    rw [hon, zero_mul] at hpos
    exact lt_irrefl 0 hpos
  subst hbehind
  rw [crossing_of_start hon, crossing_of_end hcon.met.1 (hnext ▸ hon), hnext]

theorem exists_consecutive (h : IsConvex n w) (hc : Crosses n w a b) (dirVec x y : K × K) :
    ∃ e e', Consecutive n w a b e e' ∧
      getTwoIntersects n w dirVec x y a b =
        (true, changePoints dirVec (crossing n w a b e) (crossing n w a b e')) := by
  have hthree := h.three_le
  have hchain := exists_chain_met h hc
  rw [getTwoIntersects]
  generalize hs : wrapOver n w a b (searchEdges w a b (n - 1) 0 ⟨0, x, y⟩) = s
  have hsearched := searched_getTwoIntersects (by omega) x y hchain
  rw [hs] at hsearched
  rcases hsearched with ⟨-, hnone⟩ | ⟨e, -, he, hmet, hnone, -⟩ |
    ⟨e, e', htwo, hlt, hlt', hmet, hmet', hnone, hx, hy⟩
  · obtain ⟨e, he, hmet⟩ := hchain
    exact (hnone e (by omega) hmet).elim
  · exact (not_one_met h hc he hmet hnone).elim
  · refine ⟨e, e', ⟨hlt, hlt', hmet, hmet', hnone⟩, ?_⟩
    simp [htwo, hx, hy]

omit [IsStrictOrderedRing K] in
theorem changePoints_eq_or (dirVec x y : K × K) :
    changePoints dirVec x y = (x, y) ∨ changePoints dirVec x y = (y, x) := by
  rw [changePoints]
  split_ifs <;> simp

/-- The two points come out in the direction of the vector. -/
theorem changePoints_ordered {dirVec x y : K × K} {t : K} (hdir : dirVec ≠ 0) (hne : x ≠ y)
    (ht : y - x = t • dirVec) :
    ∃ s : K, 0 < s ∧ (changePoints dirVec x y).2 - (changePoints dirVec x y).1 = s • dirVec := by
  have hx : y.1 - x.1 = t * dirVec.1 := congrArg Prod.fst ht
  have hy : y.2 - x.2 = t * dirVec.2 := congrArg Prod.snd ht
  have ht0 : t ≠ 0 := by
    rintro rfl
    rw [zero_smul, sub_eq_zero] at ht
    exact hne ht.symm
  have hchange : changePoints dirVec x y = if t < 0 then (y, x) else (x, y) := by
    rw [changePoints, hx, hy]
    by_cases hlarge : |dirVec.1| > |dirVec.2|
    · have hd : dirVec.1 ≠ 0 := abs_pos.mp ((abs_nonneg _).trans_lt hlarge)
      rw [if_pos hlarge, mul_div_cancel_right₀ t hd]
    · have hd : dirVec.2 ≠ 0 := by
        intro hzero
        rw [hzero, abs_zero, gt_iff_lt, abs_pos, not_not] at hlarge
        exact hdir (Prod.ext hlarge hzero)
      rw [if_neg hlarge, mul_div_cancel_right₀ t hd]
  rw [hchange]
  split_ifs with hneg
  · refine ⟨-t, neg_pos.mpr hneg, ?_⟩
    rw [neg_smul, ← ht, neg_sub]
  · exact ⟨t, lt_of_le_of_ne (not_lt.mp hneg) ht0.symm, ht⟩

/-- Points of a line differ by a multiple of its direction. -/
theorem exists_smul_of_side {t : K} (hdir : dirVec ≠ 0) (ht : t ≠ 0) (hb : b = a + t • dirVec)
    {p q : K × K} (hp : side a b p = 0) (hq : side a b q = 0) : ∃ s : K, q - p = s • dirVec := by
  subst hb
  have hcross : dirVec.1 * (q.2 - p.2) = dirVec.2 * (q.1 - p.1) := by
    apply mul_left_cancel₀ ht
    simp only [side, Prod.fst_add, Prod.snd_add, Prod.smul_fst, Prod.smul_snd, smul_eq_mul] at *
    linear_combination hq - hp
  have hone : dirVec.1 ≠ 0 ∨ dirVec.2 ≠ 0 := by
    by_contra hnone
    push Not at hnone
    exact hdir (Prod.ext hnone.1 hnone.2)
  rcases hone with hd | hd
  · refine ⟨(q.1 - p.1) / dirVec.1, Prod.ext ?_ ?_⟩
    · simp [hd]
    · simp only [Prod.snd_sub, Prod.smul_snd, smul_eq_mul]
      field_simp
      linear_combination hcross
  · refine ⟨(q.2 - p.2) / dirVec.2, Prod.ext ?_ ?_⟩
    · simp only [Prod.fst_sub, Prod.smul_fst, smul_eq_mul]
      field_simp
      linear_combination -hcross
    · simp [hd]

/-- The two points are those of the boundary, in order, unless they are the same. -/
theorem Consecutive.clips {e e' : ℕ} (hcon : Consecutive n w a b e e') (h : IsConvex n w)
    (hc : Crosses n w a b) {t : K} (hdir : dirVec ≠ 0) (ht : t ≠ 0) (hb : b = a + t • dirVec)
    (hne : crossing n w a b e ≠ crossing n w a b e') :
    Clips n w dirVec a b
      (true, changePoints dirVec (crossing n w a b e) (crossing n w a b e')) := by
  have hx : OnBoundary n w (crossing n w a b e) :=
    ⟨e, hcon.lt.trans hcon.lt_count, crossing_onSegment hcon.met⟩
  have hy : OnBoundary n w (crossing n w a b e') :=
    ⟨e', hcon.lt_count, crossing_onSegment hcon.met'⟩
  have hxLine := side_crossing hcon.met
  have hyLine := side_crossing hcon.met'
  have hboth : ∀ p, OnBoundary n w p ∧ side a b p = 0 ↔
      p = crossing n w a b e ∨ p = crossing n w a b e' := by
    intro p
    constructor
    · rintro ⟨hp, hpLine⟩
      exact third_eq h hc hx hy hp hxLine hyLine hpLine hne
    · rintro (rfl | rfl)
      · exact ⟨hx, hxLine⟩
      · exact ⟨hy, hyLine⟩
  obtain ⟨s, hs⟩ := exists_smul_of_side hdir ht hb hxLine hyLine
  have hordered := changePoints_ordered hdir hne hs
  rcases changePoints_eq_or dirVec (crossing n w a b e) (crossing n w a b e') with heq | heq
  · rw [heq] at hordered ⊢
    exact ⟨rfl, hne, hboth, hordered⟩
  · rw [heq] at hordered ⊢
    exact ⟨rfl, hne.symm, fun p => (hboth p).trans or_comm, hordered⟩

/-- The lowest-numbered edge that is met. -/
theorem Consecutive.endsOffLine_iff {e e' : ℕ} (hcon : Consecutive n w a b e e')
    (h : IsConvex n w) (hc : Crosses n w a b) :
    EndsOffLine n w a b ↔ side a b (w (e + 1)) ≠ 0 := by
  have hlt := hcon.lt
  have hltCount := hcon.lt_count
  have hnext : next n e = e + 1 := next_of_lt (by omega)
  have hbefore : ∀ j < e, 0 < side a b (w j) * side a b (w (next n j)) := fun j hj =>
    pos_of_not_met h hc (by omega) (hcon.unmet j (by omega) hj.ne)
  constructor
  · intro hends
    have hoff := hends e (by omega) hcon.met.2 hbefore
    rwa [hnext] at hoff
  · intro hoff i hi hmet hfirst
    obtain rfl : i = e := by
      rcases lt_trichotomy i e with hie | rfl | hie
      · exact absurd (hbefore i hie) hmet.not_gt
      · rfl
      · exact absurd (hfirst e hie) hcon.met.2.not_gt
    rwa [hnext]

/-- A line through the interior is clipped if and only if the lowest-numbered edge it meets does
not end on it. -/
theorem clips_iff (h : IsConvex n w) (hc : Crosses n w a b) {t : K} (hdir : dirVec ≠ 0)
    (ht : t ≠ 0) (hb : b = a + t • dirVec) (x y : K × K) :
    Clips n w dirVec a b (getTwoIntersects n w dirVec x y a b) ↔ EndsOffLine n w a b := by
  obtain ⟨e, e', hcon, hresult⟩ := exists_consecutive h hc dirVec x y
  rw [hresult, hcon.endsOffLine_iff h hc]
  constructor
  · intro hclips hon
    have hdistinct := hclips.distinct
    rw [hcon.crossing_eq h hc hon] at hdistinct
    rcases changePoints_eq_or dirVec (crossing n w a b e') (crossing n w a b e') with heq | heq
    · rw [heq] at hdistinct
      exact hdistinct rfl
    · rw [heq] at hdistinct
      exact hdistinct rfl
  · intro hoff
    exact hcon.clips h hc hdir ht hb (hcon.crossing_ne h hc hoff)

/-- Without a point of the boundary on the line nothing is found. -/
theorem getTwoIntersects_of_misses (hn : 2 ≤ n) (x y : K × K)
    (hmiss : ∀ p, OnBoundary n w p → side a b p ≠ 0) :
    (getTwoIntersects n w dirVec x y a b).1 = false := by
  have hunmet : ∀ i < n, ¬Met n w a b i := fun i hi hmet =>
    hmiss _ ⟨i, hi, crossing_onSegment hmet⟩ (side_crossing hmet)
  have hstart : Searched n w a b 0 ⟨0, x, y⟩ := .nothing rfl (by simp)
  have hchain := searched_searchEdges (n - 1) (by omega) hstart (by simp)
  have hzero : (searchEdges w a b (n - 1) 0 ⟨0, x, y⟩).count = 0 := by
    rcases hchain with ⟨hzero, -⟩ | ⟨e, -, he, hmet, -⟩ | ⟨e, e', -, he, he', hmet, -⟩
    · exact hzero
    · exact (hunmet e (by omega) hmet).elim
    · exact (hunmet e (by omega) hmet).elim
  simp [getTwoIntersects, wrapOver, hzero]

end

section

variable {n : ℕ} {w : ℕ → ℝ × ℝ} {dirVec a b : ℝ × ℝ}

/-- A line along the direction through the interior of a convex polygon is clipped to the two
points in which it crosses the boundary exactly when the lowest-numbered edge it meets does not
end on it, and nothing is found on a line that misses the polygon. -/
theorem getTwoIntersects_clips_iff (h : IsConvex n w) (hdir : dirVec ≠ 0) {t : ℝ} (ht : t ≠ 0)
    (hb : b = a + t • dirVec) (x y : ℝ × ℝ) :
    ((∃ p ∈ interior (region n w), side a b p = 0) →
      (Clips n w dirVec a b (getTwoIntersects n w dirVec x y a b) ↔ EndsOffLine n w a b)) ∧
    ((∀ p ∈ region n w, side a b p ≠ 0) →
      (getTwoIntersects n w dirVec x y a b).1 = false) := by
  constructor
  · rintro ⟨p, hp, hline⟩
    have hne : a ≠ b := by
      intro heq
      rw [hb, left_eq_add] at heq
      exact (smul_ne_zero ht hdir) heq
    exact clips_iff h (crosses_of_meets h hne hp hline) hdir ht hb x y
  · intro hmiss
    have hthree := h.three_le
    exact getTwoIntersects_of_misses (by omega) x y
      fun p hp => hmiss p (mem_region_of_onBoundary hp)

/-- A roof: to the apex along one edge, and down along the next. -/
def roof : ℕ → ℝ × ℝ
  | 0 => (0, 0)
  | 1 => (1, 1)
  | _ => (2, 0)

theorem isConvex_roof : IsConvex 3 roof where
  three_le := le_rfl
  injective i hi j hj heq := by
    interval_cases i <;> interval_cases j <;> simp [roof] at heq ⊢
  sides := by
    refine ⟨-1, by norm_num, fun i hi j hj => ?_⟩
    interval_cases i <;> interval_cases j <;> norm_num [roof, next, side]

theorem mem_interior_roof {p : ℝ × ℝ} (hlow : 0 < p.2) (hleft : p.2 < p.1)
    (hright : p.1 + p.2 < 2) : p ∈ interior (region 3 roof) := by
  have hopen : IsOpen {q : ℝ × ℝ | 0 < q.2 ∧ q.2 < q.1 ∧ q.1 + q.2 < 2} := by
    apply IsOpen.and (isOpen_lt (by fun_prop) (by fun_prop))
    exact IsOpen.and (isOpen_lt (by fun_prop) (by fun_prop)) (isOpen_lt (by fun_prop) (by fun_prop))
  refine mem_interior.mpr ⟨_, ?_, hopen, hlow, hleft, hright⟩
  rintro q ⟨hlow, hleft, hright⟩
  have h0 : roof 0 ∈ region 3 roof := vertex_mem_region (by norm_num)
  have h1 : roof 1 ∈ region 3 roof := vertex_mem_region (by norm_num)
  have h2 : roof 2 ∈ region 3 roof := vertex_mem_region (by norm_num)
  have htop : q.2 ≤ 1 := by linarith
  have hpos : 0 < 2 - 2 * q.2 := by linarith
  have hmem := toward_mem_region (t := (q.1 - q.2) / (2 - 2 * q.2))
    (toward_mem_region h0 h1 hlow.le htop) (toward_mem_region h2 h1 hlow.le htop)
    (div_nonneg (by linarith) hpos.le) ((div_le_one hpos).mpr (by linarith))
  convert hmem using 1
  apply Prod.ext
  · have hne : 1 - q.2 ≠ 0 := by
      intro hzero
      linarith
    simp only [toward, roof]
    field_simp
    ring
  · simp [toward, roof]

theorem getTwoIntersects_clips_iff_roof :
    Clips 3 roof (0, 1) (1 / 2, 0) (1 / 2, 1)
      (getTwoIntersects 3 roof (0, 1) (0, 0) (0, 0) (1 / 2, 0) (1 / 2, 1)) ∧
    (getTwoIntersects 3 roof (0, 1) (0, 0) (0, 0) (3, 0) (3, 1)).1 = false := by
  constructor
  · refine ((getTwoIntersects_clips_iff isConvex_roof (by simp) one_ne_zero (by norm_num)
      (0, 0) (0, 0)).1 ⟨(1 / 2, 1 / 4), ?_, by norm_num [side]⟩).mpr ?_
    · apply mem_interior_roof <;> norm_num
    · intro i hi hmet hfirst
      interval_cases i
      · norm_num [roof, next, side]
      · norm_num [roof, next, side] at hmet
      · norm_num [roof, next, side]
  · refine (getTwoIntersects_clips_iff isConvex_roof (by simp) one_ne_zero (by norm_num)
      (0, 0) (0, 0)).2 fun p hp => ?_
    have hright : side (2, 1) (2, 0) p ≤ 0 := by
      refine side_nonpos_of_mem_region (fun i hi => ?_) hp
      interval_cases i <;> norm_num [roof, side]
    simp only [side] at hright ⊢
    intro hzero
    linarith

/-- The first flight line of a survey to the north with sweeps of 2 m over the roof goes through
its apex, and both ends of the segment are the apex. -/
theorem getTwoIntersects_apex : IsConvex 3 roof ∧
    (∃ p ∈ interior (region 3 roof), side (1, 0) (1, 1) p = 0) ∧
    getTwoIntersects 3 roof (0, 1) (1, 0) (1, 1) (1, 0) (1, 1) = (true, (1, 1), (1, 1)) ∧
    ¬Clips 3 roof (0, 1) (1, 0) (1, 1)
      (getTwoIntersects 3 roof (0, 1) (1, 0) (1, 1) (1, 0) (1, 1)) := by
  have hresult : getTwoIntersects 3 roof (0, 1) (1, 0) (1, 1) (1, 0) (1, 1) =
      (true, (1, 1), (1, 1)) := by
    norm_num [getTwoIntersects, wrapOver, searchEdges, interceptTwoLines, roof, changePoints]
  refine ⟨isConvex_roof, ⟨(1, 1 / 2), ?_, by norm_num [side]⟩, hresult, ?_⟩
  · apply mem_interior_roof <;> norm_num
  · rw [hresult]
    exact fun hclips => hclips.distinct rfl

end

end Paparazzi.Fixedwing.PolySurvey
