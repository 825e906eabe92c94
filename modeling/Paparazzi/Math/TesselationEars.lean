import Mathlib.Tactic.Linarith
import Paparazzi.Math.TesselationArea

/-!
When `in_tesselation` returns: the vertices that are left are a ring, a turn of the outer loop takes
one of them out if there is an ear and changes nothing otherwise.
-/

namespace Paparazzi.Math.Tesselation

open Paparazzi.Library.LinkedRing

/-! ### The inner loop -/

theorem findEar_eq_some {s : Vertices} {fuel v w : ℕ} (h : findEar s fuel v = some w) :
    ∃ m, w = s.next^[m] v ∧ s.ear w = true := by
  induction fuel generalizing v with
  | zero => simp [findEar] at h
  | succ fuel ih =>
      rw [findEar] at h
      split at h
      · next hear =>
          obtain rfl : v = w := Option.some.inj h
          exact ⟨0, rfl, hear⟩
      · split at h
        · simp at h
        · obtain ⟨m, rfl, hear⟩ := ih h
          exact ⟨m + 1, rfl, hear⟩

/-- Without an ear the loop has looked at the whole ring. -/
theorem ear_eq_false_of_findEar {s : Vertices} {n : ℕ} {r : ℕ → ℕ}
    (h : IsRing s.prev s.next n r) (hcur : s.currentIdx = r 0) {fuel j : ℕ} (hj : j < n)
    (hfuel : n ≤ j + fuel) (hnone : findEar s fuel (r j) = none) {i : ℕ} (hji : j ≤ i)
    (hi : i < n) : s.ear (r i) = false := by
  induction fuel generalizing j with
  | zero => omega
  | succ fuel ih =>
      rw [findEar] at hnone
      split at hnone
      · simp at hnone
      · next hear =>
          have hjFalse : s.ear (r j) = false := Bool.eq_false_iff.mpr hear
          rcases Nat.eq_or_lt_of_le hji with rfl | hlt
          · exact hjFalse
          · split at hnone
            · next hlast =>
                rw [h.next_eq, hcur] at hlast
                have := h.eq_of_lt (by omega) (by omega) hlast
                omega
            · rw [h.next_eq] at hnone
              exact ih (by omega) (by omega) hnone hlt

theorem findEar_eq_none_iff {s : Vertices} {n : ℕ} {r : ℕ → ℕ} (h : IsRing s.prev s.next n r)
    (hcur : s.currentIdx = r 0) (hn : 0 < n) {fuel : ℕ} (hfuel : n ≤ fuel) :
    findEar s fuel s.currentIdx = none ↔ ∀ m, s.ear (s.next^[m] s.currentIdx) = false := by
  constructor
  · intro hnone m
    rw [hcur] at hnone ⊢
    rw [h.iterate_next, ← h.apply_mod]
    exact ear_eq_false_of_findEar h hcur hn (by omega) hnone (Nat.zero_le _) (Nat.mod_lt m hn)
  · intro hall
    rw [Option.eq_none_iff_forall_not_mem]
    intro w hw
    obtain ⟨m, rfl, hear⟩ := findEar_eq_some hw
    rw [hall m] at hear
    exact Bool.false_ne_true hear

theorem isRing_start {K : Type} (l : List (K × K)) (h : l ≠ []) :
    IsRing (startPrev l) (startNext l) l.length fun i => i % l.length := by
  obtain ⟨n, hn⟩ : ∃ n, l.length = n + 1 :=
    Nat.exists_eq_succ_of_ne_zero (mt List.length_eq_zero_iff.mp h)
  have hring : IsRing (startPrev l) (startNext l) (n + 1) fun i => i % (n + 1) := by
    refine isRing_mod n ?_ ?_ ?_ ?_
    · intro i hi
      rw [startNext, if_neg (by omega)]
    · rw [startNext, if_pos (by omega)]
    · intro i _
      rw [startPrev, if_neg (by omega), Nat.add_sub_cancel]
    · rw [startPrev, if_pos rfl, hn, Nat.add_sub_cancel]
  rw [hn]
  exact hring

/-! ### Turns of the outer loop -/

variable {K : Type} [Field K]

theorem earTurn_clip {l : List (K × K)} {s : Vertices} {v2 : ℕ} (hn : 3 ≤ s.n)
    (h : findEar s l.length s.currentIdx = some v2) :
    earTurn l s = turnOf l (s.next v2, v2, s.prev v2) := by
  rw [earTurn, if_pos hn, h]
  rfl

theorem earTurn_eq_zero_of_lt {l : List (K × K)} {s : Vertices} (hn : s.n < 3) :
    earTurn l s = 0 := by
  rw [earTurn, if_neg (Nat.not_le.mpr hn)]

theorem earTurn_eq_zero_of_none {l : List (K × K)} {s : Vertices}
    (h : findEar s l.length s.currentIdx = none) : earTurn l s = 0 := by
  rw [earTurn, h, ite_self]

section

variable [LinearOrder K]

theorem turn_eq_clip {l : List (K × K)} {s : Vertices} {v2 : ℕ} (hn : 3 ≤ s.n)
    (h : findEar s l.length s.currentIdx = some v2) : turn l s = clip l s v2 := by
  rw [turn, if_pos hn, h]

theorem turn_eq_self_of_lt {l : List (K × K)} {s : Vertices} (hn : s.n < 3) : turn l s = s := by
  rw [turn, if_neg (Nat.not_le.mpr hn)]

theorem turn_eq_self_of_none {l : List (K × K)} {s : Vertices}
    (h : findEar s l.length s.currentIdx = none) : turn l s = s := by
  rw [turn, h]
  exact ite_self s

/-- What a turn can do. -/
theorem turn_cases (l : List (K × K)) (s : Vertices) :
    (∃ m, 3 ≤ s.n ∧ findEar s l.length s.currentIdx = some (s.next^[m] s.currentIdx) ∧
      turn l s = clip l s (s.next^[m] s.currentIdx)) ∨
    (turn l s = s ∧ earTurn l s = 0 ∧
      (3 ≤ s.n → findEar s l.length s.currentIdx = none)) := by
  rcases Nat.lt_or_ge s.n 3 with hn | hn
  · exact Or.inr ⟨turn_eq_self_of_lt hn, earTurn_eq_zero_of_lt hn, fun h => by omega⟩
  · rcases hfind : findEar s l.length s.currentIdx with _ | v2
    · exact Or.inr ⟨turn_eq_self_of_none hfind, earTurn_eq_zero_of_none hfind, fun _ => rfl⟩
    · obtain ⟨m, rfl, -⟩ := findEar_eq_some hfind
      exact Or.inl ⟨m, hn, rfl, turn_eq_clip hn hfind⟩

/-- The turns at the triangles that are stored are those at the ears that were cut. -/
theorem forall_turn_iff (l : List (K × K)) (s : Vertices) {P : K → Prop} (hzero : P 0) :
    (∀ t ∈ (turn l s).triangles, P (turnOf l t)) ↔
      P (earTurn l s) ∧ ∀ t ∈ s.triangles, P (turnOf l t) := by
  rcases turn_cases l s with ⟨m, hn, hfind, hclip⟩ | ⟨hsame, hear, -⟩
  · rw [hclip, earTurn_clip hn hfind]
    exact List.forall_mem_cons
  · rw [hsame, hear]
    exact ⟨fun h => ⟨hzero, h⟩, fun h => h.2⟩

/-! ### The invariant -/

/-- What holds before every turn: the vertices that are left are a ring, and the triangles have the
rest of the area. -/
structure Good (l : List (K × K)) (s : Vertices) : Prop where
  ring : ∃ r, IsRing s.prev s.next s.n r ∧ s.currentIdx = r 0 ∧ (∀ i, r i < l.length) ∧
    (s.triangles.map (turnOf l)).sum + ringArea l s.n r = 2 * signedArea l
  two_le : 2 ≤ s.n
  length : s.triangles.length + s.n = l.length
  lt : ∀ t ∈ s.triangles, t.1 < l.length ∧ t.2.1 < l.length ∧ t.2.2 < l.length

theorem good_clip {l : List (K × K)} {s : Vertices} (h : Good l s) (hn : 3 ≤ s.n) (m : ℕ) :
    Good l (clip l s (s.next^[m] s.currentIdx)) := by
  obtain ⟨r, hring, hcur, hlt, harea⟩ := h.ring
  obtain ⟨k, hk⟩ : ∃ k, s.n = k + 2 := ⟨s.n - 2, by omega⟩
  rw [hk] at hring harea
  -- the ring from the vertex after the ear on, so that the ear is the last one
  have hq := hring.shift (m + 1)
  have hv2 : s.next^[m] s.currentIdx = r (k + 1 + (m + 1)) := by
    rw [hcur, hring.iterate_next, ← hring.periodic m]
    congr 1
    omega
  have hv1 : s.prev (s.next^[m] s.currentIdx) = r (k + (m + 1)) := by
    rw [hv2]
    exact hq.prev_eq k
  have hv3 : s.next (s.next^[m] s.currentIdx) = r (0 + (m + 1)) := by
    rw [hcur, hring.iterate_next, hring.next_eq, Nat.zero_add]
  constructor
  · refine ⟨fun i => r (i % (k + 1) + (m + 1)), ?_, ?_, fun i => hlt _, ?_⟩
    · have hremove := hq.remove
      simp only [clip, hv1, hv3, hk]
      exact hremove
    · simp only [clip, hv3]
      rw [Nat.zero_mod]
    · have hremove := ringArea_remove l hq
      simp only [clip, hv1, hv3, List.map_cons, List.sum_cons]
      rw [hv2, ← harea, ← ringArea_shift l hring (m + 1), ← hremove, hk]
      simp only [Nat.add_succ_sub_one]
      ring
  · change 2 ≤ s.n - 1
    omega
  · have hlength := h.length
    simp only [clip, List.length_cons]
    omega
  · intro t ht
    rcases List.mem_cons.mp ht with rfl | ht
    · simp only [hv1, hv3]
      rw [hv2]
      exact ⟨hlt _, hlt _, hlt _⟩
    · exact h.lt t ht

theorem good_turn {l : List (K × K)} {s : Vertices} (h : Good l s) : Good l (turn l s) := by
  rcases turn_cases l s with ⟨m, hn, -, hclip⟩ | ⟨hsame, -, -⟩
  · rw [hclip]
    exact good_clip h hn m
  · rw [hsame]
    exact h

/-- With no ear on the ring a turn changes nothing, otherwise it leaves one vertex less. -/
theorem turn_eq_self_iff {l : List (K × K)} {s : Vertices} (h : Good l s) (hn : 3 ≤ s.n) :
    turn l s = s ↔ ∀ m, s.ear (s.next^[m] s.currentIdx) = false := by
  obtain ⟨r, hring, hcur, -, -⟩ := h.ring
  have hlength := h.length
  rw [← findEar_eq_none_iff hring hcur (by omega) (by omega : s.n ≤ l.length)]
  rcases turn_cases l s with ⟨m, -, hfind, hclip⟩ | ⟨hsame, -, hnone⟩
  · rw [hclip, hfind]
    refine ⟨fun heq => ?_, fun heq => by simp at heq⟩
    have hless : s.n - 1 = s.n := congrArg Vertices.n heq
    omega
  · exact ⟨fun _ => hnone hn, fun _ => hsame⟩

/-! ### Runs of the outer loop -/

theorem run_eq_some_iff {l : List (K × K)} {s s' : Vertices} :
    (∃ fuel, run l fuel s = some s') ↔ ∃ k, (turn l)^[k] s = s' ∧ s'.n < 3 := by
  constructor
  · rintro ⟨fuel, h⟩
    induction fuel generalizing s with
    | zero => simp [run] at h
    | succ fuel ih =>
        rw [run] at h
        split at h
        · obtain ⟨k, hk, hn⟩ := ih h
          exact ⟨k + 1, hk, hn⟩
        · next hn =>
            obtain rfl : s = s' := Option.some.inj h
            exact ⟨0, rfl, Nat.not_le.mp hn⟩
  · rintro ⟨k, rfl, hn⟩
    induction k generalizing s with
    | zero => exact ⟨1, if_neg (Nat.not_le.mpr hn)⟩
    | succ k ih =>
        obtain ⟨fuel, hfuel⟩ := ih hn
        rw [Function.iterate_succ_apply]
        rcases Nat.lt_or_ge s.n 3 with hlt | hge
        · rw [turn_eq_self_of_lt hlt] at hfuel ⊢
          exact ⟨fuel, hfuel⟩
        · exact ⟨fuel + 1, by rw [run, if_pos hge, hfuel]⟩

theorem state_succ (poly : List (K × K)) (k : ℕ) :
    state poly (k + 1) = turn (oriented poly) (state poly k) :=
  Function.iterate_succ_apply' _ _ _

/-- A turn that changes nothing is repeated for ever. -/
theorem state_eq_of_turn {poly : List (K × K)} {j k : ℕ} (hjk : j ≤ k)
    (h : turn (oriented poly) (state poly j) = state poly j) : state poly k = state poly j := by
  induction k, hjk using Nat.le_induction with
  | base => rfl
  | succ k _ ih => rw [state_succ, ih, h]

theorem forall_state_iff (poly : List (K × K)) {P : K → Prop} (hzero : P 0) (k : ℕ) :
    (∀ t ∈ (state poly k).triangles, P (turnOf (oriented poly) t)) ↔
      ∀ j < k, P (earTurn (oriented poly) (state poly j)) := by
  induction k with
  | zero => exact ⟨fun _ j hj => absurd hj (Nat.not_lt_zero j), fun _ t ht => by cases ht⟩
  | succ k ih =>
      rw [state_succ, forall_turn_iff _ _ hzero, ih, Nat.forall_lt_succ_right, and_comm]

/-- Once the loop is left there are no more ears to cut. -/
theorem forall_state_iff_of_lt (poly : List (K × K)) {P : K → Prop} (hzero : P 0) {k : ℕ}
    (hk : (state poly k).n < 3) :
    (∀ t ∈ (state poly k).triangles, P (turnOf (oriented poly) t)) ↔
      ∀ j, P (earTurn (oriented poly) (state poly j)) := by
  rw [forall_state_iff poly hzero k]
  refine ⟨fun h j => ?_, fun h j _ => h j⟩
  rcases Nat.lt_or_ge j k with hjk | hkj
  · exact h j hjk
  · rw [state_eq_of_turn hkj (turn_eq_self_of_lt hk), earTurn_eq_zero_of_lt hk]
    exact hzero

theorem inTesselation_eq_some_iff {poly : List (K × K)} {triangles : List (ℕ × ℕ × ℕ)} :
    (∃ fuel, inTesselation fuel poly = some triangles) ↔
      ∃ k, (state poly k).n < 3 ∧ triangles = (state poly k).triangles.map (renumber poly) := by
  simp only [inTesselation, Option.map_eq_some_iff]
  constructor
  · rintro ⟨fuel, s, hrun, rfl⟩
    obtain ⟨k, rfl, hk⟩ := run_eq_some_iff.mp ⟨fuel, hrun⟩
    exact ⟨k, hk, rfl⟩
  · rintro ⟨k, hk, rfl⟩
    obtain ⟨fuel, hrun⟩ := run_eq_some_iff.mpr ⟨k, rfl, hk⟩
    exact ⟨fuel, _, hrun, rfl⟩

end

/-! ### The result -/

variable [LinearOrder K] [IsStrictOrderedRing K]

theorem good_start {l : List (K × K)} (h : 3 ≤ l.length) : Good l (start l) where
  ring := by
    have hpos : 0 < l.length := by omega
    refine ⟨fun i => i % l.length, isRing_start l (List.ne_nil_of_length_pos hpos),
      (Nat.zero_mod _).symm, fun i => Nat.mod_lt i hpos, ?_⟩
    change (0 : K) + ringArea l l.length (fun i => i % l.length) = 2 * signedArea l
    rw [ringArea_mod, zero_add]
  two_le := by
    change 2 ≤ l.length
    omega
  length := Nat.zero_add _
  lt t ht := by cases ht

theorem good_state {poly : List (K × K)} (h : 3 ≤ poly.length) (k : ℕ) :
    Good (oriented poly) (state poly k) := by
  induction k with
  | zero => exact good_start (by rw [length_oriented]; exact h)
  | succ k ih =>
      rw [state_succ]
      exact good_turn ih

theorem earsFound_iff_turn {poly : List (K × K)} (h : 3 ≤ poly.length) :
    EarsFound poly ↔
      ∀ k, 3 ≤ (state poly k).n → turn (oriented poly) (state poly k) ≠ state poly k := by
  refine forall_congr' fun k => imp_congr_right fun hn => ?_
  rw [Ne, turn_eq_self_iff (good_state h k) hn, not_forall]
  simp only [Bool.not_eq_false]

/-- The outer loop is left if and only if there is always an ear. -/
theorem exists_lt_three_iff {poly : List (K × K)} (h : 3 ≤ poly.length) :
    (∃ k, (state poly k).n < 3) ↔ EarsFound poly := by
  rw [earsFound_iff_turn h]
  constructor
  · rintro ⟨k, hk⟩ j hj hsame
    have hlast : state poly (max j k) = state poly k :=
      state_eq_of_turn (le_max_right j k) (turn_eq_self_of_lt hk)
    rw [state_eq_of_turn (le_max_left j k) hsame] at hlast
    rw [hlast] at hj
    omega
  · intro hturn
    -- a turn with an ear makes the ring smaller
    have hdown : ∀ k, (state poly k).n < 3 ∨ (state poly k).n + k ≤ poly.length := by
      intro k
      induction k with
      | zero =>
          refine Or.inr (le_of_eq ?_)
          exact length_oriented poly
      | succ k ih =>
          rw [state_succ]
          rcases turn_cases (oriented poly) (state poly k) with ⟨m, hn, -, hclip⟩ | ⟨hsame, -, -⟩
          · rw [hclip]
            refine Or.inr ?_
            change (state poly k).n - 1 + (k + 1) ≤ poly.length
            omega
          · rw [hsame]
            rcases Nat.lt_or_ge (state poly k).n 3 with hlt | hge
            · exact Or.inl hlt
            · exact absurd hsame (hturn k hge)
    refine ⟨poly.length, ?_⟩
    rcases hdown poly.length with hlt | hle
    · exact hlt
    · omega

/-- What is returned: `n - 2` triangles of vertices, whose areas add up if the ears are on one
side. -/
theorem returned_of_lt {poly : List (K × K)} (h : 3 ≤ poly.length) {k : ℕ}
    (hk : (state poly k).n < 3) :
    ((state poly k).triangles.map (renumber poly)).length = poly.length - 2 ∧
    (∀ t ∈ (state poly k).triangles.map (renumber poly),
      t.1 < poly.length ∧ t.2.1 < poly.length ∧ t.2.2 < poly.length) ∧
    ((((state poly k).triangles.map (renumber poly)).map fun t =>
      polyArea (corners poly t)).sum = polyArea poly ↔ EarsOneWay poly) := by
  have hgood := good_state h k
  have hlength := hgood.length
  have htwo : (state poly k).n = 2 := le_antisymm (Nat.le_of_lt_succ hk) hgood.two_le
  have hlt : ∀ t ∈ (state poly k).triangles,
      t.1 < poly.length ∧ t.2.1 < poly.length ∧ t.2.2 < poly.length := by
    rw [← length_oriented poly]
    exact hgood.lt
  have hcorners : ((state poly k).triangles.map (renumber poly)).map
      (fun t => polyArea (corners poly t)) =
      (state poly k).triangles.map fun t => polyArea (corners (oriented poly) t) := by
    rw [List.map_map]
    refine List.map_congr_left fun t ht => ?_
    obtain ⟨h₁, h₂, h₃⟩ := hlt t ht
    exact congrArg polyArea (corners_renumber poly h₁ h₂ h₃)
  have hsum : ((state poly k).triangles.map (turnOf (oriented poly))).sum =
      2 * signedArea (oriented poly) := by
    obtain ⟨r, hring, -, -, harea⟩ := hgood.ring
    rw [htwo] at hring harea
    rw [← harea, ringArea_two (oriented poly) hring, add_zero]
  refine ⟨?_, ?_, ?_⟩
  · rw [length_oriented] at hlength
    rw [List.length_map]
    omega
  · rw [List.forall_mem_map]
    intro t ht
    obtain ⟨h₁, h₂, h₃⟩ := hlt t ht
    exact renumber_lt poly h₁ h₂ h₃
  · rw [hcorners, ← polyArea_oriented, sum_polyArea_corners_iff (oriented poly) hsum,
      forall_state_iff_of_lt poly (le_refl (0 : K)) hk,
      forall_state_iff_of_lt poly (P := fun x => x ≤ 0) (le_refl (0 : K)) hk]
    rfl

theorem lefton_of_eq_false {a b c : K × K} (h : lefton a b c = false) :
    lefton a c b = true ∧ lefton b a c = true := by
  simp only [lefton, crossProduct, vectMake, decide_eq_false_iff_not, not_le,
    decide_eq_true_eq, ge_iff_le] at h ⊢
  constructor <;> linarith

/-- The vertex before another one is not seen from it. -/
theorem isInCone_prev (l : List (K × K)) (prev next : ℕ → ℕ) {a b : ℕ} (h : prev a = b) :
    isInCone l prev next a b = false := by
  have hleft : left (point l a) (point l b) (point l b) = false := by
    simp [left, crossProduct, mul_comm]
  have hlefton : lefton (point l b) (point l a) (point l b) = true := by
    simp [lefton, crossProduct, vectMake]
  rw [isInCone, h]
  split
  · rw [hleft, Bool.false_and]
  · next hturn =>
      rw [(lefton_of_eq_false (Bool.eq_false_iff.mpr hturn)).1, hlefton]
      rfl

/-- The vertex after another one is not seen from it. -/
theorem isInCone_next (l : List (K × K)) (prev next : ℕ → ℕ) {a b : ℕ} (h : next a = b) :
    isInCone l prev next a b = false := by
  have hleft : left (point l b) (point l a) (point l b) = false := by
    simp [left, crossProduct, vectMake]
  have hlefton : lefton (point l a) (point l b) (point l b) = true := by
    simp [lefton, crossProduct, mul_comm]
  rw [isInCone, h]
  split
  · rw [hleft, Bool.and_false]
  · next hturn =>
      rw [(lefton_of_eq_false (Bool.eq_false_iff.mpr hturn)).2, hlefton]
      rfl

/-- The other two vertices of a triangle are the ends of an edge, which is no diagonal. -/
theorem ear_start_of_three {l : List (K × K)} (h : l.length = 3) {i : ℕ} (hi : i < 3) :
    (start l).ear i = false := by
  have hcases : i = 0 ∨ i = 1 ∨ i = 2 := by omega
  have hprev : startPrev l (startPrev l i) = startNext l i := by
    rcases hcases with rfl | rfl | rfl <;> simp [startPrev, startNext, h]
  have hnext : startNext l (startNext l i) = startPrev l i := by
    rcases hcases with rfl | rfl | rfl <;> simp [startPrev, startNext, h]
  change isDiagonal l (startPrev l) (startNext l) (startPrev l i) (startNext l i) = false
  rw [isDiagonal, isInCone_prev l _ _ hprev, isInCone_next l _ _ hnext]
  rfl

/-- On three points the outer loop is never left. -/
theorem inTesselation_eq_none {poly : List (K × K)} (h : poly.length = 3) (fuel : ℕ) :
    inTesselation fuel poly = none := by
  rw [Option.eq_none_iff_forall_not_mem]
  intro triangles hreturn
  obtain ⟨k, hk, -⟩ := inTesselation_eq_some_iff.mp ⟨fuel, hreturn⟩
  have hlength : (oriented poly).length = 3 := (length_oriented poly).trans h
  have hn : 3 ≤ (state poly 0).n := le_of_eq hlength.symm
  obtain ⟨m, hear⟩ := (exists_lt_three_iff (le_of_eq h.symm)).mp ⟨k, hk⟩ 0 hn
  have hring := isRing_start (oriented poly) (List.ne_nil_of_length_pos (by omega))
  have hm : (state poly 0).next^[m] (state poly 0).currentIdx = m % (oriented poly).length := by
    rw [← hring.iterate_next m, Nat.zero_mod]
    rfl
  have hnone : (state poly 0).ear (m % (oriented poly).length) = false :=
    ear_start_of_three hlength (by rw [hlength]; exact Nat.mod_lt m (by decide))
  rw [hm, hnone] at hear
  exact Bool.false_ne_true hear

end Paparazzi.Math.Tesselation
