import Mathlib.Data.List.GetD
import Mathlib.Tactic.IntervalCases
import Paparazzi.FlightPlan.Sectors

/-!
The decision functions of sectors are right: the slices of a convex polygon, from its lowest line
to its top, and the search for one of them.
-/

namespace Paparazzi.FlightPlan.Sectors

open Paparazzi.Library.ClockwiseChain

theorem mod_cases {n b m : ℕ} (hb : b < n) (hm : m < n) :
    (b + m) % n = b + m ∧ b + m < n ∨ (b + m) % n = b + m - n ∧ n ≤ b + m := by
  rcases Nat.lt_or_ge (b + m) n with hlt | hge
  · exact Or.inl ⟨Nat.mod_eq_of_lt hlt, hlt⟩
  · refine Or.inr ⟨?_, hge⟩
    rw [Nat.mod_eq_sub_mod hge, Nat.mod_eq_of_lt (by omega)]

/-! ### The lowest vertex -/

theorem foldl_lowest {K : Type} [LinearOrder K] (f : ℕ → K) (is : List ℕ) (b : ℕ) :
    (is.foldl (fun b i => if f i < f b then i else b) b ∈ b :: is) ∧
      ∀ i ∈ b :: is, f (is.foldl (fun b i => if f i < f b then i else b) b) ≤ f i := by
  induction is generalizing b with
  | nil =>
      refine ⟨List.mem_cons_self, fun i hi => ?_⟩
      rw [List.mem_singleton.mp hi]
      exact le_refl _
  | cons a is ih =>
      obtain ⟨hmem, hle⟩ := ih (if f a < f b then a else b)
      obtain ⟨hfirst, hrest⟩ := List.forall_mem_cons.mp hle
      rw [List.foldl_cons]
      split_ifs at hmem hfirst hrest ⊢ with hlt
      · refine ⟨List.mem_cons_of_mem _ hmem, fun i hi => ?_⟩
        rcases List.mem_cons.mp hi with rfl | hi
        · exact hfirst.trans hlt.le
        · rcases List.mem_cons.mp hi with rfl | hi
          · exact hfirst
          · exact hrest i hi
      · refine ⟨?_, fun i hi => ?_⟩
        · rcases List.mem_cons.mp hmem with heq | hmem
          · rw [heq]
            exact List.mem_cons_self
          · exact List.mem_cons_of_mem _ (List.mem_cons_of_mem _ hmem)
        · rcases List.mem_cons.mp hi with rfl | hi
          · exact hfirst
          · rcases List.mem_cons.mp hi with rfl | hi
            · exact hfirst.trans (not_lt.mp hlt)
            · exact hrest i hi

variable {K : Type} [Field K]

theorem vertex_of_lt {poly : List (K × K)} {i : ℕ} (hi : i < poly.length) :
    vertex poly i = poly[i] := by
  rw [vertex, List.getD_eq_getElem?_getD, List.getElem?_eq_getElem hi, Option.getD_some]

variable [LinearOrder K] {poly : List (K × K)}

theorem bottom_spec (hpos : 0 < poly.length) : bottom poly < poly.length ∧
    ∀ i < poly.length, (vertex poly (bottom poly)).2 ≤ (vertex poly i).2 := by
  obtain ⟨hmem, hle⟩ :=
    foldl_lowest (fun i => (vertex poly i).2) (List.range' 1 (poly.length - 1)) 0
  refine ⟨?_, fun i hi => hle i ?_⟩
  · rcases List.mem_cons.mp hmem with heq | hmem
    · rw [bottom, heq]
      exact hpos
    · have hlt := (List.mem_range'_1.mp hmem).2
      rw [bottom]
      omega
  · rcases Nat.eq_zero_or_pos i with rfl | hi'
    · exact List.mem_cons_self
    · exact List.mem_cons_of_mem _ (List.mem_range'_1.mpr (by omega))

/-! ### The chain from the lowest vertex -/

/-- The vertices from the lowest one on, clockwise. -/
def chain (poly : List (K × K)) (k : ℕ) : K × K := vertex poly ((bottom poly + k) % poly.length)

theorem chain_length : chain poly poly.length = chain poly 0 := by
  rw [chain, Nat.add_mod_right, chain, Nat.add_zero]

theorem exists_chain {p : K × K} (hp : p ∈ poly) : ∃ m < poly.length, chain poly m = p := by
  obtain ⟨i, hi, rfl⟩ := List.mem_iff_getElem.mp hp
  have hb := (bottom_spec (Nat.zero_lt_of_lt hi)).1
  refine ⟨(i + poly.length - bottom poly) % poly.length, Nat.mod_lt _ (Nat.zero_lt_of_lt hi), ?_⟩
  have hsum : bottom poly + (i + poly.length - bottom poly) = i + poly.length := by omega
  rw [chain, Nat.add_mod_mod, hsum, Nat.add_mod_right, Nat.mod_eq_of_lt hi,
    vertex_of_lt hi]

theorem chain_mem (hpos : 0 < poly.length) (m : ℕ) : chain poly m ∈ vertices poly := by
  have hlt : (bottom poly + m) % poly.length < poly.length := Nat.mod_lt _ hpos
  rw [chain, vertex_of_lt hlt]
  exact List.getElem_mem hlt

theorem chain_turns (h : ConvexClockwise poly) {i j k : ℕ} (hij : i < j) (hjk : j < k)
    (hk : k < poly.length) : orient (chain poly i) (chain poly j) (chain poly k) ≤ 0 := by
  have hb := (bottom_spec (Nat.zero_lt_of_lt hk)).1
  rcases mod_cases hb (hij.trans (hjk.trans hk)) with ⟨hi, hi'⟩ | ⟨hi, hi'⟩ <;>
    rcases mod_cases hb (hjk.trans hk) with ⟨hj, hj'⟩ | ⟨hj, hj'⟩ <;>
      rcases mod_cases hb hk with ⟨hk', hk''⟩ | ⟨hk', hk''⟩ <;>
        simp only [chain, hi, hj, hk']
  · exact h.turns _ _ _ (by omega) (by omega) hk''
  · rw [orient_rotate]
    exact h.turns _ _ _ (by omega) (by omega) hj'
  · omega
  · rw [← orient_rotate]
    exact h.turns _ _ _ (by omega) (by omega) hi'
  · omega
  · omega
  · omega
  · exact h.turns _ _ _ (by omega) (by omega) (by omega)

theorem clockwise_chain (h : ConvexClockwise poly) : Clockwise poly.length (chain poly) where
  closed := chain_length
  lowest := by
    intro m _
    have hpos : 0 < poly.length := Nat.zero_lt_of_lt h.three_le
    obtain ⟨hb, hlow⟩ := bottom_spec hpos
    rw [chain, Nat.add_zero, Nat.mod_eq_of_lt hb, chain]
    exact hlow _ (Nat.mod_lt _ hpos)
  turns := by
    intro i j k hij hjk hk
    rcases eq_or_lt_of_le hk with rfl | hk
    · rw [chain_length]
      rcases Nat.eq_zero_or_pos i with rfl | hi
      · rw [orient_self_left]
      · rw [orient_rotate]
        exact chain_turns h hi hij hjk
    · exact chain_turns h hij hjk hk
  not_flat := by
    obtain ⟨p, hp, q, hq, r, hr, hne⟩ := h.not_flat
    obtain ⟨i, hi, rfl⟩ := exists_chain hp
    obtain ⟨j, hj, rfl⟩ := exists_chain hq
    obtain ⟨k, hk, rfl⟩ := exists_chain hr
    exact ⟨i, hi.le, j, hj.le, k, hk.le, hne⟩

theorem next_chain (u : ℕ) :
    next poly ((bottom poly + u) % poly.length) = (bottom poly + (u + 1)) % poly.length := by
  rw [next, Nat.mod_add_mod, Nat.add_assoc]

theorem prev_chain (hpos : 0 < poly.length) (m : ℕ) :
    prev poly ((bottom poly + (m + 1)) % poly.length) = (bottom poly + m) % poly.length := by
  have hsub : (bottom poly + (m + 1)) % poly.length + poly.length - 1 =
      (bottom poly + (m + 1)) % poly.length + (poly.length - 1) := by omega
  have hsum : bottom poly + (m + 1) + (poly.length - 1) = bottom poly + m + poly.length := by omega
  rw [prev, hsub, Nat.mod_add_mod, hsum, Nat.add_mod_right]

theorem index_inj {u w : ℕ} (hu : u < poly.length) (hw : w < poly.length)
    (h : (bottom poly + w) % poly.length = (bottom poly + u) % poly.length) : w = u := by
  have hb := (bottom_spec (Nat.zero_lt_of_lt hu)).1
  rcases mod_cases hb hu with ⟨hu', hlt⟩ | ⟨hu', hlt⟩ <;>
    rcases mod_cases hb hw with ⟨hw', hlt'⟩ | ⟨hw', hlt'⟩ <;>
      rw [hu', hw'] at h <;> omega

/-! ### The cursors -/

/-- The cursors stand `u` edges from the lowest vertex on the left and `v` on the right. -/
structure At (poly : List (K × K)) (u v : ℕ) (s : Cursors K) : Prop where
  le : u + v ≤ poly.length
  i_eq : s.i = 1 + u + v
  g_eq : s.g = (bottom poly + u) % poly.length
  d_eq : s.d = (bottom poly + (poly.length - v)) % poly.length
  low_g : s.lastY ≤ (chain poly u).2
  low_d : s.lastY ≤ (chain poly (poly.length - v)).2
  below_g : ∀ m < u, (chain poly m).2 ≤ s.lastY
  below_d : ∀ m, poly.length - v < m → m ≤ poly.length → (chain poly m).2 ≤ s.lastY
  alphaG_eq : s.lastY < (chain poly u).2 → 0 < u ∧
    s.alphaG = ((chain poly u).1 - (chain poly (u - 1)).1) /
      ((chain poly u).2 - (chain poly (u - 1)).2)
  alphaD_eq : s.lastY < (chain poly (poly.length - v)).2 → 0 < v ∧
    s.alphaD = ((chain poly (poly.length - v)).1 - (chain poly (poly.length - v + 1)).1) /
      ((chain poly (poly.length - v)).2 - (chain poly (poly.length - v + 1)).2)

namespace At

variable {u v : ℕ} {s : Cursors K} (h : At poly u v s)

include h

theorem vertex_g : vertex poly s.g = chain poly u := by rw [h.g_eq, chain]

theorem vertex_d : vertex poly s.d = chain poly (poly.length - v) := by rw [h.d_eq, chain]

theorem i_le_iff : s.i ≤ poly.length ↔ u + v < poly.length := by
  rw [h.i_eq]
  omega

end At

theorem addSlice_at {u v : ℕ} {s : Cursors K} (h : At poly u v s)
    (hg : s.lastY < (chain poly u).2) (hd : s.lastY < (chain poly (poly.length - v)).2) :
    At poly u v (addSlice poly s) ∧ s.lastY < (addSlice poly s).lastY ∧
      (addSlice poly s).lastY = min (chain poly (poly.length - v)).2 (chain poly u).2 := by
  have hlast : (addSlice poly s).lastY =
      min (chain poly (poly.length - v)).2 (chain poly u).2 := by
    rw [← h.vertex_d, ← h.vertex_g]
    rfl
  have hlt : s.lastY < (addSlice poly s).lastY := by
    rw [hlast]
    exact lt_min hd hg
  refine ⟨⟨h.le, h.i_eq, h.g_eq, h.d_eq, ?_, ?_, ?_, ?_, ?_, ?_⟩, hlt, hlast⟩
  · rw [hlast]
    exact min_le_right _ _
  · rw [hlast]
    exact min_le_left _ _
  · exact fun m hm => (h.below_g m hm).trans hlt.le
  · exact fun m hm hmn => (h.below_d m hm hmn).trans hlt.le
  · exact fun _ => h.alphaG_eq hg
  · exact fun _ => h.alphaD_eq hd

theorem plusDyTimes_eq (x dy a : K) : plusDyTimes x dy a = x + dy * a := by
  rw [plusDyTimes]
  split_ifs with ha
  · rw [ha, mul_zero, add_zero]
  · rfl

/-- The line of a side: where it is at a height, and its slope. -/
def side (a b : K × K) (y : K) : K × K := (lineAt a b y, (b.1 - a.1) / (b.2 - a.2))

theorem run_printSlice {a b c d : K × K} {top : K} (hcross : lineAt a b top ≤ lineAt c d top)
    (x y : K) : (printSlice ⟨top, side a b top, side c d top⟩).run x y = true ↔
      lineAt a b y ≤ x ∧ x ≤ lineAt c d y := by
  have hshift : ∀ a b : K × K, (side a b top).1 + (y - top) * (side a b top).2 = lineAt a b y := by
    intro a b
    simp only [side, lineAt]
    ring
  have hnot : ¬ (side a b top).1 > (side c d top).1 := not_lt.mpr hcross
  rw [printSlice, if_neg hnot, Code.run, plusDyTimes_eq, plusDyTimes_eq, hshift, hshift,
    Bool.and_eq_true, decide_eq_true_eq, decide_eq_true_eq]

theorem at_start (hpos : 0 < poly.length) : At poly 0 0 (start poly) := by
  have hb := (bottom_spec hpos).1
  have hchain : chain poly 0 = vertex poly (bottom poly) := by
    rw [chain, Nat.add_zero, Nat.mod_eq_of_lt hb]
  refine ⟨Nat.zero_le _, rfl, ?_, ?_, ?_, ?_, ?_, ?_, ?_, ?_⟩
  · rw [Nat.add_zero, Nat.mod_eq_of_lt hb]
    rfl
  · rw [Nat.sub_zero, Nat.add_mod_right, Nat.mod_eq_of_lt hb]
    rfl
  · rw [hchain]
    exact le_rfl
  · rw [Nat.sub_zero, chain_length, hchain]
    exact le_rfl
  · exact fun m hm => absurd hm (Nat.not_lt_zero m)
  · exact fun m hm hmn => absurd hm (Nat.not_lt_of_le hmn)
  · intro hlt
    rw [hchain] at hlt
    exact absurd hlt (lt_irrefl _)
  · intro hlt
    rw [Nat.sub_zero, chain_length, hchain] at hlt
    exact absurd hlt (lt_irrefl _)

theorem isLowest_bottom (hpos : 0 < poly.length) :
    IsLowest poly (vertex poly (bottom poly)).2 := by
  obtain ⟨hb, hlow⟩ := bottom_spec hpos
  refine ⟨⟨_, ?_, rfl⟩, ?_⟩
  · rw [vertex_of_lt hb]
    exact List.getElem_mem hb
  · rintro _ ⟨z, hz, rfl⟩
    obtain ⟨i, hi, rfl⟩ := List.mem_iff_getElem.mp hz
    rw [← vertex_of_lt hi]
    exact hlow i hi

/-! ### The search -/

/-- The search finds the slice below whose top the height is, or the last one. -/
theorem printLayers_spec (layers : List (Slice K)) (x y : K) {fuel i j : ℕ} (hij : i ≤ j)
    (hfuel : j - i ≤ fuel) :
    ∃ k, i ≤ k ∧ k ≤ j ∧ (k < j → y ≤ (layers.getD k above).top) ∧
      (i < k → (layers.getD (k - 1) above).top < y) ∧
      (printLayers layers fuel i j).run x y = (printSlice (layers.getD k above)).run x y := by
  induction fuel generalizing i j with
  | zero =>
      have heq : i = j := by omega
      exact ⟨i, le_rfl, hij, fun hlt => absurd heq hlt.ne, fun hlt => absurd hlt (lt_irrefl i), rfl⟩
  | succ fuel ih =>
      rw [printLayers]
      split_ifs with heq
      · exact ⟨i, le_rfl, hij, fun hlt => absurd heq hlt.ne, fun hlt => absurd hlt (lt_irrefl i),
          rfl⟩
      · rcases le_or_gt y (layers.getD ((i + j) / 2) above).top with hle | hgt
        · obtain ⟨k, hik, hkj, hbelow, habove, hrun⟩ :=
            ih (i := i) (j := (i + j) / 2) (by omega) (by omega)
          refine ⟨k, hik, by omega, fun _ => ?_, habove, ?_⟩
          · rcases eq_or_lt_of_le hkj with rfl | hlt
            · exact hle
            · exact hbelow hlt
          · rw [Code.run, if_pos hle, hrun]
        · obtain ⟨k, hik, hkj, hbelow, habove, hrun⟩ :=
            ih (i := (i + j) / 2 + 1) (j := j) (by omega) (by omega)
          refine ⟨k, by omega, hkj, hbelow, fun _ => ?_, ?_⟩
          · rcases eq_or_lt_of_le hik with rfl | hlt
            · exact hgt
            · exact habove hlt
          · rw [Code.run, if_neg (not_le.mpr hgt), hrun]

/-! ### Slices -/

/-- Between `y` and its top the slice is the polygon. -/
def Covers (poly : List (K × K)) (s : Slice K) (y : K) : Prop :=
  ∀ x y', y < y' → y' ≤ s.top →
    ((printSlice s).run x y' = true ↔ (x, y') ∈ convexHull K (vertices poly))

/-- Slices, the last one first, from the lowest line up to a height. -/
inductive Cut (poly : List (K × K)) : List (Slice K) → K → Prop where
  | nil : Cut poly [] (under poly).top
  | cons {l : List (Slice K)} {y : K} {s : Slice K} (h : Cut poly l y) (hs : Covers poly s y) :
      Cut poly (s :: l) s.top

/-- The slices from below, each above the one before. -/
theorem Cut.layers {l : List (Slice K)} {top : K} (h : Cut poly l top) :
    ((under poly :: l.reverse).getD l.length above).top = top ∧
      ∀ k, 0 < k → k ≤ l.length → Covers poly ((under poly :: l.reverse).getD k above)
        ((under poly :: l.reverse).getD (k - 1) above).top := by
  induction h with
  | nil => exact ⟨rfl, fun k hk hk' => absurd hk (Nat.not_lt_of_le hk')⟩
  | @cons l y s h hs ih =>
      obtain ⟨htop, hcovers⟩ := ih
      have hlength : (under poly :: l.reverse).length = l.length + 1 := by
        rw [List.length_cons, List.length_reverse]
      have hold : ∀ k ≤ l.length, (under poly :: (s :: l).reverse).getD k above =
          (under poly :: l.reverse).getD k above := by
        intro k hk
        rw [List.reverse_cons, ← List.cons_append, List.getD_append _ _ _ _ (by omega)]
      have hnew : (under poly :: (s :: l).reverse).getD (l.length + 1) above = s := by
        rw [List.reverse_cons, ← List.cons_append, List.getD_append_right _ _ _ _ (by omega),
          hlength, Nat.sub_self]
        rfl
      refine ⟨by rw [List.length_cons, hnew], fun k hk hk' => ?_⟩
      rcases eq_or_lt_of_le hk' with rfl | hk'
      · rw [List.length_cons, hnew, Nat.add_sub_cancel, hold _ le_rfl, htop]
        exact hs
      · have hk' : k ≤ l.length := Nat.le_of_lt_succ hk'
        rw [hold k hk', hold (k - 1) (by omega)]
        exact hcovers k hk hk'

/-! ### The loops -/

variable [IsStrictOrderedRing K]

/-- One turn of the inner loop on the right. -/
theorem At.walkRight (hc : Clockwise poly.length (chain poly)) {u v : ℕ} {s : Cursors K}
    (h : At poly u v s) (hlt : u + v < poly.length)
    (hlast : (chain poly (poly.length - v)).2 = s.lastY) :
    At poly u (v + 1)
      { s with
        alphaD := slope poly s.d (prev poly s.d)
        d := prev poly s.d
        i := s.i + 1 } := by
  have hsub : poly.length - v = poly.length - (v + 1) + 1 := by omega
  have hprev : prev poly s.d = (bottom poly + (poly.length - (v + 1))) % poly.length := by
    rw [h.d_eq, hsub, prev_chain (by omega)]
  have hbetween : u ≤ poly.length - (v + 1) := by omega
  have hnext : poly.length - (v + 1) ≤ poly.length - v := by omega
  have hmin := hc.min_le hbetween hnext (Nat.sub_le _ _)
  have hlow : s.lastY ≤ (chain poly (poly.length - (v + 1))).2 :=
    (le_min h.low_g hlast.ge).trans hmin
  refine ⟨hlt, ?_, h.g_eq, hprev, h.low_g, hlow, h.below_g, ?_, h.alphaG_eq, ?_⟩
  · show s.i + 1 = _
    rw [h.i_eq]
    omega
  · intro m hm hmn
    have hle : poly.length - v ≤ m := by omega
    rcases eq_or_lt_of_le hle with heq | hm'
    · rw [← heq, hlast]
    · exact h.below_d m hm' hmn
  · intro _
    refine ⟨Nat.succ_pos v, ?_⟩
    show slope poly s.d (prev poly s.d) = _
    rw [slope, h.vertex_d, hprev, ← hsub]
    rfl

/-- One turn of the inner loop on the left. -/
theorem At.walkLeft (hc : Clockwise poly.length (chain poly)) {u v : ℕ} {s : Cursors K}
    (h : At poly u v s) (hlt : u + v < poly.length) (hlast : (chain poly u).2 = s.lastY) :
    At poly (u + 1) v
      { s with
        alphaG := slope poly s.g (next poly s.g)
        g := next poly s.g
        i := s.i + 1 } := by
  have hnext : next poly s.g = (bottom poly + (u + 1)) % poly.length := by
    rw [h.g_eq, next_chain]
  have hbetween : u + 1 ≤ poly.length - v := by omega
  have hmin := hc.min_le (Nat.le_succ u) hbetween (Nat.sub_le _ _)
  have hlow : s.lastY ≤ (chain poly (u + 1)).2 := (le_min hlast.ge h.low_d).trans hmin
  refine ⟨by omega, ?_, hnext, h.d_eq, hlow, h.low_d, ?_, h.below_d, ?_, h.alphaD_eq⟩
  · show s.i + 1 = _
    rw [h.i_eq]
    omega
  · intro m hm
    rcases eq_or_lt_of_le (Nat.le_of_lt_succ hm) with rfl | hm
    · exact hlast.le
    · exact h.below_g m hm
  · intro _
    refine ⟨Nat.succ_pos u, ?_⟩
    show slope poly s.g (next poly s.g) = _
    rw [slope, h.vertex_g, hnext]
    rfl

/-- What the loop on the right gives: the top of the polygon, or a vertex above the last slice. -/
def RightDone (poly : List (K × K)) (u v : ℕ) (s : Cursors K) :
    Except (Cursors K) (Cursors K) → Prop
  | .error s' => s'.l = s.l ∧ ∀ m ≤ poly.length, (chain poly m).2 ≤ s.lastY
  | .ok s' => ∃ v', v ≤ v' ∧ At poly u v' s' ∧ s'.l = s.l ∧ s'.lastY = s.lastY ∧
      s.lastY < (chain poly (poly.length - v')).2

theorem walkRight_spec (hc : Clockwise poly.length (chain poly)) {fuel u v : ℕ} {s : Cursors K}
    (h : At poly u v s) (hfuel : poly.length + 1 - s.i ≤ fuel)
    (hopen : u + v < poly.length ∨ s.lastY < (chain poly (poly.length - v)).2) :
    RightDone poly u v s (walkRight poly fuel s) := by
  induction fuel generalizing v s with
  | zero =>
      have hfull : ¬ u + v < poly.length := by
        rw [h.i_eq] at hfuel
        omega
      exact ⟨v, le_rfl, h, rfl, rfl, hopen.resolve_left hfull⟩
  | succ fuel ih =>
      rw [walkRight]
      split_ifs with hcond hexit
      · -- both cursors are at the ends of a horizontal edge at the top
        obtain ⟨hd, hi⟩ := hcond
        rw [h.vertex_d] at hd hexit
        rw [h.vertex_g] at hexit
        have hlt := h.i_le_iff.mp hi
        have hsub : poly.length - v = poly.length - (v + 1) + 1 := by omega
        have hu : u < poly.length := by omega
        have hw : poly.length - (v + 1) < poly.length := by omega
        have hmeet : poly.length - (v + 1) = u := by
          refine index_inj hu hw ?_
          rw [← prev_chain (Nat.zero_lt_of_lt hlt), ← hsub, ← h.d_eq, hexit.1, h.g_eq]
        refine ⟨rfl, fun m hm => ?_⟩
        rcases lt_trichotomy m u with hmu | rfl | hmu
        · exact h.below_g m hmu
        · exact (hexit.2.symm.trans hd).le
        · rcases eq_or_lt_of_le (show poly.length - v ≤ m by omega) with heq | hmv
          · rw [← heq, hd]
          · exact h.below_d m hmv hm
      · obtain ⟨hd, hi⟩ := hcond
        rw [h.vertex_d] at hd hexit
        rw [h.vertex_g] at hexit
        have hlt := h.i_le_iff.mp hi
        have hstep := h.walkRight hc hlt hd
        have hopen' : u + (v + 1) < poly.length ∨
            s.lastY < (chain poly (poly.length - (v + 1))).2 := by
          rcases Nat.lt_or_ge (u + (v + 1)) poly.length with hlt' | hge
          · exact Or.inl hlt'
          · have hmeet : poly.length - (v + 1) = u := by omega
            have hsub : poly.length - v = poly.length - (v + 1) + 1 := by omega
            have hprev : prev poly s.d = s.g := by
              rw [h.d_eq, hsub, prev_chain (by omega), hmeet, h.g_eq]
            refine Or.inr ?_
            rw [hmeet]
            refine lt_of_le_of_ne h.low_g fun heq => hexit ⟨hprev, ?_⟩
            rw [hd, heq]
        have hdone := ih hstep (by show poly.length + 1 - (s.i + 1) ≤ fuel; omega) hopen'
        revert hdone
        cases walkRight poly fuel _ with
        | error s' => exact id
        | ok s' =>
            rintro ⟨v', hv', hrest⟩
            exact ⟨v', Nat.le_of_succ_le hv', hrest⟩
      · refine ⟨v, le_rfl, h, rfl, rfl, ?_⟩
        rw [h.vertex_d, h.i_le_iff, not_and'] at hcond
        rcases hopen with hlt | habove
        · exact lt_of_le_of_ne h.low_d fun heq => hcond hlt heq.symm
        · exact habove

theorem walkLeft_spec (hc : Clockwise poly.length (chain poly)) {fuel u v : ℕ} {s : Cursors K}
    (h : At poly u v s) (hfuel : poly.length + 1 - s.i ≤ fuel)
    (habove : s.lastY < (chain poly (poly.length - v)).2) :
    ∃ u', u ≤ u' ∧ At poly u' v (walkLeft poly fuel s) ∧ (walkLeft poly fuel s).l = s.l ∧
      (walkLeft poly fuel s).lastY = s.lastY ∧ s.lastY < (chain poly u').2 := by
  have hmeet : ¬ u + v < poly.length → s.lastY < (chain poly u).2 := by
    intro hge
    have hle := h.le
    have heq : u = poly.length - v := by omega
    rw [heq]
    exact habove
  induction fuel generalizing u s with
  | zero =>
      refine ⟨u, le_rfl, h, rfl, rfl, hmeet ?_⟩
      rw [h.i_eq] at hfuel
      omega
  | succ fuel ih =>
      rw [walkLeft]
      split_ifs with hcond
      · obtain ⟨hg, hi⟩ := hcond
        rw [h.vertex_g] at hg
        have hlt := h.i_le_iff.mp hi
        have hstep := h.walkLeft hc hlt hg
        have hmeet' : ¬ u + 1 + v < poly.length → s.lastY < (chain poly (u + 1)).2 := by
          intro hge
          have heq : u + 1 = poly.length - v := by omega
          rw [heq]
          exact habove
        obtain ⟨u', hu', hrest⟩ :=
          ih hstep (by show poly.length + 1 - (s.i + 1) ≤ fuel; omega) habove hmeet'
        exact ⟨u', Nat.le_of_succ_le hu', hrest⟩
      · refine ⟨u, le_rfl, h, rfl, rfl, ?_⟩
        rw [h.vertex_g, h.i_le_iff, not_and'] at hcond
        rcases Nat.lt_or_ge (u + v) poly.length with hlt | hge
        · exact lt_of_le_of_ne h.low_g fun heq => hcond hlt heq.symm
        · exact hmeet (Nat.not_lt_of_le hge)

/-! ### The slices -/

/-- A slice between two edges. -/
theorem covers_addSlice (hc : Clockwise poly.length (chain poly)) (hpos : 0 < poly.length)
    {u v : ℕ} {s : Cursors K} (h : At poly u v s) (hg : s.lastY < (chain poly u).2)
    (hd : s.lastY < (chain poly (poly.length - v)).2) :
    ∃ slice, (addSlice poly s).l = slice :: s.l ∧ slice.top = (addSlice poly s).lastY ∧
      Covers poly slice s.lastY := by
  obtain ⟨hu, halphaG⟩ := h.alphaG_eq hg
  obtain ⟨hv, halphaD⟩ := h.alphaD_eq hd
  have hle := h.le
  have hedge : ∀ {k}, k < poly.length → ∀ z ∈ vertices poly,
      orient (chain poly k) (chain poly (k + 1)) z ≤ 0 := by
    intro k hk z hz
    obtain ⟨m, hm, rfl⟩ := exists_chain hz
    exact hc.edge hk hm.le
  -- the edge on the left goes up from `a` to `b`, the one on the right down from `d` to `c`
  obtain ⟨u, rfl⟩ := Nat.exists_eq_succ_of_ne_zero hu.ne'
  rw [Nat.succ_eq_add_one, Nat.add_sub_cancel] at halphaG
  have hleft := hedge (show u < poly.length by omega)
  have hright := hedge (show poly.length - v < poly.length by omega)
  have ha : (chain poly u).2 ≤ s.lastY := h.below_g u u.lt_succ_self
  have hcy : (chain poly (poly.length - v + 1)).2 ≤ s.lastY :=
    h.below_d _ (Nat.lt_succ_self _) (by omega)
  have hab := ha.trans_lt hg
  have hcd := hcy.trans_lt hd
  have hmem := fun m => chain_mem hpos m
  have hlast := (addSlice_at h hg hd).2.2
  have hym : s.lastY < min (chain poly (poly.length - v)).2 (chain poly (u + 1)).2 := lt_min hd hg
  refine ⟨⟨min (chain poly (poly.length - v)).2 (chain poly (u + 1)).2,
    side (chain poly u) (chain poly (u + 1)) (min (chain poly (poly.length - v)).2
      (chain poly (u + 1)).2), side (chain poly (poly.length - v + 1))
      (chain poly (poly.length - v)) (min (chain poly (poly.length - v)).2
        (chain poly (u + 1)).2)⟩, ?_, hlast.symm, ?_⟩
  · simp only [addSlice, h.vertex_g, h.vertex_d, halphaG, halphaD, side, lineAt_eq hab.ne,
      lineAt_eq hcd.ne]
  · intro x y' hy hy'
    obtain ⟨hyd, hyb⟩ := le_min_iff.mp hy'
    have hcross := lineAt_le_lineAt (hmem u) (hmem (u + 1)) hab hcd hright (ha.trans hym.le)
      (min_le_right _ _)
    rw [run_printSlice hcross, mem_convexHull_iff (hmem u) (hmem (u + 1))
      (hmem (poly.length - v + 1)) (hmem (poly.length - v)) hab hcd hleft hright
      (ha.trans hy.le) (hcy.trans hy.le) hyb hyd]

theorem slices_spec (hc : Clockwise poly.length (chain poly)) (hpos : 0 < poly.length)
    {fuel u v : ℕ} {s : Cursors K} (h : At poly u v s) (hcut : Cut poly s.l s.lastY)
    (hlevel : s.lastY = (chain poly u).2 ∨ s.lastY = (chain poly (poly.length - v)).2)
    (hfull : ¬ u + v < poly.length → (chain poly u).2 ≤ s.lastY)
    (hfuel : poly.length - (u + v) < fuel) :
    ∃ l top, slices poly fuel s = some l ∧ Cut poly l top ∧
      ∀ m ≤ poly.length, (chain poly m).2 ≤ top := by
  induction fuel generalizing u v s with
  | zero => exact absurd hfuel (Nat.not_lt_zero _)
  | succ fuel ih =>
      rw [slices]
      split_ifs with hi
      · have hlt := h.i_le_iff.mp hi
        have hright := walkRight_spec hc h le_rfl (Or.inl hlt)
        cases hwalk : walkRight poly (poly.length + 1 - s.i) s with
        | error s' =>
            rw [hwalk] at hright
            obtain ⟨hl, htop⟩ := hright
            exact ⟨s'.l, s.lastY, rfl, hl ▸ hcut, htop⟩
        | ok s' =>
            rw [hwalk] at hright
            obtain ⟨v', hv', h', hl', hlast', habove'⟩ := hright
            rw [← hlast'] at habove'
            obtain ⟨u', hu', h'', hl'', hlast'', habove''⟩ := walkLeft_spec hc h' le_rfl habove'
            rw [← hlast''] at habove' habove''
            obtain ⟨hat, hgrow, hym⟩ := addSlice_at h'' habove'' habove'
            obtain ⟨slice, hslice, htop, hcovers⟩ := covers_addSlice hc hpos h'' habove'' habove'
            -- one of the cursors has left the level of the last slice
            have hmoved : u + v < u' + v' := by
              rw [hlast'', hlast'] at habove' habove''
              refine lt_of_le_of_ne (add_le_add hu' hv') fun heq => ?_
              have hu : u = u' := by omega
              have hv : v = v' := by omega
              rw [← hu] at habove''
              rw [← hv] at habove'
              rcases hlevel with hlevel | hlevel
              · exact absurd hlevel habove''.ne
              · exact absurd hlevel habove'.ne
            refine ih hat ?_ ?_ ?_ (by omega)
            · rw [hslice, ← htop]
              refine .cons ?_ hcovers
              rw [hl'', hl', hlast'', hlast']
              exact hcut
            · rw [hym]
              rcases min_choice (chain poly (poly.length - v')).2 (chain poly u').2 with heq | heq
              · exact Or.inr heq
              · exact Or.inl heq
            · intro hge
              have hle := hat.le
              have hmeet : poly.length - v' = u' := by omega
              rw [hym, hmeet, min_self]
      · have hge : ¬ u + v < poly.length := fun hlt => hi (h.i_le_iff.mpr hlt)
        refine ⟨s.l, s.lastY, rfl, hcut, fun m hm => ?_⟩
        have hle := h.le
        rcases lt_trichotomy m u with hmu | rfl | hmu
        · exact h.below_g m hmu
        · exact hfull hge
        · exact h.below_d m (by omega) hm

/-- The loops end, and the slices reach from the lowest line to the top. -/
theorem slices_start (h : ConvexClockwise poly) :
    ∃ l top, slices poly (poly.length + 1) (start poly) = some l ∧ Cut poly l top ∧
      ∀ m ≤ poly.length, (chain poly m).2 ≤ top := by
  have hpos : 0 < poly.length := Nat.zero_lt_of_lt h.three_le
  refine slices_spec (clockwise_chain h) hpos (at_start hpos) .nil ?_ ?_ (by omega)
  · left
    rw [chain, Nat.add_zero, Nat.mod_eq_of_lt (bottom_spec hpos).1]
    rfl
  · intro hge
    omega

/-! ### The decision -/

theorem minFloat_lt_maxFloat : (minFloat : K) < maxFloat := by
  have hpow : ∀ n : ℕ, (1 : K) ≤ 2 ^ n := fun n => one_le_pow₀ one_le_two
  have hmin : (minFloat : K) ≤ 1 := (div_le_one (by positivity)).mpr (hpow 1022)
  have hfactor : (1 : K) < 2 - 1 / 2 ^ 52 := by norm_num
  exact hmin.trans_lt (one_lt_mul_of_le_of_lt (hpow 1023) hfactor)

theorem run_outside (x y top : K) :
    (printSlice ⟨top, (maxFloat, 0), (minFloat, 0)⟩).run x y = false := by
  rw [printSlice, if_pos minFloat_lt_maxFloat]
  rfl

/-- For a convex polygon the decision function is printed, and decides the closed polygon. -/
theorem inside_polygon_iff (h : ConvexClockwise poly) :
    ∃ code, printInsidePolygon poly = some code ∧ Decides poly code := by
  have hpos : 0 < poly.length := Nat.zero_lt_of_lt h.three_le
  obtain ⟨l, top, hslices, hcut, htop⟩ := slices_start h
  obtain ⟨hlastTop, hcovers⟩ := hcut.layers
  have hheights : ∀ z ∈ vertices poly, (vertex poly (bottom poly)).2 ≤ z.2 ∧ z.2 ≤ top := by
    intro z hz
    refine ⟨(isLowest_bottom hpos).2 ⟨z, hz, rfl⟩, ?_⟩
    obtain ⟨m, hm, rfl⟩ := exists_chain hz
    exact htop m hm.le
  have hlayers : slicePolygon poly = some ((under poly :: l.reverse) ++ [above]) := by
    rw [slicePolygon, if_pos h.three_le, hslices, Option.map_some, List.reverse_cons,
      List.cons_append]
  have hlength : (under poly :: l.reverse).length = l.length + 1 := by
    rw [List.length_cons, List.length_reverse]
  have hlower : ∀ k ≤ l.length, ((under poly :: l.reverse) ++ [above]).getD k above =
      (under poly :: l.reverse).getD k above := by
    intro k hk
    rw [List.getD_append _ _ _ _ (by omega)]
  have hlast : ((under poly :: l.reverse) ++ [above]).getD (l.length + 1) above = above := by
    rw [List.getD_append_right _ _ _ _ (by omega), hlength, Nat.sub_self]
    rfl
  have hlayersLength : ((under poly :: l.reverse) ++ [above]).length - 1 = l.length + 1 := by
    rw [List.length_append, hlength]
    rfl
  refine ⟨_, by rw [printInsidePolygon, hlayers, Option.map_some], fun x y hy => ?_⟩
  have hfuel : ((under poly :: l.reverse) ++ [above]).length - 1 - 0 ≤
      ((under poly :: l.reverse) ++ [above]).length := by omega
  obtain ⟨k, -, hk, hbelow, habove, hrun⟩ := printLayers_spec
    ((under poly :: l.reverse) ++ [above]) x y (Nat.zero_le _) hfuel
  rw [hrun]
  rw [hlayersLength] at hk hbelow
  rcases Nat.eq_zero_or_pos k with rfl | hk₀
  · -- below the polygon
    have hle : y ≤ (vertex poly (bottom poly)).2 := hbelow (Nat.succ_pos _)
    have hne : y ≠ (vertex poly (bottom poly)).2 := by
      rintro rfl
      exact hy (isLowest_bottom hpos)
    have hfalse : ¬ (x, y) ∈ convexHull K (vertices poly) := fun hmem =>
      absurd (snd_mem_Icc_of_mem_convexHull hheights hmem).1 (not_le.mpr (lt_of_le_of_ne hle hne))
    rw [hlower 0 (Nat.zero_le _)]
    simp only [List.getD_cons_zero, under, run_outside, Bool.false_eq_true, hfalse]
  rcases eq_or_lt_of_le hk with rfl | hk
  · -- above the polygon
    have hgt := habove hk₀
    rw [Nat.add_sub_cancel, hlower _ le_rfl, hlastTop] at hgt
    have hfalse : ¬ (x, y) ∈ convexHull K (vertices poly) := fun hmem =>
      absurd (snd_mem_Icc_of_mem_convexHull hheights hmem).2 (not_le.mpr hgt)
    rw [hlast]
    simp only [above, run_outside, Bool.false_eq_true, hfalse]
  · have hk' : k ≤ l.length := Nat.le_of_lt_succ hk
    have hgt := habove hk₀
    have hle := hbelow hk
    rw [hlower _ (by omega)] at hgt
    rw [hlower _ hk'] at hle ⊢
    exact hcovers k hk₀ hk' x y hgt hle

def trapezoid : List (ℚ × ℚ) := [(0, 0), (1, 2), (3, 2), (4, 0)]

theorem convexClockwise_trapezoid : ConvexClockwise trapezoid where
  three_le := by decide
  turns := by
    intro i j k hij hjk hk
    have hk : k < 4 := hk
    have hj : j < 3 := by omega
    have hi : i < 2 := by omega
    interval_cases k <;> interval_cases j <;> interval_cases i <;>
      first | omega | (show orient _ _ _ ≤ (0 : ℚ); norm_num [orient, vertex, trapezoid])
  not_flat := by
    refine ⟨(0, 0), List.mem_cons_self, (1, 2), List.mem_cons_of_mem _ List.mem_cons_self, (3, 2),
      List.mem_cons_of_mem _ (List.mem_cons_of_mem _ List.mem_cons_self), ?_⟩
    norm_num [orient]

theorem inside_polygon_trapezoid :
    ∃ code, printInsidePolygon trapezoid = some code ∧ Decides trapezoid code :=
  inside_polygon_iff convexClockwise_trapezoid

end Paparazzi.FlightPlan.Sectors
