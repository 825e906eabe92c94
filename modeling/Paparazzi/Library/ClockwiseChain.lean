import Mathlib.Analysis.Convex.Hull
import Mathlib.Analysis.Convex.Segment
import Mathlib.Tactic.FieldSimp
import Mathlib.Tactic.LinearCombination
import Mathlib.Tactic.Linarith

/-!
Closed chains of points in the plane that turn clockwise: their heights rise and then fall, and
their convex hull is cut into strips by the edges at its sides.
-/

namespace Paparazzi.Library.ClockwiseChain

variable {K : Type} [Field K]

/-- Twice the signed area of a triangle, positive if it is counterclockwise. -/
def orient (a b c : K × K) : K := (b.1 - a.1) * (c.2 - a.2) - (b.2 - a.2) * (c.1 - a.1)

theorem orient_rotate (a b c : K × K) : orient b c a = orient a b c := by
  simp only [orient]
  ring

theorem orient_swap (a b c : K × K) : orient a c b = -orient a b c := by
  simp only [orient]
  ring

theorem orient_self_left (a b : K × K) : orient a b a = 0 := by
  simp only [orient]
  ring

theorem orient_self_right (a b : K × K) : orient a b b = 0 := by
  simp only [orient]
  ring

/-- The areas over two edges of one line are as their heights. -/
theorem orient_of_line {a j c : K × K} (h : orient a j c = 0) (m : K × K) :
    (j.2 - a.2) * orient j c m = (c.2 - j.2) * orient a j m := by
  have hid : (j.2 - a.2) * orient j c m =
      (c.2 - j.2) * orient a j m - (m.2 - j.2) * orient a j c := by
    simp only [orient]
    ring
  rw [hid, h, mul_zero, sub_zero]

/-- The same for the line from another of its points. -/
theorem orient_from_line {o a j : K × K} (h : orient o a j = 0) (m : K × K) :
    (j.2 - a.2) * orient o a m = (a.2 - o.2) * orient a j m := by
  have hid : (j.2 - a.2) * orient o a m =
      (a.2 - o.2) * orient a j m + (m.2 - a.2) * orient o a j := by
    simp only [orient]
    ring
  rw [hid, h, mul_zero, add_zero]

/-- And for the edge between two others. -/
theorem orient_across_line {o a j c : K × K} (hoaj : orient o a j = 0) (hajc : orient a j c = 0)
    (m : K × K) : (j.2 - a.2) * orient o m c = -((c.2 - o.2) * orient a j m) := by
  have hid : (j.2 - a.2) * orient o m c =
      -((c.2 - o.2) * (orient a j m - orient a j c)) -
        (m.2 - c.2) * (orient o a j - orient a j c) := by
    simp only [orient]
    ring
  rw [hid, hajc, hoaj, sub_zero, sub_zero, mul_zero, sub_zero]

/-- The line through two points, at a height. -/
def lineAt (a b : K × K) (y : K) : K := a.1 + (b.1 - a.1) / (b.2 - a.2) * (y - a.2)

variable [LinearOrder K] [IsStrictOrderedRing K]

/-! ### Heights -/

/-- A valley above a point `o` that turns clockwise with it lies on one line. -/
theorem orient_eq_zero_of_valley {o a j c : K × K} (hoj : o.2 ≤ j.2) (hja : j.2 < a.2)
    (hjc : j.2 < c.2) (hoaj : orient o a j ≤ 0) (hojc : orient o j c ≤ 0)
    (hoac : orient o a c ≤ 0) (hajc : orient a j c ≤ 0) :
    orient a j c = 0 ∧ orient o a j = 0 := by
  have hsum : (c.2 - j.2) * orient o a j + (a.2 - j.2) * orient o j c =
      (o.2 - j.2) * orient a j c := by
    simp only [orient]
    ring
  have hc : 0 < c.2 - j.2 := sub_pos.mpr hjc
  have ha : 0 < a.2 - j.2 := sub_pos.mpr hja
  have hleft : (c.2 - j.2) * orient o a j ≤ 0 := mul_nonpos_of_nonneg_of_nonpos hc.le hoaj
  have hmiddle : (a.2 - j.2) * orient o j c ≤ 0 := mul_nonpos_of_nonneg_of_nonpos ha.le hojc
  have hright : 0 ≤ (o.2 - j.2) * orient a j c :=
    mul_nonneg_of_nonpos_of_nonpos (sub_nonpos.mpr hoj) hajc
  have hoaj₀ : orient o a j = 0 :=
    (mul_eq_zero.mp (le_antisymm hleft (by linarith))).resolve_left hc.ne'
  have hojc₀ : orient o j c = 0 :=
    (mul_eq_zero.mp (le_antisymm hmiddle (by linarith))).resolve_left ha.ne'
  have hfour : orient o a j + orient o j c = orient o a c + orient a j c := by
    simp only [orient]
    ring
  exact ⟨le_antisymm hajc (by linarith), hoaj₀⟩

/-- Points on one line that is not horizontal are flat. -/
theorem orient_eq_zero_of_line {a j p q r : K × K} (hne : j.2 ≠ a.2) (hp : orient a j p = 0)
    (hq : orient a j q = 0) (hr : orient a j r = 0) : orient p q r = 0 := by
  have h : (j.2 - a.2) * orient p q r =
      (q.2 - p.2) * (orient a j r - orient a j p) -
        (r.2 - p.2) * (orient a j q - orient a j p) := by
    simp only [orient]
    ring
  rw [hp, hq, hr, sub_self, mul_zero, mul_zero, sub_self] at h
  exact (mul_eq_zero.mp h).resolve_left (sub_ne_zero.mpr hne)

/-- A closed chain of `n` edges, from its lowest point, that turns clockwise and is not flat. -/
structure Clockwise (n : ℕ) (p : ℕ → K × K) : Prop where
  closed : p n = p 0
  lowest : ∀ m ≤ n, (p 0).2 ≤ (p m).2
  turns : ∀ i j k, i < j → j < k → k ≤ n → orient (p i) (p j) (p k) ≤ 0
  not_flat : ∃ i ≤ n, ∃ j ≤ n, ∃ k ≤ n, orient (p i) (p j) (p k) ≠ 0

namespace Clockwise

variable {n : ℕ} {p : ℕ → K × K} (h : Clockwise n p)

include h

/-- Around a valley the whole chain would lie on one line. -/
theorem orient_eq_zero {i j k : ℕ} (hi : 0 < i) (hij : i < j) (hjk : j < k) (hk : k ≤ n)
    (hji : (p j).2 < (p i).2) (hjk' : (p j).2 < (p k).2) {m : ℕ} (hm : m ≤ n) :
    orient (p i) (p j) (p m) = 0 := by
  have hoj := h.lowest j (hjk.le.trans hk)
  obtain ⟨hajc, hoaj⟩ := orient_eq_zero_of_valley hoj hji hjk'
    (h.turns 0 i j hi hij (hjk.le.trans hk)) (h.turns 0 j k (hi.trans hij) hjk hk)
    (h.turns 0 i k hi (hij.trans hjk) hk) (h.turns i j k hij hjk hk)
  have hdown : (p j).2 - (p i).2 < 0 := sub_neg.mpr hji
  have hup : 0 < (p k).2 - (p j).2 := sub_pos.mpr hjk'
  -- The rising side, as seen from the falling one.
  have hrise := orient_of_line hajc (p m)
  have hneg_of_rise : orient (p j) (p k) (p m) ≤ 0 → 0 ≤ orient (p i) (p j) (p m) := by
    intro hle
    have hprod := mul_nonneg_of_nonpos_of_nonpos hdown.le hle
    rw [hrise] at hprod
    exact nonneg_of_mul_nonneg_right hprod hup
  have hpos_of_rise : 0 ≤ orient (p j) (p k) (p m) → orient (p i) (p j) (p m) ≤ 0 := by
    intro hle
    have hprod := mul_nonpos_of_nonpos_of_nonneg hdown.le hle
    rw [hrise] at hprod
    exact nonpos_of_mul_nonpos_right hprod hup
  rcases lt_trichotomy m i with hmi | rfl | him
  · have hfall := h.turns m i j hmi hij (hjk.le.trans hk)
    have hrise := h.turns m j k (hmi.trans hij) hjk hk
    rw [← orient_rotate] at hfall hrise
    exact le_antisymm hfall (hneg_of_rise hrise)
  · exact orient_self_left _ _
  rcases lt_trichotomy m j with hmj | rfl | hjm
  · have hfall := h.turns i m j him hmj (hjk.le.trans hk)
    rw [orient_swap, neg_nonpos] at hfall
    refine le_antisymm ?_ hfall
    -- The lowest point sees the rising side from the other end.
    have hlow := h.turns 0 m k (hi.trans him) (hmj.trans hjk) hk
    have hprod := mul_nonneg_of_nonpos_of_nonpos hdown.le hlow
    rw [orient_across_line hoaj hajc, neg_nonneg] at hprod
    exact nonpos_of_mul_nonpos_right hprod (sub_pos.mpr (hoj.trans_lt hjk'))
  · exact orient_self_right _ _
  rcases lt_trichotomy m k with hmk | rfl | hkm
  · have hmiddle := h.turns j m k hjm hmk hk
    rw [orient_swap, neg_nonpos] at hmiddle
    refine le_antisymm (hpos_of_rise hmiddle) ?_
    have hlow := h.turns 0 i m hi him hm
    have hprod := mul_nonneg_of_nonpos_of_nonpos hdown.le hlow
    rw [orient_from_line hoaj] at hprod
    exact nonneg_of_mul_nonneg_right hprod (sub_pos.mpr (hoj.trans_lt hji))
  · exact hajc
  · exact le_antisymm (h.turns i j m hij hjm hm) (hneg_of_rise (h.turns j k m hjk hkm hm))

/-- The heights rise, then fall. -/
theorem min_le {i j k : ℕ} (hij : i ≤ j) (hjk : j ≤ k) (hk : k ≤ n) :
    min (p i).2 (p k).2 ≤ (p j).2 := by
  by_contra hlt
  obtain ⟨hji, hjk'⟩ := lt_min_iff.mp (not_le.mp hlt)
  have hi : 0 < i := by
    rcases Nat.eq_zero_or_pos i with rfl | hi
    · exact absurd (h.lowest j (hjk.trans hk)) (not_le.mpr hji)
    · exact hi
  have hij' : i < j := lt_of_le_of_ne hij (by rintro rfl; exact lt_irrefl _ hji)
  have hjk'' : j < k := lt_of_le_of_ne hjk (by rintro rfl; exact lt_irrefl _ hjk')
  obtain ⟨a, ha, b, hb, c, hc, hne⟩ := h.not_flat
  refine hne (orient_eq_zero_of_line hji.ne ?_ ?_ ?_)
  · exact h.orient_eq_zero hi hij' hjk'' hk hji hjk' ha
  · exact h.orient_eq_zero hi hij' hjk'' hk hji hjk' hb
  · exact h.orient_eq_zero hi hij' hjk'' hk hji hjk' hc

omit [IsStrictOrderedRing K] in
/-- All points are on the right of an edge. -/
theorem edge {k m : ℕ} (hk : k < n) (hm : m ≤ n) : orient (p k) (p (k + 1)) (p m) ≤ 0 := by
  rcases lt_trichotomy m k with hmk | rfl | hkm
  · rw [orient_rotate]
    exact h.turns m k (k + 1) hmk k.lt_succ_self hk
  · rw [orient_self_left]
  rcases eq_or_lt_of_le (Nat.succ_le_of_lt hkm) with rfl | hkm
  · rw [orient_self_right]
  · exact h.turns k (k + 1) m k.lt_succ_self hkm hm

end Clockwise

/-! ### Strips -/

omit [LinearOrder K] [IsStrictOrderedRing K] in
theorem lineAt_eq {a b : K × K} (hne : a.2 ≠ b.2) (y : K) :
    lineAt a b y = b.1 - (b.1 - a.1) / (b.2 - a.2) * (b.2 - y) := by
  have hsub : b.2 - a.2 ≠ 0 := sub_ne_zero.mpr hne.symm
  rw [lineAt]
  field_simp
  ring

theorem lineAt_le {a b z : K × K} (hlt : a.2 < b.2) (h : orient a b z ≤ 0) :
    lineAt a b z.2 ≤ z.1 := by
  have hpos : 0 < b.2 - a.2 := sub_pos.mpr hlt
  rw [lineAt, div_mul_eq_mul_div, ← le_sub_iff_add_le', div_le_iff₀ hpos]
  rw [orient] at h
  linarith [mul_comm (b.2 - a.2) (z.1 - a.1)]

theorem le_lineAt {a b z : K × K} (hlt : a.2 < b.2) (h : orient b a z ≤ 0) :
    z.1 ≤ lineAt a b z.2 := by
  have hpos : 0 < b.2 - a.2 := sub_pos.mpr hlt
  have hflip : orient b a z = -orient a b z := by
    simp only [orient]
    ring
  rw [lineAt, div_mul_eq_mul_div, ← sub_le_iff_le_add', le_div_iff₀ hpos]
  rw [hflip, orient] at h
  linarith [mul_comm (b.2 - a.2) (z.1 - a.1)]

/-- A half plane that holds the points holds their hull. -/
theorem orient_le_of_mem_convexHull {s : Set (K × K)} {a b : K × K}
    (h : ∀ z ∈ s, orient a b z ≤ 0) {z : K × K} (hz : z ∈ convexHull K s) : orient a b z ≤ 0 := by
  have hconvex : Convex K {z : K × K | orient a b z ≤ 0} := by
    intro x hx y hy u v hu hv huv
    have hsplit : orient a b (u • x + v • y) = u * orient a b x + v * orient a b y := by
      have hv' : v = 1 - u := by rw [← huv, add_sub_cancel_left]
      simp only [orient, Prod.fst_add, Prod.snd_add, Prod.smul_fst, Prod.smul_snd, smul_eq_mul, hv']
      ring
    rw [Set.mem_ofPred_eq, hsplit]
    exact add_nonpos (mul_nonpos_of_nonneg_of_nonpos hu hx) (mul_nonpos_of_nonneg_of_nonpos hv hy)
  exact convexHull_min h hconvex hz

theorem snd_mem_Icc_of_mem_convexHull {s : Set (K × K)} {lo hi : K}
    (h : ∀ z ∈ s, lo ≤ z.2 ∧ z.2 ≤ hi) {z : K × K} (hz : z ∈ convexHull K s) :
    lo ≤ z.2 ∧ z.2 ≤ hi := by
  have hconvex : Convex K {z : K × K | lo ≤ z.2 ∧ z.2 ≤ hi} := by
    intro x hx y hy u v hu hv huv
    have hlo : u * lo + v * lo = lo := by rw [← add_mul, huv, one_mul]
    have hhi : u * hi + v * hi = hi := by rw [← add_mul, huv, one_mul]
    simp only [Set.mem_ofPred_eq, Prod.snd_add, Prod.smul_snd, smul_eq_mul]
    refine ⟨?_, ?_⟩
    · rw [← hlo]
      exact add_le_add (mul_le_mul_of_nonneg_left hx.1 hu) (mul_le_mul_of_nonneg_left hy.1 hv)
    · rw [← hhi]
      exact add_le_add (mul_le_mul_of_nonneg_left hx.2 hu) (mul_le_mul_of_nonneg_left hy.2 hv)
  exact convexHull_min h hconvex hz

/-- The line of an edge stays in the hull. -/
theorem lineAt_mem_convexHull {s : Set (K × K)} {a b : K × K} (ha : a ∈ s) (hb : b ∈ s)
    (hlt : a.2 < b.2) {y : K} (hay : a.2 ≤ y) (hyb : y ≤ b.2) :
    (lineAt a b y, y) ∈ convexHull K s := by
  have hpos : 0 < b.2 - a.2 := sub_pos.mpr hlt
  have hsegment := (convex_convexHull K s).segment_subset (subset_convexHull K s ha)
    (subset_convexHull K s hb)
  refine hsegment ⟨(b.2 - y) / (b.2 - a.2), (y - a.2) / (b.2 - a.2),
    div_nonneg (sub_nonneg.mpr hyb) hpos.le, div_nonneg (sub_nonneg.mpr hay) hpos.le, ?_, ?_⟩
  · rw [← add_div, sub_add_sub_cancel, div_self hpos.ne']
  · refine Prod.ext ?_ ?_
    · simp only [Prod.fst_add, Prod.smul_fst, smul_eq_mul, lineAt]
      field_simp
      ring
    · simp only [Prod.snd_add, Prod.smul_snd, smul_eq_mul]
      field_simp
      ring

/-- Between the heights of an edge on the left and one on the right, the hull lies between their
lines. -/
theorem mem_convexHull_iff {s : Set (K × K)} {a b c d : K × K} (ha : a ∈ s) (hb : b ∈ s)
    (hc : c ∈ s) (hd : d ∈ s) (hab : a.2 < b.2) (hcd : c.2 < d.2)
    (hleft : ∀ z ∈ s, orient a b z ≤ 0) (hright : ∀ z ∈ s, orient d c z ≤ 0) {y : K}
    (hay : a.2 ≤ y) (hcy : c.2 ≤ y) (hyb : y ≤ b.2) (hyd : y ≤ d.2) (x : K) :
    (x, y) ∈ convexHull K s ↔ lineAt a b y ≤ x ∧ x ≤ lineAt c d y := by
  constructor
  · intro hmem
    exact ⟨lineAt_le hab (orient_le_of_mem_convexHull hleft hmem),
      le_lineAt hcd (orient_le_of_mem_convexHull hright hmem)⟩
  · rintro ⟨hx, hx'⟩
    have hsegment := (convex_convexHull K s).segment_subset
      (lineAt_mem_convexHull ha hb hab hay hyb) (lineAt_mem_convexHull hc hd hcd hcy hyd)
    refine hsegment ?_
    rw [← Prod.image_mk_segment_left, segment_eq_Icc (hx.trans hx')]
    exact ⟨x, ⟨hx, hx'⟩, rfl⟩

/-- The lines of the two edges do not cross. -/
theorem lineAt_le_lineAt {s : Set (K × K)} {a b c d : K × K} (ha : a ∈ s) (hb : b ∈ s)
    (hab : a.2 < b.2) (hcd : c.2 < d.2) (hright : ∀ z ∈ s, orient d c z ≤ 0) {y : K}
    (hay : a.2 ≤ y) (hyb : y ≤ b.2) : lineAt a b y ≤ lineAt c d y :=
  le_lineAt hcd (orient_le_of_mem_convexHull hright (lineAt_mem_convexHull ha hb hab hay hyb))

end Paparazzi.Library.ClockwiseChain
