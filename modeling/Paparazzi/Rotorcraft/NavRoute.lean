import Mathlib.Algebra.Order.Field.Basic
import Mathlib.Algebra.Order.Field.Rat
import Mathlib.Algebra.Order.Ring.Abs
import Mathlib.Order.Interval.Set.UnorderedInterval
import Mathlib.Tactic.FieldSimp
import Mathlib.Tactic.Ring
import Paparazzi.Math.AlgebraInt
import Paparazzi.Rotorcraft.Navigation

/-!
Route following of the rotorcraft, `nav_route`: the target is a point of the leg a carrot distance
ahead of the aircraft. Positions have 8 fractional bits, the computation is in whole metres.
-/

namespace Paparazzi.Rotorcraft.NavRoute

open Paparazzi.Library.Checked32
open Paparazzi.Math.AlgebraInt
open Paparazzi.Math.GeodeticInt
open Paparazzi.Rotorcraft.Navigation

def int32PosFrac : ℕ := 8

/-- 12 m. -/
def carrotDist : ℤ := 12 * 2 ^ int32PosFrac

/-- The macro `Bound`. -/
def bound (x min max : ℤ) : ℤ := if x > max then max else if x < min then min else x

/-- What `nav_route` sets. -/
structure RouteState where
  navLegLength : ℤ
  navLegProgress : ℤ
  navigationTarget : Int32Vect2
  navSegmentStart : UInt8
  navSegmentEnd : UInt8
  horizontalMode : HorizontalMode
  deriving DecidableEq, Repr

def navRoute (waypoints : UInt8 → EnuCoorI) (position : EnuCoorI) (wpStart wpEnd : UInt8) :
    Option RouteState := do
  let wpDiff ← vect2Diff (vect2Of (waypoints wpEnd)) (vect2Of (waypoints wpStart))
  let posDiff ← vect2Diff (vect2Of position) (vect2Of (waypoints wpStart))
  let wpDiff := int32Vect2Rshift wpDiff int32PosFrac
  let posDiff := int32Vect2Rshift posDiff int32PosFrac
  let legLength2 := max (← dot wpDiff wpDiff) 1
  let navLegLength := int32Sqrt legLength2
  let navLegProgress ← div (← dot posDiff wpDiff) navLegLength
  let progress := max (carrotDist >>> int32PosFrac) 0
  let navLegProgress ← check (navLegProgress + progress)
  let navLegProgress := bound navLegProgress 0 navLegLength
  let progressPos ← vect2Smul wpDiff navLegProgress
  let progressPos ← vect2Sdiv progressPos navLegLength
  let progressPos ← int32Vect2Lshift progressPos int32PosFrac
  let navigationTarget ← vect2Sum (vect2Of (waypoints wpStart)) progressPos
  return {
    navLegLength := navLegLength
    navLegProgress := navLegProgress
    navigationTarget := navigationTarget
    navSegmentStart := wpStart
    navSegmentEnd := wpEnd
    horizontalMode := .route }

/-! ### What is asked -/

/-- 30 km. -/
def farthest : ℤ := 30000 * 2 ^ int32PosFrac

def sqDist (a b : Int32Vect2) : ℤ := (a.x - b.x) ^ 2 + (a.y - b.y) ^ 2

/-- The waypoints are less than 30 km apart. -/
def ShortLeg (waypoints : UInt8 → EnuCoorI) (wpStart wpEnd : UInt8) : Prop :=
  sqDist (vect2Of (waypoints wpEnd)) (vect2Of (waypoints wpStart)) < farthest ^ 2

/-- The position is within 30 km of both. -/
def Within (waypoints : UInt8 → EnuCoorI) (position : EnuCoorI) (wpStart wpEnd : UInt8) : Prop :=
  sqDist (vect2Of position) (vect2Of (waypoints wpStart)) ≤ farthest ^ 2 ∧
    sqDist (vect2Of position) (vect2Of (waypoints wpEnd)) ≤ farthest ^ 2

instance (waypoints : UInt8 → EnuCoorI) (wpStart wpEnd : UInt8) :
    Decidable (ShortLeg waypoints wpStart wpEnd) := inferInstanceAs (Decidable (_ < _))

instance (waypoints : UInt8 → EnuCoorI) (position : EnuCoorI) (wpStart wpEnd : UInt8) :
    Decidable (Within waypoints position wpStart wpEnd) := inferInstanceAs (Decidable (_ ∧ _))

/-- A measure of how far a position has come on the leg from a start to an end. -/
abbrev Along := Int32Vect2 → Int32Vect2 → Int32Vect2 → ℤ

/-- The product of the position and the leg, both taken from the start. -/
def projection : Along := fun first last p =>
  (p.x - first.x) * (last.x - first.x) + (p.y - first.y) * (last.y - first.y)

/-- A difference in whole metres, rounded down. -/
def wholeMetres (a b : Int32Vect2) : Int32Vect2 :=
  int32Vect2Rshift ⟨a.x - b.x, a.y - b.y⟩ int32PosFrac

/-- The projection with both differences in whole metres. -/
def wholeProjection : Along := fun first last p =>
  (wholeMetres p first).x * (wholeMetres last first).x +
    (wholeMetres p first).y * (wholeMetres last first).y

section

variable (waypoints : UInt8 → EnuCoorI) (wpStart wpEnd : UInt8)

def NoOverflow : Prop :=
  ∀ position, Within waypoints position wpStart wpEnd →
    (navRoute waypoints position wpStart wpEnd).isSome = true

/-- The target differs from a point of the segment by `tol` or less in each coordinate. -/
def OnSegment (tol : ℚ) : Prop :=
  ∀ position r, Within waypoints position wpStart wpEnd →
    navRoute waypoints position wpStart wpEnd = some r →
      let first := vect2Of (waypoints wpStart)
      let last := vect2Of (waypoints wpEnd)
      ∃ t : ℚ, 0 ≤ t ∧ t ≤ 1 ∧
        |(r.navigationTarget.x : ℚ) - (first.x + t * (last.x - first.x))| ≤ tol ∧
        |(r.navigationTarget.y : ℚ) - (first.y + t * (last.y - first.y))| ≤ tol

/-- Past the end waypoint the target is there, up to 1 m. -/
def AtEnd (along : Along) : Prop :=
  ∀ position r, Within waypoints position wpStart wpEnd →
    navRoute waypoints position wpStart wpEnd = some r →
      let first := vect2Of (waypoints wpStart)
      let last := vect2Of (waypoints wpEnd)
      along first last last ≤ along first last (vect2Of position) →
        |r.navigationTarget.x - last.x| ≤ 2 ^ int32PosFrac ∧
          |r.navigationTarget.y - last.y| ≤ 2 ^ int32PosFrac

/-- A position that has come farther has a target that is farther from the start. -/
def Advances (along : Along) : Prop :=
  ∀ position position' r r', Within waypoints position wpStart wpEnd →
    Within waypoints position' wpStart wpEnd →
    navRoute waypoints position wpStart wpEnd = some r →
    navRoute waypoints position' wpStart wpEnd = some r' →
      let first := vect2Of (waypoints wpStart)
      let last := vect2Of (waypoints wpEnd)
      along first last (vect2Of position) ≤ along first last (vect2Of position') →
        r.navigationTarget.x ∈ Set.uIcc first.x r'.navigationTarget.x ∧
          r.navigationTarget.y ∈ Set.uIcc first.y r'.navigationTarget.y

structure StaysOnLeg (tol : ℚ) (along : Along) : Prop where
  noOverflow : NoOverflow waypoints wpStart wpEnd
  onSegment : OnSegment waypoints wpStart wpEnd tol
  atEnd : AtEnd waypoints wpStart wpEnd along
  advances : Advances waypoints wpStart wpEnd along

end

/-! ### A part of a length -/

section

variable {w progress progress' len : ℤ}

theorem part_mem_of_nonneg (hw : 0 ≤ w) (hpos : 0 ≤ progress) (hle : progress ≤ len)
    (hlen : 0 < len) : 0 ≤ (w * progress).tdiv len ∧ (w * progress).tdiv len ≤ w := by
  have hprod : 0 ≤ w * progress := Int.mul_nonneg hw hpos
  rw [Int.tdiv_eq_ediv_of_nonneg hprod]
  exact ⟨Int.ediv_nonneg hprod hlen.le,
    Int.ediv_le_of_le_mul hlen (Int.mul_le_mul_of_nonneg_left hle hw)⟩

theorem part_neg : ((-w) * progress).tdiv len = -(w * progress).tdiv len := by
  rw [Int.neg_mul, Int.neg_tdiv]

theorem abs_part_le (hpos : 0 ≤ progress) (hle : progress ≤ len) (hlen : 0 < len) :
    |(w * progress).tdiv len| ≤ |w| := by
  rcases le_total 0 w with hw | hw
  · obtain ⟨hlow, hhigh⟩ := part_mem_of_nonneg hw hpos hle hlen
    rwa [abs_of_nonneg hlow, abs_of_nonneg hw]
  · obtain ⟨hlow, hhigh⟩ := part_mem_of_nonneg (Int.neg_nonneg_of_nonpos hw) hpos hle hlen
    rw [part_neg] at hlow hhigh
    rwa [← abs_neg, abs_of_nonneg hlow, abs_of_nonpos hw]

theorem part_mono_of_nonneg (hw : 0 ≤ w) (hpos : 0 ≤ progress) (hle : progress ≤ progress')
    (hlen : 0 < len) : (w * progress).tdiv len ≤ (w * progress').tdiv len := by
  rw [Int.tdiv_eq_ediv_of_nonneg (Int.mul_nonneg hw hpos),
    Int.tdiv_eq_ediv_of_nonneg (Int.mul_nonneg hw (hpos.trans hle))]
  exact Int.ediv_le_ediv hlen (Int.mul_le_mul_of_nonneg_left hle hw)

/-- More progress on either side of 0. -/
theorem part_mem_uIcc (hpos : 0 ≤ progress) (hle : progress ≤ progress') (hlen : 0 < len) :
    (w * progress).tdiv len ∈ Set.uIcc 0 ((w * progress').tdiv len) := by
  rcases le_total 0 w with hw | hw
  · refine Set.mem_uIcc_of_le ?_ (part_mono_of_nonneg hw hpos hle hlen)
    exact Int.tdiv_nonneg (Int.mul_nonneg hw hpos) hlen.le
  · have hw' := Int.neg_nonneg_of_nonpos hw
    have hmono := part_mono_of_nonneg hw' hpos hle hlen
    have hnonneg := Int.tdiv_nonneg (Int.mul_nonneg hw' hpos) hlen.le
    rw [part_neg] at hmono hnonneg
    rw [part_neg] at hmono
    exact Set.mem_uIcc_of_ge (Int.neg_le_neg_iff.mp hmono) (Int.neg_nonneg.mp hnonneg)

end

/-! ### The route in range -/

theorem abs_le_of_sqDist {a b : Int32Vect2} {far : ℤ} (hfar : 0 ≤ far)
    (h : sqDist a b ≤ far ^ 2) : |a.x - b.x| ≤ far ∧ |a.y - b.y| ≤ far := by
  rw [sqDist] at h
  constructor
  · exact abs_le_of_sq_le_sq (by linarith [sq_nonneg (a.y - b.y)]) hfar
  · exact abs_le_of_sq_le_sq (by linarith [sq_nonneg (a.x - b.x)]) hfar

/-- Whole metres of a length up to 30 km. -/
theorem abs_shiftRight_le {z : ℤ} (h : |z| ≤ farthest) : |z >>> int32PosFrac| ≤ 30000 := by
  rw [abs_le] at h ⊢
  rw [Int.shiftRight_eq_div_pow]
  change -(30000 * 2 ^ 8) ≤ z ∧ z ≤ 30000 * 2 ^ 8 at h
  change -30000 ≤ z / 2 ^ 8 ∧ z / 2 ^ 8 ≤ 30000
  omega

theorem abs_mul_le {a b : ℤ} (ha : |a| ≤ 30000) (hb : |b| ≤ 30000) : |a * b| ≤ 900000000 := by
  rw [abs_mul]
  calc
    |a| * |b| ≤ 30000 * 30000 := mul_le_mul ha hb (abs_nonneg b) (by decide)
    _ = 900000000 := by decide

/-- The length of the leg in whole metres. -/
def legLength (w : Int32Vect2) : ℤ := int32Sqrt (max (w.x * w.x + w.y * w.y) 1)

def legProgress (w : Int32Vect2) (along : ℤ) : ℤ :=
  bound (along.tdiv (legLength w) + 12) 0 (legLength w)

/-- A coordinate of the target. -/
def targetOf (first w along len : ℤ) : ℤ := first + (w * along).tdiv len * 2 ^ int32PosFrac

theorem bound_mem {x max : ℤ} (h : 0 ≤ max) : 0 ≤ bound x 0 max ∧ bound x 0 max ≤ max := by
  rw [bound]
  split_ifs <;> omega

theorem bound_mono {x x' max : ℤ} (h : 0 ≤ max) (hle : x ≤ x') :
    bound x 0 max ≤ bound x' 0 max := by
  rw [bound, bound]
  split_ifs <;> omega

/-- Both coordinates in whole metres are at most 30 km. -/
structure Whole (v : Int32Vect2) : Prop where
  x_le : |v.x| ≤ 30000
  y_le : |v.y| ≤ 30000

theorem Whole.abs_dot_le {v w : Int32Vect2} (hv : Whole v) (hw : Whole w) :
    |v.x * w.x + v.y * w.y| ≤ 1800000000 := by
  have hx := abs_mul_le hv.x_le hw.x_le
  have hy := abs_mul_le hv.y_le hw.y_le
  exact (abs_add_le _ _).trans (add_le_add hx hy)

theorem Whole.dot_eq {v w : Int32Vect2} (hv : Whole v) (hw : Whole w) :
    dot v w = some (v.x * w.x + v.y * w.y) := by
  have hx := abs_mul_le hv.x_le hw.x_le
  have hy := abs_mul_le hv.y_le hw.y_le
  have hsum := hv.abs_dot_le hw
  exact dot_of_fits (fits_of_abs_lt (hx.trans_lt (by decide)))
    (fits_of_abs_lt (hy.trans_lt (by decide))) (fits_of_abs_lt (hsum.trans_lt (by decide)))

theorem Whole.legLength_spec {w : Int32Vect2} (hw : Whole w) :
    0 < legLength w ∧ legLength w * legLength w ≤ max (w.x * w.x + w.y * w.y) 1 + 1 := by
  have hdot := (abs_le.mp (hw.abs_dot_le hw)).2
  obtain ⟨hpos, hsq, -⟩ := @int32Sqrt_spec (max (w.x * w.x + w.y * w.y) 1) (by omega) (by omega)
  exact ⟨hpos, hsq⟩

theorem Whole.legLength_le {w : Int32Vect2} (hw : Whole w) : legLength w ≤ 42427 := by
  obtain ⟨hpos, hsq⟩ := hw.legLength_spec
  have hdot := (abs_le.mp (hw.abs_dot_le hw)).2
  have hmax : max (w.x * w.x + w.y * w.y) 1 ≤ 1800000000 := max_le hdot (by decide)
  nlinarith

theorem legLength_eq (w : Int32Vect2) :
    int32Sqrt (max (w.x * w.x + w.y * w.y) 1) = legLength w := rfl

theorem Whole.legProgress_mem {w : Int32Vect2} (hw : Whole w) (along : ℤ) :
    0 ≤ legProgress w along ∧ legProgress w along ≤ legLength w :=
  bound_mem hw.legLength_spec.1.le

/-- The way along the leg, with the carrot distance. -/
theorem Whole.progress_eq {p w : Int32Vect2} (hp : Whole p) (hw : Whole w) :
    ∃ q, div (p.x * w.x + p.y * w.y) (legLength w) = some q ∧
      check (q + max (carrotDist >>> int32PosFrac) 0) =
        some (q + max (carrotDist >>> int32PosFrac) 0) ∧
      bound (q + max (carrotDist >>> int32PosFrac) 0) 0 (legLength w) =
        legProgress w (p.x * w.x + p.y * w.y) := by
  have hquot := (abs_tdiv_le (p.x * w.x + p.y * w.y) (legLength w)).trans (hp.abs_dot_le hw)
  have hfits : Fits ((p.x * w.x + p.y * w.y).tdiv (legLength w)) :=
    fits_of_abs_lt (hquot.trans_lt (by decide))
  have hdiv : div (p.x * w.x + p.y * w.y) (legLength w) = some _ :=
    (if_neg hw.legLength_spec.1.ne').trans (check_of_fits hfits)
  refine ⟨_, hdiv, check_of_fits ?_, rfl⟩
  rw [abs_le] at hquot
  change -2 ^ 31 ≤ _ + 12 ∧ _ + 12 < 2 ^ 31
  omega

theorem Whole.vect2Smul_eq {w : Int32Vect2} (hw : Whole w) {along : ℤ} (hpos : 0 ≤ along)
    (hle : along ≤ legLength w) : vect2Smul w along = some ⟨w.x * along, w.y * along⟩ := by
  have hlen := hw.legLength_le
  have hprod : ∀ {z : ℤ}, |z| ≤ 30000 → Fits (z * along) := by
    intro z hz
    apply fits_of_abs_lt
    rw [abs_mul, abs_of_nonneg hpos]
    calc
      |z| * along ≤ 30000 * 42427 := mul_le_mul hz (hle.trans hlen) hpos (by decide)
      _ < 2 ^ 31 := by decide
  exact Int32Vect2.check_of_fits (hprod hw.x_le) (hprod hw.y_le)

theorem Whole.vect2Sdiv_eq {w : Int32Vect2} (hw : Whole w) {along : ℤ} (hpos : 0 ≤ along)
    (hle : along ≤ legLength w) :
    vect2Sdiv ⟨w.x * along, w.y * along⟩ (legLength w) =
      some ⟨(w.x * along).tdiv (legLength w), (w.y * along).tdiv (legLength w)⟩ := by
  have hlen := hw.legLength_spec.1
  have hpart : ∀ {z : ℤ}, |z| ≤ 30000 → Fits ((z * along).tdiv (legLength w)) := fun hz =>
    fits_of_abs_lt (((abs_part_le hpos hle hlen).trans hz).trans_lt (by decide))
  exact vect2Sdiv_of_fits hlen.ne' (hpart hw.x_le) (hpart hw.y_le)

theorem Whole.part {w : Int32Vect2} (hw : Whole w) {along : ℤ} (hpos : 0 ≤ along)
    (hle : along ≤ legLength w) :
    Whole ⟨(w.x * along).tdiv (legLength w), (w.y * along).tdiv (legLength w)⟩ where
  x_le := (abs_part_le hpos hle hw.legLength_spec.1).trans hw.x_le
  y_le := (abs_part_le hpos hle hw.legLength_spec.1).trans hw.y_le

theorem Whole.int32Vect2Lshift_eq {w : Int32Vect2} (hw : Whole w) :
    int32Vect2Lshift w int32PosFrac = some ⟨w.x * 2 ^ int32PosFrac, w.y * 2 ^ int32PosFrac⟩ := by
  have hshift : ∀ {z : ℤ}, |z| ≤ 30000 → Fits (z * 2 ^ int32PosFrac) := by
    intro z hz
    rw [abs_le] at hz
    change -2 ^ 31 ≤ z * 2 ^ 8 ∧ z * 2 ^ 8 < 2 ^ 31
    omega
  exact Int32Vect2.check_of_fits (hshift hw.x_le) (hshift hw.y_le)

/-- The end waypoint is 1 m or more above the least number of 32 bits. -/
def InsideRange (waypoints : UInt8 → EnuCoorI) (wpEnd : UInt8) : Prop :=
  -2 ^ 31 + 2 ^ int32PosFrac ≤ (vect2Of (waypoints wpEnd)).x ∧
    -2 ^ 31 + 2 ^ int32PosFrac ≤ (vect2Of (waypoints wpEnd)).y

instance (waypoints : UInt8 → EnuCoorI) (wpEnd : UInt8) : Decidable (InsideRange waypoints wpEnd) :=
  inferInstanceAs (Decidable (_ ∧ _))

/-- The target does not leave the range between two numbers that fit. -/
theorem targetOf_fits {first last w along len : ℤ} (hw : w = (last - first) >>> int32PosFrac)
    (hfirst : Fits first) (hlast : Fits last) (hinside : -2 ^ 31 + 2 ^ int32PosFrac ≤ last)
    (hpos : 0 ≤ along) (hle : along ≤ len) (hlen : 0 < len) :
    Fits (targetOf first w along len) := by
  rw [Int.shiftRight_eq_div_pow] at hw
  change w = (last - first) / 2 ^ 8 at hw
  change -2 ^ 31 + 2 ^ 8 ≤ last at hinside
  obtain ⟨hfirst, hfirst'⟩ := hfirst
  obtain ⟨hlast, hlast'⟩ := hlast
  change -2 ^ 31 ≤ first + (w * along).tdiv len * 2 ^ 8 ∧
    first + (w * along).tdiv len * 2 ^ 8 < 2 ^ 31
  rcases le_total 0 w with hsign | hsign
  · obtain ⟨hlow, hhigh⟩ := part_mem_of_nonneg hsign hpos hle hlen
    omega
  · obtain ⟨hlow, hhigh⟩ := part_mem_of_nonneg (Int.neg_nonneg_of_nonpos hsign) hpos hle hlen
    rw [part_neg] at hlow hhigh
    omega

section

variable {waypoints : UInt8 → EnuCoorI} {position : EnuCoorI} {wpStart wpEnd : UInt8}

/-- What `nav_route` computes, where nothing overflows. -/
def routeState (waypoints : UInt8 → EnuCoorI) (position : EnuCoorI) (wpStart wpEnd : UInt8) :
    RouteState :=
  let first := vect2Of (waypoints wpStart)
  let last := vect2Of (waypoints wpEnd)
  let w := wholeMetres last first
  let along := legProgress w (wholeProjection first last (vect2Of position))
  { navLegLength := legLength w
    navLegProgress := along
    navigationTarget :=
      ⟨targetOf first.x w.x along (legLength w), targetOf first.y w.y along (legLength w)⟩
    navSegmentStart := wpStart
    navSegmentEnd := wpEnd
    horizontalMode := .route }

theorem whole_leg (hleg : ShortLeg waypoints wpStart wpEnd) :
    Whole (wholeMetres (vect2Of (waypoints wpEnd)) (vect2Of (waypoints wpStart))) := by
  obtain ⟨hx, hy⟩ := abs_le_of_sqDist (by decide) hleg.le
  exact ⟨abs_shiftRight_le hx, abs_shiftRight_le hy⟩

theorem whole_position (hwithin : Within waypoints position wpStart wpEnd) :
    Whole (wholeMetres (vect2Of position) (vect2Of (waypoints wpStart))) := by
  obtain ⟨hx, hy⟩ := abs_le_of_sqDist (by decide) hwithin.1
  exact ⟨abs_shiftRight_le hx, abs_shiftRight_le hy⟩

theorem vect2Diff_of_near {a b : Int32Vect2} (hx : |a.x - b.x| ≤ farthest)
    (hy : |a.y - b.y| ≤ farthest) : vect2Diff a b = some ⟨a.x - b.x, a.y - b.y⟩ :=
  Int32Vect2.check_of_fits (fits_of_abs_lt (hx.trans_lt (by decide)))
    (fits_of_abs_lt (hy.trans_lt (by decide)))

theorem vect2Sum_target (hinside : InsideRange waypoints wpEnd) {along len : ℤ}
    (hpos : 0 ≤ along) (hle : along ≤ len) (hlen : 0 < len) :
    let first := vect2Of (waypoints wpStart)
    let w := wholeMetres (vect2Of (waypoints wpEnd)) first
    vect2Sum first ⟨(w.x * along).tdiv len * 2 ^ int32PosFrac,
      (w.y * along).tdiv len * 2 ^ int32PosFrac⟩ =
        some ⟨targetOf first.x w.x along len, targetOf first.y w.y along len⟩ :=
  Int32Vect2.check_of_fits
    (targetOf_fits rfl (fits_toInt _) (fits_toInt _) hinside.1 hpos hle hlen)
    (targetOf_fits rfl (fits_toInt _) (fits_toInt _) hinside.2 hpos hle hlen)

theorem rshift_eq (a b : Int32Vect2) :
    int32Vect2Rshift ⟨a.x - b.x, a.y - b.y⟩ int32PosFrac = wholeMetres a b := rfl

theorem navRoute_eq (hleg : ShortLeg waypoints wpStart wpEnd)
    (hinside : InsideRange waypoints wpEnd) (hwithin : Within waypoints position wpStart wpEnd) :
    navRoute waypoints position wpStart wpEnd =
      some (routeState waypoints position wpStart wpEnd) := by
  have hw := whole_leg hleg
  have hp := whole_position hwithin
  obtain ⟨hlegx, hlegy⟩ := abs_le_of_sqDist (by decide) hleg.le
  obtain ⟨hposx, hposy⟩ := abs_le_of_sqDist (by decide) hwithin.1
  have hdiff := vect2Diff_of_near hlegx hlegy
  have hdiff' := vect2Diff_of_near hposx hposy
  obtain ⟨hpos, hle⟩ := hw.legProgress_mem
    (wholeProjection (vect2Of (waypoints wpStart)) (vect2Of (waypoints wpEnd)) (vect2Of position))
  have hlen := hw.legLength_spec.1
  have htarget := @vect2Sum_target waypoints wpStart wpEnd hinside _ _ hpos hle hlen
  rw [navRoute, hdiff, hdiff']
  simp only [Option.bind_eq_bind, Option.bind_some, rshift_eq, hw.dot_eq hw, hp.dot_eq hw,
    legLength_eq]
  obtain ⟨q, hdiv, hcarrot, hbound⟩ := hp.progress_eq hw
  change bound _ 0 _ = legProgress _ (wholeProjection (vect2Of (waypoints wpStart))
    (vect2Of (waypoints wpEnd)) (vect2Of position)) at hbound
  rw [hdiv, Option.bind_some, hcarrot, Option.bind_some, hbound,
    hw.vect2Smul_eq hpos hle, Option.bind_some, hw.vect2Sdiv_eq hpos hle, Option.bind_some,
    (hw.part hpos hle).int32Vect2Lshift_eq, Option.bind_some, htarget]
  rfl

/-! ### Where the target is -/

/-- What the whole metres of a leg leave out. -/
theorem wholeMetres_mem {first last w : ℤ} (hw : w = (last - first) >>> int32PosFrac) :
    0 ≤ last - first - 256 * w ∧ last - first - 256 * w ≤ 255 := by
  rw [Int.shiftRight_eq_div_pow] at hw
  change w = (last - first) / 2 ^ 8 at hw
  omega

theorem abs_target_sub_le {first last w along len : ℤ}
    (hw : w = (last - first) >>> int32PosFrac) (hpos : 0 ≤ along) (hle : along ≤ len)
    (hlen : 0 < len) :
    |(targetOf first w along len : ℚ) - (first + along / len * (last - first))| ≤ 512 := by
  obtain ⟨hlow, hhigh⟩ := wholeMetres_mem hw
  have hpart := abs_lt.mp (@abs_mul_tdiv_sub_lt (w * along) len hlen)
  have hrest : 0 ≤ along * (last - first - 256 * w) := Int.mul_nonneg hpos hlow
  have hrest' : along * (last - first - 256 * w) ≤ len * 255 := mul_le_mul hle hhigh hlow hlen.le
  have hlen' : (0 : ℚ) < len := by exact_mod_cast hlen
  -- over the common denominator
  have heq : (targetOf first w along len : ℚ) - (first + along / len * (last - first)) =
      ((256 * (len * (w * along).tdiv len - w * along) -
        along * (last - first - 256 * w) : ℤ) : ℚ) / len := by
    have hpow : (2 ^ int32PosFrac : ℤ) = 256 := rfl
    rw [targetOf, hpow]
    push_cast
    field_simp
    ring
  rw [heq, abs_div, abs_of_pos hlen', div_le_iff₀ hlen']
  have hint : |256 * (len * (w * along).tdiv len - w * along) - along * (last - first - 256 * w)| ≤
      512 * len := by
    rw [abs_le]
    constructor <;> linarith
  exact_mod_cast hint

theorem legProgress_of_past {w : Int32Vect2} (hw : Whole w) {along : ℤ}
    (h : w.x * w.x + w.y * w.y ≤ along) : legProgress w along = legLength w := by
  obtain ⟨hlen, hsq⟩ := hw.legLength_spec
  have hnonneg : 0 ≤ w.x * w.x + w.y * w.y :=
    Int.add_nonneg (mul_self_nonneg w.x) (mul_self_nonneg w.y)
  have hquot : legLength w - 1 ≤ along.tdiv (legLength w) := by
    rw [Int.tdiv_eq_ediv_of_nonneg (hnonneg.trans h)]
    apply Int.le_ediv_of_mul_le hlen
    rcases le_total (w.x * w.x + w.y * w.y) 1 with hshort | hlong
    · rw [max_eq_right hshort] at hsq
      have hone : legLength w = 1 := by nlinarith
      rw [hone]
      omega
    · rw [max_eq_left hlong] at hsq
      nlinarith
  rw [legProgress, bound]
  split_ifs <;> omega

theorem abs_target_of_end {first last w len : ℤ} (hw : w = (last - first) >>> int32PosFrac)
    (hlen : 0 < len) : |targetOf first w len len - last| ≤ 2 ^ int32PosFrac := by
  obtain ⟨hlow, hhigh⟩ := wholeMetres_mem hw
  rw [targetOf, Int.mul_tdiv_cancel _ hlen.ne', abs_le]
  change -2 ^ 8 ≤ first + w * 2 ^ 8 - last ∧ first + w * 2 ^ 8 - last ≤ 2 ^ 8
  omega

theorem legProgress_mono {w : Int32Vect2} (hw : Whole w) {along along' : ℤ} (h : along ≤ along') :
    legProgress w along ≤ legProgress w along' := by
  obtain ⟨hlen, -⟩ := hw.legLength_spec
  exact bound_mono hlen.le (Int.add_le_add_right (Int.tdiv_le_tdiv hlen h) 12)

theorem target_mem_uIcc {first w along along' len : ℤ} (hpos : 0 ≤ along) (hle : along ≤ along')
    (hlen : 0 < len) :
    targetOf first w along len ∈ Set.uIcc first (targetOf first w along' len) := by
  have hpart := Set.mem_uIcc.mp (@part_mem_uIcc w along along' len hpos hle hlen)
  rw [Set.mem_uIcc]
  change (first ≤ first + (w * along).tdiv len * 2 ^ 8 ∧ first + (w * along).tdiv len * 2 ^ 8 ≤
      first + (w * along').tdiv len * 2 ^ 8) ∨
    (first + (w * along').tdiv len * 2 ^ 8 ≤ first + (w * along).tdiv len * 2 ^ 8 ∧
      first + (w * along).tdiv len * 2 ^ 8 ≤ first)
  omega

end

/-- A route on a leg up to 30 km stays within 2 m of the leg, ends there and goes along it as the
projection grows that is taken in whole metres. -/
theorem navRoute_staysOnLeg (waypoints : UInt8 → EnuCoorI) (wpStart wpEnd : UInt8)
    (hleg : ShortLeg waypoints wpStart wpEnd) (hinside : InsideRange waypoints wpEnd) :
    StaysOnLeg waypoints wpStart wpEnd 512 wholeProjection := by
  have hw := whole_leg hleg
  obtain ⟨hlen, -⟩ := hw.legLength_spec
  have hstate : ∀ {position r}, Within waypoints position wpStart wpEnd →
      navRoute waypoints position wpStart wpEnd = some r →
        r = routeState waypoints position wpStart wpEnd := by
    intro position r hwithin hroute
    exact Option.some.inj (hroute.symm.trans (navRoute_eq hleg hinside hwithin))
  constructor
  · intro position hwithin
    rw [navRoute_eq hleg hinside hwithin]
    rfl
  · intro position r hwithin hroute first last
    obtain rfl := hstate hwithin hroute
    obtain ⟨hpos, hle⟩ := hw.legProgress_mem (wholeProjection first last (vect2Of position))
    refine ⟨_, ?_, ?_, abs_target_sub_le rfl hpos hle hlen, abs_target_sub_le rfl hpos hle hlen⟩
    · exact div_nonneg (by exact_mod_cast hpos) (by exact_mod_cast hlen.le)
    · exact div_le_one_of_le₀ (by exact_mod_cast hle) (by exact_mod_cast hlen.le)
  · intro position r hwithin hroute first last hpast
    obtain rfl := hstate hwithin hroute
    have hprogress : legProgress _ _ = _ := legProgress_of_past hw hpast
    rw [routeState]
    dsimp only
    rw [hprogress]
    exact ⟨abs_target_of_end rfl hlen, abs_target_of_end rfl hlen⟩
  · intro position position' r r' hwithin hwithin' hroute hroute' first last hproj
    obtain rfl := hstate hwithin hroute
    obtain rfl := hstate hwithin' hroute'
    have hpos := (hw.legProgress_mem (wholeProjection first last (vect2Of position))).1
    have hmono := legProgress_mono hw hproj
    exact ⟨target_mem_uIcc hpos hmono hlen, target_mem_uIcc hpos hmono hlen⟩

/-- Waypoint 0 at a place and waypoint 1 away from it. -/
def legFrom (x y dx dy : Int32) (wp : UInt8) : EnuCoorI :=
  if wp = 0 then ⟨x, y, 0⟩ else ⟨x + dx, y + dy, 0⟩

theorem navRoute_staysOnLeg_km : StaysOnLeg (legFrom 0 0 256000 256000) 0 1 512 wholeProjection :=
  navRoute_staysOnLeg (legFrom 0 0 256000 256000) 0 1 (by decide) (by decide)

/-- Rounded down, the end of the first leg is out of range; the target of the second leg leaves it
by more than 1 m; on the third leg, 10 m by 0.996 m, a position far to the side is past the end, and
its target the start. -/
theorem route_off_leg :
    (ShortLeg (legFrom (-2 ^ 31 + 10) 0 (-10) 0) 0 1 ∧
      ¬NoOverflow (legFrom (-2 ^ 31 + 10) 0 (-10) 0) 0 1) ∧
    (ShortLeg (legFrom 0 0 509 25600) 0 1 ∧ ¬OnSegment (legFrom 0 0 509 25600) 0 1 256) ∧
    (ShortLeg (legFrom 0 0 2560 255) 0 1 ∧ ¬AtEnd (legFrom 0 0 2560 255) 0 1 projection ∧
      ¬Advances (legFrom 0 0 2560 255) 0 1 projection) := by
  -- the position is 2 km to the side, and behind the start in whole metres
  have hpast : navRoute (legFrom 0 0 2560 255) ⟨-25600, 512000, 0⟩ 0 1 =
      some ⟨10, 0, ⟨0, 0⟩, 0, 1, .route⟩ := by decide
  refine ⟨⟨by decide, ?_⟩, ⟨by decide, ?_⟩, by decide, ?_, ?_⟩
  · intro h
    have hsome := h ⟨-2 ^ 31 + 10, 0, 0⟩ (by decide)
    exact absurd hsome (by decide)
  · intro h
    have hroute : navRoute (legFrom 0 0 509 25600) ⟨0, 22272, 0⟩ 0 1 =
        some ⟨100, 99, ⟨0, 25344⟩, 0, 1, .route⟩ := by decide
    obtain ⟨t, -, -, hx, hy⟩ := h _ _ (by decide) hroute
    change |((0 : ℤ) : ℚ) - (((0 : ℤ) : ℚ) + t * (((509 : ℤ) : ℚ) - ((0 : ℤ) : ℚ)))| ≤ 256 at hx
    change |((25344 : ℤ) : ℚ) - (((0 : ℤ) : ℚ) + t * (((25600 : ℤ) : ℚ) - ((0 : ℤ) : ℚ)))| ≤ 256
      at hy
    rw [abs_le] at hx hy
    push_cast at hx hy
    linarith
  · intro h
    obtain ⟨hx, -⟩ := h _ _ (by decide) hpast (by decide)
    exact absurd hx (by decide)
  · intro h
    have hnear : navRoute (legFrom 0 0 2560 255) ⟨5120, 0, 0⟩ 0 1 =
        some ⟨10, 10, ⟨2560, 0⟩, 0, 1, .route⟩ := by decide
    obtain ⟨hx, -⟩ := h _ _ _ _ (by decide) (by decide) hnear hpast (by decide)
    change (2560 : ℤ) ∈ Set.uIcc 0 0 at hx
    rw [Set.uIcc_self, Set.mem_singleton_iff] at hx
    exact absurd hx (by decide)

end Paparazzi.Rotorcraft.NavRoute
