import Mathlib
import Paparazzi.Library.Numerals
import Paparazzi.Math.AtanAccuracy
import Paparazzi.Rotorcraft.NavRoute

/-!
Circles of the rotorcraft, `nav_circle`: the target is a point of the circle ahead of the aircraft,
and the angle flown around the centre is counted.
-/

namespace Paparazzi.Rotorcraft.NavCircle

open Paparazzi.Library.Checked32
open Paparazzi.Math.AlgebraInt
open Paparazzi.Math.GeodeticInt (EnuCoorI)
open Paparazzi.Math.TrigInt
open Paparazzi.Rotorcraft.Navigation
open Paparazzi.Rotorcraft.NavRoute (bound carrotDist)

attribute [local instance] Library.Numerals.atLeastTwo_two

def int32AngleFrac : ℕ := 12

def int32TrigFrac : ℕ := 14

structure CircleState where
  navigationTarget : Int32Vect2
  navCircleCentre : UInt8
  navCircleRadius : ℤ
  navCircleQdr : ℤ
  navCircleRadians : ℤ
  horizontalMode : HorizontalMode
  deriving DecidableEq, Repr

/-- `nav_circle_radians` after the bearing; 0 says that none was taken in this stage. -/
def countRadians (qdr : ℤ) (s : CircleState) : Option ℤ :=
  if s.navCircleRadians ≠ 0 then do
    let angleDiff ← check (qdr - s.navCircleQdr)
    check (s.navCircleRadians + int32AngleNormalize angleDiff)
  else some 1

def signRadius (radius : ℤ) : ℤ := if radius > 0 then 1 else -1

section

variable (pprzTrigInt : ℕ → ℤ)

/-- The branch of `nav_circle` for a radius other than 0. -/
def circleAround (centre position : Int32Vect2) (radius : ℤ) (s : CircleState) :
    Option CircleState := do
  let posDiff ← vect2Diff position centre
  let qdr ← int32Atan2 posDiff.y posDiff.x
  let radians ← countRadians qdr s
  let absRadius ← check |radius|
  let carrotAngle ← div (carrotDist * 2 ^ int32AngleFrac) absRadius
  let carrotAngle := bound carrotAngle (int32AnglePi.tdiv 16) int32AnglePi4
  let carrotAngle ← check (qdr - signRadius radius * carrotAngle)
  let sCarrot := pprzItrigSin pprzTrigInt carrotAngle
  let cCarrot := pprzItrigCos pprzTrigInt carrotAngle
  let posDiff ← Int32Vect2.check ⟨absRadius * cCarrot, absRadius * sCarrot⟩
  let posDiff := int32Vect2Rshift posDiff int32TrigFrac
  let target ← vect2Sum centre posDiff
  return { s with
    navigationTarget := target
    navCircleQdr := qdr
    navCircleRadians := radians }

def navCircle (waypoints : UInt8 → EnuCoorI) (position : EnuCoorI) (wpCenter : UInt8)
    (radius : Int32) (s : CircleState) : Option CircleState :=
  let centre := vect2Of (waypoints wpCenter)
  let s := if radius = 0 then some { s with navigationTarget := centre }
    else circleAround pprzTrigInt centre (vect2Of position) radius.toInt s
  s.map fun s => { s with
    navCircleCentre := wpCenter
    navCircleRadius := radius.toInt
    horizontalMode := .circle }

/-! ### What is asked -/

/-- The products with the Q14 sines are rounded: one unit, and what 13 units of the sine make. -/
noncomputable def tolerance (radius : ℤ) : ℝ := 1 + |radius| * (13 / 2 ^ 14)

/-- The direction from the centre, one unit off the axis as `INT32_ATAN2` takes it. -/
noncomputable def direction (centre position : Int32Vect2) : ℝ :=
  let x := position.x - centre.x
  let y := position.y - centre.y
  Complex.arg ⟨x, if y < 0 then (y : ℝ) - 1 else y + 1⟩

/-- The target is on the circle, ahead of the bearing by an angle between `PI/16` and `PI/4`; the
bearing is that of the aircraft up to what a straight line is off an arctangent. -/
structure OnCircle (centre position : Int32Vect2) (radius : ℤ) (s : CircleState) : Prop where
  bearing : |radians s.navCircleQdr - direction centre position| ≤ 1 / 11
  distance : |√(((s.navigationTarget.x - centre.x : ℤ) : ℝ) ^ 2 +
    ((s.navigationTarget.y - centre.y : ℤ) : ℝ) ^ 2) - (|radius| : ℤ)| ≤ 2 * tolerance radius
  ahead : ∃ lead : ℤ, int32AnglePi.tdiv 16 ≤ lead ∧ lead ≤ int32AnglePi4 ∧
    |((s.navigationTarget.x - centre.x : ℤ) : ℝ) -
      (|radius| : ℤ) * Real.cos (radians (s.navCircleQdr - signRadius radius * lead))| ≤
        tolerance radius ∧
    |((s.navigationTarget.y - centre.y : ℤ) : ℝ) -
      (|radius| : ℤ) * Real.sin (radians (s.navCircleQdr - signRadius radius * lead))| ≤
        tolerance radius

/-- The call computes its target without overflow, on the circle. -/
def Right (waypoints : UInt8 → EnuCoorI) (position : EnuCoorI) (wpCenter : UInt8) (radius : Int32)
    (s : CircleState) : Prop :=
  ∃ s', navCircle pprzTrigInt waypoints position wpCenter radius s = some s' ∧
    OnCircle (vect2Of (waypoints wpCenter)) (vect2Of position) radius.toInt s'

/-- How far the carrot is ahead. -/
def carrotLead (radius : ℤ) : ℤ :=
  bound ((carrotDist * 2 ^ int32AngleFrac).tdiv |radius|) (int32AnglePi.tdiv 16) int32AnglePi4

/-- The direction of the target from the centre, for a difference of positions. -/
def carrotAngle (diff : Int32Vect2) (radius : ℤ) : ℤ :=
  bearing diff.y diff.x - signRadius radius * carrotLead radius

/-- The offset of the target before the shift. -/
def carrotOffset (diff : Int32Vect2) (radius : ℤ) : Int32Vect2 :=
  ⟨|radius| * pprzItrigCos pprzTrigInt (carrotAngle diff radius),
    |radius| * pprzItrigSin pprzTrigInt (carrotAngle diff radius)⟩

/-- What the 32 bits of `nav_circle` have room for. -/
structure InLimits (centre position : Int32Vect2) (radius : ℤ) (s : CircleState) : Prop where
  differences : Fits (position.x - centre.x) ∧ Fits (position.y - centre.y)
  /-- The bearing: less than 512 m between the two numbers that are subtracted. -/
  atan : AtanFits (position.y - centre.y) (position.x - centre.x)
  /-- The angle that is counted. -/
  count : s.navCircleRadians ≠ 0 →
    let turned := bearing (position.y - centre.y) (position.x - centre.x) - s.navCircleQdr
    Fits turned ∧ Fits (s.navCircleRadians + int32AngleNormalize turned)
  abs_radius : radius ≠ -2 ^ 31
  /-- The radius times the Q14 sine and cosine of the target. -/
  products :
    let offset := carrotOffset pprzTrigInt ⟨position.x - centre.x, position.y - centre.y⟩ radius
    Fits offset.x ∧ Fits offset.y
  target :
    let offset := carrotOffset pprzTrigInt ⟨position.x - centre.x, position.y - centre.y⟩ radius
    Fits (centre.x + offset.x >>> int32TrigFrac) ∧ Fits (centre.y + offset.y >>> int32TrigFrac)

end

/-! ### What a call computes -/

/-- The angle counted fits. -/
def CountFits (qdr : ℤ) (s : CircleState) : Prop :=
  s.navCircleRadians ≠ 0 → Fits (qdr - s.navCircleQdr) ∧
    Fits (s.navCircleRadians + int32AngleNormalize (qdr - s.navCircleQdr))

/-- What is counted. -/
def counted (qdr : ℤ) (s : CircleState) : ℤ :=
  if s.navCircleRadians ≠ 0 then
    s.navCircleRadians + int32AngleNormalize (qdr - s.navCircleQdr)
  else 1

instance (qdr : ℤ) (s : CircleState) : Decidable (CountFits qdr s) :=
  inferInstanceAs (Decidable (_ → _))

theorem countRadians_eq (qdr : ℤ) (s : CircleState) :
    countRadians qdr s = if CountFits qdr s then some (counted qdr s) else none := by
  ext n
  rw [Option.ite_none_right_eq_some, countRadians, counted, CountFits]
  rcases eq_or_ne s.navCircleRadians 0 with hzero | hne
  · rw [if_neg (not_not.mpr hzero), if_neg (not_not.mpr hzero)]
    exact (and_iff_right fun hne => absurd hzero hne).symm
  · rw [if_pos hne, if_pos hne, forall_prop_of_true hne, Option.bind_eq_bind,
      check_bind_eq_some_iff, check_eq_some_iff, and_assoc, Option.some.injEq, eq_comm]

/-- The state after a call in which nothing overflows. -/
def circled (pprzTrigInt : ℕ → ℤ) (centre position : Int32Vect2) (radius : ℤ) (s : CircleState) :
    CircleState :=
  let diff : Int32Vect2 := ⟨position.x - centre.x, position.y - centre.y⟩
  let offset := carrotOffset pprzTrigInt diff radius
  { s with
    navigationTarget :=
      ⟨centre.x + offset.x >>> int32TrigFrac, centre.y + offset.y >>> int32TrigFrac⟩
    navCircleQdr := bearing diff.y diff.x
    navCircleRadians := counted (bearing diff.y diff.x) s }

theorem abs_carrotLead_le (radius : ℤ) :
    804 ≤ carrotLead radius ∧ carrotLead radius ≤ 3216 := by
  change 804 ≤ bound _ 804 3216 ∧ bound _ 804 3216 ≤ 3216
  rw [bound]
  split_ifs <;> omega

theorem abs_carrotAngle_le (diff : Int32Vect2) (radius : ℤ) :
    |carrotAngle diff radius| ≤ 16080 := by
  have hbearing := abs_le.mp (abs_bearing_le diff.y diff.x)
  obtain ⟨hlow, hhigh⟩ := abs_carrotLead_le radius
  rw [carrotAngle, signRadius, abs_le]
  split_ifs <;> omega

theorem circleAround_eq_some_iff {pprzTrigInt : ℕ → ℤ} {centre position : Int32Vect2} {radius : ℤ}
    {s s' : CircleState} (hradius : radius ≠ 0) (hfits : Fits radius) :
    circleAround pprzTrigInt centre position radius s = some s' ↔
      InLimits pprzTrigInt centre position radius s ∧
        circled pprzTrigInt centre position radius s = s' := by
  have hlead : div (carrotDist * 2 ^ int32AngleFrac) |radius| =
      some ((carrotDist * 2 ^ int32AngleFrac).tdiv |radius|) :=
    (if_neg (abs_ne_zero.mpr hradius)).trans
      (check_of_fits (fits_of_abs_lt ((abs_tdiv_le _ _).trans_lt (by decide))))
  have hcarrot : check (carrotAngle ⟨position.x - centre.x, position.y - centre.y⟩ radius) =
      some _ :=
    check_of_fits (fits_of_abs_lt ((abs_carrotAngle_le _ radius).trans_lt (by decide)))
  have habs : Fits |radius| ↔ radius ≠ -2 ^ 31 := by
    obtain ⟨hlow, hhigh⟩ := hfits
    rw [Fits]
    rcases abs_cases radius with ⟨heq, hsign⟩ | ⟨heq, hsign⟩ <;> omega
  rw [circleAround, vect2Diff]
  simp only [Option.bind_eq_bind, Int32Vect2.check_bind_eq_some_iff, int32Atan2_eq,
    countRadians_eq, ite_bind_eq_some_iff, check_bind_eq_some_iff, hlead, Option.bind_some]
  constructor
  · rintro ⟨hdiff, hatan, hcount, hradius, -, hproducts, hend⟩
    rw [vect2Sum, Int32Vect2.check_bind_eq_some_iff] at hend
    obtain ⟨htarget, hstate⟩ := hend
    exact ⟨⟨hdiff, hatan, hcount, habs.mp hradius, hproducts, htarget⟩, Option.some.inj hstate⟩
  · rintro ⟨⟨hdiff, hatan, hcount, hradius, hproducts, htarget⟩, hstate⟩
    refine ⟨hdiff, hatan, hcount, habs.mpr hradius, (check_eq_some_iff.mp hcarrot).1, hproducts, ?_⟩
    rw [vect2Sum, Int32Vect2.check_bind_eq_some_iff]
    exact ⟨htarget, congrArg some hstate⟩

/-! ### The circle -/

section

variable {pprzTrigInt : ℕ → ℤ} {radius : ℤ} {diff : Int32Vect2}

/-- The shifted product of the radius and a Q14 number close to a real one. -/
theorem abs_shifted_sub_le {c : ℤ} {r : ℝ} (h : |(c : ℝ) - 2 ^ 14 * r| ≤ 13) :
    |(((|radius| * c) >>> int32TrigFrac : ℤ) : ℝ) - (|radius| : ℤ) * r| ≤ tolerance radius := by
  have hshift : (|radius| * c) >>> int32TrigFrac = |radius| * c / 2 ^ 14 :=
    Int.shiftRight_eq_div_pow _ _
  have hlow : |radius| * c / 2 ^ 14 * 2 ^ 14 ≤ |radius| * c := Int.ediv_mul_le _ (by decide)
  have hhigh : |radius| * c < (|radius| * c / 2 ^ 14 + 1) * 2 ^ 14 :=
    Int.lt_ediv_add_one_mul_self _ (by decide)
  have hlow' : ((|radius| * c / 2 ^ 14 : ℤ) : ℝ) * 2 ^ 14 ≤ (|radius| : ℤ) * (c : ℝ) := by
    exact_mod_cast hlow
  have hhigh' : ((|radius| : ℤ) : ℝ) * c < (((|radius| * c / 2 ^ 14 : ℤ) : ℝ) + 1) * 2 ^ 14 := by
    exact_mod_cast hhigh
  have hpos : (0 : ℝ) ≤ ((|radius| : ℤ) : ℝ) := by exact_mod_cast abs_nonneg radius
  -- the error of the sine, as often as the radius says
  have herror : |((|radius| : ℤ) : ℝ) * c - 2 ^ 14 * ((|radius| : ℤ) * r)| ≤
      ((|radius| : ℤ) : ℝ) * 13 := by
    have hfactor : ((|radius| : ℤ) : ℝ) * c - 2 ^ 14 * ((|radius| : ℤ) * r) =
        ((|radius| : ℤ) : ℝ) * (c - 2 ^ 14 * r) := by ring
    rw [hfactor, abs_mul, abs_of_nonneg hpos]
    exact mul_le_mul_of_nonneg_left h hpos
  rw [abs_le] at herror
  rw [hshift, tolerance, abs_le]
  constructor <;> linarith

/-- A point near one of the circle is near the circle. -/
theorem abs_sqrt_sub_le {a b r t θ : ℝ} (hr : 0 ≤ r) (ha : |a - r * Real.cos θ| ≤ t)
    (hb : |b - r * Real.sin θ| ≤ t) : |√(a ^ 2 + b ^ 2) - r| ≤ 2 * t := by
  have ht : 0 ≤ t := (abs_nonneg _).trans ha
  have hone := Real.cos_sq_add_sin_sq θ
  have hcos : |(a - r * Real.cos θ) * Real.cos θ| ≤ t := by
    rw [abs_mul]
    exact (mul_le_mul ha (Real.abs_cos_le_one θ) (abs_nonneg _) ht).trans_eq (mul_one t)
  have hsin : |(b - r * Real.sin θ) * Real.sin θ| ≤ t := by
    rw [abs_mul]
    exact (mul_le_mul hb (Real.abs_sin_le_one θ) (abs_nonneg _) ht).trans_eq (mul_one t)
  rw [abs_le] at hcos hsin
  have ha2 := sq_le_sq' (abs_le.mp ha).1 (abs_le.mp ha).2
  have hb2 := sq_le_sq' (abs_le.mp hb).1 (abs_le.mp hb).2
  have hsplit : a ^ 2 + b ^ 2 = r ^ 2 * (Real.cos θ ^ 2 + Real.sin θ ^ 2) +
      2 * r * ((a - r * Real.cos θ) * Real.cos θ + (b - r * Real.sin θ) * Real.sin θ) +
      ((a - r * Real.cos θ) ^ 2 + (b - r * Real.sin θ) ^ 2) := by ring
  have hproj : a * Real.cos θ + b * Real.sin θ = r * (Real.cos θ ^ 2 + Real.sin θ ^ 2) +
      ((a - r * Real.cos θ) * Real.cos θ + (b - r * Real.sin θ) * Real.sin θ) := by ring
  rw [hone, mul_one] at hsplit hproj
  rw [abs_le]
  constructor
  · have hcauchy : (a * Real.cos θ + b * Real.sin θ) ^ 2 ≤ a ^ 2 + b ^ 2 := by
      nlinarith [sq_nonneg (a * Real.sin θ - b * Real.cos θ)]
    have hle := (le_abs_self _).trans (Real.abs_le_sqrt hcauchy)
    linarith
  · rw [sub_le_iff_le_add, Real.sqrt_le_iff]
    refine ⟨by linarith, ?_⟩
    rw [hsplit]
    nlinarith

theorem onCircle_circled (htable : IsSineTable pprzTrigInt) (centre position : Int32Vect2)
    (s : CircleState) :
    OnCircle centre position radius (circled pprzTrigInt centre position radius s) := by
  obtain ⟨hlow, hhigh⟩ := abs_carrotLead_le radius
  have hangle := abs_carrotAngle_le ⟨position.x - centre.x, position.y - centre.y⟩ radius
  have hcos := @abs_shifted_sub_le radius _ _
    (abs_pprzItrigCos_sub_le htable (hangle.trans (by decide)))
  have hsin := @abs_shifted_sub_le radius _ _
    ((abs_pprzItrigSin_sub_le htable (hangle.trans (by decide))).trans (by norm_num))
  have hx : ((circled pprzTrigInt centre position radius s).navigationTarget.x - centre.x : ℤ) =
      (carrotOffset pprzTrigInt ⟨position.x - centre.x, position.y - centre.y⟩ radius).x >>>
        int32TrigFrac := add_sub_cancel_left _ _
  have hy : ((circled pprzTrigInt centre position radius s).navigationTarget.y - centre.y : ℤ) =
      (carrotOffset pprzTrigInt ⟨position.x - centre.x, position.y - centre.y⟩ radius).y >>>
        int32TrigFrac := add_sub_cancel_left _ _
  have hpos : (0 : ℝ) ≤ ((|radius| : ℤ) : ℝ) := by exact_mod_cast abs_nonneg radius
  constructor
  · exact abs_radians_bearing_sub_le (position.y - centre.y) (position.x - centre.x)
  · rw [hx, hy]
    exact abs_sqrt_sub_le hpos hcos hsin
  · rw [hx, hy]
    exact ⟨carrotLead radius, hlow, hhigh, hcos, hsin⟩

end

/-- A Q14 number times a radius up to 500 m. -/
theorem abs_product_le {c : ℤ} {r : ℝ} (h : |(c : ℝ) - 2 ^ 14 * r| ≤ 13) (hr : |r| ≤ 1)
    {radius : ℤ} (hradius : |radius| ≤ 128000) : |(|radius| * c)| ≤ 128000 * 16397 := by
  have hc : |c| ≤ 16397 := by
    have hreal : |(c : ℝ)| ≤ 16397 := by
      rw [abs_le] at h hr ⊢
      constructor <;> linarith
    exact_mod_cast hreal
  rw [abs_mul, abs_abs]
  exact mul_le_mul hradius hc (abs_nonneg c) (by decide)

theorem fits_target {centre offset : ℤ} (hcentre : |centre| ≤ 2 ^ 30)
    (hoffset : |offset| ≤ 128000 * 16397) : Fits (centre + offset >>> int32TrigFrac) := by
  rw [abs_le] at hcentre hoffset
  rw [Int.shiftRight_eq_div_pow]
  change -2 ^ 31 ≤ centre + offset / 2 ^ 14 ∧ centre + offset / 2 ^ 14 < 2 ^ 31
  omega

/-- Circles up to 500 m are in the limits, where the bearing can be computed. -/
theorem inLimits_of_small {pprzTrigInt : ℕ → ℤ} (htable : IsSineTable pprzTrigInt)
    {centre position : Int32Vect2} {radius : ℤ} {s : CircleState}
    (hdiff : Fits (position.x - centre.x) ∧ Fits (position.y - centre.y))
    (hatan : AtanFits (position.y - centre.y) (position.x - centre.x))
    (hradius : |radius| ≤ 128000) (hx : |centre.x| ≤ 2 ^ 30) (hy : |centre.y| ≤ 2 ^ 30)
    (hqdr : |s.navCircleQdr| ≤ 12864) (hcounted : |s.navCircleRadians| ≤ 2 ^ 30) :
    InLimits pprzTrigInt centre position radius s := by
  have hangle := abs_carrotAngle_le ⟨position.x - centre.x, position.y - centre.y⟩ radius
  have hcos := abs_product_le (abs_pprzItrigCos_sub_le htable (hangle.trans (by decide)))
    (Real.abs_cos_le_one _) hradius
  have hsin := abs_product_le
    ((abs_pprzItrigSin_sub_le htable (hangle.trans (by decide))).trans (by norm_num))
    (Real.abs_sin_le_one _) hradius
  have hbearing := abs_le.mp (abs_bearing_le (position.y - centre.y) (position.x - centre.x))
  rw [abs_le] at hqdr hcounted
  constructor
  · exact hdiff
  · exact hatan
  · intro _ turned
    obtain ⟨hlow, hhigh⟩ := normalize_mem turned
    have hturned : turned = bearing (position.y - centre.y) (position.x - centre.x) -
      s.navCircleQdr := rfl
    constructor
    · change -2 ^ 31 ≤ turned ∧ turned < 2 ^ 31
      omega
    · change -2 ^ 31 ≤ _ ∧ _ < 2 ^ 31
      omega
  · rintro rfl
    exact absurd hradius (by decide)
  · exact ⟨fits_of_abs_lt (hcos.trans_lt (by decide)), fits_of_abs_lt (hsin.trans_lt (by decide))⟩
  · exact ⟨fits_target hx hcos, fits_target hy hsin⟩

/-- A call is right if and only if what it computes fits in 32 bits. -/
theorem navCircle_right_iff {pprzTrigInt : ℕ → ℤ} (htable : IsSineTable pprzTrigInt)
    (waypoints : UInt8 → EnuCoorI) (position : EnuCoorI) (wpCenter : UInt8) {radius : Int32}
    (hradius : radius ≠ 0) (s : CircleState) :
    Right pprzTrigInt waypoints position wpCenter radius s ↔
      InLimits pprzTrigInt (vect2Of (waypoints wpCenter)) (vect2Of position) radius.toInt s := by
  have hne : radius.toInt ≠ 0 := fun h => hradius (Int32.toInt_inj.mp h)
  rw [Right, navCircle, if_neg hradius]
  constructor
  · rintro ⟨s', hs', -⟩
    obtain ⟨s₀, hcall, -⟩ := Option.map_eq_some_iff.mp hs'
    exact ((circleAround_eq_some_iff hne (fits_toInt radius)).mp hcall).1
  · intro hlimits
    have hcall := (circleAround_eq_some_iff hne (fits_toInt radius)).mpr ⟨hlimits, rfl⟩
    obtain ⟨hbearing, hdistance, hahead⟩ := @onCircle_circled _ radius.toInt htable
      (vect2Of (waypoints wpCenter)) (vect2Of position) s
    rw [hcall]
    exact ⟨_, rfl, hbearing, hdistance, hahead⟩

/-- The entries of `pprz_trig_int`. -/
noncomputable def sineTable (i : ℕ) : ℤ := ⌊2 ^ 14 * Real.sin (i / 2 ^ 12)⌋

theorem isSineTable_sineTable : IsSineTable sineTable := by
  intro i _
  have hlow := Int.floor_le (2 ^ 14 * Real.sin (i / 2 ^ 12))
  have hhigh := Int.lt_floor_add_one (2 ^ 14 * Real.sin (i / 2 ^ 12))
  rw [sineTable, abs_le]
  constructor <;> linarith

/-- Before the first circle of a stage. -/
def notCircled : CircleState where
  navigationTarget := ⟨0, 0⟩
  navCircleCentre := 0
  navCircleRadius := 0
  navCircleQdr := 0
  navCircleRadians := 0
  horizontalMode := .waypoint

/-- 100 m to the east of the centre, on a circle of 100 m. -/
theorem right_on_circle :
    Right sineTable (fun _ => ⟨0, 0, 0⟩) ⟨25600, 0, 0⟩ 0 25600 notCircled :=
  (navCircle_right_iff isSineTable_sineTable _ _ 0 (by decide) notCircled).mpr
    (inLimits_of_small isSineTable_sineTable (by decide) (by decide) (by decide) (by decide)
      (by decide) (by decide) (by decide))

/-- 600 m to the east of the centre the bearing overflows. -/
theorem not_right_far :
    ¬Right sineTable (fun _ => ⟨0, 0, 0⟩) ⟨153600, 0, 0⟩ 0 25600 notCircled := by
  rintro ⟨s', hs', -⟩
  rw [navCircle, if_neg (by decide)] at hs'
  obtain ⟨s₀, hcall, -⟩ := Option.map_eq_some_iff.mp hs'
  have hlimits := ((circleAround_eq_some_iff (by decide) (by decide)).mp hcall).1
  exact absurd hlimits.atan (by decide)

end Paparazzi.Rotorcraft.NavCircle
