import Paparazzi.Library.Machine
import Paparazzi.Rotorcraft.NavCircle

/-!
The count of circles over the calls of a stage: `nav_circle_radians` starts at 1 with the first call
and takes in the bearing differences, but 0 stands for no call.
-/

namespace Paparazzi.Rotorcraft.NavCircle

open Paparazzi.Library.Checked32
open Paparazzi.Library.Machine
open Paparazzi.Math.AlgebraInt
open Paparazzi.Math.GeodeticInt (EnuCoorI)
open Paparazzi.Math.TrigInt
open Paparazzi.Rotorcraft.Navigation

/-- `nav_init_stage`, for the variables of circles. -/
def navInitStage (s : CircleState) : CircleState :=
  { s with navCircleRadians := 0, horizontalMode := .waypoint }

/-- The macro `NavCircleCount`. -/
def navCircleCount (s : CircleState) : ℤ := |s.navCircleRadians|.tdiv int32Angle2Pi

section

variable (pprzTrigInt : ℕ → ℤ) (waypoints : UInt8 → EnuCoorI) (wpCenter : UInt8) (radius : Int32)

/-- A call, where none before has overflowed. -/
def call (s : Option CircleState) (position : EnuCoorI) : Option CircleState :=
  s.bind (navCircle pprzTrigInt waypoints position wpCenter radius)

/-- The bearing of a position from the centre. -/
def bearingAt (position : EnuCoorI) : ℤ :=
  let centre := vect2Of (waypoints wpCenter)
  bearing ((vect2Of position).y - centre.y) ((vect2Of position).x - centre.x)

/-- The sum of the normalised differences of successive bearings. -/
def turned : ℤ → List EnuCoorI → ℤ
  | _, [] => 0
  | last, position :: positions =>
      int32AngleNormalize (bearingAt waypoints wpCenter position - last) +
        turned (bearingAt waypoints wpCenter position) positions

/-- After every call of a stage the count is 1 and what was turned. -/
def RightCount (s : CircleState) (first : EnuCoorI) (rest : List EnuCoorI) : Prop :=
  ∀ calls, calls <+: rest → ∃ s',
    run (call pprzTrigInt waypoints wpCenter radius) (some (navInitStage s)) (first :: calls) =
      some s' ∧
    s'.navCircleRadians =
      1 + turned waypoints wpCenter (bearingAt waypoints wpCenter first) calls ∧
    navCircleCount s' =
      |1 + turned waypoints wpCenter (bearingAt waypoints wpCenter first) calls|.tdiv int32Angle2Pi

/-- A later call does not overflow, and finds a count of 0 only where 1 is to be added. -/
def CountsOn (s : Option CircleState) (position : EnuCoorI) : Prop :=
  ∃ s₀, s = some s₀ ∧
    InLimits pprzTrigInt (vect2Of (waypoints wpCenter)) (vect2Of position) radius.toInt s₀ ∧
    (s₀.navCircleRadians = 0 →
      int32AngleNormalize (bearingAt waypoints wpCenter position - s₀.navCircleQdr) = 1)

end

section

variable {pprzTrigInt : ℕ → ℤ} {waypoints : UInt8 → EnuCoorI} {wpCenter : UInt8} {radius : Int32}

/-- What a call does to the bearing and the count. -/
theorem navCircle_eq_some_iff (hradius : radius ≠ 0) {position : EnuCoorI} {s : CircleState} :
    (∃ s', navCircle pprzTrigInt waypoints position wpCenter radius s = some s') ↔
      InLimits pprzTrigInt (vect2Of (waypoints wpCenter)) (vect2Of position) radius.toInt s := by
  have hne : radius.toInt ≠ 0 := fun h => hradius (Int32.toInt_inj.mp h)
  rw [navCircle, if_neg hradius]
  constructor
  · rintro ⟨s', hs'⟩
    obtain ⟨s₀, hcall, -⟩ := Option.map_eq_some_iff.mp hs'
    exact ((circleAround_eq_some_iff hne (fits_toInt radius)).mp hcall).1
  · intro hlimits
    rw [(circleAround_eq_some_iff hne (fits_toInt radius)).mpr ⟨hlimits, rfl⟩]
    exact ⟨_, rfl⟩

theorem navCircle_counts (hradius : radius ≠ 0) {position : EnuCoorI} {s s' : CircleState}
    (h : navCircle pprzTrigInt waypoints position wpCenter radius s = some s') :
    s'.navCircleQdr = bearingAt waypoints wpCenter position ∧
      s'.navCircleRadians = counted (bearingAt waypoints wpCenter position) s := by
  have hne : radius.toInt ≠ 0 := fun h => hradius (Int32.toInt_inj.mp h)
  rw [navCircle, if_neg hradius] at h
  obtain ⟨s₀, hcall, rfl⟩ := Option.map_eq_some_iff.mp h
  obtain ⟨-, rfl⟩ := (circleAround_eq_some_iff hne (fits_toInt radius)).mp hcall
  exact ⟨rfl, rfl⟩

/-- The count takes in the difference, unless it is at its mark. -/
theorem counted_eq_add_iff {qdr : ℤ} {s : CircleState} :
    counted qdr s = s.navCircleRadians + int32AngleNormalize (qdr - s.navCircleQdr) ↔
      (s.navCircleRadians = 0 → int32AngleNormalize (qdr - s.navCircleQdr) = 1) := by
  rw [counted]
  rcases eq_or_ne s.navCircleRadians 0 with hzero | hne
  · rw [if_neg (not_not.mpr hzero), hzero, zero_add, forall_prop_of_true rfl, eq_comm]
  · rw [if_pos hne]
    exact iff_of_true rfl fun hzero => absurd hzero hne

/-- A call that does not overflow, in front of a run. -/
theorem run_call {position : EnuCoorI} {s s' : CircleState} (calls : List EnuCoorI)
    (h : navCircle pprzTrigInt waypoints position wpCenter radius s = some s') :
    run (call pprzTrigInt waypoints wpCenter radius) (some s) (position :: calls) =
      run (call pprzTrigInt waypoints wpCenter radius) (some s') calls :=
  congrArg (run _ · calls) h

/-- The later calls of a stage, from the state after one of them. -/
theorem rightCount_rest_iff (hradius : radius ≠ 0) {s : CircleState} {rest : List EnuCoorI} :
    (∀ calls, calls <+: rest → ∃ s',
      run (call pprzTrigInt waypoints wpCenter radius) (some s) calls = some s' ∧
        s'.navCircleRadians =
          s.navCircleRadians + turned waypoints wpCenter s.navCircleQdr calls) ↔
      RunOk (call pprzTrigInt waypoints wpCenter radius)
        (CountsOn pprzTrigInt waypoints wpCenter radius) (some s) rest := by
  induction rest generalizing s with
  | nil =>
      refine iff_of_true (fun calls hcalls => ?_) trivial
      rw [List.prefix_nil.mp hcalls]
      exact ⟨s, rfl, (add_zero _).symm⟩
  | cons position rest ih =>
      constructor
      · intro h
        obtain ⟨s', hs', hone⟩ := h [position] (List.prefix_append [position] rest)
        have hcall : navCircle pprzTrigInt waypoints position wpCenter radius s = some s' := hs'
        obtain ⟨hqdr, hcount⟩ := navCircle_counts hradius hcall
        rw [turned, turned, add_zero, hcount] at hone
        refine ⟨⟨s, rfl, (navCircle_eq_some_iff hradius).mp ⟨s', hcall⟩,
          counted_eq_add_iff.mp hone⟩, ?_⟩
        change RunOk _ _ (navCircle pprzTrigInt waypoints position wpCenter radius s) rest
        rw [hcall]
        refine ih.mp fun calls hcalls => ?_
        obtain ⟨s'', hs'', hall⟩ := h (position :: calls)
          (List.cons_prefix_cons.mpr ⟨rfl, hcalls⟩)
        rw [run_call calls hcall] at hs''
        exact ⟨s'', hs'', by rw [hall, turned, hcount, hone, hqdr, add_assoc]⟩
      · rintro ⟨⟨s₀, hs₀, hlimits, hmark⟩, hrest⟩ calls hcalls
        obtain rfl := Option.some.inj hs₀
        obtain ⟨s', hcall⟩ := (navCircle_eq_some_iff hradius).mpr hlimits
        obtain ⟨hqdr, hcount⟩ := navCircle_counts hradius hcall
        rw [counted_eq_add_iff.mpr hmark] at hcount
        change RunOk _ _ (navCircle pprzTrigInt waypoints position wpCenter radius s) rest at hrest
        rw [hcall] at hrest
        cases calls with
        | nil => exact ⟨s, rfl, (add_zero _).symm⟩
        | cons position' calls =>
            obtain ⟨rfl, hcalls'⟩ := List.cons_prefix_cons.mp hcalls
            obtain ⟨s'', hs'', hall⟩ := ih.mpr hrest calls hcalls'
            refine ⟨s'', ?_, ?_⟩
            · rw [run_call calls hcall]
              exact hs''
            · rw [hall, turned, hcount, hqdr, add_assoc]

end

/-- The count is right after every call of a stage if and only if no call overflows and a later call
finds it at 0 only where the bearing grows by 1. -/
theorem rightCount_iff (pprzTrigInt : ℕ → ℤ) (waypoints : UInt8 → EnuCoorI) (wpCenter : UInt8)
    {radius : Int32} (hradius : radius ≠ 0) (s : CircleState) (first : EnuCoorI)
    (rest : List EnuCoorI) :
    RightCount pprzTrigInt waypoints wpCenter radius s first rest ↔
      InLimits pprzTrigInt (vect2Of (waypoints wpCenter)) (vect2Of first) radius.toInt
        (navInitStage s) ∧
      RunOk (call pprzTrigInt waypoints wpCenter radius)
        (CountsOn pprzTrigInt waypoints wpCenter radius)
        (call pprzTrigInt waypoints wpCenter radius (some (navInitStage s)) first) rest := by
  have hstart : ∀ {s₁},
      navCircle pprzTrigInt waypoints first wpCenter radius (navInitStage s) = some s₁ →
        s₁.navCircleQdr = bearingAt waypoints wpCenter first ∧ s₁.navCircleRadians = 1 :=
    fun hcall => navCircle_counts hradius hcall
  constructor
  · intro h
    obtain ⟨s₁, hcall, -, -⟩ := h [] List.nil_prefix
    change navCircle pprzTrigInt waypoints first wpCenter radius (navInitStage s) = some s₁ at hcall
    obtain ⟨hqdr, hone⟩ := hstart hcall
    refine ⟨(navCircle_eq_some_iff hradius).mp ⟨s₁, hcall⟩, ?_⟩
    change RunOk _ _ (navCircle pprzTrigInt waypoints first wpCenter radius (navInitStage s)) rest
    rw [hcall]
    refine (rightCount_rest_iff hradius).mp fun calls hcalls => ?_
    obtain ⟨s', hs', hcount, -⟩ := h calls hcalls
    rw [run_call calls hcall] at hs'
    exact ⟨s', hs', by rw [hcount, hone, hqdr]⟩
  · rintro ⟨hlimits, hrest⟩ calls hcalls
    obtain ⟨s₁, hcall⟩ := (navCircle_eq_some_iff hradius).mpr hlimits
    obtain ⟨hqdr, hone⟩ := hstart hcall
    change RunOk _ _ (navCircle pprzTrigInt waypoints first wpCenter radius (navInitStage s)) rest
      at hrest
    rw [hcall] at hrest
    obtain ⟨s', hs', hcount⟩ := (rightCount_rest_iff hradius).mpr hrest calls hcalls
    rw [hone, hqdr] at hcount
    refine ⟨s', ?_, hcount, by rw [navCircleCount, hcount]⟩
    rw [run_call calls hcall]
    exact hs'

/-- A centre at the origin. -/
def origin (_ : UInt8) : EnuCoorI := ⟨0, 0, 0⟩

/-- 100 m to the east of the centre, and a little to the north. -/
def eastOf (y : Int32) : EnuCoorI := ⟨25600, y, 0⟩

/-- A call there on a circle of 100 m. -/
theorem call_eastOf {y : Int32} {s : CircleState}
    (hdiff : Fits (25600 - 0) ∧ Fits (y.toInt - 0)) (hatan : AtanFits (y.toInt - 0) (25600 - 0))
    (hqdr : |s.navCircleQdr| ≤ 12864) (hcounted : |s.navCircleRadians| ≤ 2 ^ 30) :
    InLimits sineTable (vect2Of (origin 0)) (vect2Of (eastOf y)) (25600 : Int32).toInt s ∧
      ∃ s', navCircle sineTable origin (eastOf y) 0 25600 s = some s' ∧
        s'.navCircleQdr = bearingAt origin 0 (eastOf y) ∧
        s'.navCircleRadians = counted (bearingAt origin 0 (eastOf y)) s := by
  have hne : (25600 : Int32) ≠ 0 := by decide
  have hlimits : InLimits sineTable (vect2Of (origin 0)) (vect2Of (eastOf y))
      (25600 : Int32).toInt s :=
    inLimits_of_small isSineTable_sineTable hdiff hatan (by decide) (by decide) (by decide) hqdr
      hcounted
  obtain ⟨s', hcall⟩ := (navCircle_eq_some_iff hne).mpr hlimits
  exact ⟨hlimits, s', hcall, navCircle_counts hne hcall⟩

theorem rightCount_two :
    RightCount sineTable origin 0 25600 notCircled (eastOf 0) [eastOf 2000] := by
  obtain ⟨hfirst, s₁, hcall, hqdr, hone⟩ := @call_eastOf 0 (navInitStage notCircled) (by decide)
    (by decide) (by decide) (by decide)
  refine (rightCount_iff sineTable origin 0 (by decide) notCircled (eastOf 0) [eastOf 2000]).mpr
    ⟨hfirst, ⟨s₁, hcall, (@call_eastOf 2000 s₁ (by decide) (by decide) ?_ ?_).1, fun hzero => ?_⟩,
      trivial⟩
  · rw [hqdr]
    decide
  · rw [hone]
    decide
  · rw [hone] at hzero
    exact absurd hzero (by decide)

/-- The bearing goes back by 1 in the second call, and what the third one turns is lost. -/
theorem turn_lost :
    (∃ s', run (call sineTable origin 0 25600) (some (navInitStage notCircled))
      [eastOf 8, eastOf 4, eastOf 2000] = some s' ∧ s'.navCircleRadians = 1) ∧
    1 + turned origin 0 (bearingAt origin 0 (eastOf 8)) [eastOf 4, eastOf 2000] = 465 ∧
    ¬RightCount sineTable origin 0 25600 notCircled (eastOf 8) [eastOf 4, eastOf 2000] := by
  obtain ⟨-, s₁, hcall₁, hqdr₁, hcount₁⟩ := @call_eastOf 8 (navInitStage notCircled) (by decide)
    (by decide) (by decide) (by decide)
  have hone : s₁.navCircleRadians = 1 := hcount₁
  obtain ⟨-, s₂, hcall₂, hqdr₂, hcount₂⟩ := @call_eastOf 4 s₁ (by decide) (by decide)
    (by rw [hqdr₁]; decide) (by rw [hone]; decide)
  have hzero : s₂.navCircleRadians = 0 := by
    rw [hcount₂, counted, hone, hqdr₁]
    decide
  obtain ⟨-, s₃, hcall₃, -, hcount₃⟩ := @call_eastOf 2000 s₂ (by decide) (by decide)
    (by rw [hqdr₂]; decide) (by rw [hzero]; decide)
  have hrun : run (call sineTable origin 0 25600) (some (navInitStage notCircled))
      [eastOf 8, eastOf 4, eastOf 2000] = some s₃ := by
    rw [run_call _ hcall₁, run_call _ hcall₂, run_call _ hcall₃, run_nil]
  have hlost : s₃.navCircleRadians = 1 := by
    rw [hcount₃, counted, if_neg (not_not.mpr hzero)]
  have hturned :
      1 + turned origin 0 (bearingAt origin 0 (eastOf 8)) [eastOf 4, eastOf 2000] = 465 := by
    decide
  refine ⟨⟨s₃, hrun, hlost⟩, hturned, fun h => ?_⟩
  obtain ⟨s', hs', hcount, -⟩ := h [eastOf 4, eastOf 2000] List.prefix_rfl
  obtain rfl := Option.some.inj (hrun.symm.trans hs')
  rw [hlost, hturned] at hcount
  exact absurd hcount (by decide)

end Paparazzi.Rotorcraft.NavCircle
