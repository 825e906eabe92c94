import Mathlib
import Paparazzi.Library.Machine
import Paparazzi.Library.Numerals

/-!
The survey of a rectangle: `nav_survey_rectangle_init` and `nav_survey_rectangle` with exact
numbers, where its legs are and which strips they leave.
-/

namespace Paparazzi.Fixedwing.SurveyRectangle

open Paparazzi.Library.Machine

attribute [local instance] Library.Numerals.atLeastTwo_two

inductive SurveyOrientation where
  | ns
  | we
  deriving DecidableEq, Repr

structure Point (K : Type*) where
  x : K
  y : K

structure Survey (K : Type*) where
  navSurveyWest : K
  navSurveyEast : K
  navSurveySouth : K
  navSurveyNorth : K
  navSurveyShift : K
  surveyFrom : Point K
  surveyTo : Point K
  surveyUturn : Bool
  surveyOrientation : SurveyOrientation
  surveyRadius : K
  /-- The centre of the turns, `waypoints[0]`. -/
  waypoint0 : Point K

/-- What the state interface tells in a call. -/
structure Aircraft (K : Type*) where
  position : Point K
  horizontalSpeedDir : K
  navCourseCloseTo : ℕ → Bool

/-- What a call does: it follows a segment, begins or ends a turn, or goes on turning. -/
inductive Action (K : Type*) where
  | navRoute (surveyFrom surveyTo : Point K)
  | lineStop
  | lineStart
  | navCircle (center : Point K) (radius : K)

section

variable {K : Type*} [Field K] [LinearOrder K]

def Survey.GoingNorth (s : Survey K) : Prop :=
  s.surveyOrientation = .ns ∧ s.surveyTo.y > s.surveyFrom.y

def Survey.GoingSouth (s : Survey K) : Prop :=
  s.surveyOrientation = .ns ∧ s.surveyTo.y < s.surveyFrom.y

def Survey.GoingEast (s : Survey K) : Prop :=
  s.surveyOrientation = .we ∧ s.surveyTo.x > s.surveyFrom.x

def Survey.GoingWest (s : Survey K) : Prop :=
  s.surveyOrientation = .we ∧ s.surveyTo.x < s.surveyFrom.x

instance (s : Survey K) : Decidable s.GoingNorth := inferInstanceAs (Decidable (_ ∧ _))

instance (s : Survey K) : Decidable s.GoingSouth := inferInstanceAs (Decidable (_ ∧ _))

instance (s : Survey K) : Decidable s.GoingEast := inferInstanceAs (Decidable (_ ∧ _))

instance (s : Survey K) : Decidable s.GoingWest := inferInstanceAs (Decidable (_ ∧ _))

/-- The sides of the rectangle between two waypoints. -/
def corners (wp1 wp2 : Point K) (s : Survey K) : Survey K :=
  { s with
    navSurveyWest := min wp1.x wp2.x
    navSurveyEast := max wp1.x wp2.x
    navSurveySouth := min wp1.y wp2.y
    navSurveyNorth := max wp1.y wp2.y }

/-- The first leg; `mPi` is `M_PI`. -/
def navSurveyRectangleInit (mPi : K) (wp1 wp2 : Point K) (grid : K) (so : SurveyOrientation)
    (a : Aircraft K) (s : Survey K) : Survey K :=
  let s :=
    { corners wp1 wp2 s with
      surveyOrientation := so
      navSurveyShift := grid
      surveyUturn := false }
  match so with
  | .ns =>
      let x := min (max a.position.x (s.navSurveyWest + grid / 2)) (s.navSurveyEast - grid / 2)
      if a.position.y > s.navSurveyNorth ∨
          (a.position.y > s.navSurveySouth ∧ a.horizontalSpeedDir > mPi / 2 ∧
            a.horizontalSpeedDir < 3 * mPi / 2) then
        { s with surveyTo := ⟨x, s.navSurveySouth⟩, surveyFrom := ⟨x, s.navSurveyNorth⟩ }
      else { s with surveyFrom := ⟨x, s.navSurveySouth⟩, surveyTo := ⟨x, s.navSurveyNorth⟩ }
  | .we =>
      let y := min (max a.position.y (s.navSurveySouth + grid / 2)) (s.navSurveyNorth - grid / 2)
      if a.position.x > s.navSurveyEast ∨
          (a.position.x > s.navSurveyWest ∧ a.horizontalSpeedDir > mPi) then
        { s with surveyTo := ⟨s.navSurveyWest, y⟩, surveyFrom := ⟨s.navSurveyEast, y⟩ }
      else { s with surveyFrom := ⟨s.navSurveyWest, y⟩, surveyTo := ⟨s.navSurveyEast, y⟩ }

/-- The current segment with the ends that the corners give it. -/
def updateSegment (s : Survey K) : Survey K :=
  if s.GoingNorth then
    { s with
      surveyTo := { s.surveyTo with y := s.navSurveyNorth }
      surveyFrom := { s.surveyFrom with y := s.navSurveySouth } }
  else if s.GoingSouth then
    { s with
      surveyTo := { s.surveyTo with y := s.navSurveySouth }
      surveyFrom := { s.surveyFrom with y := s.navSurveyNorth } }
  else if s.GoingEast then
    { s with
      surveyTo := { s.surveyTo with x := s.navSurveyEast }
      surveyFrom := { s.surveyFrom with x := s.navSurveyWest } }
  else if s.GoingWest then
    { s with
      surveyTo := { s.surveyTo with x := s.navSurveyWest }
      surveyFrom := { s.surveyFrom with x := s.navSurveyEast } }
  else s

/-- The place of the next leg between the sides, and the shift behind it. -/
def nextLeg (lo hi x0 navSurveyShift : K) : K × K :=
  if x0 + navSurveyShift < lo ∨ x0 + navSurveyShift > hi then
    (x0 + navSurveyShift / 2 + -navSurveyShift, -navSurveyShift)
  else (x0 + navSurveyShift, navSurveyShift)

/-- The U-turn and the next leg, when a limit is reached. -/
def prepareTurn (s : Survey K) : Survey K :=
  match s.surveyOrientation with
  | .ns =>
      let (x0, shift) := nextLeg s.navSurveyWest s.navSurveyEast s.surveyFrom.x s.navSurveyShift
      let s :=
        { s with
          navSurveyShift := shift
          surveyFrom := ⟨x0, s.surveyTo.y⟩
          surveyTo := ⟨x0, s.surveyFrom.y⟩ }
      { s with
        waypoint0 := ⟨x0 - shift / 2, s.surveyFrom.y⟩
        surveyRadius := if s.GoingNorth then -(shift / 2) else shift / 2
        surveyUturn := true }
  | .we =>
      let (y0, shift) := nextLeg s.navSurveySouth s.navSurveyNorth s.surveyFrom.y s.navSurveyShift
      let s :=
        { s with
          navSurveyShift := shift
          surveyFrom := ⟨s.surveyTo.x, y0⟩
          surveyTo := ⟨s.surveyFrom.x, y0⟩ }
      { s with
        waypoint0 := ⟨s.surveyFrom.x, y0 - shift / 2⟩
        surveyRadius := if s.GoingWest then -(shift / 2) else shift / 2
        surveyUturn := true }

def navSurveyRectangle (wp1 wp2 : Point K) (a : Aircraft K) (s : Survey K) :
    Action K × Survey K :=
  let s := updateSegment (corners wp1 wp2 s)
  if s.surveyUturn then
    if (s.GoingNorth ∧ a.navCourseCloseTo 0) ∨ (s.GoingSouth ∧ a.navCourseCloseTo 180) ∨
        (s.GoingEast ∧ a.navCourseCloseTo 90) ∨ (s.GoingWest ∧ a.navCourseCloseTo 270) then
      (.lineStart, { s with surveyUturn := false })
    else (.navCircle s.waypoint0 s.surveyRadius, s)
  else
    if (a.position.y < s.navSurveyNorth ∧ s.GoingNorth) ∨
        (a.position.y > s.navSurveySouth ∧ s.GoingSouth) ∨
        (a.position.x < s.navSurveyEast ∧ s.GoingEast) ∨
        (a.position.x > s.navSurveyWest ∧ s.GoingWest) then
      (.navRoute s.surveyFrom s.surveyTo, s)
    else (.lineStop, prepareTurn s)

/-! ### Flights -/

/-- A leg, and the shift that leads to the one after it. -/
structure Leg (K : Type*) where
  surveyFrom : Point K
  surveyTo : Point K
  shift : K

def Survey.leg (s : Survey K) : Leg K := ⟨s.surveyFrom, s.surveyTo, s.navSurveyShift⟩

/-- The survey with its legs so far. -/
structure Flight (K : Type*) where
  survey : Survey K
  legs : List (Leg K)

def start (mPi : K) (wp1 wp2 : Point K) (grid : K) (so : SurveyOrientation) (a : Aircraft K)
    (s : Survey K) : Flight K where
  survey := navSurveyRectangleInit mPi wp1 wp2 grid so a s
  legs := [(navSurveyRectangleInit mPi wp1 wp2 grid so a s).leg]

def fly (wp1 wp2 : Point K) (f : Flight K) (a : Aircraft K) : Flight K :=
  match navSurveyRectangle wp1 wp2 a f.survey with
  | (.lineStop, s) => { survey := s, legs := f.legs ++ [s.leg] }
  | (_, s) => { f with survey := s }

end

/-! ### Along and across the legs -/

section

variable {K : Type*}

/-- The coordinate in which the sweep goes. -/
def Point.across (p : Point K) : SurveyOrientation → K
  | .ns => p.x
  | .we => p.y

/-- The coordinate in which the legs go. -/
def Point.along (p : Point K) : SurveyOrientation → K
  | .ns => p.y
  | .we => p.x

def Leg.place (l : Leg K) (so : SurveyOrientation) : K := l.surveyFrom.across so

end

section

variable {K : Type*} [Field K] [LinearOrder K]

def lower (c : Point K → K) (wp1 wp2 : Point K) : K := min (c wp1) (c wp2)

def upper (c : Point K → K) (wp1 wp2 : Point K) : K := max (c wp1) (c wp2)

variable (wp1 wp2 : Point K) (grid : K) (so : SurveyOrientation)

/-- The sides of the rectangle across the legs. -/
def lowSide : K := lower (Point.across · so) wp1 wp2

def highSide : K := upper (Point.across · so) wp1 wp2

/-- The limits at which the legs end. -/
def lowLimit : K := lower (Point.along · so) wp1 wp2

def highLimit : K := upper (Point.along · so) wp1 wp2

/-- A sweep to the high side is half a grid away from the low side, and conversely. -/
def OnSweep (lo hi place shift : K) : Prop :=
  (shift = grid ∧ lo + grid / 2 ≤ place ∧ place ≤ hi) ∨
    (shift = -grid ∧ lo ≤ place ∧ place ≤ hi - grid / 2)

/-- A leg from limit to limit. -/
structure Leg.Ok (l : Leg K) : Prop where
  across : l.surveyTo.across so = l.surveyFrom.across so
  ends : (l.surveyFrom.along so = lowLimit wp1 wp2 so ∧
      l.surveyTo.along so = highLimit wp1 wp2 so) ∨
    (l.surveyFrom.along so = highLimit wp1 wp2 so ∧ l.surveyTo.along so = lowLimit wp1 wp2 so)
  sweep : OnSweep grid (lowSide wp1 wp2 so) (highSide wp1 wp2 so) (l.place so) l.shift

/-- What the next leg is to a leg. -/
structure Leg.Next (l l' : Leg K) : Prop where
  place : (l'.place so, l'.shift) =
    nextLeg (lowSide wp1 wp2 so) (highSide wp1 wp2 so) (l.place so) l.shift
  surveyFrom : l'.surveyFrom.along so = l.surveyTo.along so
  surveyTo : l'.surveyTo.along so = l.surveyFrom.along so
  across : l'.surveyTo.across so = l'.surveyFrom.across so

/-- The survey knows the sides of the rectangle and is on a leg. -/
structure Survey.Ok (s : Survey K) : Prop where
  corners : corners wp1 wp2 s = s
  surveyOrientation : s.surveyOrientation = so
  leg : s.leg.Ok wp1 wp2 grid so

variable {wp1 wp2 grid so}

theorem Leg.Ok.shift {l : Leg K} (hl : l.Ok wp1 wp2 grid so) :
    l.shift = grid ∨ l.shift = -grid :=
  hl.sweep.imp And.left And.left

theorem nextLeg_onSweep [IsStrictOrderedRing K] {lo hi place shift : K} (hgrid : 0 < grid)
    (h : OnSweep grid lo hi place shift) :
    OnSweep grid lo hi (nextLeg lo hi place shift).1 (nextLeg lo hi place shift).2 := by
  rw [nextLeg]
  obtain ⟨rfl, hlo, hhi⟩ | ⟨rfl, hlo, hhi⟩ := h
  · split_ifs with hside
    · exact Or.inr ⟨rfl, by linarith, by linarith⟩
    · rw [not_or, not_lt, not_lt] at hside
      exact Or.inl ⟨rfl, by linarith, by linarith [hside.2]⟩
  · split_ifs with hside
    · exact Or.inl ⟨neg_neg grid, by linarith, by linarith⟩
    · rw [not_or, not_lt, not_lt] at hside
      exact Or.inr ⟨rfl, by linarith [hside.1], by linarith⟩

/-- The next leg of a good leg is good. -/
theorem Leg.Ok.next [IsStrictOrderedRing K] {l l' : Leg K} (hgrid : 0 < grid)
    (hl : l.Ok wp1 wp2 grid so) (h : l.Next wp1 wp2 so l') : l'.Ok wp1 wp2 grid so := by
  refine ⟨h.across, ?_, ?_⟩
  · rw [h.surveyFrom, h.surveyTo]
    exact hl.ends.symm.imp And.symm And.symm
  · have hplace := h.place
    have hsweep := nextLeg_onSweep hgrid hl.sweep
    rw [← hplace] at hsweep
    exact hsweep

/-- The sides that the survey knows. -/
theorem Survey.Ok.sides {s : Survey K} (hs : s.Ok wp1 wp2 grid so) :
    s.navSurveyWest = min wp1.x wp2.x ∧ s.navSurveyEast = max wp1.x wp2.x ∧
      s.navSurveySouth = min wp1.y wp2.y ∧ s.navSurveyNorth = max wp1.y wp2.y := by
  have hcorners := hs.corners
  refine ⟨?_, ?_, ?_, ?_⟩
  · exact (congrArg Survey.navSurveyWest hcorners).symm
  · exact (congrArg Survey.navSurveyEast hcorners).symm
  · exact (congrArg Survey.navSurveySouth hcorners).symm
  · exact (congrArg Survey.navSurveyNorth hcorners).symm

/-- Corners that stay give the segment the ends that it has. -/
theorem updateSegment_eq {s : Survey K} (hs : s.Ok wp1 wp2 grid so) : updateSegment s = s := by
  obtain ⟨hwest, heast, hsouth, hnorth⟩ := hs.sides
  have hends := hs.leg.ends
  have hso := hs.surveyOrientation
  obtain ⟨west, east, south, north, shift, ⟨fx, fy⟩, ⟨tx, ty⟩, uturn, o, radius, center⟩ := s
  dsimp only at hwest heast hsouth hnorth hso
  subst hwest heast hsouth hnorth hso
  cases o with
  | ns =>
      have hle : min wp1.y wp2.y ≤ max wp1.y wp2.y := min_le_max
      obtain ⟨hfrom, hto⟩ | ⟨hfrom, hto⟩ := hends
      · change fy = min wp1.y wp2.y at hfrom
        change ty = max wp1.y wp2.y at hto
        subst hfrom hto
        simp [updateSegment, Survey.GoingNorth, Survey.GoingSouth, Survey.GoingEast,
          Survey.GoingWest, hle.not_gt]
      · change fy = max wp1.y wp2.y at hfrom
        change ty = min wp1.y wp2.y at hto
        subst hfrom hto
        simp [updateSegment, Survey.GoingNorth, Survey.GoingSouth, Survey.GoingEast,
          Survey.GoingWest, hle.not_gt]
  | we =>
      have hle : min wp1.x wp2.x ≤ max wp1.x wp2.x := min_le_max
      obtain ⟨hfrom, hto⟩ | ⟨hfrom, hto⟩ := hends
      · change fx = min wp1.x wp2.x at hfrom
        change tx = max wp1.x wp2.x at hto
        subst hfrom hto
        simp [updateSegment, Survey.GoingNorth, Survey.GoingSouth, Survey.GoingEast,
          Survey.GoingWest, hle.not_gt]
      · change fx = max wp1.x wp2.x at hfrom
        change tx = min wp1.x wp2.x at hto
        subst hfrom hto
        simp [updateSegment, Survey.GoingNorth, Survey.GoingSouth, Survey.GoingEast,
          Survey.GoingWest, hle.not_gt]

theorem prepareTurn_next {s : Survey K} (hs : s.Ok wp1 wp2 grid so) :
    s.leg.Next wp1 wp2 so (prepareTurn s).leg ∧ corners wp1 wp2 (prepareTurn s) = prepareTurn s ∧
      (prepareTurn s).surveyOrientation = so := by
  obtain ⟨hwest, heast, hsouth, hnorth⟩ := hs.sides
  have hso := hs.surveyOrientation
  obtain ⟨west, east, south, north, shift, ⟨fx, fy⟩, ⟨tx, ty⟩, uturn, o, radius, center⟩ := s
  dsimp only at hwest heast hsouth hnorth hso
  subst hwest heast hsouth hnorth hso
  cases o with
  | ns => exact ⟨⟨rfl, rfl, rfl, rfl⟩, rfl, rfl⟩
  | we => exact ⟨⟨rfl, rfl, rfl, rfl⟩, rfl, rfl⟩

/-- A call goes on with the leg, or prepares the next one when it is not turning. -/
theorem navSurveyRectangle_cases {s : Survey K} (hs : s.Ok wp1 wp2 grid so) (a : Aircraft K) :
    navSurveyRectangle wp1 wp2 a s = (.lineStop, prepareTurn s) ∨
      ∃ action uturn, navSurveyRectangle wp1 wp2 a s = (action, { s with surveyUturn := uturn }) ∧
        (∀ p q, action = .navRoute p q → p = s.surveyFrom ∧ q = s.surveyTo) ∧
        action ≠ .lineStop := by
  rw [navSurveyRectangle, hs.corners, updateSegment_eq hs]
  split_ifs
  · exact Or.inr ⟨.lineStart, false, rfl, nofun, nofun⟩
  · exact Or.inr ⟨_, s.surveyUturn, rfl, nofun, nofun⟩
  · refine Or.inr ⟨_, s.surveyUturn, rfl, fun p q h => ?_, nofun⟩
    cases h
    exact ⟨rfl, rfl⟩
  · exact Or.inl rfl

/-- The legs of a flight follow each other, and the survey is on the last one. -/
structure Flight.Ok (wp1 wp2 : Point K) (grid : K) (so : SurveyOrientation) (f : Flight K) :
    Prop where
  survey : f.survey.Ok wp1 wp2 grid so
  legs : ∀ l ∈ f.legs, l.Ok wp1 wp2 grid so
  chain : f.legs.IsChain (Leg.Next wp1 wp2 so)
  last : f.legs.getLast? = some f.survey.leg

variable [IsStrictOrderedRing K]

theorem fly_ok (hgrid : 0 < grid) {f : Flight K} (hf : f.Ok wp1 wp2 grid so) (a : Aircraft K) :
    (fly wp1 wp2 f a).Ok wp1 wp2 grid so := by
  obtain hstop | ⟨action, uturn, hgo, -, hne⟩ := navSurveyRectangle_cases hf.survey a
  · have hfly : fly wp1 wp2 f a =
        { survey := prepareTurn f.survey, legs := f.legs ++ [(prepareTurn f.survey).leg] } := by
      rw [fly, hstop]
    obtain ⟨hnext, hcorners, hso⟩ := prepareTurn_next hf.survey
    have hleg := hf.survey.leg.next hgrid hnext
    rw [hfly]
    refine ⟨⟨hcorners, hso, hleg⟩, ?_, ?_, by simp⟩
    · intro l hl
      obtain hl | hl := List.mem_append.mp hl
      · exact hf.legs l hl
      · rw [List.mem_singleton.mp hl]
        exact hleg
    · rw [List.isChain_append]
      refine ⟨hf.chain, List.isChain_singleton _, fun l hl l' hl' => ?_⟩
      rw [hf.last, Option.mem_some_iff] at hl
      rw [List.head?_cons, Option.mem_some_iff] at hl'
      rw [← hl, ← hl']
      exact hnext
  · have hfly : fly wp1 wp2 f a = { f with survey := { f.survey with surveyUturn := uturn } } := by
      rw [fly, hgo]
      cases action with
      | lineStop => exact absurd rfl hne
      | navRoute p q => rfl
      | lineStart => rfl
      | navCircle p r => rfl
    rw [hfly]
    refine ⟨⟨?_, hf.survey.surveyOrientation, hf.survey.leg⟩, hf.legs, hf.chain, hf.last⟩
    exact congrArg (fun s : Survey K => { s with surveyUturn := uturn }) hf.survey.corners

/-- The place of the first leg is half a grid or more away from both sides. -/
theorem first_onSweep {lo hi : K} (position : K) (hgrid : 0 < grid) (hwide : grid ≤ hi - lo) :
    OnSweep grid lo hi (min (max position (lo + grid / 2)) (hi - grid / 2)) grid := by
  refine Or.inl ⟨rfl, le_min (le_max_right _ _) (by linarith), (min_le_right _ _).trans ?_⟩
  linarith

theorem start_ok (mPi : K) (a : Aircraft K) (s : Survey K) (hgrid : 0 < grid)
    (hwide : grid ≤ highSide wp1 wp2 so - lowSide wp1 wp2 so) :
    (start mPi wp1 wp2 grid so a s).Ok wp1 wp2 grid so := by
  have hfirst (position : K) := first_onSweep position hgrid hwide
  have hok : (navSurveyRectangleInit mPi wp1 wp2 grid so a s).Ok wp1 wp2 grid so := by
    cases so with
    | ns =>
        rw [navSurveyRectangleInit]
        dsimp only
        split_ifs
        · exact ⟨rfl, rfl, rfl, Or.inr ⟨rfl, rfl⟩, hfirst _⟩
        · exact ⟨rfl, rfl, rfl, Or.inl ⟨rfl, rfl⟩, hfirst _⟩
    | we =>
        rw [navSurveyRectangleInit]
        dsimp only
        split_ifs
        · exact ⟨rfl, rfl, rfl, Or.inr ⟨rfl, rfl⟩, hfirst _⟩
        · exact ⟨rfl, rfl, rfl, Or.inl ⟨rfl, rfl⟩, hfirst _⟩
  refine ⟨hok, ?_, List.isChain_singleton _, rfl⟩
  intro l hl
  rw [List.mem_singleton.mp hl]
  exact hok.leg

theorem run_ok (mPi : K) (a : Aircraft K) (s : Survey K) (hgrid : 0 < grid)
    (hwide : grid ≤ highSide wp1 wp2 so - lowSide wp1 wp2 so) (calls : List (Aircraft K)) :
    (run (fly wp1 wp2) (start mPi wp1 wp2 grid so a s) calls).Ok wp1 wp2 grid so :=
  run_invariant (Flight.Ok wp1 wp2 grid so) (fun _ call hf _ => fly_ok hgrid hf call)
    (start_ok mPi a s hgrid hwide) ((runOk_iff_forall _ calls).mpr fun _ _ => trivial)

/-! ### What the legs leave -/

variable {l l' : Leg K}

theorem Leg.Ok.abs_shift (hgrid : 0 < grid) (hl : l.Ok wp1 wp2 grid so) : |l.shift| = grid := by
  obtain hs | hs := hl.shift
  · rw [hs, abs_of_pos hgrid]
  · rw [hs, abs_neg, abs_of_pos hgrid]

/-- Without a reversal the next leg is a grid away. -/
theorem Leg.Next.kept (hgrid : 0 < grid) (hl : l.Ok wp1 wp2 grid so)
    (h : l.Next wp1 wp2 so l') (hshift : l'.shift = l.shift) :
    l'.place so = l.place so + l.shift := by
  have hplace := h.place
  rw [nextLeg] at hplace
  split_ifs at hplace with hside
  · obtain ⟨-, hneg⟩ := Prod.ext_iff.mp hplace
    dsimp only at hneg
    obtain hs | hs := hl.shift
    · linarith
    · linarith
  · exact (Prod.ext_iff.mp hplace).1

/-- At a reversal the next leg is half a grid back, and the side is near. -/
theorem Leg.Next.reversed (hgrid : 0 < grid) (hl : l.Ok wp1 wp2 grid so)
    (h : l.Next wp1 wp2 so l') (hshift : l'.shift = -l.shift) :
    l'.place so = l.place so - l.shift / 2 ∧
      (l.shift = grid → highSide wp1 wp2 so - l.place so < grid) ∧
      (l.shift = -grid → l.place so - lowSide wp1 wp2 so < grid) := by
  have hplace := h.place
  rw [nextLeg] at hplace
  split_ifs at hplace with hside
  · have hfirst := (Prod.ext_iff.mp hplace).1
    dsimp only at hfirst
    refine ⟨by linarith, fun hs => ?_, fun hs => ?_⟩
    · obtain ⟨-, hlo, hhi⟩ | ⟨hs', -⟩ := hl.sweep
      · obtain hside | hside := hside
        · linarith
        · linarith
      · linarith
    · obtain ⟨hs', -⟩ | ⟨-, hlo, hhi⟩ := hl.sweep
      · linarith
      · obtain hside | hside := hside
        · linarith
        · linarith
  · obtain ⟨-, hsame⟩ := Prod.ext_iff.mp hplace
    dsimp only at hsame
    obtain hs | hs := hl.shift
    · linarith
    · linarith

/-- Neighbouring legs are a grid or half a grid apart. -/
theorem Leg.Next.apart (hgrid : 0 < grid) (hl : l.Ok wp1 wp2 grid so)
    (h : l.Next wp1 wp2 so l') :
    |l'.place so - l.place so| = grid ∨ |l'.place so - l.place so| = grid / 2 := by
  have habs := hl.abs_shift hgrid
  have hshift : l'.shift = l.shift ∨ l'.shift = -l.shift := by
    have hplace := (Prod.ext_iff.mp h.place).2
    rw [nextLeg] at hplace
    split_ifs at hplace with hside
    · exact Or.inr hplace
    · exact Or.inl hplace
  obtain hkept | hreversed := hshift
  · left
    rw [h.kept hgrid hl hkept, add_sub_cancel_left, habs]
  · right
    rw [(h.reversed hgrid hl hreversed).1, sub_sub_cancel_left, abs_neg, abs_div, habs, abs_two]

/-- Places from near one side to near the other, in steps of at most a grid, meet every wider
strip. -/
theorem strip_covered {α : Type*} {f : α → K} {lo a b : K} {first : α} {rest : List α}
    (hchain : (first :: rest).IsChain fun p q => f p - grid ≤ f q) (hfirst : b ≤ f first + grid)
    (hlast : ∀ p ∈ (first :: rest).getLast?, f p - lo < grid) (ha : lo ≤ a)
    (hwide : grid < b - a) : ∃ p ∈ first :: rest, a < f p ∧ f p < b := by
  induction rest generalizing first with
  | nil =>
      have hnear := hlast first rfl
      exact ⟨first, List.mem_singleton_self first, by linarith, by linarith⟩
  | cons q rest ih =>
      obtain ⟨hstep, hchain⟩ := List.isChain_cons_cons.mp hchain
      by_cases hb : f first < b
      · exact ⟨first, List.mem_cons_self, by linarith, hb⟩
      · obtain ⟨p, hp, hstrip⟩ := ih hchain (by linarith) hlast
        exact ⟨p, List.mem_cons_of_mem _ hp, hstrip⟩

/-- The legs between two reversals, behind the one before the first reversal: they are a grid apart,
the last one is near its side, and they leave no wider strip. -/
structure Covers (wp1 wp2 : Point K) (grid : K) (so : SurveyOrientation) (before : Leg K)
    (pass : List (Leg K)) : Prop where
  neighbours : pass.IsChain fun l l' => |l'.place so - l.place so| = grid
  last : ∀ l ∈ pass.getLast?, (l.shift = grid → highSide wp1 wp2 so - l.place so < grid) ∧
    (l.shift = -grid → l.place so - lowSide wp1 wp2 so < grid)
  strips : ∀ a b, lowSide wp1 wp2 so ≤ a → b ≤ highSide wp1 wp2 so → grid < b - a →
    ∃ l ∈ before :: pass, a < l.place so ∧ l.place so < b

theorem strip_of_descending {first : Leg K} {rest : List (Leg K)} {lo a b : K}
    (hsteps : (first :: rest).IsChain fun l l' => |l'.place so - l.place so| ≤ grid)
    (hfirst : b ≤ first.place so + grid)
    (hlast : ∀ l ∈ (first :: rest).getLast?, l.place so - lo < grid) (ha : lo ≤ a)
    (hwide : grid < b - a) : ∃ l ∈ first :: rest, a < l.place so ∧ l.place so < b := by
  refine strip_covered (hsteps.imp fun l l' h => ?_) hfirst hlast ha hwide
  linarith [(abs_le.mp h).1]

theorem strip_of_ascending {first : Leg K} {rest : List (Leg K)} {hi a b : K}
    (hsteps : (first :: rest).IsChain fun l l' => |l'.place so - l.place so| ≤ grid)
    (hfirst : first.place so ≤ a + grid)
    (hlast : ∀ l ∈ (first :: rest).getLast?, hi - l.place so < grid) (hb : b ≤ hi)
    (hwide : grid < b - a) : ∃ l ∈ first :: rest, a < l.place so ∧ l.place so < b := by
  have hside : -hi ≤ -b := neg_le_neg hb
  have hwide' : grid < -a - -b := by linarith
  have hstrip : ∃ l ∈ first :: rest, -b < -l.place so ∧ -l.place so < -a := by
    refine strip_covered (hsteps.imp fun l l' h => ?_) (by linarith) (fun l hl => ?_) hside hwide'
    · linarith [(abs_le.mp h).2]
    · linarith [hlast l hl]
  obtain ⟨l, hl, hlo, hhi⟩ := hstrip
  exact ⟨l, hl, neg_lt_neg_iff.mp hhi, neg_lt_neg_iff.mp hlo⟩

/-- The last leg of a pass is the one at which the next one reverses. -/
theorem near_of_getLast (hgrid : 0 < grid) {before after : Leg K} {pass : List (Leg K)}
    (hlegs : ∀ l ∈ before :: pass, l.Ok wp1 wp2 grid so)
    (hend : ∀ l ∈ (before :: pass).getLast?, l.Next wp1 wp2 so after)
    (hpass : ∀ l ∈ pass, l.shift = -before.shift) (hafter : after.shift = before.shift) (l : Leg K)
    (hl : l ∈ pass.getLast?) :
    (l.shift = grid → highSide wp1 wp2 so - l.place so < grid) ∧
      (l.shift = -grid → l.place so - lowSide wp1 wp2 so < grid) := by
  have hmem := List.mem_of_getLast? hl
  have hnext : l.Next wp1 wp2 so after := by
    apply hend l
    rw [List.getLast?_cons_of_ne_nil (List.ne_nil_of_mem hmem)]
    exact hl
  have hshift : after.shift = -l.shift := by rw [hpass l hmem, hafter, neg_neg]
  exact (hnext.reversed hgrid (hlegs l (List.mem_cons_of_mem _ hmem)) hshift).2

theorem covers_of_isChain (hgrid : 0 < grid) {before after : Leg K} {pass : List (Leg K)}
    (hlegs : ∀ l ∈ before :: pass ++ [after], l.Ok wp1 wp2 grid so)
    (hchain : (before :: pass ++ [after]).IsChain (Leg.Next wp1 wp2 so)) (hne : pass ≠ [])
    (hpass : ∀ l ∈ pass, l.shift = -before.shift) (hafter : after.shift = before.shift) :
    Covers wp1 wp2 grid so before pass := by
  have hok (l : Leg K) (hl : l ∈ before :: pass) : l.Ok wp1 wp2 grid so :=
    hlegs l (List.mem_append_left _ hl)
  obtain ⟨hchain, -, hend⟩ := List.isChain_append.mp hchain
  obtain ⟨hhead, htail⟩ := List.isChain_cons.mp hchain
  have hlast := near_of_getLast hgrid hok (fun l hl => hend l hl after rfl) hpass hafter
  refine ⟨htail.imp_of_mem_imp fun l l' hl hl' hnext => ?_, hlast, fun a b ha hb hwide => ?_⟩
  · have hok' := hok l (List.mem_cons_of_mem _ hl)
    have hkept := hnext.kept hgrid hok' (by rw [hpass l hl, hpass l' hl'])
    rw [hkept, add_sub_cancel_left, hok'.abs_shift hgrid]
  · obtain ⟨first, rest, rfl⟩ := List.exists_cons_of_ne_nil hne
    have hnext : before.Next wp1 wp2 so first := hhead first rfl
    have hbefore := hok before List.mem_cons_self
    obtain ⟨-, hhigh, hlow⟩ := hnext.reversed hgrid hbefore (hpass first List.mem_cons_self)
    have hsteps : (before :: first :: rest).IsChain
        fun l l' => |l'.place so - l.place so| ≤ grid :=
      hchain.imp_of_mem_imp fun l l' hl _ h => by
        obtain heq | heq := h.apart hgrid (hok l hl)
        · exact heq.le
        · linarith
    have hend' (l : Leg K) (hl : l ∈ (before :: first :: rest).getLast?) :
        l ∈ (first :: rest).getLast? ∧ l ∈ first :: rest := by
      rw [List.getLast?_cons_of_ne_nil hne] at hl
      exact ⟨hl, List.mem_of_getLast? hl⟩
    obtain hs | hs := hbefore.shift
    · -- The pass goes from the high side to the low one.
      refine strip_of_descending hsteps (by linarith [hhigh hs]) (fun l hl => ?_) ha hwide
      obtain ⟨hl, hmem⟩ := hend' l hl
      exact (hlast l hl).2 (by rw [hpass l hmem, hs])
    · -- It goes from the low side to the high one.
      refine strip_of_ascending hsteps (by linarith [hlow hs]) (fun l hl => ?_) hb hwide
      obtain ⟨hl, hmem⟩ := hend' l hl
      exact (hlast l hl).1 (by rw [hpass l hmem, hs, neg_neg])

/-! ### The survey -/

def Inside (wp1 wp2 p : Point K) : Prop :=
  (min wp1.x wp2.x ≤ p.x ∧ p.x ≤ max wp1.x wp2.x) ∧
    (min wp1.y wp2.y ≤ p.y ∧ p.y ≤ max wp1.y wp2.y)

/-- A point of a leg. -/
def Leg.at (l : Leg K) (t : K) : Point K :=
  ⟨l.surveyFrom.x + t * (l.surveyTo.x - l.surveyFrom.x),
    l.surveyFrom.y + t * (l.surveyTo.y - l.surveyFrom.y)⟩

/-- Flown in opposite directions, a grid or half a grid apart. -/
structure Neighbours (grid : K) (so : SurveyOrientation) (l l' : Leg K) : Prop where
  opposite : l'.surveyTo.x - l'.surveyFrom.x = -(l.surveyTo.x - l.surveyFrom.x) ∧
    l'.surveyTo.y - l'.surveyFrom.y = -(l.surveyTo.y - l.surveyFrom.y)
  apart : |l'.place so - l.place so| = grid ∨ |l'.place so - l.place so| = grid / 2

theorem between {lo hi p q t : K} (hp : lo ≤ p ∧ p ≤ hi) (hq : lo ≤ q ∧ q ≤ hi) (h0 : 0 ≤ t)
    (h1 : t ≤ 1) : lo ≤ p + t * (q - p) ∧ p + t * (q - p) ≤ hi := by
  have hlo := mul_nonneg h0 (sub_nonneg.mpr hq.1)
  have hhi := mul_nonneg h0 (sub_nonneg.mpr hq.2)
  have hlo' := mul_nonneg (sub_nonneg.mpr h1) (sub_nonneg.mpr hp.1)
  have hhi' := mul_nonneg (sub_nonneg.mpr h1) (sub_nonneg.mpr hp.2)
  constructor
  · linarith
  · linarith

theorem Leg.Ok.inside (hgrid : 0 < grid) (hl : l.Ok wp1 wp2 grid so) {t : K} (h0 : 0 ≤ t)
    (h1 : t ≤ 1) : Inside wp1 wp2 (l.at t) := by
  have hsweep : lowSide wp1 wp2 so ≤ l.place so ∧ l.place so ≤ highSide wp1 wp2 so := by
    obtain ⟨-, hlo, hhi⟩ | ⟨-, hlo, hhi⟩ := hl.sweep
    · exact ⟨by linarith, hhi⟩
    · exact ⟨hlo, by linarith⟩
  have hto : lowSide wp1 wp2 so ≤ l.surveyTo.across so ∧
      l.surveyTo.across so ≤ highSide wp1 wp2 so := by
    rw [hl.across]
    exact hsweep
  have hle : lowLimit wp1 wp2 so ≤ highLimit wp1 wp2 so := min_le_max
  have hends : (lowLimit wp1 wp2 so ≤ l.surveyFrom.along so ∧
      l.surveyFrom.along so ≤ highLimit wp1 wp2 so) ∧
      lowLimit wp1 wp2 so ≤ l.surveyTo.along so ∧
        l.surveyTo.along so ≤ highLimit wp1 wp2 so := by
    obtain ⟨hfrom, hto⟩ | ⟨hfrom, hto⟩ := hl.ends
    · rw [hfrom, hto]
      exact ⟨⟨le_rfl, hle⟩, hle, le_rfl⟩
    · rw [hfrom, hto]
      exact ⟨⟨hle, le_rfl⟩, le_rfl, hle⟩
  cases so with
  | ns => exact ⟨between hsweep hto h0 h1, between hends.1 hends.2 h0 h1⟩
  | we => exact ⟨between hends.1 hends.2 h0 h1, between hsweep hto h0 h1⟩

theorem Leg.Next.neighbours (hgrid : 0 < grid) (hl : l.Ok wp1 wp2 grid so)
    (h : l.Next wp1 wp2 so l') : Neighbours grid so l l' := by
  refine ⟨?_, h.apart hgrid hl⟩
  have hacross := hl.across
  have hacross' := h.across
  have hfrom := h.surveyFrom
  have hto := h.surveyTo
  cases so with
  | ns =>
      simp only [Point.across, Point.along] at hacross hacross' hfrom hto
      rw [hacross, hacross', hfrom, hto]
      exact ⟨by simp, by simp⟩
  | we =>
      simp only [Point.across, Point.along] at hacross hacross' hfrom hto
      rw [hacross, hacross', hfrom, hto]
      exact ⟨by simp, by simp⟩

/-- Along any trajectory the legs stay inside, neighbouring legs are flown in opposite directions a
grid or half a grid apart, those between two reversals of the shift cover the rectangle, and the
route that is followed is the last leg. -/
theorem survey_rectangle_covers (mPi : K) (a : Aircraft K) (s : Survey K) (hgrid : 0 < grid)
    (hwide : grid ≤ highSide wp1 wp2 so - lowSide wp1 wp2 so) (calls : List (Aircraft K)) :
    (∀ l ∈ (run (fly wp1 wp2) (start mPi wp1 wp2 grid so a s) calls).legs, ∀ t, 0 ≤ t → t ≤ 1 →
      Inside wp1 wp2 (l.at t)) ∧
    (run (fly wp1 wp2) (start mPi wp1 wp2 grid so a s) calls).legs.IsChain
      (Neighbours grid so) ∧
    (∀ earlier before pass after later,
      (run (fly wp1 wp2) (start mPi wp1 wp2 grid so a s) calls).legs =
        earlier ++ (before :: pass ++ [after]) ++ later →
      pass ≠ [] → (∀ l ∈ pass, l.shift = -before.shift) → after.shift = before.shift →
      Covers wp1 wp2 grid so before pass) ∧
    ∀ call p q,
      (navSurveyRectangle wp1 wp2 call
        (run (fly wp1 wp2) (start mPi wp1 wp2 grid so a s) calls).survey).1 = .navRoute p q →
      ∃ l ∈ (run (fly wp1 wp2) (start mPi wp1 wp2 grid so a s) calls).legs.getLast?,
        l.surveyFrom = p ∧ l.surveyTo = q := by
  have hf := run_ok mPi a s hgrid hwide calls
  generalize run (fly wp1 wp2) (start mPi wp1 wp2 grid so a s) calls = f at hf ⊢
  refine ⟨fun l hl t h0 h1 => (hf.legs l hl).inside hgrid h0 h1, ?_, ?_, ?_⟩
  · exact hf.chain.imp_of_mem_imp fun l l' hl _ h => h.neighbours hgrid (hf.legs l hl)
  · intro earlier before pass after later hlegs hne hpass hafter
    have hpart : before :: pass ++ [after] <:+: f.legs := ⟨earlier, later, hlegs.symm⟩
    have hchain := hf.chain.infix hpart
    exact covers_of_isChain hgrid (fun l hl => hf.legs l (hpart.subset hl)) hchain hne hpass hafter
  · intro call p q hroute
    obtain hstop | ⟨action, uturn, hgo, hsame, -⟩ := navSurveyRectangle_cases hf.survey call
    · rw [hstop] at hroute
      cases hroute
    · rw [hgo] at hroute
      obtain ⟨rfl, rfl⟩ := hsame p q hroute
      exact ⟨f.survey.leg, hf.last, rfl, rfl⟩

end

/-- A rectangle ten wide and twenty long. -/
def field : Survey ℚ where
  navSurveyWest := 0
  navSurveyEast := 10
  navSurveySouth := 0
  navSurveyNorth := 20
  navSurveyShift := 0
  surveyFrom := ⟨0, 0⟩
  surveyTo := ⟨0, 0⟩
  surveyUturn := false
  surveyOrientation := .ns
  surveyRadius := 0
  waypoint0 := ⟨0, 0⟩

/-- The aircraft with a course that is not checked. -/
def flyingAt (x y : ℚ) : Aircraft ℚ := ⟨⟨x, y⟩, 0, fun _ => true⟩

/-- Two legs and the turns behind them. -/
theorem survey_rectangle_covers_twoLegs :
    (run (fly ⟨0, 0⟩ ⟨10, 20⟩) (start 3 ⟨0, 0⟩ ⟨10, 20⟩ 4 .ns (flyingAt 8 0) field)
      [flyingAt 8 10, flyingAt 8 20, flyingAt 7 21, flyingAt 6 10, flyingAt 6 0]).legs.IsChain
      (Neighbours 4 .ns) :=
  (survey_rectangle_covers 3 (flyingAt 8 0) field (by decide) (by decide +kernel)
    [flyingAt 8 10, flyingAt 8 20, flyingAt 7 21, flyingAt 6 10, flyingAt 6 0]).2.1

end Paparazzi.Fixedwing.SurveyRectangle
