import Mathlib
import Paparazzi.Library.Fallible
import Paparazzi.Library.Numerals
import Paparazzi.Rotorcraft.GuidanceHRef

/-!
Runs of the two reference models: where the errors stay in the range of the arithmetic, nothing
overflows and the references respect their limits.
-/

namespace Paparazzi.Rotorcraft.GuidanceRefRuns

open Paparazzi.Library.Checked32
open Paparazzi.Library.FallibleRun
open Paparazzi.Rotorcraft.GuidanceVRef
open Paparazzi.Rotorcraft.GuidanceHRef

attribute [local instance] Library.Numerals.atLeastTwo_two

/-- An update of the vertical reference: the limits, and the step of the altitude. -/
structure GvRight (s s' : GvRef) : Prop where
  limited : s'.Limited
  integrated : s'.z = s.z + s.zd
  step : s.Limited → gvMinZd ≤ s'.z - s.z ∧ s'.z - s.z ≤ gvMaxZd

/-- An update of the horizontal reference: the limits, and the step of the position. -/
structure GhRight (s s' : GhRef) : Prop where
  limited : s'.Limited
  integrated : s'.x.pos = s.x.pos + s.x.speed ∧ s'.y.pos = s.y.pos + s.y.speed
  step : s.Limited →
    (s'.x.pos - s.x.pos) ^ 2 + (s'.y.pos - s.y.pos) ^ 2 ≤ (ghMaxSpeed * 2 ^ 10 + 80) ^ 2

theorem gvRight_of_update {s s' : GvRef} {e : GvEvent} (h : gvUpdate s e = some s') :
    GvRight s s' := by
  obtain ⟨hz, hlimited⟩ := gvUpdate_eq_some h
  refine ⟨hlimited, hz, fun hs => ?_⟩
  rw [hz, add_sub_cancel_left]
  exact hs.zd

theorem ghRight_of_update {g : GhProducts} {s s' : GhRef} {e : GhEvent}
    (h : ghUpdate g s e = some s') : GhRight s s' := by
  obtain ⟨hx, hy, hlimited⟩ := ghUpdate_eq_some h
  refine ⟨hlimited, ⟨hx, hy⟩, fun hs => ?_⟩
  rw [hx, hy, add_sub_cancel_left, add_sub_cancel_left]
  exact hs.speed

/-- In the runs of both reference models from any values set before, every update has a value, is
within the limits and moves the position by no more than the maximum speed, if and only if every
update is taken with errors in the range of the arithmetic. -/
theorem guidanceRef_runs_iff (g : GhProducts) (alt : ℤ) {speed accel : ℤ} (hspeed : Fits speed)
    (haccel : Fits accel) (pos : ℤ × ℤ) {hSpeed hAccel : ℤ × ℤ}
    (hhSpeed : Fits hSpeed.1 ∧ Fits hSpeed.2) (hhAccel : Fits hAccel.1 ∧ Fits hAccel.2)
    (vs : List GvEvent) (hs : List GhEvent) :
    (EveryStep gvUpdate (fun s _ s' => GvRight s s') (gvSetRef alt speed accel) vs ↔
      Meets gvUpdate GvOk (gvSetRef alt speed accel) vs) ∧
    (EveryStep (ghUpdate g) (fun s _ s' => GhRight s s') (ghSetRef pos hSpeed hAccel) hs ↔
      Meets (ghUpdate g) GhOk (ghSetRef pos hSpeed hAccel) hs) := by
  constructor
  · apply everyStep_iff_meets isSome_gvUpdate_iff
    · exact fun s e s' _ h => (gvUpdate_eq_some h).2.held
    · exact fun s e s' _ h => gvRight_of_update h
    · exact held_gvSetRef hspeed haccel
  · apply everyStep_iff_meets (isSome_ghUpdate_iff g)
    · exact fun s e s' _ h => (ghUpdate_eq_some h).2.2.held
    · exact fun s e s' _ h => ghRight_of_update h
    · exact held_ghSetRef hhSpeed hhAccel

/-- The products taken exactly, with the constants as they are held. -/
def exactProducts : GhProducts where
  zetaOmega x := (-8952840888400437 * x).tdiv (2 ^ 42)
  omega2 x := (-6158346418208261 * x).tdiv (2 ^ 45)
  zetaOmega_near x := by
    have hnear := abs_lt.mp (abs_mul_tdiv_sub_lt (a := -8952840888400437 * x) (b := 2 ^ 42)
      (by norm_num))
    generalize (-8952840888400437 * x).tdiv (2 ^ 42) = q at hnear
    rw [abs_le]
    rcases le_total 0 x with hx | hx
    · rw [abs_of_nonneg hx]
      omega
    · rw [abs_of_nonpos hx]
      omega
  omega2_near x := by
    have hnear := abs_lt.mp (abs_mul_tdiv_sub_lt (a := -6158346418208261 * x) (b := 2 ^ 45)
      (by norm_num))
    generalize (-6158346418208261 * x).tdiv (2 ^ 45) = q at hnear
    rw [abs_le]
    rcases le_total 0 x with hx | hx
    · rw [abs_of_nonneg hx]
      omega
    · rw [abs_of_nonpos hx]
      omega

/-- To the north. -/
def northRoute : Route where
  cos := 2 ^ 14
  sin := 0
  exact := ⟨0, by norm_num⟩

/-- A climb of 2 m/s, and then 10 m down; to a place 10 m to the north, and on at 5 m/s. -/
theorem guidanceRef_runs_iff_north :
    EveryStep gvUpdate (fun s _ s' => GvRight s s') (gvSetRef 0 0 0)
      [.zdSp ⟨-2 * 2 ^ 19, by decide⟩, .zSp ⟨10 * 2 ^ 8, by decide⟩] ∧
    EveryStep (ghUpdate exactProducts) (fun s _ s' => GhRight s s') (ghSetRef (0, 0) (0, 0) (0, 0))
      [.posSp northRoute ⟨10 * 2 ^ 8, by decide⟩ ⟨0, by decide⟩,
        .speedSp northRoute ⟨5 * 2 ^ 19, by decide⟩ ⟨0, by decide⟩] := by
  have hzero : Fits 0 := by decide
  have hzeros : Fits ((0, 0) : ℤ × ℤ).1 ∧ Fits ((0, 0) : ℤ × ℤ).2 := ⟨hzero, hzero⟩
  obtain ⟨hv, hh⟩ := guidanceRef_runs_iff exactProducts 0 hzero hzero (0, 0) hzeros hzeros
    [.zdSp ⟨-2 * 2 ^ 19, by decide⟩, .zSp ⟨10 * 2 ^ 8, by decide⟩]
    [.posSp northRoute ⟨10 * 2 ^ 8, by decide⟩ ⟨0, by decide⟩,
      .speedSp northRoute ⟨5 * 2 ^ 19, by decide⟩ ⟨0, by decide⟩]
  exact ⟨hv.mpr (by decide), hh.mpr (by decide)⟩

/-- A climb set point of 40 m/s at rest, an altitude set point 40 km away from the reference, and a
speed set point of 100 m/s to the north: the products overflow. -/
theorem guidanceRef_overflows :
    gvUpdate (gvSetRef 0 0 0) (.zdSp ⟨40 * 2 ^ 19, by decide⟩) = none ∧
    gvUpdate (gvSetRef (20000 * 2 ^ 8) 0 0) (.zSp ⟨-20000 * 2 ^ 8, by decide⟩) = none ∧
    ghUpdate exactProducts (ghSetRef (0, 0) (0, 0) (0, 0))
      (.speedSp northRoute ⟨100 * 2 ^ 19, by decide⟩ ⟨0, by decide⟩) = none := by
  decide

end Paparazzi.Rotorcraft.GuidanceRefRuns
