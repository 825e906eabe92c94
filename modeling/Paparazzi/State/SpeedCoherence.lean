import Mathlib
import Paparazzi.Library.Numerals
import Paparazzi.State.PositionCoherence
import Paparazzi.State.Speed

/-!
Coherence of the speed cache. The abstract machine remembers the frame of the
local coordinates and the velocity set last; the cache refines it as long as
every getter finds a conversion that keeps frame and unit, and a new tangent
plane finds no norm or direction of the old one.
-/

namespace Paparazzi.State.SpeedCoherence

open Paparazzi.Library.Machine
open Paparazzi.Math.Geodesy
open Paparazzi.Math.Velocity
open Paparazzi.State.Interface
open Paparazzi.State.PositionCoherence (Frame frameOf)
open Paparazzi.State.Speed

attribute [local instance] Library.Numerals.neZero_three

/-! ### What the component is for -/

/-- A velocity: a vector of the earth frame, or a vector in local coordinates
while there is no tangent plane. -/
inductive Velocity where
  | world (ecef : Vect3)
  | floating (ned : Vect3)

/-- The velocity with given local components in metres per second. -/
def nedVelocity : Frame → Vect3 → Velocity
  | .ltp d, n => .world (ecefOfNedVectF d n)
  | _, n => .floating n

/-- The local components of a velocity, where the frame defines them. -/
def nedOf : Frame → Velocity → Option Vect3
  | .ltp d, .world e => some (nedOfEcefVectF d e)
  | .ltp _, .floating _ => none
  | _, .world _ => none
  | _, .floating n => some n

def ecefOf : Velocity → Option Vect3
  | .world e => some e
  | .floating _ => none

section Meaning

variable (trig : Trig) (frame : Frame)

/-- The value denotes the velocity, in the unit of its own representation. -/
def Holds (v : Velocity) : SpeedCoord → Prop
  | .ecefI x => ecefOf v = some (speedsFloatOfBfp x)
  | .nedI x => nedOf frame v = some (speedsFloatOfBfp x)
  | .enuI x => nedOf frame v = some (vect3NedOfEnu (speedsFloatOfBfp x))
  | .hnormI n =>
      ∃ w, nedOf frame v = some w ∧ n.speedFloatOfBfp = Norm.floatVect2 (w 0) (w 1)
  | .hdirI a =>
      ∃ w, nedOf frame v = some w ∧ a = int32CourseNormalize (int32Atan2 trig (w 1) (w 0))
  | .ecefF x => ecefOf v = some x
  | .nedF x => nedOf frame v = some x
  | .enuF x => nedOf frame v = some (vect3NedOfEnu x)
  | .hnormF n => ∃ w, nedOf frame v = some w ∧ n = Norm.floatVect2 (w 0) (w 1)
  | .hdirF a => ∃ w, nedOf frame v = some w ∧ a = trig.atan2 (w 1) (w 0)

/-- The velocity that a coordinate given to a setter denotes; a norm or a
direction alone denotes none. -/
def velocityOf : SpeedCoord → Option Velocity
  | .ecefI x => some (.world (speedsFloatOfBfp x))
  | .nedI x => some (nedVelocity frame (speedsFloatOfBfp x))
  | .enuI x => some (nedVelocity frame (vect3NedOfEnu (speedsFloatOfBfp x)))
  | .ecefF x => some (.world x)
  | .nedF x => some (nedVelocity frame x)
  | .enuF x => some (nedVelocity frame (vect3NedOfEnu x))
  | _ => none

end Meaning

/-- The calls of the interface. -/
inductive SpeedOp where
  | setLocalOriginI (ltpDef : LtpDef)
  | setLocalUtmOriginF (utmDef : UtmCoor)
  | setNedI (v : Vect3)
  | setEnuI (v : Vect3)
  | setEcefI (v : Vect3)
  | setI (ecef ned enu : Option Vect3)
  | setNedF (v : Vect3)
  | setEnuF (v : Vect3)
  | setEcefF (v : Vect3)
  | setF (ecef ned enu : Option Vect3)
  | get (r : SpeedRep)

def SpeedOp.isGet : SpeedOp → Bool
  | .get _ => true
  | _ => false

def step (trig : Trig) (s : VehicleState) : SpeedOp → VehicleState
  | .setLocalOriginI d => stateSetLocalOriginI d s
  | .setLocalUtmOriginF u => stateSetLocalUtmOriginF u s
  | .setNedI v => stateSetSpeedNedI v s
  | .setEnuI v => stateSetSpeedEnuI v s
  | .setEcefI v => stateSetSpeedEcefI v s
  | .setI ecef ned enu => stateSetSpeedI ecef ned enu s
  | .setNedF v => stateSetSpeedNedF v s
  | .setEnuF v => stateSetSpeedEnuF v s
  | .setEcefF v => stateSetSpeedEcefF v s
  | .setF ecef ned enu => stateSetSpeedF ecef ned enu s
  | .get r => (stateGetSpeed trig r s).1

/-- The abstract machine: the current frame and the velocity set last. -/
structure Spec where
  frame : Frame
  last : Option Velocity

/-- A velocity in local coordinates belongs to the first tangent plane that is
set after it. -/
def anchor (d : LtpDef) : Velocity → Velocity
  | .world e => .world e
  | .floating n => .world (ecefOfNedVectF d n)

/-- A UTM origin is used as long as there is no tangent plane. -/
def setUtmFrame (u : UtmCoor) : Frame → Frame
  | .ltp d => .ltp d
  | _ => .utm u

def specStep (a : Spec) : SpeedOp → Spec
  | .setLocalOriginI d =>
      { frame := .ltp (ltpFloatOfBfp d), last := a.last.map (anchor (ltpFloatOfBfp d)) }
  | .setLocalUtmOriginF u => { a with frame := setUtmFrame u a.frame }
  | .setNedI v => { a with last := velocityOf a.frame (.nedI v) }
  | .setEnuI v => { a with last := velocityOf a.frame (.enuI v) }
  | .setEcefI v => { a with last := velocityOf a.frame (.ecefI v) }
  | .setI ecef ned enu => { a with last := (givenI ecef ned enu).head?.bind (velocityOf a.frame) }
  | .setNedF v => { a with last := velocityOf a.frame (.nedF v) }
  | .setEnuF v => { a with last := velocityOf a.frame (.enuF v) }
  | .setEcefF v => { a with last := velocityOf a.frame (.ecefF v) }
  | .setF ecef ned enu => { a with last := (givenF ecef ned enu).head?.bind (velocityOf a.frame) }
  | .get _ => a

def specInit : Spec := { frame := .unknown, last := none }

/-! ### Which calls keep frame and unit -/

/-- The branch that the transformation function of `r` takes exists and keeps
frame and unit: it converts a valid representation from the field of that
representation, with the fixed-point format of speeds, and through a tangent
plane only if there is one. -/
def convertible (s : VehicleState) : SpeedRep → Bool
  | .ecefI =>
      s.speedBitIsSet .ecefF ||
        ((s.speedBitIsSet .nedI || s.speedBitIsSet .nedF) && s.pos.nedInitializedI)
  | .nedI =>
      if s.pos.nedInitializedI then
        s.speedBitIsSet .nedF || s.speedBitIsSet .enuI || s.speedBitIsSet .enuF ||
          s.speedBitIsSet .ecefI || s.speedBitIsSet .ecefF
      else s.pos.utmInitializedF &&
        (s.speedBitIsSet .nedF || s.speedBitIsSet .enuI || s.speedBitIsSet .enuF)
  | .enuI =>
      !s.speedBitIsSet .enuF &&
        (if s.pos.nedInitializedI then
          s.speedBitIsSet .nedI || s.speedBitIsSet .nedF || s.speedBitIsSet .ecefI ||
            s.speedBitIsSet .ecefF
        else s.pos.utmInitializedF && (s.speedBitIsSet .nedI || s.speedBitIsSet .nedF))
  | .hnormI =>
      s.speedBitIsSet .hnormF ||
        (!s.speedBitIsSet .nedI &&
          (s.speedBitIsSet .nedF ||
            (!s.speedBitIsSet .enuI &&
              (s.speedBitIsSet .enuF ||
                (!s.speedBitIsSet .ecefI && s.speedBitIsSet .ecefF && s.pos.nedInitializedI)))))
  | .hdirI =>
      !s.speedBitIsSet .hdirF &&
        (s.speedBitIsSet .nedI || s.speedBitIsSet .enuI || s.speedBitIsSet .nedF ||
          s.speedBitIsSet .enuF)
  | .ecefF =>
      !s.speedBitIsSet .ecefI &&
        ((s.speedBitIsSet .nedF || s.speedBitIsSet .nedI) && s.pos.nedInitializedI)
  | .nedF =>
      if s.pos.nedInitializedF then
        s.speedBitIsSet .nedI || s.speedBitIsSet .enuF || s.speedBitIsSet .enuI ||
          s.speedBitIsSet .ecefF || s.speedBitIsSet .ecefI
      else s.pos.utmInitializedF &&
        (s.speedBitIsSet .nedI || s.speedBitIsSet .enuF || s.speedBitIsSet .enuI)
  | .enuF =>
      if s.pos.nedInitializedF then
        s.speedBitIsSet .nedF ||
          (!s.speedBitIsSet .enuI &&
            (s.speedBitIsSet .nedI || s.speedBitIsSet .ecefF || s.speedBitIsSet .ecefI))
      else s.pos.utmInitializedF &&
        (s.speedBitIsSet .nedF || (!s.speedBitIsSet .enuI && s.speedBitIsSet .nedI))
  | .hnormF =>
      s.speedBitIsSet .hnormI || s.speedBitIsSet .nedF || s.speedBitIsSet .enuF ||
        s.speedBitIsSet .nedI || s.speedBitIsSet .enuI
  | .hdirF =>
      !s.speedBitIsSet .hdirI &&
        (s.speedBitIsSet .nedF || s.speedBitIsSet .enuF || s.speedBitIsSet .nedI ||
          s.speedBitIsSet .enuI)

/-- The representations that depend on the frame but stay valid when it changes. -/
def SpeedRep.isHorizontal : SpeedRep → Bool
  | .hnormI | .hdirI | .hnormF | .hdirF => true
  | _ => false

/-- The new origin finds no norm or direction of another tangent plane. -/
def originOk (s : VehicleState) (d : LtpDef) : Prop :=
  s.pos.nedInitializedI = false ∨ s.pos.nedOriginI.ltpOfEcef = d.ltpOfEcef ∨
    ∀ r, SpeedRep.isHorizontal r = true → s.speedBitIsSet r = false

/-- The coordinates given to one setter denote one velocity. -/
def Agree (frame : Frame) (given : List SpeedCoord) : Prop :=
  ∀ c ∈ given, ∀ c' ∈ given, velocityOf frame c = velocityOf frame c'

/-- The condition on a call. -/
def CallOk (s : VehicleState) : SpeedOp → Prop
  | .setLocalOriginI d => originOk s d
  | .setI ecef ned enu => Agree (frameOf s.pos) (givenI ecef ned enu)
  | .setF ecef ned enu => Agree (frameOf s.pos) (givenF ecef ned enu)
  | .get r => s.speedBitIsSet r = true ∨ convertible s r = true
  | _ => True

/-! ### Conversions keep the velocity -/

section Conversions

variable {trig : Trig} {frame : Frame} {v : Velocity}

theorem ecefI_of_ecefF {x : Vect3} (h : Holds trig frame v (.ecefF x)) :
    Holds trig frame v (.ecefI (speedsBfpOfReal x)) := by
  simpa [Holds] using h

theorem ecefF_of_ecefI {x : Vect3} (h : Holds trig frame v (.ecefI x)) :
    Holds trig frame v (.ecefF (speedsFloatOfBfp x)) := h

theorem nedI_of_nedF {x : Vect3} (h : Holds trig frame v (.nedF x)) :
    Holds trig frame v (.nedI (speedsBfpOfReal x)) := by
  simpa [Holds] using h

theorem nedF_of_nedI {x : Vect3} (h : Holds trig frame v (.nedI x)) :
    Holds trig frame v (.nedF (speedsFloatOfBfp x)) := h

theorem enuI_of_enuF {x : Vect3} (h : Holds trig frame v (.enuF x)) :
    Holds trig frame v (.enuI (speedsBfpOfReal x)) := by
  simpa [Holds] using h

theorem enuF_of_enuI {x : Vect3} (h : Holds trig frame v (.enuI x)) :
    Holds trig frame v (.enuF (speedsFloatOfBfp x)) := h

theorem nedF_of_enuF {x : Vect3} (h : Holds trig frame v (.enuF x)) :
    Holds trig frame v (.nedF (vect3NedOfEnu x)) := h

theorem enuF_of_nedF {x : Vect3} (h : Holds trig frame v (.nedF x)) :
    Holds trig frame v (.enuF (vect3EnuOfNed x)) := by
  simpa [Holds] using h

theorem nedI_of_enuI {x : Vect3} (h : Holds trig frame v (.enuI x)) :
    Holds trig frame v (.nedI (vect3NedOfEnu x)) :=
  h.trans (congrArg some (vect3NedOfEnu_smul _ x))

theorem enuI_of_nedI {x : Vect3} (h : Holds trig frame v (.nedI x)) :
    Holds trig frame v (.enuI (vect3EnuOfNed x)) := by
  refine Eq.trans h (congrArg some ?_)
  rw [speedsFloatOfBfp, speedsFloatOfBfp, vect3NedOfEnu_smul, vect3NedOfEnu_vect3EnuOfNed]

section Ltp

variable {d : LtpDef} (hframe : frame = .ltp d)

include hframe

theorem nedF_of_ecefF {x : Vect3} (h : Holds trig frame v (.ecefF x)) :
    Holds trig frame v (.nedF (nedOfEcefVectF d x)) := by
  subst hframe
  cases v with
  | world e =>
      simp only [Holds, ecefOf, Option.some.injEq] at h
      simp [Holds, nedOf, h]
  | floating n => simp [Holds, ecefOf] at h

theorem enuF_of_ecefF {x : Vect3} (h : Holds trig frame v (.ecefF x)) :
    Holds trig frame v (.enuF (enuOfEcefVectF d x)) :=
  nedF_of_ecefF hframe h

theorem ecefF_of_nedF {x : Vect3} (h : Holds trig frame v (.nedF x)) :
    Holds trig frame v (.ecefF (ecefOfNedVectF d x)) := by
  subst hframe
  cases v with
  | world e =>
      simp only [Holds, nedOf, Option.some.injEq] at h
      simp [Holds, ecefOf, ← h]
  | floating n => simp [Holds, nedOf] at h

variable {dI : LtpDef} (horigin : d = ltpFloatOfBfp dI)

include horigin

theorem nedI_of_ecefI {x : Vect3} (h : Holds trig frame v (.ecefI x)) :
    Holds trig frame v (.nedI (nedOfEcefVectI dI x)) := by
  have hned := nedF_of_ecefF hframe (ecefF_of_ecefI h)
  rw [horigin, ← speedsFloatOfBfp_nedOfEcefVectI] at hned
  exact hned

theorem enuI_of_ecefI {x : Vect3} (h : Holds trig frame v (.ecefI x)) :
    Holds trig frame v (.enuI (enuOfEcefVectI dI x)) :=
  (nedI_of_ecefI hframe horigin h).trans
    (congrArg some (vect3NedOfEnu_smul _ (enuOfEcefVectI dI x)).symm)

theorem ecefI_of_nedI {x : Vect3} (h : Holds trig frame v (.nedI x)) :
    Holds trig frame v (.ecefI (ecefOfNedVectI dI x)) := by
  have hecef := ecefF_of_nedF hframe (nedF_of_nedI h)
  rw [horigin, ← speedsFloatOfBfp_ecefOfNedVectI] at hecef
  exact hecef

end Ltp

/-! #### Norm and direction -/

theorem hnormF_of_nedF {x : Vect3} (h : Holds trig frame v (.nedF x)) :
    Holds trig frame v (.hnormF (Norm.floatVect2 (x 0) (x 1))) :=
  ⟨x, h, rfl⟩

theorem hnormF_of_enuF {x : Vect3} (h : Holds trig frame v (.enuF x)) :
    Holds trig frame v (.hnormF (Norm.floatVect2 (x 0) (x 1))) := by
  refine ⟨vect3NedOfEnu x, h, ?_⟩
  simp [Norm.floatVect2, vect3NedOfEnu, vect3EnuOfNed, add_comm]

theorem hnormI_of_hnormF {n : Norm} (h : Holds trig frame v (.hnormF n)) :
    Holds trig frame v (.hnormI n.speedBfpOfReal) := by
  obtain ⟨w, hw, hn⟩ := h
  exact ⟨w, hw, by rw [Norm.speedFloatOfBfp_speedBfpOfReal, hn]⟩

theorem hnormF_of_hnormI {n : Norm} (h : Holds trig frame v (.hnormI n)) :
    Holds trig frame v (.hnormF n.speedFloatOfBfp) := h

theorem hdirF_of_nedF {x : Vect3} (h : Holds trig frame v (.nedF x)) :
    Holds trig frame v (.hdirF (trig.atan2 (x 1) (x 0))) :=
  ⟨x, h, rfl⟩

theorem hdirF_of_enuF {x : Vect3} (h : Holds trig frame v (.enuF x)) :
    Holds trig frame v (.hdirF (trig.atan2 (x 0) (x 1))) :=
  ⟨vect3NedOfEnu x, h, rfl⟩

/-- The direction does not depend on the fixed-point format. -/
theorem atan2_speedsFloatOfBfp (x : Vect3) (i j : Fin 3) :
    trig.atan2 (speedsFloatOfBfp x i) (speedsFloatOfBfp x j) = trig.atan2 (x i) (x j) :=
  trig.atan2_mul (by norm_num) (x i) (x j)

theorem hdirI_of_nedI {x : Vect3} (h : Holds trig frame v (.nedI x)) :
    Holds trig frame v (.hdirI (int32CourseNormalize (int32Atan2 trig (x 1) (x 0)))) := by
  refine ⟨speedsFloatOfBfp x, h, ?_⟩
  rw [int32Atan2, int32Atan2, atan2_speedsFloatOfBfp]

theorem hdirI_of_enuI {x : Vect3} (h : Holds trig frame v (.enuI x)) :
    Holds trig frame v (.hdirI (int32CourseNormalize (int32Atan2 trig (x 0) (x 1)))) := by
  refine ⟨vect3NedOfEnu (speedsFloatOfBfp x), h, ?_⟩
  have hswap : int32Atan2 trig (speedsFloatOfBfp x 0) (speedsFloatOfBfp x 1) =
      int32Atan2 trig (x 0) (x 1) := by
    rw [int32Atan2, int32Atan2, atan2_speedsFloatOfBfp]
  rw [← hswap]
  rfl

end Conversions

/-- A value of a representation is determined by the velocity. -/
theorem holds_unique {trig : Trig} {frame : Frame} {v : Velocity} {c c' : SpeedCoord}
    (hrep : c.rep = c'.rep) (h : Holds trig frame v c) (h' : Holds trig frame v c') : c = c' := by
  have hbfp : ∀ x y : Vect3, speedsFloatOfBfp x = speedsFloatOfBfp y → x = y := by
    intro x y hxy
    have hmul := congrArg speedsBfpOfReal hxy
    simpa [speedsFloatOfBfp, speedsBfpOfReal, smul_smul] using hmul
  have henu : ∀ x y : Vect3, vect3NedOfEnu x = vect3NedOfEnu y → x = y := by
    intro x y hxy
    simpa using congrArg vect3EnuOfNed hxy
  have hnorm : ∀ n n' : Norm, n.speedFloatOfBfp = n'.speedFloatOfBfp → n = n' := by
    intro n n' hn
    have hsq := congrArg (fun m => m.speedBfpOfReal.sq) hn
    simp only [Norm.speedFloatOfBfp, Norm.speedBfpOfReal] at hsq
    rw [mul_div_cancel₀ _ (by norm_num), mul_div_cancel₀ _ (by norm_num)] at hsq
    cases n
    cases n'
    congr
  cases c <;> cases c' <;> simp only [SpeedCoord.rep, reduceCtorEq] at hrep
  case ecefI.ecefI x y => exact congrArg _ (hbfp x y (Option.some.inj (h.symm.trans h')))
  case nedI.nedI x y => exact congrArg _ (hbfp x y (Option.some.inj (h.symm.trans h')))
  case enuI.enuI x y =>
      exact congrArg _ (hbfp x y (henu _ _ (Option.some.inj (h.symm.trans h'))))
  case ecefF.ecefF x y => exact congrArg _ (Option.some.inj (h.symm.trans h'))
  case nedF.nedF x y => exact congrArg _ (Option.some.inj (h.symm.trans h'))
  case enuF.enuF x y => exact congrArg _ (henu x y (Option.some.inj (h.symm.trans h')))
  all_goals
    obtain ⟨w, hw, hc⟩ := h
    obtain ⟨w', hw', hc'⟩ := h'
    obtain rfl : w = w' := Option.some.inj (hw.symm.trans hw')
  case hnormI.hnormI n n' => exact congrArg _ (hnorm n n' (hc.trans hc'.symm))
  all_goals exact congrArg _ (hc.trans hc'.symm)

/-- A coordinate given to a setter denotes its own velocity. -/
theorem holds_of_velocityOf {trig : Trig} {frame : Frame} {v : Velocity} {c : SpeedCoord}
    (hc : velocityOf frame c = some v) : Holds trig frame v c := by
  have hned : ∀ n, nedOf frame (nedVelocity frame n) = some n := by
    intro n
    cases frame <;> simp [nedOf, nedVelocity]
  cases c <;> simp only [velocityOf, reduceCtorEq, Option.some.injEq] at hc <;> subst hc
  case ecefI | ecefF => rfl
  all_goals exact hned _

/-! ### The cache refines the abstract machine -/

/-- The cache is coherent with an abstract state: the frames are the same, the
float copy of the origin is a copy, and every valid representation holds the
velocity set last. -/
structure Refines (trig : Trig) (a : Spec) (s : VehicleState) : Prop where
  frame_eq : frameOf s.pos = a.frame
  float_initialized : s.pos.nedInitializedF = s.pos.nedInitializedI
  float_origin : s.pos.nedInitializedI = true → s.pos.nedOriginF = ltpFloatOfBfp s.pos.nedOriginI
  coherent : ∀ r, s.speedBitIsSet r = true →
    ∃ v, a.last = some v ∧ Holds trig a.frame v (s.speedCoord r)

namespace Refines

variable {trig : Trig} {a : Spec} {s : VehicleState}

theorem frame_ltp (h : Refines trig a s) (hinit : s.pos.nedInitializedI = true) :
    a.frame = .ltp s.pos.nedOriginF := by
  rw [← h.frame_eq, frameOf, if_pos hinit]

theorem setSpeedBit (h : Refines trig a s) {r : SpeedRep}
    (hr : ∃ v, a.last = some v ∧ Holds trig a.frame v (s.speedCoord r)) :
    Refines trig a (s.setSpeedBit r) :=
  { h with
    coherent := by
      intro r' hr'
      rw [VehicleState.speedCoord_setSpeedBit]
      by_cases heq : r' = r
      · rw [heq]
        exact hr
      · simp only [VehicleState.speedBitIsSet_setSpeedBit, if_neg heq] at hr'
        exact h.coherent r' hr' }

theorem putSpeed (h : Refines trig a s) {c : SpeedCoord}
    (hc : ∃ v, a.last = some v ∧ Holds trig a.frame v c) : Refines trig a (s.putSpeed c) :=
  { h with
    coherent := by
      intro r hr
      by_cases heq : r = c.rep
      · rw [heq, VehicleState.speedCoord_putSpeed_self]
        exact hc
      · rw [VehicleState.speedCoord_putSpeed_of_ne s c heq]
        rw [VehicleState.speedBitIsSet_putSpeed] at hr
        exact h.coherent r hr }

/-- The bits of the position part play no role for the speed. -/
theorem setPosBit (h : Refines trig a s) (n : ℕ) : Refines trig a (s.setPosBit n) :=
  { h with }

theorem store (h : Refines trig a s) {c : SpeedCoord}
    (hc : ∃ v, a.last = some v ∧ Holds trig a.frame v c) :
    Refines trig a ((s.putSpeed c).setSpeedBit c.rep) := by
  apply (h.putSpeed hc).setSpeedBit
  rw [VehicleState.speedCoord_putSpeed_self]
  exact hc

/-- The value obtained from a valid representation by a conversion that keeps the
velocity. -/
theorem converted (h : Refines trig a s) {r : SpeedRep} (hr : s.speedBitIsSet r = true)
    {c : SpeedCoord}
    (hc : ∀ v, Holds trig a.frame v (s.speedCoord r) → Holds trig a.frame v c) :
    ∃ v, a.last = some v ∧ Holds trig a.frame v c := by
  obtain ⟨v, hlast, hv⟩ := h.coherent r hr
  exact ⟨v, hlast, hc v hv⟩

/-- Fill in a representation from a valid one. -/
theorem derive (h : Refines trig a s) {r : SpeedRep} (hr : s.speedBitIsSet r = true)
    {c : SpeedCoord}
    (hc : ∀ v, Holds trig a.frame v (s.speedCoord r) → Holds trig a.frame v c) :
    Refines trig a ((s.putSpeed c).setSpeedBit c.rep) :=
  h.store (h.converted hr hc)

/-- Convert once more the value that was filled in last. -/
theorem andThen {c c' : SpeedCoord} (h : Refines trig a ((s.putSpeed c).setSpeedBit c.rep))
    (hc : ∀ v, Holds trig a.frame v c → Holds trig a.frame v c') :
    Refines trig a ((((s.putSpeed c).setSpeedBit c.rep).putSpeed c').setSpeedBit c'.rep) := by
  apply h.derive (r := c.rep)
  · simp
  · rw [VehicleState.speedCoord_setSpeedBit, VehicleState.speedCoord_putSpeed_self]
    exact hc

/-- Fill in a representation through another one whose bit is not set. -/
theorem deriveThrough (h : Refines trig a s) {r : SpeedRep} (hr : s.speedBitIsSet r = true)
    {c c' : SpeedCoord} (n : ℕ)
    (hc : ∀ v, Holds trig a.frame v (s.speedCoord r) → Holds trig a.frame v c)
    (hc' : ∀ v, Holds trig a.frame v c → Holds trig a.frame v c') :
    Refines trig a ((((s.putSpeed c).setPosBit n).putSpeed c').setSpeedBit c'.rep) := by
  have hvia := h.converted hr hc
  refine ((h.putSpeed hvia).setPosBit n).store ?_
  obtain ⟨v, hlast, hv⟩ := hvia
  exact ⟨v, hlast, hc' v hv⟩

/-! #### One lemma for each transformation function -/

/-- A choice between two ways to fill in a representation. -/
theorem setSpeedBit_ite {c : Prop} [Decidable c] {t e : VehicleState} {r : SpeedRep}
    (ht : c → Refines trig a (t.setSpeedBit r)) (he : ¬c → Refines trig a (e.setSpeedBit r)) :
    Refines trig a ((if c then t else e).setSpeedBit r) :=
  iteInduction (motive := fun s : VehicleState => Refines trig a (s.setSpeedBit r)) ht he

theorem unless_set (h : Refines trig a s) {r : SpeedRep} {t : VehicleState}
    (ht : ¬s.speedBitIsSet r = true → Refines trig a t) :
    Refines trig a (if s.speedBitIsSet r = true then s else t) :=
  iteInduction (motive := Refines trig a) (fun _ => h) ht

theorem calcEcefI (h : Refines trig a s)
    (hok : s.speedBitIsSet .ecefI = true ∨ convertible s .ecefI = true) :
    Refines trig a (stateCalcSpeedEcefI s) := by
  apply h.unless_set
  intro hset
  refine setSpeedBit_ite (fun hEcefF => ?_) fun hEcefF => ?_
  · exact h.derive hEcefF (fun _ => ecefI_of_ecefF)
  refine setSpeedBit_ite (fun hNedI => ?_) fun hNedI => ?_
  · have hinit : s.pos.nedInitializedI = true := by
      simpa [convertible, hset, hEcefF, hNedI] using hok
    exact h.derive hNedI (fun _ => ecefI_of_nedI (h.frame_ltp hinit) (h.float_origin hinit))
  refine setSpeedBit_ite (fun hNedF => ?_) fun hNedF => ?_
  · have hinit : s.pos.nedInitializedI = true := by
      simpa [convertible, hset, hEcefF, hNedI, hNedF] using hok
    exact (h.derive hNedF (fun _ => nedI_of_nedF)).andThen
      (fun _ => ecefI_of_nedI (h.frame_ltp hinit) (h.float_origin hinit))
  simp [convertible, hset, hEcefF, hNedI, hNedF] at hok

theorem calcNedI (h : Refines trig a s)
    (hok : s.speedBitIsSet .nedI = true ∨ convertible s .nedI = true) :
    Refines trig a (stateCalcSpeedNedI s) := by
  apply h.unless_set
  intro hset
  refine setSpeedBit_ite (fun hinit => ?_) fun hinit =>
    setSpeedBit_ite (fun hutm => ?_) fun hutm => ?_
  · refine setSpeedBit_ite (fun hNedF => ?_) fun hNedF => ?_
    · exact h.derive hNedF (fun _ => nedI_of_nedF)
    refine setSpeedBit_ite (fun hEnuI => ?_) fun hEnuI => ?_
    · exact h.derive hEnuI (fun _ => nedI_of_enuI)
    refine setSpeedBit_ite (fun hEnuF => ?_) fun hEnuF => ?_
    · exact (h.derive hEnuF (fun _ => enuI_of_enuF)).andThen (fun _ => nedI_of_enuI)
    refine setSpeedBit_ite (fun hEcefI => ?_) fun hEcefI => ?_
    · exact h.derive hEcefI (fun _ => nedI_of_ecefI (h.frame_ltp hinit) (h.float_origin hinit))
    refine setSpeedBit_ite (fun hEcefF => ?_) fun hEcefF => ?_
    · exact (h.derive hEcefF (fun _ => ecefI_of_ecefF)).andThen
        (fun _ => nedI_of_ecefI (h.frame_ltp hinit) (h.float_origin hinit))
    simp [convertible, hset, hinit, hNedF, hEnuI, hEnuF, hEcefI, hEcefF] at hok
  · refine setSpeedBit_ite (fun hNedF => ?_) fun hNedF => ?_
    · exact h.derive hNedF (fun _ => nedI_of_nedF)
    refine setSpeedBit_ite (fun hEnuI => ?_) fun hEnuI => ?_
    · exact h.derive hEnuI (fun _ => nedI_of_enuI)
    refine setSpeedBit_ite (fun hEnuF => ?_) fun hEnuF => ?_
    · exact (h.derive hEnuF (fun _ => enuI_of_enuF)).andThen (fun _ => nedI_of_enuI)
    simp [convertible, hset, hinit, hutm, hNedF, hEnuI, hEnuF] at hok
  · simp [convertible, hset, hinit, hutm] at hok

theorem calcHnormI (h : Refines trig a s)
    (hok : s.speedBitIsSet .hnormI = true ∨ convertible s .hnormI = true) :
    Refines trig a (stateCalcHorizontalSpeedNormI s) := by
  apply h.unless_set
  intro hset
  refine setSpeedBit_ite (fun hHnormF => ?_) fun hHnormF => ?_
  · exact h.derive hHnormF (fun _ => hnormI_of_hnormF)
  refine setSpeedBit_ite (fun hNedI => ?_) fun hNedI => ?_
  · simp [convertible, hset, hHnormF, hNedI] at hok
  refine setSpeedBit_ite (fun hNedF => ?_) fun hNedF => ?_
  · exact (h.derive hNedF (fun _ => hnormF_of_nedF)).andThen (fun _ => hnormI_of_hnormF)
  refine setSpeedBit_ite (fun hEnuI => ?_) fun hEnuI => ?_
  · simp [convertible, hset, hHnormF, hNedI, hNedF, hEnuI] at hok
  refine setSpeedBit_ite (fun hEnuF => ?_) fun hEnuF => ?_
  · exact (h.derive hEnuF (fun _ => hnormF_of_enuF)).andThen (fun _ => hnormI_of_hnormF)
  refine setSpeedBit_ite (fun hEcefI => ?_) fun hEcefI => ?_
  · simp [convertible, hset, hHnormF, hNedI, hNedF, hEnuI, hEnuF, hEcefI] at hok
  refine setSpeedBit_ite (fun hEcefF => ?_) fun hEcefF => ?_
  · have hinit : s.pos.nedInitializedI = true := by
      simpa [convertible, hset, hHnormF, hNedI, hNedF, hEnuI, hEnuF, hEcefI, hEcefF] using hok
    exact ((h.derive hEcefF (fun _ => nedF_of_ecefF (h.frame_ltp hinit))).andThen
      (fun _ => hnormF_of_nedF)).andThen (fun _ => hnormI_of_hnormF)
  simp [convertible, hset, hHnormF, hNedI, hNedF, hEnuI, hEnuF, hEcefI, hEcefF] at hok

theorem calcHdirI (h : Refines trig a s)
    (hok : s.speedBitIsSet .hdirI = true ∨ convertible s .hdirI = true) :
    Refines trig a (stateCalcHorizontalSpeedDirI trig s) := by
  apply h.unless_set
  intro hset
  refine setSpeedBit_ite (fun hHdirF => ?_) fun hHdirF => ?_
  · simp [convertible, hset, hHdirF] at hok
  refine setSpeedBit_ite (fun hNedI => ?_) fun hNedI => ?_
  · exact h.derive hNedI (fun _ => hdirI_of_nedI)
  refine setSpeedBit_ite (fun hEnuI => ?_) fun hEnuI => ?_
  · exact h.derive hEnuI (fun _ => hdirI_of_enuI)
  refine setSpeedBit_ite (fun hNedF => ?_) fun hNedF => ?_
  · exact (h.derive hNedF (fun _ => nedI_of_nedF)).andThen (fun _ => hdirI_of_nedI)
  refine setSpeedBit_ite (fun hEnuF => ?_) fun hEnuF => ?_
  · exact (h.derive hEnuF (fun _ => enuI_of_enuF)).andThen (fun _ => hdirI_of_enuI)
  simp [convertible, hset, hHdirF, hNedI, hEnuI, hNedF, hEnuF] at hok

theorem calcEcefF (h : Refines trig a s)
    (hok : s.speedBitIsSet .ecefF = true ∨ convertible s .ecefF = true) :
    Refines trig a (stateCalcSpeedEcefF s) := by
  apply h.unless_set
  intro hset
  refine setSpeedBit_ite (fun hEcefI => ?_) fun hEcefI => ?_
  · simp [convertible, hset, hEcefI] at hok
  refine setSpeedBit_ite (fun hNedF => ?_) fun hNedF => ?_
  · have hinit : s.pos.nedInitializedI = true := by
      simpa [convertible, hset, hEcefI, hNedF] using hok
    exact h.derive hNedF (fun _ => ecefF_of_nedF (h.frame_ltp hinit))
  refine setSpeedBit_ite (fun hNedI => ?_) fun hNedI => ?_
  · have hinit : s.pos.nedInitializedI = true := by
      simpa [convertible, hset, hEcefI, hNedF, hNedI] using hok
    exact (h.derive hNedI (fun _ => nedF_of_nedI)).andThen
      (fun _ => ecefF_of_nedF (h.frame_ltp hinit))
  simp [convertible, hset, hEcefI, hNedF, hNedI] at hok

theorem calcNedF (h : Refines trig a s)
    (hok : s.speedBitIsSet .nedF = true ∨ convertible s .nedF = true) :
    Refines trig a (stateCalcSpeedNedF s) := by
  apply h.unless_set
  intro hset
  rw [h.float_initialized]
  refine setSpeedBit_ite (fun hinit => ?_) fun hinit =>
    setSpeedBit_ite (fun hutm => ?_) fun hutm => ?_
  · refine setSpeedBit_ite (fun hNedI => ?_) fun hNedI => ?_
    · exact h.derive hNedI (fun _ => nedF_of_nedI)
    refine setSpeedBit_ite (fun hEnuF => ?_) fun hEnuF => ?_
    · exact h.derive hEnuF (fun _ => nedF_of_enuF)
    refine setSpeedBit_ite (fun hEnuI => ?_) fun hEnuI => ?_
    · exact (h.derive hEnuI (fun _ => enuF_of_enuI)).andThen (fun _ => nedF_of_enuF)
    refine setSpeedBit_ite (fun hEcefF => ?_) fun hEcefF => ?_
    · exact h.derive hEcefF (fun _ => nedF_of_ecefF (h.frame_ltp hinit))
    refine setSpeedBit_ite (fun hEcefI => ?_) fun hEcefI => ?_
    · exact (h.derive hEcefI (fun _ => ecefF_of_ecefI)).andThen
        (fun _ => nedF_of_ecefF (h.frame_ltp hinit))
    simp [convertible, h.float_initialized, hset, hinit, hNedI, hEnuF, hEnuI, hEcefF,
      hEcefI] at hok
  · refine setSpeedBit_ite (fun hNedI => ?_) fun hNedI => ?_
    · exact h.derive hNedI (fun _ => nedF_of_nedI)
    refine setSpeedBit_ite (fun hEnuF => ?_) fun hEnuF => ?_
    · exact h.derive hEnuF (fun _ => nedF_of_enuF)
    refine setSpeedBit_ite (fun hEnuI => ?_) fun hEnuI => ?_
    · exact (h.derive hEnuI (fun _ => enuF_of_enuI)).andThen (fun _ => nedF_of_enuF)
    simp [convertible, h.float_initialized, hset, hinit, hutm, hNedI, hEnuF, hEnuI] at hok
  · simp [convertible, h.float_initialized, hset, hinit, hutm] at hok

theorem calcEnuF (h : Refines trig a s)
    (hok : s.speedBitIsSet .enuF = true ∨ convertible s .enuF = true) :
    Refines trig a (stateCalcSpeedEnuF s) := by
  apply h.unless_set
  intro hset
  rw [h.float_initialized]
  refine setSpeedBit_ite (fun hinit => ?_) fun hinit =>
    setSpeedBit_ite (fun hutm => ?_) fun hutm => ?_
  · refine setSpeedBit_ite (fun hNedF => ?_) fun hNedF => ?_
    · exact h.derive hNedF (fun _ => enuF_of_nedF)
    refine setSpeedBit_ite (fun hEnuI => ?_) fun hEnuI => ?_
    · simp [convertible, h.float_initialized, hset, hinit, hNedF, hEnuI] at hok
    refine setSpeedBit_ite (fun hNedI => ?_) fun hNedI => ?_
    · exact h.deriveThrough hNedI _ (fun _ => nedF_of_nedI) (fun _ => enuF_of_nedF)
    refine setSpeedBit_ite (fun hEcefF => ?_) fun hEcefF => ?_
    · exact h.derive hEcefF (fun _ => enuF_of_ecefF (h.frame_ltp hinit))
    refine setSpeedBit_ite (fun hEcefI => ?_) fun hEcefI => ?_
    · exact (h.derive hEcefI (fun _ => ecefF_of_ecefI)).andThen
        (fun _ => enuF_of_ecefF (h.frame_ltp hinit))
    simp [convertible, h.float_initialized, hset, hinit, hNedF, hEnuI, hNedI, hEcefF,
      hEcefI] at hok
  · refine setSpeedBit_ite (fun hNedF => ?_) fun hNedF => ?_
    · exact h.derive hNedF (fun _ => enuF_of_nedF)
    refine setSpeedBit_ite (fun hEnuI => ?_) fun hEnuI => ?_
    · simp [convertible, h.float_initialized, hset, hinit, hutm, hNedF, hEnuI] at hok
    refine setSpeedBit_ite (fun hNedI => ?_) fun hNedI => ?_
    · exact h.deriveThrough hNedI _ (fun _ => nedF_of_nedI) (fun _ => enuF_of_nedF)
    simp [convertible, h.float_initialized, hset, hinit, hutm, hNedF, hEnuI, hNedI] at hok
  · simp [convertible, h.float_initialized, hset, hinit, hutm] at hok

theorem calcHnormF (h : Refines trig a s)
    (hok : s.speedBitIsSet .hnormF = true ∨ convertible s .hnormF = true) :
    Refines trig a (stateCalcHorizontalSpeedNormF s) := by
  apply h.unless_set
  intro hset
  refine setSpeedBit_ite (fun hHnormI => ?_) fun hHnormI => ?_
  · exact h.derive hHnormI (fun _ => hnormF_of_hnormI)
  refine setSpeedBit_ite (fun hNedF => ?_) fun hNedF => ?_
  · exact h.derive hNedF (fun _ => hnormF_of_nedF)
  refine setSpeedBit_ite (fun hEnuF => ?_) fun hEnuF => ?_
  · exact h.derive hEnuF (fun _ => hnormF_of_enuF)
  refine setSpeedBit_ite (fun hNedI => ?_) fun hNedI => ?_
  · exact (h.derive hNedI (fun _ => nedF_of_nedI)).andThen (fun _ => hnormF_of_nedF)
  refine setSpeedBit_ite (fun hEnuI => ?_) fun hEnuI => ?_
  · exact (h.derive hEnuI (fun _ => enuF_of_enuI)).andThen (fun _ => hnormF_of_enuF)
  simp [convertible, hset, hHnormI, hNedF, hEnuF, hNedI, hEnuI] at hok

theorem calcHdirF (h : Refines trig a s)
    (hok : s.speedBitIsSet .hdirF = true ∨ convertible s .hdirF = true) :
    Refines trig a (stateCalcHorizontalSpeedDirF trig s) := by
  apply h.unless_set
  intro hset
  refine setSpeedBit_ite (fun hHdirI => ?_) fun hHdirI => ?_
  · simp [convertible, hset, hHdirI] at hok
  refine setSpeedBit_ite (fun hNedF => ?_) fun hNedF => ?_
  · exact h.derive hNedF (fun _ => hdirF_of_nedF)
  refine setSpeedBit_ite (fun hEnuF => ?_) fun hEnuF => ?_
  · exact h.derive hEnuF (fun _ => hdirF_of_enuF)
  refine setSpeedBit_ite (fun hNedI => ?_) fun hNedI => ?_
  · exact (h.derive hNedI (fun _ => nedF_of_nedI)).andThen (fun _ => hdirF_of_nedF)
  refine setSpeedBit_ite (fun hEnuI => ?_) fun hEnuI => ?_
  · exact (h.derive hEnuI (fun _ => enuF_of_enuI)).andThen (fun _ => hdirF_of_enuF)
  simp [convertible, hset, hHdirI, hNedF, hEnuF, hNedI, hEnuI] at hok

/-- The conversion to `enu_i` writes the field from a valid `ned_i` first and then
goes on through its other branches. -/
theorem calcEnuI (h : Refines trig a s)
    (hok : s.speedBitIsSet .enuI = true ∨ convertible s .enuI = true) :
    Refines trig a (stateCalcSpeedEnuI s) := by
  unfold stateCalcSpeedEnuI
  by_cases hset : s.speedBitIsSet .enuI = true
  · rw [if_pos hset]
    exact h
  rw [if_neg hset]
  have hEnuF : ¬ s.speedBitIsSet .enuF = true := by
    rcases hok with hok | hok
    · exact absurd hok hset
    · simp only [convertible, Bool.and_eq_true, Bool.not_eq_eq_eq_not, Bool.not_true] at hok
      simp [hok.1]
  by_cases hNedI : s.speedBitIsSet .nedI = true
  · have hfirst := h.converted hNedI (c := .enuI (vect3EnuOfNed s.speed.nedSpeedI))
      (fun _ => enuI_of_nedI)
    have hput := h.putSpeed hfirst
    simp only [if_pos hNedI, VehicleState.speedBitIsSet_putSpeed, VehicleState.pos_putSpeed,
      if_neg hEnuF]
    split_ifs with hinit hNedF hEcefI hEcefF hutm hNedF
    · exact hput.deriveThrough (by simpa using hNedF) _ (fun _ => nedI_of_nedF)
        (fun _ => enuI_of_nedI)
    · exact hput.derive (by simpa using hEcefI)
        (fun _ => enuI_of_ecefI (h.frame_ltp hinit) (h.float_origin hinit))
    · exact (hput.derive (by simpa using hEcefF) (fun _ => ecefI_of_ecefF)).andThen
        (fun _ => enuI_of_ecefI (h.frame_ltp hinit) (h.float_origin hinit))
    · exact h.store hfirst
    · exact hput.deriveThrough (by simpa using hNedF) _ (fun _ => nedI_of_nedF)
        (fun _ => enuI_of_nedI)
    · exact h.store hfirst
    · simp [convertible, hset, hinit, hutm] at hok
  · simp only [if_neg hNedI, if_neg hEnuF]
    split_ifs with hinit hNedF hEcefI hEcefF hutm hNedF
    · exact h.deriveThrough hNedF _ (fun _ => nedI_of_nedF) (fun _ => enuI_of_nedI)
    · exact h.derive hEcefI
        (fun _ => enuI_of_ecefI (h.frame_ltp hinit) (h.float_origin hinit))
    · exact (h.derive hEcefF (fun _ => ecefI_of_ecefF)).andThen
        (fun _ => enuI_of_ecefI (h.frame_ltp hinit) (h.float_origin hinit))
    · simp [convertible, hset, hinit, hEnuF, hNedI, hNedF, hEcefI, hEcefF] at hok
    · exact h.deriveThrough hNedF _ (fun _ => nedI_of_nedF) (fun _ => enuI_of_nedI)
    · simp [convertible, hset, hinit, hutm, hEnuF, hNedI, hNedF] at hok
    · simp [convertible, hset, hinit, hutm] at hok

theorem calcSpeed (h : Refines trig a s) {r : SpeedRep}
    (hok : s.speedBitIsSet r = true ∨ convertible s r = true) :
    Refines trig a (stateCalcSpeed trig r s) := by
  cases r with
  | ecefI => exact h.calcEcefI hok
  | nedI => exact h.calcNedI hok
  | enuI => exact h.calcEnuI hok
  | hnormI => exact h.calcHnormI hok
  | hdirI => exact h.calcHdirI hok
  | ecefF => exact h.calcEcefF hok
  | nedF => exact h.calcNedF hok
  | enuF => exact h.calcEnuF hok
  | hnormF => exact h.calcHnormF hok
  | hdirF => exact h.calcHdirF hok

theorem get (h : Refines trig a s) {r : SpeedRep}
    (hok : s.speedBitIsSet r = true ∨ convertible s r = true) :
    Refines trig a (stateGetSpeed trig r s).1 := by
  unfold stateGetSpeed
  dsimp only
  split_ifs
  · exact h
  · exact h.calcSpeed hok

/-! #### Setters and origins -/

/-- Only the frame matters once all status bits are cleared. -/
theorem cleared (h : Refines trig a s) (last : Option Velocity) :
    Refines trig { a with last := last }
      { s with speed := { s.speed with speedStatus := fun _ => false } } :=
  { h with
    coherent := by
      intro r hr
      simp [VehicleState.speedBitIsSet] at hr }

theorem stateSetSpeed_eq (c : SpeedCoord) (s : VehicleState) :
    stateSetSpeed c s = (VehicleState.putSpeed
      { s with speed := { s.speed with speedStatus := fun _ => false } } c).setSpeedBit c.rep := by
  cases c <;>
    simp [stateSetSpeed, VehicleState.putSpeed, VehicleState.setSpeedBit, SpeedState.setBit,
      SpeedState.put]

theorem set (h : Refines trig a s) {c : SpeedCoord} {v : Velocity}
    (hc : velocityOf a.frame c = some v) :
    Refines trig { a with last := velocityOf a.frame c } (stateSetSpeed c s) := by
  rw [stateSetSpeed_eq]
  apply (h.cleared _).store
  exact ⟨v, hc, holds_of_velocityOf hc⟩

/-- Storing further coordinates of the velocity set last. -/
theorem foldl_store (given : List SpeedCoord) (h : Refines trig a s)
    (hgiven : ∀ c ∈ given, ∃ v, a.last = some v ∧ Holds trig a.frame v c) :
    Refines trig a (given.foldl (fun s c => (s.putSpeed c).setSpeedBit c.rep) s) := by
  induction given generalizing s with
  | nil => exact h
  | cons c given ih =>
      apply ih
      · exact h.store (hgiven c List.mem_cons_self)
      · intro c' hc'
        exact hgiven c' (List.mem_cons_of_mem c hc')

theorem setSpeeds (h : Refines trig a s) {given : List SpeedCoord}
    (hagree : Agree (frameOf s.pos) given)
    (hsome : ∀ c ∈ given, ∃ v, velocityOf a.frame c = some v) :
    Refines trig { a with last := given.head?.bind (velocityOf a.frame) }
      (stateSetSpeeds given s) := by
  apply (h.cleared _).foldl_store given
  intro c hc
  rw [h.frame_eq] at hagree
  cases given with
  | nil => simp at hc
  | cons c₀ given =>
      obtain ⟨v, hv⟩ := hsome c hc
      refine ⟨v, ?_, holds_of_velocityOf hv⟩
      simp only [List.head?_cons, Option.bind_some]
      rw [hagree c₀ List.mem_cons_self c hc, hv]

/-- A vector of the earth frame has local components only with a tangent plane. -/
theorem initialized_of_nedOf_world (h : Refines trig a s) {e w : Vect3}
    (hw : nedOf a.frame (.world e) = some w) : s.pos.nedInitializedI = true := by
  by_contra hinit
  rw [← h.frame_eq, frameOf, if_neg hinit] at hw
  split_ifs at hw <;> simp [nedOf] at hw

theorem setLocalOriginI (h : Refines trig a s) {d : LtpDef} (hok : originOk s d) :
    Refines trig (specStep a (.setLocalOriginI d)) (stateSetLocalOriginI d s) where
  frame_eq := rfl
  float_initialized := rfl
  float_origin _ := rfl
  coherent r hr := by
    change (s.speedBitIsSet r && !r.isLocal) = true at hr
    simp only [Bool.and_eq_true, Bool.not_eq_eq_eq_not, Bool.not_true] at hr
    have hcoord : (stateSetLocalOriginI d s).speedCoord r = s.speedCoord r := by cases r <;> rfl
    obtain ⟨v, hlast, hv⟩ := h.coherent r hr.1
    refine ⟨anchor (ltpFloatOfBfp d) v, by simp [specStep, hlast], ?_⟩
    rw [hcoord]
    have hkeep : SpeedRep.isHorizontal r = true → ∀ w, nedOf a.frame v = some w →
        nedOf (.ltp (ltpFloatOfBfp d)) (anchor (ltpFloatOfBfp d) v) = some w := by
      intro hhor w hw
      cases v with
      | floating n =>
          have hn : n = w := by
            cases hframe : a.frame <;> simp_all [nedOf]
          simp [nedOf, anchor, hn]
      | world e =>
          have hinit := h.initialized_of_nedOf_world hw
          rcases hok with hok | hok | hok
          · rw [hinit] at hok
            exact absurd hok (by decide)
          · rw [h.frame_ltp hinit, h.float_origin hinit] at hw
            rw [← hw]
            exact congrArg some (nedOfEcefVectF_congr hok.symm e)
          · rw [hok r hhor] at hr
            exact absurd hr.1 (by decide)
    cases r with
    | ecefI | ecefF =>
        cases v with
        | world e => exact hv
        | floating n => simp [Holds, ecefOf, VehicleState.speedCoord, SpeedState.coord] at hv
    | nedI | enuI | nedF | enuF => simp [SpeedRep.isLocal] at hr
    | hnormI | hdirI | hnormF | hdirF =>
        obtain ⟨w, hw, hvalue⟩ := hv
        exact ⟨w, hkeep rfl w hw, hvalue⟩

theorem frameOf_setLocalUtmOriginF (u : UtmCoor) (s : VehicleState) :
    frameOf (stateSetLocalUtmOriginF u s).pos = setUtmFrame u (frameOf s.pos) := by
  have hinit : (stateSetLocalUtmOriginF u s).pos.nedInitializedI = s.pos.nedInitializedI := rfl
  have hutm : (stateSetLocalUtmOriginF u s).pos.utmInitializedF = true := rfl
  unfold frameOf
  rw [hinit, if_pos hutm]
  split_ifs <;> rfl

theorem setLocalUtmOriginF (h : Refines trig a s) (u : UtmCoor) :
    Refines trig (specStep a (.setLocalUtmOriginF u)) (stateSetLocalUtmOriginF u s) where
  frame_eq := by
    rw [frameOf_setLocalUtmOriginF, h.frame_eq]
    rfl
  float_initialized := h.float_initialized
  float_origin := h.float_origin
  coherent r hr := by
    change (s.speedBitIsSet r && !r.isLocal) = true at hr
    simp only [Bool.and_eq_true, Bool.not_eq_eq_eq_not, Bool.not_true] at hr
    have hcoord : (stateSetLocalUtmOriginF u s).speedCoord r = s.speedCoord r := by
      cases r <;> rfl
    obtain ⟨v, hlast, hv⟩ := h.coherent r hr.1
    refine ⟨v, hlast, ?_⟩
    rw [hcoord]
    have hned : nedOf (setUtmFrame u a.frame) v = nedOf a.frame v := by
      cases a.frame <;> cases v <;> rfl
    cases r with
    | ecefI | ecefF => exact hv
    | nedI | enuI | nedF | enuF => exact hned.trans hv
    | hnormI | hdirI | hnormF | hdirF =>
        obtain ⟨w, hw, hvalue⟩ := hv
        exact ⟨w, hned.trans hw, hvalue⟩

end Refines

theorem velocityOf_givenI {frame : Frame} {ecef ned enu : Option Vect3} :
    ∀ c ∈ givenI ecef ned enu, ∃ v, velocityOf frame c = some v := by
  intro c hc
  simp only [givenI, List.mem_append, Option.mem_toList,
    Option.map_eq_some_iff] at hc
  rcases hc with (⟨x, -, rfl⟩ | ⟨x, -, rfl⟩) | ⟨x, -, rfl⟩ <;> exact ⟨_, rfl⟩

theorem velocityOf_givenF {frame : Frame} {ecef ned enu : Option Vect3} :
    ∀ c ∈ givenF ecef ned enu, ∃ v, velocityOf frame c = some v := by
  intro c hc
  simp only [givenF, List.mem_append, Option.mem_toList,
    Option.map_eq_some_iff] at hc
  rcases hc with (⟨x, -, rfl⟩ | ⟨x, -, rfl⟩) | ⟨x, -, rfl⟩ <;> exact ⟨_, rfl⟩

/-- The step lemma: a permitted call keeps the cache coherent. -/
theorem refines_step {trig : Trig} {a : Spec} {s : VehicleState} {op : SpeedOp}
    (h : Refines trig a s) (hok : CallOk s op) :
    Refines trig (specStep a op) (step trig s op) := by
  cases op with
  | setLocalOriginI d => exact h.setLocalOriginI hok
  | setLocalUtmOriginF u => exact h.setLocalUtmOriginF u
  | setNedI v => exact h.set rfl
  | setEnuI v => exact h.set rfl
  | setEcefI v => exact h.set rfl
  | setI ecef ned enu => exact h.setSpeeds hok velocityOf_givenI
  | setNedF v => exact h.set rfl
  | setEnuF v => exact h.set rfl
  | setEcefF v => exact h.set rfl
  | setF ecef ned enu => exact h.setSpeeds hok velocityOf_givenF
  | get r => exact h.get hok

theorem refines_init (trig : Trig) (s : VehicleState) :
    Refines trig specInit (stateInit s) where
  frame_eq := by simp [frameOf, stateInit, Position.stateInit, specInit]
  float_initialized := rfl
  float_origin hinit := by simp [stateInit, Position.stateInit] at hinit
  coherent r hr := by simp [stateInit, VehicleState.speedBitIsSet] at hr

theorem refines_run {trig : Trig} {s : VehicleState} {ops : List SpeedOp}
    (hok : RunOk (step trig) CallOk (stateInit s) ops) :
    Refines trig (run specStep specInit ops) (run (step trig) (stateInit s) ops) := by
  refine run_simulation ?_ (refines_init trig s) hok
  intro a s op h hstep
  exact refines_step h hstep

/-- A getter leaves its representation marked valid, whichever branch was taken. -/
theorem speedBitIsSet_stateCalcSpeed (trig : Trig) (r : SpeedRep) (s : VehicleState) :
    (stateCalcSpeed trig r s).speedBitIsSet r = true := by
  have hmarked (t : VehicleState) :
      (if s.speedBitIsSet r = true then s else t.setSpeedBit r).speedBitIsSet r = true := by
    split_ifs with hset
    · exact hset
    · simp
  cases r <;> exact hmarked _

theorem speedBitIsSet_stateGetSpeed (trig : Trig) (r : SpeedRep) (s : VehicleState) :
    (stateGetSpeed trig r s).1.speedBitIsSet r = true := by
  unfold stateGetSpeed
  dsimp only
  split_ifs with hset
  · exact hset
  · exact speedBitIsSet_stateCalcSpeed trig r s

theorem rep_speedCoord (s : VehicleState) (r : SpeedRep) : (s.speedCoord r).rep = r := by
  cases r <;> rfl

/-- The abstract machine does not read the getters. -/
theorem run_specStep_filter (a : Spec) (ops : List SpeedOp) :
    run specStep a ops = run specStep a (ops.filter fun op => !op.isGet) := by
  induction ops generalizing a with
  | nil => rfl
  | cons op ops ih =>
      cases op <;> exact ih _

/-- After the run, every valid representation holds the velocity set last. -/
def Coherent (trig : Trig) (s : VehicleState) (ops : List SpeedOp) : Prop :=
  ∀ r, (run (step trig) (stateInit s) ops).speedBitIsSet r = true →
    ∃ v, (run specStep specInit ops).last = some v ∧
      Holds trig (frameOf (run (step trig) (stateInit s) ops).pos) v
        ((run (step trig) (stateInit s) ops).speedCoord r)

/-- The result of a getter after the run is the one after any other permitted
run with the same setter calls. -/
def GetterStable (trig : Trig) (s : VehicleState) (ops : List SpeedOp) : Prop :=
  ∀ (s' : VehicleState) (ops' : List SpeedOp),
    RunOk (step trig) CallOk (stateInit s') ops' →
    ops'.filter (fun op => !op.isGet) = ops.filter (fun op => !op.isGet) →
    ∀ r, CallOk (run (step trig) (stateInit s) ops) (.get r) →
      CallOk (run (step trig) (stateInit s') ops') (.get r) →
      (stateGetSpeed trig r (run (step trig) (stateInit s) ops)).2 =
        (stateGetSpeed trig r (run (step trig) (stateInit s') ops')).2

/-- In every run from `stateInit` whose calls keep frame and unit, every valid
representation holds the velocity set last, and the getters called before make
no difference to the result of a getter. -/
theorem speed_coherent (trig : Trig) (s : VehicleState) (ops : List SpeedOp)
    (hok : RunOk (step trig) CallOk (stateInit s) ops) :
    Coherent trig s ops ∧ GetterStable trig s ops := by
  have h := refines_run hok
  constructor
  · intro r hr
    rw [h.frame_eq]
    exact h.coherent r hr
  · intro s' ops' hok' hsetters r hr hr'
    have hspec : run specStep specInit ops' = run specStep specInit ops := by
      rw [run_specStep_filter _ ops', hsetters, ← run_specStep_filter]
    have h' := refines_run hok'
    rw [hspec] at h'
    obtain ⟨v, hlast, hv⟩ := (h.get hr).coherent r (speedBitIsSet_stateGetSpeed trig r _)
    obtain ⟨v', hlast', hv'⟩ := (h'.get hr').coherent r (speedBitIsSet_stateGetSpeed trig r _)
    obtain rfl : v = v' := Option.some.inj (hlast.symm.trans hlast')
    exact holds_unique ((rep_speedCoord _ r).trans (rep_speedCoord _ r).symm) hv hv'

/-- A rational stand-in for the angle, between -2 and 2. -/
def diamondTrig : Trig where
  atan2 y x :=
    if 0 ≤ x then y / (|x| + |y|)
    else if 0 ≤ y then 2 - y / (|x| + |y|)
    else -2 - y / (|x| + |y|)
  atan2_mul := by
    intro c hc y x
    have hquot : c * y / (|c * x| + |c * y|) = y / (|x| + |y|) := by
      rw [abs_mul, abs_mul, abs_of_pos hc, ← mul_add, mul_div_mul_left _ _ hc.ne']
    simp only [hquot, mul_nonneg_iff_of_pos_left hc]

/-- The memory before `stateInit`. -/
def zeroState : VehicleState where
  pos := PositionCoherence.zeroState
  speed := ⟨fun _ => false, 0, 0, 0, ⟨0, le_rfl⟩, 0, 0, 0, 0, ⟨0, le_rfl⟩, 0⟩
  accel := ⟨fun _ => false, 0, 0, 0, 0⟩
  nedToBodyOrientation := ⟨fun _ => false, 0, 0, 0, 0, 0, 0⟩
  rate := ⟨fun _ => false, 0, 0⟩
  windAir := ⟨fun _ => false, ⟨0, 0⟩, 0, ⟨0, 0⟩, 0, 0, 0⟩

/-- A local speed, read in the other frame and as norm and direction. -/
def localRun : List SpeedOp :=
  [.setLocalOriginI zeroState.pos.nedOriginI, .setNedF ![3, 4, 0], .get .ecefF, .get .hnormF,
    .get .hdirI]

theorem speed_coherent_localRun :
    Coherent diamondTrig zeroState localRun ∧ GetterStable diamondTrig zeroState localRun :=
  speed_coherent diamondTrig zeroState localRun
    (show _ ∧ _ ∧ _ ∧ _ ∧ _ ∧ _ from
      ⟨Or.inl rfl, trivial, Or.inr rfl, Or.inr rfl, Or.inr rfl, trivial⟩)

/-- After the integer ECEF setter, the getter of the float ECEF speed returns the
conversion of the integer local speed, which was never set. -/
theorem ecef_f_of_ecef_i_not_coherent :
    ¬ Coherent diamondTrig zeroState [.setEcefI ![2 ^ 19, 0, 0], .get .ecefF] := by
  intro h
  obtain ⟨v, hlast, hv⟩ := h .ecefF rfl
  change some (Velocity.world (speedsFloatOfBfp ![2 ^ 19, 0, 0])) = some v at hlast
  change ecefOf v = some (speedsFloatOfBfp 0) at hv
  rw [← Option.some.inj hlast] at hv
  have hx : (1 / 2 ^ 19 : ℚ) * 2 ^ 19 = 1 / 2 ^ 19 * 0 := congrFun (Option.some.inj hv) 0
  norm_num at hx

end Paparazzi.State.SpeedCoherence
