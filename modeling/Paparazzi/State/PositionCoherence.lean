import Mathlib
import Paparazzi.Library.Machine
import Paparazzi.Library.Numerals
import Paparazzi.State.Position

/-!
Coherence of the position cache. The abstract machine remembers the frame in
which local coordinates are expressed and the position set last; the cache
refines it as long as every getter finds a conversion path that exists.
-/

namespace Paparazzi.State.PositionCoherence

open Paparazzi.Library.Machine
open Paparazzi.Math.Geodesy
open Paparazzi.State.Position

attribute [local instance] Library.Numerals.neZero_three

/-! ### What the component is for -/

/-- The frame of the local coordinates. A tangent plane takes precedence over a
UTM origin. -/
inductive Frame where
  | unknown
  | ltp (origin : LtpDef)
  | utm (origin : UtmCoor)

/-- A position: a point of the earth, or, for local coordinates set before any
origin, an offset from an origin that is not known yet. -/
inductive Position where
  | world (ecef : Vect3)
  | floating (ned : Vect3)

/-- The position at a local offset in metres. -/
def nedPosition (earth : Earth) : Frame → Vect3 → Position
  | .unknown, v => .floating v
  | .ltp d, v => .world (ecefOfNedPointF d v)
  | .utm o, v => .world (earth.ecefOfLla (earth.utmOfLla.symm (utmOfNed o v)))

/-- The position that a value denotes in a frame. -/
def positionOf (earth : Earth) (frame : Frame) : Coord → Position
  | .ecefI v => .world (ecefFloatOfBfp v)
  | .nedI v => nedPosition earth frame (nedFloatOfBfp v)
  | .enuI v => nedPosition earth frame (vect3NedOfEnu (nedFloatOfBfp v))
  | .llaI l => .world (earth.ecefOfLla (llaFloatOfBfp l))
  | .ecefF v => .world v
  | .nedF v => nedPosition earth frame v
  | .enuF v => nedPosition earth frame (vect3NedOfEnu v)
  | .llaF l => .world (earth.ecefOfLla l)
  | .utmF u => .world (earth.ecefOfLla (earth.utmOfLla.symm u))

/-- The calls of the interface, with `set` and `get` for the setters and getters
of one representation. -/
inductive PosOp where
  | setLocalOriginI (ltpDef : LtpDef)
  | setLocalUtmOriginF (utmDef : UtmCoor)
  | set (c : Coord)
  | setI (ecef ned enu : Option Vect3) (lla : Option LlaCoor)
  | setF (ecef ned enu : Option Vect3) (lla : Option LlaCoor) (utm : Option UtmCoor)
  | get (r : PosRep)

def step (earth : Earth) (s : PosState) : PosOp → PosState
  | .setLocalOriginI d => stateSetLocalOriginI d s
  | .setLocalUtmOriginF u => stateSetLocalUtmOriginF u s
  | .set c => stateSetPosition c s
  | .setI ecef ned enu lla => stateSetPositionI ecef ned enu lla s
  | .setF ecef ned enu lla utm => stateSetPositionF ecef ned enu lla utm s
  | .get r => (stateGetPosition earth r s).1

/-- The abstract machine: the current frame and the position set last. -/
structure Spec where
  frame : Frame
  last : Option Position

/-- An offset from an unknown origin says nothing once there is an origin. -/
def keepWorld : Option Position → Option Position
  | some (.world x) => some (.world x)
  | _ => none

def specStep (earth : Earth) (a : Spec) : PosOp → Spec
  | .setLocalOriginI d => { frame := .ltp (ltpFloatOfBfp d), last := keepWorld a.last }
  | .setLocalUtmOriginF u =>
      match a.frame with
      | .ltp d => { frame := .ltp d, last := keepWorld a.last }
      | _ => { frame := .utm u, last := keepWorld a.last }
  | .set c => { a with last := some (positionOf earth a.frame c) }
  | .setI ecef ned enu lla =>
      { a with last := (givenI ecef ned enu lla).head?.map (positionOf earth a.frame) }
  | .setF ecef ned enu lla utm =>
      { a with last := (givenF ecef ned enu lla utm).head?.map (positionOf earth a.frame) }
  | .get _ => a

def specInit : Spec := { frame := .unknown, last := none }

/-! ### Which getter calls find a conversion path -/

/-- The branch that the transformation function of `r` takes is one that exists
and keeps units and frames: a source representation is valid, local coordinates
are only converted through an initialised origin, and neither the
centimetre-valued `point` function of `ned_i` and `enu_i` nor the
self-conversion of `lla_f` is reached. -/
def convertible (s : PosState) : PosRep → Bool
  | .ecefI =>
      s.bitIsSet .ecefF ||
        (if s.bitIsSet .nedI || s.bitIsSet .nedF then s.nedInitializedI
        else s.bitIsSet .llaF || s.bitIsSet .llaI)
  | .nedI =>
      if s.nedInitializedI then
        s.bitIsSet .nedF || s.bitIsSet .enuI || s.bitIsSet .enuF ||
          s.bitIsSet .ecefI || s.bitIsSet .ecefF || s.bitIsSet .llaF
      else s.utmInitializedF &&
        (s.bitIsSet .nedF || s.bitIsSet .enuI || s.bitIsSet .enuF ||
          s.bitIsSet .utmF || s.bitIsSet .llaF || s.bitIsSet .llaI)
  | .enuI =>
      if s.nedInitializedI then
        s.bitIsSet .nedI || s.bitIsSet .enuF || s.bitIsSet .nedF ||
          s.bitIsSet .ecefI || s.bitIsSet .ecefF || s.bitIsSet .llaF
      else s.utmInitializedF &&
        (s.bitIsSet .enuF || s.bitIsSet .nedI || s.bitIsSet .nedF ||
          s.bitIsSet .utmF || s.bitIsSet .llaF || s.bitIsSet .llaI)
  | .llaI =>
      s.bitIsSet .llaF || s.bitIsSet .ecefI || s.bitIsSet .ecefF ||
        (if s.bitIsSet .nedF || s.bitIsSet .nedI then s.nedInitializedI
        else s.bitIsSet .utmF)
  | .utmF => s.bitIsSet .llaF || s.bitIsSet .llaI
  | .ecefF =>
      s.bitIsSet .ecefI ||
        (if s.bitIsSet .nedF || s.bitIsSet .nedI then s.nedInitializedI
        else s.bitIsSet .llaF || s.bitIsSet .llaI)
  | .nedF =>
      if s.nedInitializedF then
        s.bitIsSet .nedI || s.bitIsSet .ecefF || s.bitIsSet .ecefI ||
          s.bitIsSet .llaF || s.bitIsSet .llaI
      else s.utmInitializedF &&
        (s.bitIsSet .nedI || s.bitIsSet .enuI || s.bitIsSet .enuF ||
          s.bitIsSet .utmF || s.bitIsSet .llaF || s.bitIsSet .llaI)
  | .enuF =>
      if s.nedInitializedF then
        s.bitIsSet .nedF || s.bitIsSet .enuI || s.bitIsSet .nedI ||
          s.bitIsSet .ecefF || s.bitIsSet .ecefI || s.bitIsSet .llaF || s.bitIsSet .llaI
      else s.utmInitializedF &&
        (s.bitIsSet .enuI || s.bitIsSet .nedF || s.bitIsSet .nedI ||
          s.bitIsSet .utmF || s.bitIsSet .llaF || s.bitIsSet .llaI)
  | .llaF =>
      !s.bitIsSet .llaI &&
        (s.bitIsSet .ecefF || s.bitIsSet .ecefI ||
          (if s.bitIsSet .nedF || s.bitIsSet .nedI then s.nedInitializedI
          else s.bitIsSet .utmF))

/-- The current frame of the local coordinates. -/
def frameOf (s : PosState) : Frame :=
  if s.nedInitializedI then .ltp s.nedOriginF
  else if s.utmInitializedF then .utm s.utmOriginF
  else .unknown

/-- The coordinates given to one setter denote one position. -/
def Agree (earth : Earth) (frame : Frame) (given : List Coord) : Prop :=
  ∀ c ∈ given, ∀ c' ∈ given, positionOf earth frame c = positionOf earth frame c'

/-- The condition on a call: a getter finds its representation valid or has a
conversion path, and a setter of several coordinates is given coordinates of
one position. -/
def CallOk (earth : Earth) (s : PosState) : PosOp → Prop
  | .setI ecef ned enu lla => Agree earth (frameOf s) (givenI ecef ned enu lla)
  | .setF ecef ned enu lla utm => Agree earth (frameOf s) (givenF ecef ned enu lla utm)
  | .get r => s.bitIsSet r = true ∨ convertible s r = true
  | _ => True

/-! ### Conversions keep the position -/

section Conversions

variable (earth : Earth) (frame : Frame)

theorem ecefI_of_ecefF (v : Vect3) :
    positionOf earth frame (.ecefI (ecefBfpOfReal v)) = positionOf earth frame (.ecefF v) := by
  simp [positionOf]

theorem ecefF_of_ecefI (v : Vect3) :
    positionOf earth frame (.ecefF (ecefFloatOfBfp v)) = positionOf earth frame (.ecefI v) := rfl

theorem llaI_of_llaF (l : LlaCoor) :
    positionOf earth frame (.llaI (llaBfpOfReal l)) = positionOf earth frame (.llaF l) := by
  simp [positionOf]

theorem llaF_of_llaI (l : LlaCoor) :
    positionOf earth frame (.llaF (llaFloatOfBfp l)) = positionOf earth frame (.llaI l) := rfl

theorem llaF_of_ecefF (v : Vect3) :
    positionOf earth frame (.llaF (earth.ecefOfLla.symm v)) =
      positionOf earth frame (.ecefF v) := by
  simp [positionOf]

theorem ecefF_of_llaF (l : LlaCoor) :
    positionOf earth frame (.ecefF (earth.ecefOfLla l)) = positionOf earth frame (.llaF l) := rfl

theorem utmF_of_llaF (l : LlaCoor) :
    positionOf earth frame (.utmF (earth.utmOfLla l)) = positionOf earth frame (.llaF l) := by
  simp [positionOf]

theorem llaF_of_utmF (u : UtmCoor) :
    positionOf earth frame (.llaF (earth.utmOfLla.symm u)) =
      positionOf earth frame (.utmF u) := rfl

theorem ecefI_of_llaI (l : LlaCoor) :
    positionOf earth frame (.ecefI (ecefOfLlaI earth l)) = positionOf earth frame (.llaI l) := by
  simp [positionOf, ecefOfLlaI]

theorem llaI_of_ecefI (v : Vect3) :
    positionOf earth frame (.llaI (llaOfEcefI earth v)) = positionOf earth frame (.ecefI v) := by
  simp [positionOf, llaOfEcefI]

theorem nedI_of_nedF (v : Vect3) :
    positionOf earth frame (.nedI (nedBfpOfReal v)) = positionOf earth frame (.nedF v) := by
  simp [positionOf]

theorem nedF_of_nedI (v : Vect3) :
    positionOf earth frame (.nedF (nedFloatOfBfp v)) = positionOf earth frame (.nedI v) := rfl

theorem enuI_of_enuF (v : Vect3) :
    positionOf earth frame (.enuI (nedBfpOfReal v)) = positionOf earth frame (.enuF v) := by
  simp [positionOf]

theorem enuF_of_enuI (v : Vect3) :
    positionOf earth frame (.enuF (nedFloatOfBfp v)) = positionOf earth frame (.enuI v) := rfl

theorem nedI_of_enuI (v : Vect3) :
    positionOf earth frame (.nedI (vect3NedOfEnu v)) = positionOf earth frame (.enuI v) :=
  congrArg (nedPosition earth frame) (vect3NedOfEnu_smul _ v).symm

theorem enuI_of_nedI (v : Vect3) :
    positionOf earth frame (.enuI (vect3EnuOfNed v)) = positionOf earth frame (.nedI v) := by
  rw [← nedI_of_enuI, vect3NedOfEnu_vect3EnuOfNed]

theorem nedF_of_enuF (v : Vect3) :
    positionOf earth frame (.nedF (vect3NedOfEnu v)) = positionOf earth frame (.enuF v) := rfl

theorem enuF_of_nedF (v : Vect3) :
    positionOf earth frame (.enuF (vect3EnuOfNed v)) = positionOf earth frame (.nedF v) := by
  simp [positionOf]

variable {frame}

section Ltp

variable {d : LtpDef} (hframe : frame = .ltp d)

include hframe

theorem nedF_of_ecefF (v : Vect3) :
    positionOf earth frame (.nedF (nedOfEcefPointF d v)) = positionOf earth frame (.ecefF v) := by
  subst hframe
  simp [positionOf, nedPosition, ecefOfNedPointF_nedOfEcefPointF]

theorem enuF_of_ecefF (v : Vect3) :
    positionOf earth frame (.enuF (enuOfEcefPointF d v)) = positionOf earth frame (.ecefF v) :=
  nedF_of_ecefF earth hframe v

theorem ecefF_of_nedF (v : Vect3) :
    positionOf earth frame (.ecefF (ecefOfNedPointF d v)) = positionOf earth frame (.nedF v) := by
  subst hframe
  rfl

theorem nedF_of_llaF (l : LlaCoor) :
    positionOf earth frame (.nedF (nedOfLlaPointF earth d l)) =
      positionOf earth frame (.llaF l) :=
  nedF_of_ecefF earth hframe (earth.ecefOfLla l)

theorem enuF_of_llaF (l : LlaCoor) :
    positionOf earth frame (.enuF (enuOfLlaPointF earth d l)) =
      positionOf earth frame (.llaF l) :=
  enuF_of_ecefF earth hframe (earth.ecefOfLla l)

variable {dI : LtpDef} (horigin : d = ltpFloatOfBfp dI)

include horigin

theorem nedI_of_ecefI (v : Vect3) :
    positionOf earth frame (.nedI (nedOfEcefPosI dI v)) = positionOf earth frame (.ecefI v) := by
  rw [nedOfEcefPosI_eq, ← horigin, nedI_of_nedF, nedF_of_ecefF earth hframe, ecefF_of_ecefI]

theorem enuI_of_ecefI (v : Vect3) :
    positionOf earth frame (.enuI (enuOfEcefPosI dI v)) = positionOf earth frame (.ecefI v) := by
  rw [enuOfEcefPosI_eq, ← horigin, enuI_of_enuF, enuF_of_ecefF earth hframe, ecefF_of_ecefI]

theorem ecefI_of_nedI (v : Vect3) :
    positionOf earth frame (.ecefI (ecefOfNedPosI dI v)) = positionOf earth frame (.nedI v) := by
  rw [ecefOfNedPosI_eq, ← horigin, ecefI_of_ecefF, ecefF_of_nedF earth hframe, nedF_of_nedI]

end Ltp

section Utm

variable {o : UtmCoor} (hframe : frame = .utm o)

include hframe

theorem nedF_of_utmF (u : UtmCoor) :
    positionOf earth frame (.nedF (nedOfUtmDiff u o)) = positionOf earth frame (.utmF u) := by
  subst hframe
  simp [positionOf, nedPosition, utmOfNed_nedOfUtmDiff]

theorem enuF_of_utmF (u : UtmCoor) :
    positionOf earth frame (.enuF (enuOfUtmDiff u o)) = positionOf earth frame (.utmF u) := by
  rw [← nedF_of_enuF, vect3NedOfEnu_enuOfUtmDiff, nedF_of_utmF earth hframe]

end Utm

end Conversions

/-! ### The cache refines the abstract machine -/

/-- The cache is coherent with an abstract state: the frames are the same, the
float copy of the origin is a copy, and every valid representation denotes the
position set last. -/
structure Refines (earth : Earth) (a : Spec) (s : PosState) : Prop where
  frame_eq : frameOf s = a.frame
  float_initialized : s.nedInitializedF = s.nedInitializedI
  float_origin : s.nedInitializedI = true → s.nedOriginF = ltpFloatOfBfp s.nedOriginI
  coherent : ∀ r, s.bitIsSet r = true → a.last = some (positionOf earth a.frame (s.coord r))

namespace Refines

variable {earth : Earth} {a : Spec} {s : PosState}

theorem frame_ltp (h : Refines earth a s) (hinit : s.nedInitializedI = true) :
    a.frame = .ltp s.nedOriginF := by
  rw [← h.frame_eq, frameOf, if_pos hinit]

theorem frame_utm (h : Refines earth a s) (hinit : ¬ s.nedInitializedI = true)
    (hutm : s.utmInitializedF = true) : a.frame = .utm s.utmOriginF := by
  rw [← h.frame_eq, frameOf, if_neg hinit, if_pos hutm]

theorem setBit (h : Refines earth a s) {r : PosRep}
    (hr : a.last = some (positionOf earth a.frame (s.coord r))) :
    Refines earth a (s.setBit r) :=
  { h with
    coherent := by
      intro r' hr'
      rw [PosState.coord_setBit]
      by_cases heq : r' = r
      · rw [heq]
        exact hr
      · simp only [PosState.bitIsSet_setBit, if_neg heq] at hr'
        exact h.coherent r' hr' }

theorem put (h : Refines earth a s) {c : Coord}
    (hc : a.last = some (positionOf earth a.frame c)) : Refines earth a (s.put c) where
  frame_eq := by
    rw [← h.frame_eq]
    cases c <;> rfl
  float_initialized := by
    cases c <;> exact h.float_initialized
  float_origin := by
    cases c <;> exact h.float_origin
  coherent r hr := by
    by_cases heq : r = c.rep
    · rw [heq, PosState.coord_put_self]
      exact hc
    · rw [PosState.coord_put_of_ne s c heq]
      rw [PosState.bitIsSet_put] at hr
      exact h.coherent r hr

theorem store (h : Refines earth a s) {c : Coord}
    (hc : a.last = some (positionOf earth a.frame c)) :
    Refines earth a ((s.put c).setBit c.rep) := by
  apply (h.put hc).setBit
  rw [PosState.coord_put_self]
  exact hc

/-- Fill in a representation from a valid one by a conversion that keeps the
position. -/
theorem derive (h : Refines earth a s) {r : PosRep} (hr : s.bitIsSet r = true) {c : Coord}
    (hc : positionOf earth a.frame c = positionOf earth a.frame (s.coord r)) :
    Refines earth a ((s.put c).setBit c.rep) := by
  apply h.store
  rw [hc]
  exact h.coherent r hr

/-- Convert once more the value that was filled in last. -/
theorem andThen {c c' : Coord} (h : Refines earth a ((s.put c).setBit c.rep))
    (hc : positionOf earth a.frame c' = positionOf earth a.frame c) :
    Refines earth a ((((s.put c).setBit c.rep).put c').setBit c'.rep) := by
  apply h.derive (r := c.rep)
  · simp
  · rw [hc, PosState.coord_setBit, PosState.coord_put_self]

/-! #### One lemma for each transformation function -/

/-- A choice between two ways to fill in a representation. -/
theorem setBit_ite {c : Prop} [Decidable c] {t e : PosState} {r : PosRep}
    (ht : c → Refines earth a (t.setBit r)) (he : ¬c → Refines earth a (e.setBit r)) :
    Refines earth a ((if c then t else e).setBit r) :=
  iteInduction (motive := fun s : PosState => Refines earth a (s.setBit r)) ht he

theorem unless_set (h : Refines earth a s) {r : PosRep} {t : PosState}
    (ht : ¬s.bitIsSet r = true → Refines earth a t) :
    Refines earth a (if s.bitIsSet r = true then s else t) :=
  iteInduction (motive := Refines earth a) (fun _ => h) ht

theorem calcEcefI (h : Refines earth a s)
    (hok : s.bitIsSet .ecefI = true ∨ convertible s .ecefI = true) :
    Refines earth a (stateCalcPositionEcefI earth s) := by
  apply h.unless_set
  intro hset
  refine setBit_ite (fun hEcefF => h.derive hEcefF (ecefI_of_ecefF ..)) fun hEcefF => ?_
  refine setBit_ite (fun hNedI => ?_) fun hNedI => ?_
  · have hinit : s.nedInitializedI = true := by
      simpa [convertible, hset, hEcefF, hNedI] using hok
    exact h.derive hNedI (ecefI_of_nedI earth (h.frame_ltp hinit) (h.float_origin hinit) _)
  refine setBit_ite (fun hNedF => ?_) fun hNedF => ?_
  · have hinit : s.nedInitializedI = true := by
      simpa [convertible, hset, hEcefF, hNedI, hNedF] using hok
    exact (h.derive hNedF (ecefF_of_nedF earth (h.frame_ltp hinit) _)).andThen
      (ecefI_of_ecefF ..)
  refine setBit_ite (fun hLlaF => ?_) fun hLlaF => ?_
  · exact (h.derive hLlaF (ecefF_of_llaF ..)).andThen (ecefI_of_ecefF ..)
  refine setBit_ite (fun hLlaI => h.derive hLlaI (ecefI_of_llaI ..)) fun hLlaI => ?_
  simp [convertible, hset, hEcefF, hNedI, hNedF, hLlaF, hLlaI] at hok

theorem calcNedI (h : Refines earth a s)
    (hok : s.bitIsSet .nedI = true ∨ convertible s .nedI = true) :
    Refines earth a (stateCalcPositionNedI earth s) := by
  apply h.unless_set
  intro hset
  refine setBit_ite (fun hinit => ?_) fun hinit => setBit_ite (fun hutm => ?_) fun hutm => ?_
  · refine setBit_ite (fun hNedF => h.derive hNedF (nedI_of_nedF ..)) fun hNedF => ?_
    refine setBit_ite (fun hEnuI => h.derive hEnuI (nedI_of_enuI ..)) fun hEnuI => ?_
    refine setBit_ite (fun hEnuF => ?_) fun hEnuF => ?_
    · exact (h.derive hEnuF (enuI_of_enuF ..)).andThen (nedI_of_enuI ..)
    refine setBit_ite (fun hEcefI => ?_) fun hEcefI => ?_
    · exact h.derive hEcefI (nedI_of_ecefI earth (h.frame_ltp hinit) (h.float_origin hinit) _)
    refine setBit_ite (fun hEcefF => ?_) fun hEcefF => ?_
    · exact (h.derive hEcefF (nedF_of_ecefF earth (h.frame_ltp hinit) _)).andThen
        (nedI_of_nedF ..)
    refine setBit_ite (fun hLlaF => ?_) fun hLlaF => ?_
    · exact ((h.derive hLlaF (ecefF_of_llaF ..)).andThen
        (nedF_of_ecefF earth (h.frame_ltp hinit) _)).andThen (nedI_of_nedF ..)
    -- the centimetre-valued `point` function is not a conversion path
    simp [convertible, hset, hinit, hNedF, hEnuI, hEnuF, hEcefI, hEcefF, hLlaF] at hok
  · refine setBit_ite (fun hNedF => h.derive hNedF (nedI_of_nedF ..)) fun hNedF => ?_
    refine setBit_ite (fun hEnuI => h.derive hEnuI (nedI_of_enuI ..)) fun hEnuI => ?_
    refine setBit_ite (fun hEnuF => ?_) fun hEnuF => ?_
    · exact (h.derive hEnuF (enuI_of_enuF ..)).andThen (nedI_of_enuI ..)
    refine setBit_ite (fun hUtmF => ?_) fun hUtmF => ?_
    · exact (h.derive hUtmF (nedF_of_utmF earth (h.frame_utm hinit hutm) _)).andThen
        (nedI_of_nedF ..)
    refine setBit_ite (fun hLlaF => ?_) fun hLlaF => ?_
    · exact ((h.derive hLlaF (utmF_of_llaF ..)).andThen
        (nedF_of_utmF earth (h.frame_utm hinit hutm) _)).andThen (nedI_of_nedF ..)
    refine setBit_ite (fun hLlaI => ?_) fun hLlaI => ?_
    · exact (((h.derive hLlaI (llaF_of_llaI ..)).andThen (utmF_of_llaF ..)).andThen
        (nedF_of_utmF earth (h.frame_utm hinit hutm) _)).andThen (nedI_of_nedF ..)
    simp [convertible, hset, hinit, hutm, hNedF, hEnuI, hEnuF, hUtmF, hLlaF, hLlaI] at hok
  · simp [convertible, hset, hinit, hutm] at hok

theorem calcEnuI (h : Refines earth a s)
    (hok : s.bitIsSet .enuI = true ∨ convertible s .enuI = true) :
    Refines earth a (stateCalcPositionEnuI earth s) := by
  apply h.unless_set
  intro hset
  refine setBit_ite (fun hinit => ?_) fun hinit => setBit_ite (fun hutm => ?_) fun hutm => ?_
  · refine setBit_ite (fun hNedI => h.derive hNedI (enuI_of_nedI ..)) fun hNedI => ?_
    refine setBit_ite (fun hEnuF => h.derive hEnuF (enuI_of_enuF ..)) fun hEnuF => ?_
    refine setBit_ite (fun hNedF => ?_) fun hNedF => ?_
    · exact (h.derive hNedF (nedI_of_nedF ..)).andThen (enuI_of_nedI ..)
    refine setBit_ite (fun hEcefI => ?_) fun hEcefI => ?_
    · exact h.derive hEcefI (enuI_of_ecefI earth (h.frame_ltp hinit) (h.float_origin hinit) _)
    refine setBit_ite (fun hEcefF => ?_) fun hEcefF => ?_
    · exact (h.derive hEcefF (enuF_of_ecefF earth (h.frame_ltp hinit) _)).andThen
        (enuI_of_enuF ..)
    refine setBit_ite (fun hLlaF => ?_) fun hLlaF => ?_
    · exact ((h.derive hLlaF (ecefF_of_llaF ..)).andThen
        (enuF_of_ecefF earth (h.frame_ltp hinit) _)).andThen (enuI_of_enuF ..)
    -- the centimetre-valued `point` function is not a conversion path
    simp [convertible, hset, hinit, hNedI, hEnuF, hNedF, hEcefI, hEcefF, hLlaF] at hok
  · refine setBit_ite (fun hEnuF => h.derive hEnuF (enuI_of_enuF ..)) fun hEnuF => ?_
    refine setBit_ite (fun hNedI => h.derive hNedI (enuI_of_nedI ..)) fun hNedI => ?_
    refine setBit_ite (fun hNedF => ?_) fun hNedF => ?_
    · exact (h.derive hNedF (nedI_of_nedF ..)).andThen (enuI_of_nedI ..)
    refine setBit_ite (fun hUtmF => ?_) fun hUtmF => ?_
    · exact (h.derive hUtmF (enuF_of_utmF earth (h.frame_utm hinit hutm) _)).andThen
        (enuI_of_enuF ..)
    refine setBit_ite (fun hLlaF => ?_) fun hLlaF => ?_
    · exact ((h.derive hLlaF (utmF_of_llaF ..)).andThen
        (enuF_of_utmF earth (h.frame_utm hinit hutm) _)).andThen (enuI_of_enuF ..)
    refine setBit_ite (fun hLlaI => ?_) fun hLlaI => ?_
    · exact (((h.derive hLlaI (llaF_of_llaI ..)).andThen (utmF_of_llaF ..)).andThen
        (enuF_of_utmF earth (h.frame_utm hinit hutm) _)).andThen (enuI_of_enuF ..)
    simp [convertible, hset, hinit, hutm, hEnuF, hNedI, hNedF, hUtmF, hLlaF, hLlaI] at hok
  · simp [convertible, hset, hinit, hutm] at hok

theorem calcLlaI (h : Refines earth a s)
    (hok : s.bitIsSet .llaI = true ∨ convertible s .llaI = true) :
    Refines earth a (stateCalcPositionLlaI earth s) := by
  apply h.unless_set
  intro hset
  refine setBit_ite (fun hLlaF => h.derive hLlaF (llaI_of_llaF ..)) fun hLlaF => ?_
  refine setBit_ite (fun hEcefI => h.derive hEcefI (llaI_of_ecefI ..)) fun hEcefI => ?_
  refine setBit_ite (fun hEcefF => ?_) fun hEcefF => ?_
  · exact (h.derive hEcefF (llaF_of_ecefF ..)).andThen (llaI_of_llaF ..)
  refine setBit_ite (fun hNedF => ?_) fun hNedF => ?_
  · have hinit : s.nedInitializedI = true := by
      simpa [convertible, hset, hLlaF, hEcefI, hEcefF, hNedF] using hok
    exact ((h.derive hNedF (ecefF_of_nedF earth (h.frame_ltp hinit) _)).andThen
      (llaF_of_ecefF ..)).andThen (llaI_of_llaF ..)
  refine setBit_ite (fun hNedI => ?_) fun hNedI => ?_
  · have hinit : s.nedInitializedI = true := by
      simpa [convertible, hset, hLlaF, hEcefI, hEcefF, hNedF, hNedI] using hok
    exact (h.derive hNedI
      (ecefI_of_nedI earth (h.frame_ltp hinit) (h.float_origin hinit) _)).andThen
      (llaI_of_ecefI ..)
  refine setBit_ite (fun hUtmF => ?_) fun hUtmF => ?_
  · exact (h.derive hUtmF (llaF_of_utmF ..)).andThen (llaI_of_llaF ..)
  simp [convertible, hset, hLlaF, hEcefI, hEcefF, hNedF, hNedI, hUtmF] at hok

theorem calcUtmF (h : Refines earth a s)
    (hok : s.bitIsSet .utmF = true ∨ convertible s .utmF = true) :
    Refines earth a (stateCalcPositionUtmF earth s) := by
  apply h.unless_set
  intro hset
  refine setBit_ite (fun hLlaF => h.derive hLlaF (utmF_of_llaF ..)) fun hLlaF => ?_
  refine setBit_ite (fun hLlaI => ?_) fun hLlaI => ?_
  · exact (h.derive hLlaI (llaF_of_llaI ..)).andThen (utmF_of_llaF ..)
  simp [convertible, hset, hLlaF, hLlaI] at hok

theorem calcEcefF (h : Refines earth a s)
    (hok : s.bitIsSet .ecefF = true ∨ convertible s .ecefF = true) :
    Refines earth a (stateCalcPositionEcefF earth s) := by
  apply h.unless_set
  intro hset
  refine setBit_ite (fun hEcefI => h.derive hEcefI (ecefF_of_ecefI ..)) fun hEcefI => ?_
  refine setBit_ite (fun hNedF => ?_) fun hNedF => ?_
  · have hinit : s.nedInitializedI = true := by
      simpa [convertible, hset, hEcefI, hNedF] using hok
    exact h.derive hNedF (ecefF_of_nedF earth (h.frame_ltp hinit) _)
  refine setBit_ite (fun hNedI => ?_) fun hNedI => ?_
  · have hinit : s.nedInitializedI = true := by
      simpa [convertible, hset, hEcefI, hNedF, hNedI] using hok
    -- the integer value is stored without its bit, the float bit is set twice
    have hnedI := h.coherent .nedI hNedI
    have heq := ecefI_of_nedI earth (h.frame_ltp hinit) (h.float_origin hinit) s.nedPosI
    have hecefI : Refines earth a (s.put (.ecefI (ecefOfNedPosI s.nedOriginI s.nedPosI))) :=
      h.put (hnedI.trans (congrArg some heq.symm))
    have hecefF := hecefI.store (c := .ecefF (ecefFloatOfBfp (ecefOfNedPosI s.nedOriginI s.nedPosI)))
      (hnedI.trans (congrArg some ((ecefF_of_ecefI ..).trans heq).symm))
    simp only [PosState.setBit_put]
    exact hecefF.setBit (hecefF.coherent .ecefF rfl)
  refine setBit_ite (fun hLlaF => h.derive hLlaF (ecefF_of_llaF ..)) fun hLlaF => ?_
  refine setBit_ite (fun hLlaI => ?_) fun hLlaI => ?_
  · exact (h.derive hLlaI (llaF_of_llaI ..)).andThen (ecefF_of_llaF ..)
  simp [convertible, hset, hEcefI, hNedF, hNedI, hLlaF, hLlaI] at hok

theorem calcNedF (h : Refines earth a s)
    (hok : s.bitIsSet .nedF = true ∨ convertible s .nedF = true) :
    Refines earth a (stateCalcPositionNedF earth s) := by
  apply h.unless_set
  intro hset
  rw [h.float_initialized]
  refine setBit_ite (fun hinit => ?_) fun hinit => setBit_ite (fun hutm => ?_) fun hutm => ?_
  · refine setBit_ite (fun hNedI => h.derive hNedI (nedF_of_nedI ..)) fun hNedI => ?_
    refine setBit_ite (fun hEcefF => ?_) fun hEcefF => ?_
    · exact h.derive hEcefF (nedF_of_ecefF earth (h.frame_ltp hinit) _)
    refine setBit_ite (fun hEcefI => ?_) fun hEcefI => ?_
    · exact (h.derive hEcefI
        (nedI_of_ecefI earth (h.frame_ltp hinit) (h.float_origin hinit) _)).andThen
        (nedF_of_nedI ..)
    refine setBit_ite (fun hLlaF => ?_) fun hLlaF => ?_
    · exact h.derive hLlaF (nedF_of_llaF earth (h.frame_ltp hinit) _)
    refine setBit_ite (fun hLlaI => ?_) fun hLlaI => ?_
    · exact ((h.derive hLlaI (ecefI_of_llaI ..)).andThen
        (nedI_of_ecefI earth (h.frame_ltp hinit) (h.float_origin hinit) _)).andThen
        (nedF_of_nedI ..)
    simp [convertible, h.float_initialized, hset, hinit, hNedI, hEcefF, hEcefI, hLlaF,
      hLlaI] at hok
  · refine setBit_ite (fun hNedI => h.derive hNedI (nedF_of_nedI ..)) fun hNedI => ?_
    refine setBit_ite (fun hEnuI => ?_) fun hEnuI => ?_
    · exact (h.derive hEnuI (enuF_of_enuI ..)).andThen (nedF_of_enuF ..)
    refine setBit_ite (fun hEnuF => h.derive hEnuF (nedF_of_enuF ..)) fun hEnuF => ?_
    refine setBit_ite (fun hUtmF => ?_) fun hUtmF => ?_
    · exact h.derive hUtmF (nedF_of_utmF earth (h.frame_utm hinit hutm) _)
    refine setBit_ite (fun hLlaF => ?_) fun hLlaF => ?_
    · exact (h.derive hLlaF (utmF_of_llaF ..)).andThen
        (nedF_of_utmF earth (h.frame_utm hinit hutm) _)
    refine setBit_ite (fun hLlaI => ?_) fun hLlaI => ?_
    · exact ((h.derive hLlaI (llaF_of_llaI ..)).andThen (utmF_of_llaF ..)).andThen
        (nedF_of_utmF earth (h.frame_utm hinit hutm) _)
    simp [convertible, h.float_initialized, hset, hinit, hutm, hNedI, hEnuI, hEnuF, hUtmF,
      hLlaF, hLlaI] at hok
  · simp [convertible, h.float_initialized, hset, hinit, hutm] at hok

theorem calcEnuF (h : Refines earth a s)
    (hok : s.bitIsSet .enuF = true ∨ convertible s .enuF = true) :
    Refines earth a (stateCalcPositionEnuF earth s) := by
  apply h.unless_set
  intro hset
  rw [h.float_initialized]
  refine setBit_ite (fun hinit => ?_) fun hinit => setBit_ite (fun hutm => ?_) fun hutm => ?_
  · refine setBit_ite (fun hNedF => h.derive hNedF (enuF_of_nedF ..)) fun hNedF => ?_
    refine setBit_ite (fun hEnuI => h.derive hEnuI (enuF_of_enuI ..)) fun hEnuI => ?_
    refine setBit_ite (fun hNedI => ?_) fun hNedI => ?_
    · exact (h.derive hNedI (nedF_of_nedI ..)).andThen (enuF_of_nedF ..)
    refine setBit_ite (fun hEcefF => ?_) fun hEcefF => ?_
    · exact h.derive hEcefF (enuF_of_ecefF earth (h.frame_ltp hinit) _)
    refine setBit_ite (fun hEcefI => ?_) fun hEcefI => ?_
    · exact (h.derive hEcefI
        (enuI_of_ecefI earth (h.frame_ltp hinit) (h.float_origin hinit) _)).andThen
        (enuF_of_enuI ..)
    refine setBit_ite (fun hLlaF => ?_) fun hLlaF => ?_
    · exact h.derive hLlaF (enuF_of_llaF earth (h.frame_ltp hinit) _)
    refine setBit_ite (fun hLlaI => ?_) fun hLlaI => ?_
    · exact ((h.derive hLlaI (ecefI_of_llaI ..)).andThen
        (enuI_of_ecefI earth (h.frame_ltp hinit) (h.float_origin hinit) _)).andThen
        (enuF_of_enuI ..)
    simp [convertible, h.float_initialized, hset, hinit, hNedF, hEnuI, hNedI, hEcefF, hEcefI,
      hLlaF, hLlaI] at hok
  · refine setBit_ite (fun hEnuI => h.derive hEnuI (enuF_of_enuI ..)) fun hEnuI => ?_
    refine setBit_ite (fun hNedF => h.derive hNedF (enuF_of_nedF ..)) fun hNedF => ?_
    refine setBit_ite (fun hNedI => ?_) fun hNedI => ?_
    · exact (h.derive hNedI (nedF_of_nedI ..)).andThen (enuF_of_nedF ..)
    refine setBit_ite (fun hUtmF => ?_) fun hUtmF => ?_
    · exact h.derive hUtmF (enuF_of_utmF earth (h.frame_utm hinit hutm) _)
    refine setBit_ite (fun hLlaF => ?_) fun hLlaF => ?_
    · exact (h.derive hLlaF (utmF_of_llaF ..)).andThen
        (enuF_of_utmF earth (h.frame_utm hinit hutm) _)
    refine setBit_ite (fun hLlaI => ?_) fun hLlaI => ?_
    · exact ((h.derive hLlaI (llaF_of_llaI ..)).andThen (utmF_of_llaF ..)).andThen
        (enuF_of_utmF earth (h.frame_utm hinit hutm) _)
    simp [convertible, h.float_initialized, hset, hinit, hutm, hEnuI, hNedF, hNedI, hUtmF,
      hLlaF, hLlaI] at hok
  · simp [convertible, h.float_initialized, hset, hinit, hutm] at hok

theorem calcLlaF (h : Refines earth a s)
    (hok : s.bitIsSet .llaF = true ∨ convertible s .llaF = true) :
    Refines earth a (stateCalcPositionLlaF earth s) := by
  apply h.unless_set
  intro hset
  refine setBit_ite (fun hLlaI => ?_) fun hLlaI => ?_
  · simp [convertible, hset, hLlaI] at hok
  refine setBit_ite (fun hEcefF => h.derive hEcefF (llaF_of_ecefF ..)) fun hEcefF => ?_
  refine setBit_ite (fun hEcefI => ?_) fun hEcefI => ?_
  · exact (h.derive hEcefI (ecefF_of_ecefI ..)).andThen (llaF_of_ecefF ..)
  refine setBit_ite (fun hNedF => ?_) fun hNedF => ?_
  · have hinit : s.nedInitializedI = true := by
      simpa [convertible, hset, hLlaI, hEcefF, hEcefI, hNedF] using hok
    exact (h.derive hNedF (ecefF_of_nedF earth (h.frame_ltp hinit) _)).andThen
      (llaF_of_ecefF ..)
  refine setBit_ite (fun hNedI => ?_) fun hNedI => ?_
  · have hinit : s.nedInitializedI = true := by
      simpa [convertible, hset, hLlaI, hEcefF, hEcefI, hNedF, hNedI] using hok
    exact ((h.derive hNedI (nedF_of_nedI ..)).andThen
      (ecefF_of_nedF earth (h.frame_ltp hinit) _)).andThen (llaF_of_ecefF ..)
  refine setBit_ite (fun hUtmF => h.derive hUtmF (llaF_of_utmF ..)) fun hUtmF => ?_
  simp [convertible, hset, hLlaI, hEcefF, hEcefI, hNedF, hNedI, hUtmF] at hok

theorem calcPosition (h : Refines earth a s) {r : PosRep}
    (hok : s.bitIsSet r = true ∨ convertible s r = true) :
    Refines earth a (stateCalcPosition earth r s) := by
  cases r with
  | ecefI => exact h.calcEcefI hok
  | nedI => exact h.calcNedI hok
  | enuI => exact h.calcEnuI hok
  | llaI => exact h.calcLlaI hok
  | ecefF => exact h.calcEcefF hok
  | nedF => exact h.calcNedF hok
  | enuF => exact h.calcEnuF hok
  | llaF => exact h.calcLlaF hok
  | utmF => exact h.calcUtmF hok

theorem get (h : Refines earth a s) {r : PosRep}
    (hok : s.bitIsSet r = true ∨ convertible s r = true) :
    Refines earth a (stateGetPosition earth r s).1 := by
  unfold stateGetPosition
  dsimp only
  split_ifs
  · exact h
  · exact h.calcPosition hok

/-! #### Setters and origins -/

/-- Only the frame matters once all status bits are cleared. -/
theorem cleared (h : Refines earth a s) (last : Option Position) :
    Refines earth { a with last := last } { s with posStatus := fun _ => false } :=
  { h with
    coherent := by
      intro r hr
      simp [PosState.bitIsSet] at hr }

theorem onlyBit_eq (s : PosState) (r : PosRep) :
    s.onlyBit r = PosState.setBit { s with posStatus := fun _ => false } r := by
  simp [PosState.onlyBit, PosState.setBit]

theorem set (h : Refines earth a s) (c : Coord) :
    Refines earth { a with last := some (positionOf earth a.frame c) } (stateSetPosition c s) := by
  have hstore := (h.cleared (some (positionOf earth a.frame c))).store (c := c) rfl
  have hcomm : (PosState.put { s with posStatus := fun _ => false } c).setBit c.rep =
      stateSetPosition c s := by
    rw [stateSetPosition, onlyBit_eq]
    cases c <;> rfl
  rwa [hcomm] at hstore

/-- Storing further coordinates of the position set last. -/
theorem foldl_store (given : List Coord) (h : Refines earth a s)
    (hgiven : ∀ c ∈ given, a.last = some (positionOf earth a.frame c)) :
    Refines earth a (given.foldl (fun s c => (s.put c).setBit c.rep) s) := by
  induction given generalizing s with
  | nil => exact h
  | cons c given ih =>
      apply ih
      · exact h.store (hgiven c List.mem_cons_self)
      · intro c' hc'
        exact hgiven c' (List.mem_cons_of_mem c hc')

theorem setPositions (h : Refines earth a s) {given : List Coord}
    (hagree : Agree earth (frameOf s) given) :
    Refines earth { a with last := given.head?.map (positionOf earth a.frame) }
      (stateSetPositions given s) := by
  apply (h.cleared _).foldl_store given
  intro c hc
  rw [h.frame_eq] at hagree
  cases given with
  | nil => simp at hc
  | cons c₀ given =>
      simp only [List.head?_cons, Option.map_some]
      rw [hagree c₀ List.mem_cons_self c hc]

/-- A valid global representation stays valid under a new frame. -/
theorem global_of_keepWorld {frame : Frame} {r : PosRep} (h : Refines earth a s)
    (hr : s.bitIsSet r = true) (hglobal : r.isLocal = false) :
    keepWorld a.last = some (positionOf earth frame (s.coord r)) := by
  rw [h.coherent r hr]
  cases r <;> first | rfl | simp [PosRep.isLocal] at hglobal

theorem setLocalOriginI (h : Refines earth a s) (d : LtpDef) :
    Refines earth { frame := .ltp (ltpFloatOfBfp d), last := keepWorld a.last }
      (stateSetLocalOriginI d s) where
  frame_eq := rfl
  float_initialized := rfl
  float_origin _ := rfl
  coherent r hr := by
    change (s.bitIsSet r && !r.isLocal) = true at hr
    simp only [Bool.and_eq_true, Bool.not_eq_eq_eq_not, Bool.not_true] at hr
    have hcoord : (stateSetLocalOriginI d s).coord r = s.coord r := by cases r <;> rfl
    rw [hcoord]
    exact h.global_of_keepWorld hr.1 hr.2

theorem setLocalUtmOriginF (h : Refines earth a s) (u : UtmCoor) :
    Refines earth (specStep earth a (.setLocalUtmOriginF u)) (stateSetLocalUtmOriginF u s) := by
  have hlast : (specStep earth a (.setLocalUtmOriginF u)).last = keepWorld a.last := by
    cases hframe : a.frame <;> simp [specStep, hframe]
  refine ⟨?_, h.float_initialized, h.float_origin, ?_⟩
  · cases hinit : s.nedInitializedI with
    | true =>
        have hleft : frameOf (stateSetLocalUtmOriginF u s) = .ltp s.nedOriginF := by
          unfold frameOf
          rw [if_pos (show (stateSetLocalUtmOriginF u s).nedInitializedI = true from hinit)]
          rfl
        simp [hleft, specStep, h.frame_ltp hinit]
    | false =>
        have hleft : frameOf (stateSetLocalUtmOriginF u s) = .utm u := by
          unfold frameOf
          rw [if_neg (show ¬(stateSetLocalUtmOriginF u s).nedInitializedI = true by
            simpa [stateSetLocalUtmOriginF, PosState.clearLocal] using hinit)]
          rfl
        have hframe : ∀ d, a.frame ≠ .ltp d := by
          intro d hd
          rw [← h.frame_eq, frameOf, hinit] at hd
          simp only [Bool.false_eq_true, if_false] at hd
          split_ifs at hd
        rw [hleft]
        cases haf : a.frame with
        | unknown => simp [specStep, haf]
        | ltp d => exact absurd haf (hframe d)
        | utm o => simp [specStep, haf]
  · intro r hr
    change (s.bitIsSet r && !r.isLocal) = true at hr
    simp only [Bool.and_eq_true, Bool.not_eq_eq_eq_not, Bool.not_true] at hr
    have hcoord : (stateSetLocalUtmOriginF u s).coord r = s.coord r := by cases r <;> rfl
    rw [hlast, hcoord]
    exact h.global_of_keepWorld hr.1 hr.2

end Refines

/-- The step lemma: a permitted call keeps the cache coherent. -/
theorem refines_step {earth : Earth} {a : Spec} {s : PosState} {op : PosOp}
    (h : Refines earth a s) (hok : CallOk earth s op) :
    Refines earth (specStep earth a op) (step earth s op) := by
  cases op with
  | setLocalOriginI d => exact h.setLocalOriginI d
  | setLocalUtmOriginF u => exact h.setLocalUtmOriginF u
  | set c => exact h.set c
  | setI ecef ned enu lla => exact h.setPositions hok
  | setF ecef ned enu lla utm => exact h.setPositions hok
  | get r => exact h.get hok

theorem refines_init (earth : Earth) (s : PosState) :
    Refines earth specInit (stateInit s) where
  frame_eq := by simp [frameOf, stateInit, specInit]
  float_initialized := rfl
  float_origin hinit := by simp [stateInit] at hinit
  coherent r hr := by simp [stateInit, PosState.bitIsSet] at hr

theorem refines_run {earth : Earth} {s : PosState} {ops : List PosOp}
    (hok : RunOk (step earth) (CallOk earth) (stateInit s) ops) :
    Refines earth (run (specStep earth) specInit ops) (run (step earth) (stateInit s) ops) := by
  refine run_simulation ?_ (refines_init earth s) hok
  intro a s op h hstep
  exact refines_step h hstep

/-- A getter leaves its representation marked valid, whichever branch was taken. -/
theorem bitIsSet_stateCalcPosition (earth : Earth) (r : PosRep) (s : PosState) :
    (stateCalcPosition earth r s).bitIsSet r = true := by
  have hmarked (t : PosState) :
      (if s.bitIsSet r = true then s else t.setBit r).bitIsSet r = true := by
    split_ifs with hset
    · exact hset
    · simp
  cases r <;> exact hmarked _

theorem bitIsSet_stateGetPosition (earth : Earth) (r : PosRep) (s : PosState) :
    (stateGetPosition earth r s).1.bitIsSet r = true := by
  unfold stateGetPosition
  dsimp only
  split_ifs with hset
  · exact hset
  · exact bitIsSet_stateCalcPosition earth r s

/-- After the run, every valid representation denotes the position set last, in
the current frame. -/
def Coherent (earth : Earth) (s : PosState) (ops : List PosOp) : Prop :=
  ∀ r, (run (step earth) (stateInit s) ops).bitIsSet r = true →
    (run (specStep earth) specInit ops).last =
      some (positionOf earth (frameOf (run (step earth) (stateInit s) ops))
        ((run (step earth) (stateInit s) ops).coord r))

/-- In every run from `stateInit` whose getters find a conversion path, every
valid representation, and the result of every further such getter, denotes the
position set last. -/
theorem position_coherent (earth : Earth) (s : PosState) (ops : List PosOp)
    (hok : RunOk (step earth) (CallOk earth) (stateInit s) ops) :
    Coherent earth s ops ∧
    ∀ r, CallOk earth (run (step earth) (stateInit s) ops) (.get r) →
      (run (specStep earth) specInit ops).last =
        some (positionOf earth (frameOf (run (step earth) (stateInit s) ops))
          (stateGetPosition earth r (run (step earth) (stateInit s) ops)).2) := by
  have h := refines_run hok
  constructor
  · intro r hr
    rw [h.frame_eq]
    exact h.coherent r hr
  · intro r hr
    rw [h.frame_eq]
    exact (h.get hr).coherent r (bitIsSet_stateGetPosition earth r _)

/-- A flat earth, on which the three global coordinates are the same numbers. -/
def flatEarth : Earth where
  ecefOfLla :=
    { toFun := fun l => ![l.lat, l.lon, l.alt]
      invFun := fun v => { lat := v 0, lon := v 1, alt := v 2 }
      left_inv := fun _ => rfl
      right_inv := fun v => by
        funext i
        fin_cases i <;> rfl }
  utmOfLla :=
    { toFun := fun l => { north := l.lat, east := l.lon, alt := l.alt }
      invFun := fun u => { lat := u.north, lon := u.east, alt := u.alt }
      left_inv := fun _ => rfl
      right_inv := fun _ => rfl }

/-- The memory before `stateInit`. -/
def zeroState : PosState where
  posStatus := fun _ => false
  ecefPosI := 0
  llaPosI := ⟨0, 0, 0⟩
  nedOriginI := ⟨0, ⟨0, 0, 0⟩, ⟨1, by simp⟩, 0⟩
  nedInitializedI := false
  nedPosI := 0
  enuPosI := 0
  utmPosF := ⟨0, 0, 0⟩
  llaPosF := ⟨0, 0, 0⟩
  ecefPosF := 0
  nedOriginF := ⟨0, ⟨0, 0, 0⟩, ⟨1, by simp⟩, 0⟩
  nedInitializedF := false
  utmOriginF := ⟨0, 0, 0⟩
  utmInitializedF := false
  nedPosF := 0
  enuPosF := 0

/-- An origin, a local position and the derivation of two global ones. -/
def localRun : List PosOp :=
  [.setLocalOriginI zeroState.nedOriginI, .set (.nedF ![1, 2, 3]), .get .ecefI, .get .llaF]

theorem position_coherent_localRun :
    Coherent flatEarth zeroState localRun ∧
    ∀ r, CallOk flatEarth (run (step flatEarth) (stateInit zeroState) localRun) (.get r) →
      (run (specStep flatEarth) specInit localRun).last =
        some (positionOf flatEarth
          (frameOf (run (step flatEarth) (stateInit zeroState) localRun))
          (stateGetPosition flatEarth r
            (run (step flatEarth) (stateInit zeroState) localRun)).2) :=
  position_coherent flatEarth zeroState localRun
    (show _ ∧ _ ∧ _ ∧ _ ∧ _ from ⟨trivial, trivial, Or.inr rfl, Or.inr rfl, trivial⟩)

/-- After the integer geodetic setter, the getter of the float one returns the
conversion of what the float field held before. -/
theorem lla_f_of_lla_i_not_coherent :
    ¬ Coherent flatEarth zeroState [.set (.llaI ⟨0, 0, 1000⟩), .get .llaF] := by
  intro h
  have hlla := h .llaF rfl
  change some (Position.world ![0 / 10 ^ 7, 0 / 10 ^ 7, 1000 / 10 ^ 3]) =
    some (Position.world ![0 / 10 ^ 7, 0 / 10 ^ 7, 0 / 10 ^ 3]) at hlla
  simp only [Option.some.injEq, Position.world.injEq] at hlla
  have halt : (1000 / 10 ^ 3 : ℚ) = 0 / 10 ^ 3 := congrFun hlla 2
  norm_num at halt

end Paparazzi.State.PositionCoherence
