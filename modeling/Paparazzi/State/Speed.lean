import Mathlib
import Paparazzi.Library.Numerals
import Paparazzi.State.Interface

/-!
The speed functions of the state interface. The functions work on the whole
state: they read the origins of the position part, and two of them set a bit of
`pos_status`.
-/

namespace Paparazzi.State.Speed

open Paparazzi.Math.Geodesy
open Paparazzi.Math.Velocity
open Paparazzi.State.Interface

attribute [local instance] Library.Numerals.neZero_three

/-! ### Setters -/

/-- The common body of the setters of one coordinate: copy the value, then clear
all speed bits and set the new one. -/
def stateSetSpeed (c : SpeedCoord) (s : VehicleState) : VehicleState :=
  { s with
    speed := { s.speed.put c with speedStatus := fun r => decide (r = c.rep) } }

def stateSetSpeedNedI (v : Vect3) : VehicleState → VehicleState := stateSetSpeed (.nedI v)
def stateSetSpeedEnuI (v : Vect3) : VehicleState → VehicleState := stateSetSpeed (.enuI v)
def stateSetSpeedEcefI (v : Vect3) : VehicleState → VehicleState := stateSetSpeed (.ecefI v)
def stateSetSpeedNedF (v : Vect3) : VehicleState → VehicleState := stateSetSpeed (.nedF v)
def stateSetSpeedEnuF (v : Vect3) : VehicleState → VehicleState := stateSetSpeed (.enuF v)
def stateSetSpeedEcefF (v : Vect3) : VehicleState → VehicleState := stateSetSpeed (.ecefF v)

/-- The common body of the two setters of several coordinates. -/
def stateSetSpeeds (given : List SpeedCoord) (s : VehicleState) : VehicleState :=
  given.foldl (fun s c => (s.putSpeed c).setSpeedBit c.rep)
    { s with speed := { s.speed with speedStatus := fun _ => false } }

/-- The coordinates given to `stateSetSpeed_i`; a null pointer is `none`. -/
def givenI (ecef ned enu : Option Vect3) : List SpeedCoord :=
  (ecef.map SpeedCoord.ecefI).toList ++ (ned.map SpeedCoord.nedI).toList ++
    (enu.map SpeedCoord.enuI).toList

def stateSetSpeedI (ecef ned enu : Option Vect3) : VehicleState → VehicleState :=
  stateSetSpeeds (givenI ecef ned enu)

def givenF (ecef ned enu : Option Vect3) : List SpeedCoord :=
  (ecef.map SpeedCoord.ecefF).toList ++ (ned.map SpeedCoord.nedF).toList ++
    (enu.map SpeedCoord.enuF).toList

def stateSetSpeedF (ecef ned enu : Option Vect3) : VehicleState → VehicleState :=
  stateSetSpeeds (givenF ecef ned enu)

/-! ### Transformation functions -/

def stateCalcSpeedNedI (s : VehicleState) : VehicleState :=
  if s.speedBitIsSet .nedI then s
  else
    (if s.pos.nedInitializedI then
      if s.speedBitIsSet .nedF then
        s.putSpeed (.nedI (speedsBfpOfReal s.speed.nedSpeedF))
      else if s.speedBitIsSet .enuI then
        s.putSpeed (.nedI (vect3NedOfEnu s.speed.enuSpeedI))
      else if s.speedBitIsSet .enuF then
        let s := (s.putSpeed (.enuI (speedsBfpOfReal s.speed.enuSpeedF))).setSpeedBit .enuI
        s.putSpeed (.nedI (vect3NedOfEnu s.speed.enuSpeedI))
      else if s.speedBitIsSet .ecefI then
        s.putSpeed (.nedI (nedOfEcefVectI s.pos.nedOriginI s.speed.ecefSpeedI))
      else if s.speedBitIsSet .ecefF then
        let s := (s.putSpeed (.ecefI (speedsBfpOfReal s.speed.ecefSpeedF))).setSpeedBit .ecefI
        s.putSpeed (.nedI (nedOfEcefVectI s.pos.nedOriginI s.speed.ecefSpeedI))
      else s
    else if s.pos.utmInitializedF then
      if s.speedBitIsSet .nedF then
        s.putSpeed (.nedI (speedsBfpOfReal s.speed.nedSpeedF))
      else if s.speedBitIsSet .enuI then
        s.putSpeed (.nedI (vect3NedOfEnu s.speed.enuSpeedI))
      else if s.speedBitIsSet .enuF then
        let s := (s.putSpeed (.enuI (speedsBfpOfReal s.speed.enuSpeedF))).setSpeedBit .enuI
        s.putSpeed (.nedI (vect3NedOfEnu s.speed.enuSpeedI))
      else s
    else s).setSpeedBit .nedI

def stateCalcSpeedEnuI (s : VehicleState) : VehicleState :=
  if s.speedBitIsSet .enuI then s
  else
    (if s.pos.nedInitializedI then
      -- the source has no `else` after this test
      let s := if s.speedBitIsSet .nedI then
          s.putSpeed (.enuI (vect3EnuOfNed s.speed.nedSpeedI))
        else s
      if s.speedBitIsSet .enuF then
        -- and uses the fixed-point format of positions here
        s.putSpeed (.enuI (nedBfpOfReal s.speed.enuSpeedF))
      else if s.speedBitIsSet .nedF then
        let s := (s.putSpeed (.nedI (speedsBfpOfReal s.speed.nedSpeedF))).setPosBit
          SpeedRep.nedI.bit
        s.putSpeed (.enuI (vect3EnuOfNed s.speed.nedSpeedI))
      else if s.speedBitIsSet .ecefI then
        s.putSpeed (.enuI (enuOfEcefVectI s.pos.nedOriginI s.speed.ecefSpeedI))
      else if s.speedBitIsSet .ecefF then
        let s := (s.putSpeed (.ecefI (speedsBfpOfReal s.speed.ecefSpeedF))).setSpeedBit .ecefI
        s.putSpeed (.enuI (enuOfEcefVectI s.pos.nedOriginI s.speed.ecefSpeedI))
      else s
    else if s.pos.utmInitializedF then
      let s := if s.speedBitIsSet .nedI then
          s.putSpeed (.enuI (vect3EnuOfNed s.speed.nedSpeedI))
        else s
      if s.speedBitIsSet .enuF then
        s.putSpeed (.enuI (nedBfpOfReal s.speed.enuSpeedF))
      else if s.speedBitIsSet .nedF then
        let s := (s.putSpeed (.nedI (speedsBfpOfReal s.speed.nedSpeedF))).setPosBit
          SpeedRep.nedI.bit
        s.putSpeed (.enuI (vect3EnuOfNed s.speed.nedSpeedI))
      else s
    else s).setSpeedBit .enuI

def stateCalcSpeedEcefI (s : VehicleState) : VehicleState :=
  if s.speedBitIsSet .ecefI then s
  else
    (if s.speedBitIsSet .ecefF then
      s.putSpeed (.ecefI (speedsBfpOfReal s.speed.ecefSpeedF))
    else if s.speedBitIsSet .nedI then
      s.putSpeed (.ecefI (ecefOfNedVectI s.pos.nedOriginI s.speed.nedSpeedI))
    else if s.speedBitIsSet .nedF then
      let s := (s.putSpeed (.nedI (speedsBfpOfReal s.speed.nedSpeedF))).setSpeedBit .nedI
      s.putSpeed (.ecefI (ecefOfNedVectI s.pos.nedOriginI s.speed.nedSpeedI))
    else s).setSpeedBit .ecefI

def stateCalcHorizontalSpeedNormI (s : VehicleState) : VehicleState :=
  if s.speedBitIsSet .hnormI then s
  else
    (if s.speedBitIsSet .hnormF then
      s.putSpeed (.hnormI s.speed.hSpeedNormF.speedBfpOfReal)
    else if s.speedBitIsSet .nedI then
      s.putSpeed (.hnormI (Norm.int32Shifted (s.speed.nedSpeedI 0) (s.speed.nedSpeedI 1)))
    else if s.speedBitIsSet .nedF then
      let s := (s.putSpeed (.hnormF
        (Norm.floatVect2 (s.speed.nedSpeedF 0) (s.speed.nedSpeedF 1)))).setSpeedBit .hnormF
      s.putSpeed (.hnormI s.speed.hSpeedNormF.speedBfpOfReal)
    else if s.speedBitIsSet .enuI then
      s.putSpeed (.hnormI (Norm.int32Shifted (s.speed.enuSpeedI 0) (s.speed.enuSpeedI 1)))
    else if s.speedBitIsSet .enuF then
      let s := (s.putSpeed (.hnormF
        (Norm.floatVect2 (s.speed.enuSpeedF 0) (s.speed.enuSpeedF 1)))).setSpeedBit .hnormF
      s.putSpeed (.hnormI s.speed.hSpeedNormF.speedBfpOfReal)
    else if s.speedBitIsSet .ecefI then
      let s := (s.putSpeed (.nedI
        (nedOfEcefVectI s.pos.nedOriginI s.speed.ecefSpeedI))).setSpeedBit .nedI
      s.putSpeed (.hnormI (Norm.int32Shifted (s.speed.nedSpeedI 0) (s.speed.nedSpeedI 1)))
    else if s.speedBitIsSet .ecefF then
      let s := (s.putSpeed (.nedF
        (nedOfEcefVectF s.pos.nedOriginF s.speed.ecefSpeedF))).setSpeedBit .nedF
      let s := (s.putSpeed (.hnormF
        (Norm.floatVect2 (s.speed.nedSpeedF 0) (s.speed.nedSpeedF 1)))).setSpeedBit .hnormF
      s.putSpeed (.hnormI s.speed.hSpeedNormF.speedBfpOfReal)
    else s).setSpeedBit .hnormI

def stateCalcSpeedNedF (s : VehicleState) : VehicleState :=
  if s.speedBitIsSet .nedF then s
  else
    (if s.pos.nedInitializedF then
      if s.speedBitIsSet .nedI then
        s.putSpeed (.nedF (speedsFloatOfBfp s.speed.nedSpeedI))
      else if s.speedBitIsSet .enuF then
        s.putSpeed (.nedF (vect3NedOfEnu s.speed.enuSpeedF))
      else if s.speedBitIsSet .enuI then
        let s := (s.putSpeed (.enuF (speedsFloatOfBfp s.speed.enuSpeedI))).setSpeedBit .enuF
        s.putSpeed (.nedF (vect3NedOfEnu s.speed.enuSpeedF))
      else if s.speedBitIsSet .ecefF then
        s.putSpeed (.nedF (nedOfEcefVectF s.pos.nedOriginF s.speed.ecefSpeedF))
      else if s.speedBitIsSet .ecefI then
        let s := (s.putSpeed (.ecefF (speedsFloatOfBfp s.speed.ecefSpeedI))).setSpeedBit .ecefF
        s.putSpeed (.nedF (nedOfEcefVectF s.pos.nedOriginF s.speed.ecefSpeedF))
      else s
    else if s.pos.utmInitializedF then
      if s.speedBitIsSet .nedI then
        s.putSpeed (.nedF (speedsFloatOfBfp s.speed.nedSpeedI))
      else if s.speedBitIsSet .enuF then
        s.putSpeed (.nedF (vect3NedOfEnu s.speed.enuSpeedF))
      else if s.speedBitIsSet .enuI then
        let s := (s.putSpeed (.enuF (speedsFloatOfBfp s.speed.enuSpeedI))).setSpeedBit .enuF
        s.putSpeed (.nedF (vect3NedOfEnu s.speed.enuSpeedF))
      else s
    else s).setSpeedBit .nedF

def stateCalcSpeedEnuF (s : VehicleState) : VehicleState :=
  if s.speedBitIsSet .enuF then s
  else
    (if s.pos.nedInitializedF then
      if s.speedBitIsSet .nedF then
        s.putSpeed (.enuF (vect3EnuOfNed s.speed.nedSpeedF))
      else if s.speedBitIsSet .enuI then
        s.putSpeed (.enuF (nedFloatOfBfp s.speed.enuSpeedI))
      else if s.speedBitIsSet .nedI then
        let s := (s.putSpeed (.nedF (speedsFloatOfBfp s.speed.nedSpeedI))).setPosBit
          SpeedRep.nedF.bit
        s.putSpeed (.enuF (vect3EnuOfNed s.speed.nedSpeedF))
      else if s.speedBitIsSet .ecefF then
        s.putSpeed (.enuF (enuOfEcefVectF s.pos.nedOriginF s.speed.ecefSpeedF))
      else if s.speedBitIsSet .ecefI then
        let s := (s.putSpeed (.ecefF (speedsFloatOfBfp s.speed.ecefSpeedI))).setSpeedBit .ecefF
        s.putSpeed (.enuF (enuOfEcefVectF s.pos.nedOriginF s.speed.ecefSpeedF))
      else s
    else if s.pos.utmInitializedF then
      if s.speedBitIsSet .nedF then
        s.putSpeed (.enuF (vect3EnuOfNed s.speed.nedSpeedF))
      else if s.speedBitIsSet .enuI then
        s.putSpeed (.enuF (nedFloatOfBfp s.speed.enuSpeedI))
      else if s.speedBitIsSet .nedI then
        let s := (s.putSpeed (.nedF (speedsFloatOfBfp s.speed.nedSpeedI))).setPosBit
          SpeedRep.nedF.bit
        s.putSpeed (.enuF (vect3EnuOfNed s.speed.nedSpeedF))
      else s
    else s).setSpeedBit .enuF

def stateCalcSpeedEcefF (s : VehicleState) : VehicleState :=
  if s.speedBitIsSet .ecefF then s
  else
    (if s.speedBitIsSet .ecefI then
      -- the source converts the local speed here
      s.putSpeed (.ecefF (speedsFloatOfBfp s.speed.nedSpeedI))
    else if s.speedBitIsSet .nedF then
      s.putSpeed (.ecefF (ecefOfNedVectF s.pos.nedOriginF s.speed.nedSpeedF))
    else if s.speedBitIsSet .nedI then
      let s := (s.putSpeed (.nedF (speedsFloatOfBfp s.speed.nedSpeedI))).setSpeedBit .nedF
      s.putSpeed (.ecefF (ecefOfNedVectF s.pos.nedOriginF s.speed.nedSpeedF))
    else s).setSpeedBit .ecefF

def stateCalcHorizontalSpeedNormF (s : VehicleState) : VehicleState :=
  if s.speedBitIsSet .hnormF then s
  else
    (if s.speedBitIsSet .hnormI then
      s.putSpeed (.hnormF s.speed.hSpeedNormI.speedFloatOfBfp)
    else if s.speedBitIsSet .nedF then
      s.putSpeed (.hnormF (Norm.floatVect2 (s.speed.nedSpeedF 0) (s.speed.nedSpeedF 1)))
    else if s.speedBitIsSet .enuF then
      s.putSpeed (.hnormF (Norm.floatVect2 (s.speed.enuSpeedF 0) (s.speed.enuSpeedF 1)))
    else if s.speedBitIsSet .nedI then
      let s := (s.putSpeed (.nedF (speedsFloatOfBfp s.speed.nedSpeedI))).setSpeedBit .nedF
      s.putSpeed (.hnormF (Norm.floatVect2 (s.speed.nedSpeedF 0) (s.speed.nedSpeedF 1)))
    else if s.speedBitIsSet .enuI then
      let s := (s.putSpeed (.enuF (speedsFloatOfBfp s.speed.enuSpeedI))).setSpeedBit .enuF
      s.putSpeed (.hnormF (Norm.floatVect2 (s.speed.enuSpeedF 0) (s.speed.enuSpeedF 1)))
    else s).setSpeedBit .hnormF

section Directions

variable (trig : Trig)

def stateCalcHorizontalSpeedDirI (s : VehicleState) : VehicleState :=
  if s.speedBitIsSet .hdirI then s
  else
    (if s.speedBitIsSet .hdirF then
      -- the source uses the fixed-point format of speeds for the angle
      s.putSpeed (.hdirI (speedBfpOfReal s.speed.hSpeedDirF))
    else if s.speedBitIsSet .nedI then
      s.putSpeed (.hdirI (int32CourseNormalize
        (int32Atan2 trig (s.speed.nedSpeedI 1) (s.speed.nedSpeedI 0))))
    else if s.speedBitIsSet .enuI then
      s.putSpeed (.hdirI (int32CourseNormalize
        (int32Atan2 trig (s.speed.enuSpeedI 0) (s.speed.enuSpeedI 1))))
    else if s.speedBitIsSet .nedF then
      let s := (s.putSpeed (.nedI (speedsBfpOfReal s.speed.nedSpeedF))).setSpeedBit .nedI
      s.putSpeed (.hdirI (int32CourseNormalize
        (int32Atan2 trig (s.speed.nedSpeedI 1) (s.speed.nedSpeedI 0))))
    else if s.speedBitIsSet .enuF then
      let s := (s.putSpeed (.enuI (speedsBfpOfReal s.speed.enuSpeedF))).setSpeedBit .enuI
      s.putSpeed (.hdirI (int32CourseNormalize
        (int32Atan2 trig (s.speed.enuSpeedI 0) (s.speed.enuSpeedI 1))))
    else s).setSpeedBit .hdirI

def stateCalcHorizontalSpeedDirF (s : VehicleState) : VehicleState :=
  if s.speedBitIsSet .hdirF then s
  else
    (if s.speedBitIsSet .hdirI then
      s.putSpeed (.hdirF (speedFloatOfBfp s.speed.hSpeedDirI))
    else if s.speedBitIsSet .nedF then
      s.putSpeed (.hdirF (trig.atan2 (s.speed.nedSpeedF 1) (s.speed.nedSpeedF 0)))
    else if s.speedBitIsSet .enuF then
      s.putSpeed (.hdirF (trig.atan2 (s.speed.enuSpeedF 0) (s.speed.enuSpeedF 1)))
    else if s.speedBitIsSet .nedI then
      let s := (s.putSpeed (.nedF (speedsFloatOfBfp s.speed.nedSpeedI))).setSpeedBit .nedF
      s.putSpeed (.hdirF (trig.atan2 (s.speed.nedSpeedF 1) (s.speed.nedSpeedF 0)))
    else if s.speedBitIsSet .enuI then
      let s := (s.putSpeed (.enuF (speedsFloatOfBfp s.speed.enuSpeedI))).setSpeedBit .enuF
      s.putSpeed (.hdirF (trig.atan2 (s.speed.enuSpeedF 0) (s.speed.enuSpeedF 1)))
    else s).setSpeedBit .hdirF

/-- The transformation function of a representation. -/
def stateCalcSpeed : SpeedRep → VehicleState → VehicleState
  | .ecefI => stateCalcSpeedEcefI
  | .nedI => stateCalcSpeedNedI
  | .enuI => stateCalcSpeedEnuI
  | .hnormI => stateCalcHorizontalSpeedNormI
  | .hdirI => stateCalcHorizontalSpeedDirI trig
  | .ecefF => stateCalcSpeedEcefF
  | .nedF => stateCalcSpeedNedF
  | .enuF => stateCalcSpeedEnuF
  | .hnormF => stateCalcHorizontalSpeedNormF
  | .hdirF => stateCalcHorizontalSpeedDirF trig

/-- `stateGetSpeedNed_i` to `stateGetHorizontalSpeedDir_f`: compute the
representation if its bit is clear, then return the stored value. -/
def stateGetSpeed (r : SpeedRep) (s : VehicleState) : VehicleState × SpeedCoord :=
  let s := if s.speedBitIsSet r then s else stateCalcSpeed trig r s
  (s, s.speedCoord r)

end Directions

end Paparazzi.State.Speed
