import Paparazzi.Math.Geodesy

/-!
The position part of the state interface: one stored value and one validity bit
for each representation, the setters that invalidate all other representations,
and the `stateCalcPosition` functions that fill in a representation on demand.
-/

namespace Paparazzi.State.Position

open Paparazzi.Math.Geodesy

/-- The bits of `pos_status`, one for each stored representation (no value is
stored for `POS_UTM_I`). -/
inductive PosRep where
  | ecefI | nedI | enuI | llaI | ecefF | nedF | enuF | llaF | utmF
  deriving DecidableEq, Repr

/-- `POS_LOCAL_COORD`. -/
def PosRep.isLocal : PosRep → Bool
  | .nedI | .nedF | .enuI | .enuF => true
  | _ => false

/-- A value in one of the nine stored representations. -/
inductive Coord where
  | ecefI (v : Vect3)
  | nedI (v : Vect3)
  | enuI (v : Vect3)
  | llaI (l : LlaCoor)
  | ecefF (v : Vect3)
  | nedF (v : Vect3)
  | enuF (v : Vect3)
  | llaF (l : LlaCoor)
  | utmF (u : UtmCoor)

def Coord.rep : Coord → PosRep
  | .ecefI _ => .ecefI
  | .nedI _ => .nedI
  | .enuI _ => .enuI
  | .llaI _ => .llaI
  | .ecefF _ => .ecefF
  | .nedF _ => .nedF
  | .enuF _ => .enuF
  | .llaF _ => .llaF
  | .utmF _ => .utmF

/-- The position fields of `struct State`. -/
structure PosState where
  posStatus : PosRep → Bool
  ecefPosI : Vect3
  llaPosI : LlaCoor
  nedOriginI : LtpDef
  nedInitializedI : Bool
  nedPosI : Vect3
  enuPosI : Vect3
  utmPosF : UtmCoor
  llaPosF : LlaCoor
  ecefPosF : Vect3
  nedOriginF : LtpDef
  nedInitializedF : Bool
  utmOriginF : UtmCoor
  utmInitializedF : Bool
  nedPosF : Vect3
  enuPosF : Vect3

namespace PosState

def bitIsSet (s : PosState) (r : PosRep) : Bool := s.posStatus r

def setBit (s : PosState) (r : PosRep) : PosState :=
  { s with posStatus := fun r' => if r' = r then true else s.posStatus r' }

/-- Clear all status bits and set one. -/
def onlyBit (s : PosState) (r : PosRep) : PosState :=
  { s with posStatus := fun r' => decide (r' = r) }

/-- Clear the bits of the local frame representations. -/
def clearLocal (s : PosState) : PosState :=
  { s with posStatus := fun r => s.posStatus r && !r.isLocal }

/-- Store a value in the field of its representation. -/
def put (s : PosState) : Coord → PosState
  | .ecefI v => { s with ecefPosI := v }
  | .nedI v => { s with nedPosI := v }
  | .enuI v => { s with enuPosI := v }
  | .llaI l => { s with llaPosI := l }
  | .ecefF v => { s with ecefPosF := v }
  | .nedF v => { s with nedPosF := v }
  | .enuF v => { s with enuPosF := v }
  | .llaF l => { s with llaPosF := l }
  | .utmF u => { s with utmPosF := u }

/-- The value stored for a representation. -/
def coord (s : PosState) : PosRep → Coord
  | .ecefI => .ecefI s.ecefPosI
  | .nedI => .nedI s.nedPosI
  | .enuI => .enuI s.enuPosI
  | .llaI => .llaI s.llaPosI
  | .ecefF => .ecefF s.ecefPosF
  | .nedF => .nedF s.nedPosF
  | .enuF => .enuF s.enuPosF
  | .llaF => .llaF s.llaPosF
  | .utmF => .utmF s.utmPosF

@[simp] theorem bitIsSet_setBit (s : PosState) (r r' : PosRep) :
    (s.setBit r).bitIsSet r' = if r' = r then true else s.bitIsSet r' := rfl

@[simp] theorem bitIsSet_onlyBit (s : PosState) (r r' : PosRep) :
    (s.onlyBit r).bitIsSet r' = decide (r' = r) := rfl

@[simp] theorem bitIsSet_clearLocal (s : PosState) (r : PosRep) :
    s.clearLocal.bitIsSet r = (s.bitIsSet r && !r.isLocal) := rfl

@[simp] theorem bitIsSet_put (s : PosState) (c : Coord) (r : PosRep) :
    (s.put c).bitIsSet r = s.bitIsSet r := by
  cases c <;> rfl

@[simp] theorem coord_setBit (s : PosState) (r r' : PosRep) :
    (s.setBit r).coord r' = s.coord r' := by
  cases r' <;> rfl

@[simp] theorem coord_onlyBit (s : PosState) (r r' : PosRep) :
    (s.onlyBit r).coord r' = s.coord r' := by
  cases r' <;> rfl

@[simp] theorem coord_clearLocal (s : PosState) (r : PosRep) :
    s.clearLocal.coord r = s.coord r := by
  cases r <;> rfl

@[simp] theorem coord_put_self (s : PosState) (c : Coord) :
    (s.put c).coord c.rep = c := by
  cases c <;> rfl

theorem coord_put_of_ne (s : PosState) (c : Coord) {r : PosRep} (h : r ≠ c.rep) :
    (s.put c).coord r = s.coord r := by
  cases c <;> cases r <;> first | rfl | exact absurd rfl h

theorem setBit_put (s : PosState) (c : Coord) (r : PosRep) :
    (s.setBit r).put c = (s.put c).setBit r := by
  cases c <;> rfl

end PosState

/-! ### Initialisation and origins -/

/-- `stateInit` resets the status and the origin flags and leaves the stored
values as they are. -/
def stateInit (s : PosState) : PosState :=
  { s with
    posStatus := fun _ => false
    nedInitializedI := false
    nedInitializedF := false
    utmInitializedF := false }

def stateSetLocalOriginI (ltpDef : LtpDef) (s : PosState) : PosState :=
  { s.clearLocal with
    nedOriginI := ltpDef
    nedOriginF := ltpFloatOfBfp ltpDef
    nedInitializedI := true
    nedInitializedF := true }

def stateSetLocalUtmOriginF (utmDef : UtmCoor) (s : PosState) : PosState :=
  { s.clearLocal with
    utmOriginF := utmDef
    utmInitializedF := true }

/-! ### Setters -/

/-- The common body of `stateSetPositionEcef_i` to `stateSetPositionLla_f`:
copy the value, then clear all position bits and set the new one. -/
def stateSetPosition (c : Coord) (s : PosState) : PosState :=
  (s.put c).onlyBit c.rep

def stateSetPositionEcefI (v : Vect3) : PosState → PosState := stateSetPosition (.ecefI v)
def stateSetPositionNedI (v : Vect3) : PosState → PosState := stateSetPosition (.nedI v)
def stateSetPositionEnuI (v : Vect3) : PosState → PosState := stateSetPosition (.enuI v)
def stateSetPositionLlaI (l : LlaCoor) : PosState → PosState := stateSetPosition (.llaI l)
def stateSetPositionUtmF (u : UtmCoor) : PosState → PosState := stateSetPosition (.utmF u)
def stateSetPositionEcefF (v : Vect3) : PosState → PosState := stateSetPosition (.ecefF v)
def stateSetPositionNedF (v : Vect3) : PosState → PosState := stateSetPosition (.nedF v)
def stateSetPositionEnuF (v : Vect3) : PosState → PosState := stateSetPosition (.enuF v)
def stateSetPositionLlaF (l : LlaCoor) : PosState → PosState := stateSetPosition (.llaF l)

/-- The common body of the two setters of several coordinates: clear the status,
then copy every given value and set its bit. -/
def stateSetPositions (given : List Coord) (s : PosState) : PosState :=
  given.foldl (fun s c => (s.put c).setBit c.rep) { s with posStatus := fun _ => false }

/-- The coordinates given to `stateSetPosition_i`; a null pointer is `none`. -/
def givenI (ecef ned enu : Option Vect3) (lla : Option LlaCoor) : List Coord :=
  (ecef.map Coord.ecefI).toList ++ (ned.map Coord.nedI).toList ++
    (enu.map Coord.enuI).toList ++ (lla.map Coord.llaI).toList

def stateSetPositionI (ecef ned enu : Option Vect3) (lla : Option LlaCoor) :
    PosState → PosState :=
  stateSetPositions (givenI ecef ned enu lla)

/-- The coordinates given to `stateSetPosition_f`. -/
def givenF (ecef ned enu : Option Vect3) (lla : Option LlaCoor) (utm : Option UtmCoor) :
    List Coord :=
  (ecef.map Coord.ecefF).toList ++ (ned.map Coord.nedF).toList ++
    (enu.map Coord.enuF).toList ++ (lla.map Coord.llaF).toList ++
      (utm.map Coord.utmF).toList

def stateSetPositionF (ecef ned enu : Option Vect3) (lla : Option LlaCoor)
    (utm : Option UtmCoor) : PosState → PosState :=
  stateSetPositions (givenF ecef ned enu lla utm)

/-! ### Transformation functions -/

section Calc

variable (earth : Earth)

def stateCalcPositionEcefI (s : PosState) : PosState :=
  if s.bitIsSet .ecefI then s
  else
    (if s.bitIsSet .ecefF then
      s.put (.ecefI (ecefBfpOfReal s.ecefPosF))
    else if s.bitIsSet .nedI then
      s.put (.ecefI (ecefOfNedPosI s.nedOriginI s.nedPosI))
    else if s.bitIsSet .nedF then
      let s := (s.put (.ecefF (ecefOfNedPointF s.nedOriginF s.nedPosF))).setBit .ecefF
      s.put (.ecefI (ecefBfpOfReal s.ecefPosF))
    else if s.bitIsSet .llaF then
      let s := (s.put (.ecefF (earth.ecefOfLla s.llaPosF))).setBit .ecefF
      s.put (.ecefI (ecefBfpOfReal s.ecefPosF))
    else if s.bitIsSet .llaI then
      s.put (.ecefI (ecefOfLlaI earth s.llaPosI))
    else s).setBit .ecefI

def stateCalcPositionNedI (s : PosState) : PosState :=
  if s.bitIsSet .nedI then s
  else
    (if s.nedInitializedI then
      if s.bitIsSet .nedF then
        s.put (.nedI (nedBfpOfReal s.nedPosF))
      else if s.bitIsSet .enuI then
        s.put (.nedI (vect3NedOfEnu s.enuPosI))
      else if s.bitIsSet .enuF then
        let s := (s.put (.enuI (nedBfpOfReal s.enuPosF))).setBit .enuI
        s.put (.nedI (vect3NedOfEnu s.enuPosI))
      else if s.bitIsSet .ecefI then
        s.put (.nedI (nedOfEcefPosI s.nedOriginI s.ecefPosI))
      else if s.bitIsSet .ecefF then
        let s := (s.put (.nedF (nedOfEcefPointF s.nedOriginF s.ecefPosF))).setBit .nedF
        s.put (.nedI (nedBfpOfReal s.nedPosF))
      else if s.bitIsSet .llaF then
        let s := (s.put (.ecefF (earth.ecefOfLla s.llaPosF))).setBit .ecefF
        let s := (s.put (.nedF (nedOfEcefPointF s.nedOriginF s.ecefPosF))).setBit .nedF
        s.put (.nedI (nedBfpOfReal s.nedPosF))
      else if s.bitIsSet .llaI then
        s.put (.nedI (nedOfLlaPointI earth s.nedOriginI s.llaPosI))
      else s
    else if s.utmInitializedF then
      if s.bitIsSet .nedF then
        s.put (.nedI (nedBfpOfReal s.nedPosF))
      else if s.bitIsSet .enuI then
        s.put (.nedI (vect3NedOfEnu s.enuPosI))
      else if s.bitIsSet .enuF then
        let s := (s.put (.enuI (nedBfpOfReal s.enuPosF))).setBit .enuI
        s.put (.nedI (vect3NedOfEnu s.enuPosI))
      else if s.bitIsSet .utmF then
        let s := (s.put (.nedF (nedOfUtmDiff s.utmPosF s.utmOriginF))).setBit .nedF
        s.put (.nedI (nedBfpOfReal s.nedPosF))
      else if s.bitIsSet .llaF then
        let s := (s.put (.utmF (earth.utmOfLla s.llaPosF))).setBit .utmF
        let s := (s.put (.nedF (nedOfUtmDiff s.utmPosF s.utmOriginF))).setBit .nedF
        s.put (.nedI (nedBfpOfReal s.nedPosF))
      else if s.bitIsSet .llaI then
        let s := (s.put (.llaF (llaFloatOfBfp s.llaPosI))).setBit .llaF
        let s := (s.put (.utmF (earth.utmOfLla s.llaPosF))).setBit .utmF
        let s := (s.put (.nedF (nedOfUtmDiff s.utmPosF s.utmOriginF))).setBit .nedF
        s.put (.nedI (nedBfpOfReal s.nedPosF))
      else s
    else s).setBit .nedI

def stateCalcPositionEnuI (s : PosState) : PosState :=
  if s.bitIsSet .enuI then s
  else
    (if s.nedInitializedI then
      if s.bitIsSet .nedI then
        s.put (.enuI (vect3EnuOfNed s.nedPosI))
      else if s.bitIsSet .enuF then
        s.put (.enuI (nedBfpOfReal s.enuPosF))
      else if s.bitIsSet .nedF then
        let s := (s.put (.nedI (nedBfpOfReal s.nedPosF))).setBit .nedI
        s.put (.enuI (vect3EnuOfNed s.nedPosI))
      else if s.bitIsSet .ecefI then
        s.put (.enuI (enuOfEcefPosI s.nedOriginI s.ecefPosI))
      else if s.bitIsSet .ecefF then
        let s := (s.put (.enuF (enuOfEcefPointF s.nedOriginF s.ecefPosF))).setBit .enuF
        s.put (.enuI (nedBfpOfReal s.enuPosF))
      else if s.bitIsSet .llaF then
        let s := (s.put (.ecefF (earth.ecefOfLla s.llaPosF))).setBit .ecefF
        let s := (s.put (.enuF (enuOfEcefPointF s.nedOriginF s.ecefPosF))).setBit .enuF
        s.put (.enuI (nedBfpOfReal s.enuPosF))
      else if s.bitIsSet .llaI then
        s.put (.enuI (enuOfLlaPointI earth s.nedOriginI s.llaPosI))
      else s
    else if s.utmInitializedF then
      if s.bitIsSet .enuF then
        s.put (.enuI (nedBfpOfReal s.enuPosF))
      else if s.bitIsSet .nedI then
        s.put (.enuI (vect3EnuOfNed s.nedPosI))
      else if s.bitIsSet .nedF then
        let s := (s.put (.nedI (nedBfpOfReal s.nedPosF))).setBit .nedI
        s.put (.enuI (vect3EnuOfNed s.nedPosI))
      else if s.bitIsSet .utmF then
        let s := (s.put (.enuF (enuOfUtmDiff s.utmPosF s.utmOriginF))).setBit .enuF
        s.put (.enuI (nedBfpOfReal s.enuPosF))
      else if s.bitIsSet .llaF then
        let s := (s.put (.utmF (earth.utmOfLla s.llaPosF))).setBit .utmF
        let s := (s.put (.enuF (enuOfUtmDiff s.utmPosF s.utmOriginF))).setBit .enuF
        s.put (.enuI (nedBfpOfReal s.enuPosF))
      else if s.bitIsSet .llaI then
        let s := (s.put (.llaF (llaFloatOfBfp s.llaPosI))).setBit .llaF
        let s := (s.put (.utmF (earth.utmOfLla s.llaPosF))).setBit .utmF
        let s := (s.put (.enuF (enuOfUtmDiff s.utmPosF s.utmOriginF))).setBit .enuF
        s.put (.enuI (nedBfpOfReal s.enuPosF))
      else s
    else s).setBit .enuI

def stateCalcPositionLlaI (s : PosState) : PosState :=
  if s.bitIsSet .llaI then s
  else
    (if s.bitIsSet .llaF then
      s.put (.llaI (llaBfpOfReal s.llaPosF))
    else if s.bitIsSet .ecefI then
      s.put (.llaI (llaOfEcefI earth s.ecefPosI))
    else if s.bitIsSet .ecefF then
      let s := (s.put (.llaF (earth.ecefOfLla.symm s.ecefPosF))).setBit .llaF
      s.put (.llaI (llaBfpOfReal s.llaPosF))
    else if s.bitIsSet .nedF then
      let s := (s.put (.ecefF (ecefOfNedPointF s.nedOriginF s.nedPosF))).setBit .ecefF
      let s := (s.put (.llaF (earth.ecefOfLla.symm s.ecefPosF))).setBit .llaF
      s.put (.llaI (llaBfpOfReal s.llaPosF))
    else if s.bitIsSet .nedI then
      let s := (s.put (.ecefI (ecefOfNedPosI s.nedOriginI s.nedPosI))).setBit .ecefI
      s.put (.llaI (llaOfEcefI earth s.ecefPosI))
    else if s.bitIsSet .utmF then
      let s := (s.put (.llaF (earth.utmOfLla.symm s.utmPosF))).setBit .llaF
      s.put (.llaI (llaBfpOfReal s.llaPosF))
    else s).setBit .llaI

def stateCalcPositionUtmF (s : PosState) : PosState :=
  if s.bitIsSet .utmF then s
  else
    (if s.bitIsSet .llaF then
      s.put (.utmF (earth.utmOfLla s.llaPosF))
    else if s.bitIsSet .llaI then
      let s := (s.put (.llaF (llaFloatOfBfp s.llaPosI))).setBit .llaF
      s.put (.utmF (earth.utmOfLla s.llaPosF))
    else s).setBit .utmF

def stateCalcPositionEcefF (s : PosState) : PosState :=
  if s.bitIsSet .ecefF then s
  else
    (if s.bitIsSet .ecefI then
      s.put (.ecefF (ecefFloatOfBfp s.ecefPosI))
    else if s.bitIsSet .nedF then
      s.put (.ecefF (ecefOfNedPointF s.nedOriginF s.nedPosF))
    else if s.bitIsSet .nedI then
      -- the source sets the bit of the float representation here, before it is written
      let s := (s.put (.ecefI (ecefOfNedPosI s.nedOriginI s.nedPosI))).setBit .ecefF
      s.put (.ecefF (ecefFloatOfBfp s.ecefPosI))
    else if s.bitIsSet .llaF then
      s.put (.ecefF (earth.ecefOfLla s.llaPosF))
    else if s.bitIsSet .llaI then
      let s := (s.put (.llaF (llaFloatOfBfp s.llaPosI))).setBit .llaF
      s.put (.ecefF (earth.ecefOfLla s.llaPosF))
    else s).setBit .ecefF

def stateCalcPositionNedF (s : PosState) : PosState :=
  if s.bitIsSet .nedF then s
  else
    (if s.nedInitializedF then
      if s.bitIsSet .nedI then
        s.put (.nedF (nedFloatOfBfp s.nedPosI))
      else if s.bitIsSet .ecefF then
        s.put (.nedF (nedOfEcefPointF s.nedOriginF s.ecefPosF))
      else if s.bitIsSet .ecefI then
        let s := (s.put (.nedI (nedOfEcefPosI s.nedOriginI s.ecefPosI))).setBit .nedI
        s.put (.nedF (nedFloatOfBfp s.nedPosI))
      else if s.bitIsSet .llaF then
        s.put (.nedF (nedOfLlaPointF earth s.nedOriginF s.llaPosF))
      else if s.bitIsSet .llaI then
        let s := (s.put (.ecefI (ecefOfLlaI earth s.llaPosI))).setBit .ecefI
        let s := (s.put (.nedI (nedOfEcefPosI s.nedOriginI s.ecefPosI))).setBit .nedI
        s.put (.nedF (nedFloatOfBfp s.nedPosI))
      else s
    else if s.utmInitializedF then
      if s.bitIsSet .nedI then
        s.put (.nedF (nedFloatOfBfp s.nedPosI))
      else if s.bitIsSet .enuI then
        let s := (s.put (.enuF (nedFloatOfBfp s.enuPosI))).setBit .enuF
        s.put (.nedF (vect3NedOfEnu s.enuPosF))
      else if s.bitIsSet .enuF then
        s.put (.nedF (vect3NedOfEnu s.enuPosF))
      else if s.bitIsSet .utmF then
        s.put (.nedF (nedOfUtmDiff s.utmPosF s.utmOriginF))
      else if s.bitIsSet .llaF then
        let s := (s.put (.utmF (earth.utmOfLla s.llaPosF))).setBit .utmF
        s.put (.nedF (nedOfUtmDiff s.utmPosF s.utmOriginF))
      else if s.bitIsSet .llaI then
        let s := (s.put (.llaF (llaFloatOfBfp s.llaPosI))).setBit .llaF
        let s := (s.put (.utmF (earth.utmOfLla s.llaPosF))).setBit .utmF
        s.put (.nedF (nedOfUtmDiff s.utmPosF s.utmOriginF))
      else s
    else s).setBit .nedF

def stateCalcPositionEnuF (s : PosState) : PosState :=
  if s.bitIsSet .enuF then s
  else
    (if s.nedInitializedF then
      if s.bitIsSet .nedF then
        s.put (.enuF (vect3EnuOfNed s.nedPosF))
      else if s.bitIsSet .enuI then
        s.put (.enuF (nedFloatOfBfp s.enuPosI))
      else if s.bitIsSet .nedI then
        let s := (s.put (.nedF (nedFloatOfBfp s.nedPosI))).setBit .nedF
        s.put (.enuF (vect3EnuOfNed s.nedPosF))
      else if s.bitIsSet .ecefF then
        s.put (.enuF (enuOfEcefPointF s.nedOriginF s.ecefPosF))
      else if s.bitIsSet .ecefI then
        let s := (s.put (.enuI (enuOfEcefPosI s.nedOriginI s.ecefPosI))).setBit .enuI
        s.put (.enuF (nedFloatOfBfp s.enuPosI))
      else if s.bitIsSet .llaF then
        s.put (.enuF (enuOfLlaPointF earth s.nedOriginF s.llaPosF))
      else if s.bitIsSet .llaI then
        let s := (s.put (.ecefI (ecefOfLlaI earth s.llaPosI))).setBit .ecefI
        let s := (s.put (.enuI (enuOfEcefPosI s.nedOriginI s.ecefPosI))).setBit .enuI
        s.put (.enuF (nedFloatOfBfp s.enuPosI))
      else s
    else if s.utmInitializedF then
      if s.bitIsSet .enuI then
        s.put (.enuF (nedFloatOfBfp s.enuPosI))
      else if s.bitIsSet .nedF then
        s.put (.enuF (vect3EnuOfNed s.nedPosF))
      else if s.bitIsSet .nedI then
        let s := (s.put (.nedF (nedFloatOfBfp s.nedPosI))).setBit .nedF
        s.put (.enuF (vect3EnuOfNed s.nedPosF))
      else if s.bitIsSet .utmF then
        s.put (.enuF (enuOfUtmDiff s.utmPosF s.utmOriginF))
      else if s.bitIsSet .llaF then
        let s := (s.put (.utmF (earth.utmOfLla s.llaPosF))).setBit .utmF
        s.put (.enuF (enuOfUtmDiff s.utmPosF s.utmOriginF))
      else if s.bitIsSet .llaI then
        let s := (s.put (.llaF (llaFloatOfBfp s.llaPosI))).setBit .llaF
        let s := (s.put (.utmF (earth.utmOfLla s.llaPosF))).setBit .utmF
        s.put (.enuF (enuOfUtmDiff s.utmPosF s.utmOriginF))
      else s
    else s).setBit .enuF

def stateCalcPositionLlaF (s : PosState) : PosState :=
  if s.bitIsSet .llaF then s
  else
    (if s.bitIsSet .llaI then
      -- the source converts the float field itself, not the integer one
      s.put (.llaF (llaFloatOfBfp s.llaPosF))
    else if s.bitIsSet .ecefF then
      s.put (.llaF (earth.ecefOfLla.symm s.ecefPosF))
    else if s.bitIsSet .ecefI then
      let s := (s.put (.ecefF (ecefFloatOfBfp s.ecefPosI))).setBit .ecefF
      s.put (.llaF (earth.ecefOfLla.symm s.ecefPosF))
    else if s.bitIsSet .nedF then
      let s := (s.put (.ecefF (ecefOfNedPointF s.nedOriginF s.nedPosF))).setBit .ecefF
      s.put (.llaF (earth.ecefOfLla.symm s.ecefPosF))
    else if s.bitIsSet .nedI then
      let s := (s.put (.nedF (nedFloatOfBfp s.nedPosI))).setBit .nedF
      let s := (s.put (.ecefF (ecefOfNedPointF s.nedOriginF s.nedPosF))).setBit .ecefF
      s.put (.llaF (earth.ecefOfLla.symm s.ecefPosF))
    else if s.bitIsSet .utmF then
      s.put (.llaF (earth.utmOfLla.symm s.utmPosF))
    else s).setBit .llaF

/-- The transformation function of a representation. -/
def stateCalcPosition : PosRep → PosState → PosState
  | .ecefI => stateCalcPositionEcefI earth
  | .nedI => stateCalcPositionNedI earth
  | .enuI => stateCalcPositionEnuI earth
  | .llaI => stateCalcPositionLlaI earth
  | .ecefF => stateCalcPositionEcefF earth
  | .nedF => stateCalcPositionNedF earth
  | .enuF => stateCalcPositionEnuF earth
  | .llaF => stateCalcPositionLlaF earth
  | .utmF => stateCalcPositionUtmF earth

/-- `stateGetPositionEcef_i` to `stateGetPositionLla_f`: compute the
representation if its bit is clear, then return the stored value. -/
def stateGetPosition (r : PosRep) (s : PosState) : PosState × Coord :=
  let s := if s.bitIsSet r then s else stateCalcPosition earth r s
  (s, s.coord r)

end Calc

end Paparazzi.State.Position
