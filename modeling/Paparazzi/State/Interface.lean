import Paparazzi.Math.Velocity
import Paparazzi.State.Position

/-!
The whole `struct State`: the position fields of `Position` and the fields of
the five other domains, with their status words, and the functions that set the
origin of the local frame for all of them.
-/

namespace Paparazzi.State.Interface

open Paparazzi.Math.Geodesy
open Paparazzi.Math.Velocity
open Paparazzi.State.Position

/-- The bit of `pos_status` that belongs to a representation; number 4 is
`POS_UTM_I`. -/
def posBit : PosRep → ℕ
  | .ecefI => 0
  | .nedI => 1
  | .enuI => 2
  | .llaI => 3
  | .ecefF => 5
  | .nedF => 6
  | .enuF => 7
  | .llaF => 8
  | .utmF => 9

/-! ### Speed -/

/-- The bits of `speed_status`. -/
inductive SpeedRep where
  | ecefI | nedI | enuI | hnormI | hdirI | ecefF | nedF | enuF | hnormF | hdirF
  deriving DecidableEq, Repr

namespace SpeedRep

def bit : SpeedRep → ℕ
  | .ecefI => 0
  | .nedI => 1
  | .enuI => 2
  | .hnormI => 3
  | .hdirI => 4
  | .ecefF => 5
  | .nedF => 6
  | .enuF => 7
  | .hnormF => 8
  | .hdirF => 9

/-- `SPEED_LOCAL_COORD`. -/
def isLocal : SpeedRep → Bool
  | .nedI | .enuI | .nedF | .enuF => true
  | _ => false

end SpeedRep

/-- A value in one of the ten speed representations. -/
inductive SpeedCoord where
  | ecefI (v : Vect3)
  | nedI (v : Vect3)
  | enuI (v : Vect3)
  | hnormI (n : Norm)
  | hdirI (a : ℚ)
  | ecefF (v : Vect3)
  | nedF (v : Vect3)
  | enuF (v : Vect3)
  | hnormF (n : Norm)
  | hdirF (a : ℚ)

def SpeedCoord.rep : SpeedCoord → SpeedRep
  | .ecefI _ => .ecefI
  | .nedI _ => .nedI
  | .enuI _ => .enuI
  | .hnormI _ => .hnormI
  | .hdirI _ => .hdirI
  | .ecefF _ => .ecefF
  | .nedF _ => .nedF
  | .enuF _ => .enuF
  | .hnormF _ => .hnormF
  | .hdirF _ => .hdirF

structure SpeedState where
  speedStatus : SpeedRep → Bool
  ecefSpeedI : Vect3
  nedSpeedI : Vect3
  enuSpeedI : Vect3
  hSpeedNormI : Norm
  hSpeedDirI : ℚ
  ecefSpeedF : Vect3
  nedSpeedF : Vect3
  enuSpeedF : Vect3
  hSpeedNormF : Norm
  hSpeedDirF : ℚ

namespace SpeedState

/-- Store a value in the field of its representation. -/
def put (s : SpeedState) : SpeedCoord → SpeedState
  | .ecefI v => { s with ecefSpeedI := v }
  | .nedI v => { s with nedSpeedI := v }
  | .enuI v => { s with enuSpeedI := v }
  | .hnormI n => { s with hSpeedNormI := n }
  | .hdirI a => { s with hSpeedDirI := a }
  | .ecefF v => { s with ecefSpeedF := v }
  | .nedF v => { s with nedSpeedF := v }
  | .enuF v => { s with enuSpeedF := v }
  | .hnormF n => { s with hSpeedNormF := n }
  | .hdirF a => { s with hSpeedDirF := a }

/-- The value stored for a representation. -/
def coord (s : SpeedState) : SpeedRep → SpeedCoord
  | .ecefI => .ecefI s.ecefSpeedI
  | .nedI => .nedI s.nedSpeedI
  | .enuI => .enuI s.enuSpeedI
  | .hnormI => .hnormI s.hSpeedNormI
  | .hdirI => .hdirI s.hSpeedDirI
  | .ecefF => .ecefF s.ecefSpeedF
  | .nedF => .nedF s.nedSpeedF
  | .enuF => .enuF s.enuSpeedF
  | .hnormF => .hnormF s.hSpeedNormF
  | .hdirF => .hdirF s.hSpeedDirF

def setBit (s : SpeedState) (r : SpeedRep) : SpeedState :=
  { s with speedStatus := fun r' => if r' = r then true else s.speedStatus r' }

def clearLocal (s : SpeedState) : SpeedState :=
  { s with speedStatus := fun r => s.speedStatus r && !r.isLocal }

@[simp] theorem coord_put_self (s : SpeedState) (c : SpeedCoord) : (s.put c).coord c.rep = c := by
  cases c <;> rfl

theorem coord_put_of_ne (s : SpeedState) (c : SpeedCoord) {r : SpeedRep} (h : r ≠ c.rep) :
    (s.put c).coord r = s.coord r := by
  cases c <;> cases r <;> first | rfl | exact absurd rfl h

@[simp] theorem speedStatus_put (s : SpeedState) (c : SpeedCoord) :
    (s.put c).speedStatus = s.speedStatus := by
  cases c <;> rfl

@[simp] theorem coord_setBit (s : SpeedState) (r r' : SpeedRep) :
    (s.setBit r).coord r' = s.coord r' := by
  cases r' <;> rfl

end SpeedState

/-! ### The other domains -/

/-- The bits of `accel_status`. -/
inductive AccelRep where
  | ecefI | nedI | ecefF | nedF
  deriving DecidableEq, Repr

def AccelRep.isLocal : AccelRep → Bool
  | .nedI | .nedF => true
  | _ => false

structure AccelState where
  accelStatus : AccelRep → Bool
  nedAccelI : Vect3
  ecefAccelI : Vect3
  nedAccelF : Vect3
  ecefAccelF : Vect3

def AccelState.setBit (s : AccelState) (r : AccelRep) : AccelState :=
  { s with accelStatus := fun r' => if r' = r then true else s.accelStatus r' }

def AccelState.clearLocal (s : AccelState) : AccelState :=
  { s with accelStatus := fun r => s.accelStatus r && !r.isLocal }

abbrev Quat := Fin 4 → ℚ

/-- The angles `phi`, `theta` and `psi`. -/
abbrev Eulers := Fin 3 → ℚ

abbrev RMat := Fin 9 → ℚ

/-- The bits of the status of `struct OrientationReps`. -/
inductive OrRep where
  | quatI | eulerI | rmatI | quatF | eulerF | rmatF
  deriving DecidableEq, Repr

structure OrientationReps where
  status : OrRep → Bool
  quatI : Quat
  eulersI : Eulers
  rmatI : RMat
  quatF : Quat
  eulersF : Eulers
  rmatF : RMat

def OrientationReps.setBit (o : OrientationReps) (r : OrRep) : OrientationReps :=
  { o with status := fun r' => if r' = r then true else o.status r' }

def OrientationReps.onlyBit (o : OrientationReps) (r : OrRep) : OrientationReps :=
  { o with status := fun r' => decide (r' = r) }

/-- The angular rates `p`, `q` and `r`. -/
abbrev Rates := Fin 3 → ℚ

/-- A status word, by the number of the bit. -/
abbrev StatusWord := ℕ → Bool

def StatusWord.setBit (w : StatusWord) (n : ℕ) : StatusWord :=
  fun n' => if n' = n then true else w n'

def StatusWord.clearBit (w : StatusWord) (n : ℕ) : StatusWord :=
  fun n' => if n' = n then false else w n'

def rateI : ℕ := 0

def rateF : ℕ := 1

structure RateState where
  rateStatus : StatusWord
  bodyRatesI : Rates
  bodyRatesF : Rates

def windspeedI : ℕ := 0

def airspeedI : ℕ := 1

def windspeedF : ℕ := 2

def airspeedF : ℕ := 3

def aoaF : ℕ := 4

def sideslipF : ℕ := 5

structure Vect2 where
  x : ℚ
  y : ℚ
  deriving DecidableEq

structure WindAirState where
  windAirStatus : StatusWord
  hWindspeedI : Vect2
  airspeedI : ℚ
  hWindspeedF : Vect2
  airspeedF : ℚ
  angleOfAttackF : ℚ
  sideslipF : ℚ

/-- `struct State`. -/
structure VehicleState where
  pos : PosState
  speed : SpeedState
  accel : AccelState
  nedToBodyOrientation : OrientationReps
  rate : RateState
  windAir : WindAirState

/-! ### Initialisation and origins -/

/-- `stateInit`: every status word and every origin flag is reset, the stored
values stay. -/
def stateInit (s : VehicleState) : VehicleState :=
  { pos := Position.stateInit s.pos
    speed := { s.speed with speedStatus := fun _ => false }
    accel := { s.accel with accelStatus := fun _ => false }
    nedToBodyOrientation := { s.nedToBodyOrientation with status := fun _ => false }
    rate := { s.rate with rateStatus := fun _ => false }
    windAir := { s.windAir with windAirStatus := fun _ => false } }

def stateSetLocalOriginI (ltpDef : LtpDef) (s : VehicleState) : VehicleState :=
  { s with
    pos := Position.stateSetLocalOriginI ltpDef s.pos
    speed := s.speed.clearLocal
    accel := s.accel.clearLocal }

def stateSetLocalUtmOriginF (utmDef : UtmCoor) (s : VehicleState) : VehicleState :=
  { s with
    pos := Position.stateSetLocalUtmOriginF utmDef s.pos
    speed := s.speed.clearLocal
    accel := s.accel.clearLocal }

/-! ### Access to a field of one domain -/

namespace VehicleState

def speedBitIsSet (s : VehicleState) (r : SpeedRep) : Bool := s.speed.speedStatus r

def setSpeedBit (s : VehicleState) (r : SpeedRep) : VehicleState := { s with speed := s.speed.setBit r }

def putSpeed (s : VehicleState) (c : SpeedCoord) : VehicleState := { s with speed := s.speed.put c }

def speedCoord (s : VehicleState) (r : SpeedRep) : SpeedCoord := s.speed.coord r

/-- `SetBit(state.pos_status, n)`. -/
def setPosBit (s : VehicleState) (n : ℕ) : VehicleState :=
  { s with
    pos := { s.pos with posStatus := fun r => if posBit r = n then true else s.pos.posStatus r } }

def setRateBit (s : VehicleState) (n : ℕ) : VehicleState :=
  { s with rate := { s.rate with rateStatus := s.rate.rateStatus.setBit n } }

@[simp] theorem speedBitIsSet_setSpeedBit (s : VehicleState) (r r' : SpeedRep) :
    (s.setSpeedBit r).speedBitIsSet r' = if r' = r then true else s.speedBitIsSet r' := rfl

@[simp] theorem speedBitIsSet_putSpeed (s : VehicleState) (c : SpeedCoord) (r : SpeedRep) :
    (s.putSpeed c).speedBitIsSet r = s.speedBitIsSet r := by
  simp [speedBitIsSet, putSpeed]

@[simp] theorem speedCoord_setSpeedBit (s : VehicleState) (r r' : SpeedRep) :
    (s.setSpeedBit r).speedCoord r' = s.speedCoord r' :=
  SpeedState.coord_setBit s.speed r r'

@[simp] theorem speedCoord_putSpeed_self (s : VehicleState) (c : SpeedCoord) :
    (s.putSpeed c).speedCoord c.rep = c :=
  SpeedState.coord_put_self s.speed c

theorem speedCoord_putSpeed_of_ne (s : VehicleState) (c : SpeedCoord) {r : SpeedRep} (h : r ≠ c.rep) :
    (s.putSpeed c).speedCoord r = s.speedCoord r :=
  SpeedState.coord_put_of_ne s.speed c h

@[simp] theorem pos_putSpeed (s : VehicleState) (c : SpeedCoord) : (s.putSpeed c).pos = s.pos := rfl

@[simp] theorem pos_setSpeedBit (s : VehicleState) (r : SpeedRep) : (s.setSpeedBit r).pos = s.pos := rfl

@[simp] theorem speed_setPosBit (s : VehicleState) (n : ℕ) : (s.setPosBit n).speed = s.speed := rfl

end VehicleState

end Paparazzi.State.Interface
