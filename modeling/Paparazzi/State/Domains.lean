import Paparazzi.State.Speed

/-!
The setters, getters and transformation functions of the acceleration, the
attitude, the body rates and the wind and airspeed. The rotations of the
attitude, which go through tables of trigonometric functions, are parameters.
-/

namespace Paparazzi.State.Domains

open Paparazzi.Math.Geodesy
open Paparazzi.Math.Velocity
open Paparazzi.State.Interface

/-! ### Acceleration -/

/-- `ACCELS_BFP_OF_REAL`, with `INT32_ACCEL_FRAC` fractional bits. -/
def accelsBfpOfReal (v : Vect3) : Vect3 := (2 ^ 10 : ℚ) • v

def accelsFloatOfBfp (v : Vect3) : Vect3 := (1 / 2 ^ 10 : ℚ) • v

/-- `state.accel_status = (1 << r)`. -/
def onlyAccelBit (r : AccelRep) : AccelRep → Bool := fun r' => decide (r' = r)

def stateSetAccelNedI (v : Vect3) (s : VehicleState) : VehicleState :=
  { s with accel := { s.accel with nedAccelI := v, accelStatus := onlyAccelBit .nedI } }

def stateSetAccelEcefI (v : Vect3) (s : VehicleState) : VehicleState :=
  { s with accel := { s.accel with ecefAccelI := v, accelStatus := onlyAccelBit .ecefI } }

def stateSetAccelNedF (v : Vect3) (s : VehicleState) : VehicleState :=
  { s with accel := { s.accel with nedAccelF := v, accelStatus := onlyAccelBit .nedF } }

def stateSetAccelEcefF (v : Vect3) (s : VehicleState) : VehicleState :=
  { s with accel := { s.accel with ecefAccelF := v, accelStatus := onlyAccelBit .ecefF } }

/-- The conversions read the origins of the position part and work on the
acceleration part. -/
def calcAccelNedI (pos : Position.PosState) (a : AccelState) : AccelState :=
  if a.accelStatus .nedI then a
  else
    (if pos.nedInitializedI then
      if a.accelStatus .nedF then
        { a with nedAccelI := accelsBfpOfReal a.nedAccelF }
      else if a.accelStatus .ecefI then
        { a with nedAccelI := nedOfEcefVectI pos.nedOriginI a.ecefAccelI }
      else if a.accelStatus .ecefF then
        let a := { a with ecefAccelI := accelsBfpOfReal a.ecefAccelF }.setBit .ecefI
        { a with nedAccelI := nedOfEcefVectI pos.nedOriginI a.ecefAccelI }
      else a
    else a).setBit .nedI

def calcAccelEcefI (pos : Position.PosState) (a : AccelState) : AccelState :=
  if a.accelStatus .ecefI then a
  else
    (if a.accelStatus .ecefF then
      { a with ecefAccelI := accelsBfpOfReal a.ecefAccelF }
    else if a.accelStatus .nedI then
      { a with ecefAccelI := ecefOfNedVectI pos.nedOriginI a.nedAccelI }
    else if a.accelStatus .nedF then
      let a := { a with nedAccelI := accelsBfpOfReal a.nedAccelF }.setBit .nedI
      { a with ecefAccelI := ecefOfNedVectI pos.nedOriginI a.nedAccelI }
    else a).setBit .ecefI

def calcAccelNedF (pos : Position.PosState) (a : AccelState) : AccelState :=
  if a.accelStatus .nedF then a
  else
    (if pos.nedInitializedF then
      if a.accelStatus .nedI then
        { a with nedAccelF := accelsFloatOfBfp a.nedAccelI }
      else if a.accelStatus .ecefF then
        { a with nedAccelF := nedOfEcefVectF pos.nedOriginF a.ecefAccelF }
      else if a.accelStatus .ecefI then
        let a := { a with ecefAccelF := accelsFloatOfBfp a.ecefAccelI }.setBit .ecefF
        { a with nedAccelF := nedOfEcefVectF pos.nedOriginF a.ecefAccelF }
      else a
    else a).setBit .nedF

def calcAccelEcefF (pos : Position.PosState) (a : AccelState) : AccelState :=
  if a.accelStatus .ecefF then a
  else
    (if a.accelStatus .ecefI then
      -- the source converts the local acceleration here
      { a with ecefAccelF := accelsFloatOfBfp a.nedAccelI }
    else if a.accelStatus .nedF then
      { a with ecefAccelF := ecefOfNedVectF pos.nedOriginF a.nedAccelF }
    else if a.accelStatus .nedI then
      let a := { a with nedAccelF := accelsFloatOfBfp a.nedAccelI }.setBit .nedF
      { a with ecefAccelF := ecefOfNedVectF pos.nedOriginF a.nedAccelF }
    else a).setBit .ecefF

/-- `stateCalcAccelNed_i` to `stateCalcAccelEcef_f`. -/
def stateCalcAccel (r : AccelRep) (s : VehicleState) : VehicleState :=
  { s with
    accel := match r with
      | .ecefI => calcAccelEcefI s.pos s.accel
      | .nedI => calcAccelNedI s.pos s.accel
      | .ecefF => calcAccelEcefF s.pos s.accel
      | .nedF => calcAccelNedF s.pos s.accel }

/-- `stateGetAccelNed_i` to `stateGetAccelEcef_f`. -/
def stateGetAccel (r : AccelRep) (s : VehicleState) : VehicleState × Vect3 :=
  let s := if s.accel.accelStatus r then s else stateCalcAccel r s
  match r with
  | .ecefI => (s, s.accel.ecefAccelI)
  | .nedI => (s, s.accel.nedAccelI)
  | .ecefF => (s, s.accel.ecefAccelF)
  | .nedF => (s, s.accel.nedAccelF)

/-! ### Attitude -/

/-- The rotations of `pprz_algebra_int.h` and `pprz_algebra_float.h`, and the
fixed-point formats of the attitude. -/
structure OrientationMaths where
  quatBfpOfReal : Quat → Quat
  quatFloatOfBfp : Quat → Quat
  eulersBfpOfReal : Eulers → Eulers
  eulersFloatOfBfp : Eulers → Eulers
  rmatBfpOfReal : RMat → RMat
  rmatFloatOfBfp : RMat → RMat
  int32QuatOfRmat : RMat → Quat
  int32QuatOfEulers : Eulers → Quat
  int32RmatOfQuat : Quat → RMat
  int32RmatOfEulers : Eulers → RMat
  int32EulersOfRmat : RMat → Eulers
  int32EulersOfQuat : Quat → Eulers
  floatQuatOfRmat : RMat → Quat
  floatQuatOfEulers : Eulers → Quat
  floatRmatOfQuat : Quat → RMat
  floatRmatOfEulers : Eulers → RMat
  floatEulersOfRmat : RMat → Eulers
  floatEulersOfQuat : Quat → Eulers

/-- A value in one of the six representations. -/
inductive Orientation where
  | quatI (q : Quat)
  | eulerI (e : Eulers)
  | rmatI (m : RMat)
  | quatF (q : Quat)
  | eulerF (e : Eulers)
  | rmatF (m : RMat)

/-- `orientationSetQuat_i` to `orientationSetEulers_f`. -/
def orientationSet (x : Orientation) (o : OrientationReps) : OrientationReps :=
  match x with
  | .quatI q => { o with quatI := q }.onlyBit .quatI
  | .eulerI e => { o with eulersI := e }.onlyBit .eulerI
  | .rmatI m => { o with rmatI := m }.onlyBit .rmatI
  | .quatF q => { o with quatF := q }.onlyBit .quatF
  | .eulerF e => { o with eulersF := e }.onlyBit .eulerF
  | .rmatF m => { o with rmatF := m }.onlyBit .rmatF

section Orientation

variable (om : OrientationMaths)

def orientationCalcQuatI (o : OrientationReps) : OrientationReps :=
  if o.status .quatI then o
  else
    (if o.status .quatF then { o with quatI := om.quatBfpOfReal o.quatF }
    else if o.status .rmatI then { o with quatI := om.int32QuatOfRmat o.rmatI }
    else if o.status .eulerI then { o with quatI := om.int32QuatOfEulers o.eulersI }
    else if o.status .rmatF then
      let o := { o with rmatI := om.rmatBfpOfReal o.rmatF }.setBit .rmatI
      { o with quatI := om.int32QuatOfRmat o.rmatI }
    else if o.status .eulerF then
      let o := { o with eulersI := om.eulersBfpOfReal o.eulersF }.setBit .eulerI
      { o with quatI := om.int32QuatOfEulers o.eulersI }
    else o).setBit .quatI

def orientationCalcRMatI (o : OrientationReps) : OrientationReps :=
  if o.status .rmatI then o
  else
    (if o.status .rmatF then { o with rmatI := om.rmatBfpOfReal o.rmatF }
    else if o.status .quatI then { o with rmatI := om.int32RmatOfQuat o.quatI }
    else if o.status .eulerI then { o with rmatI := om.int32RmatOfEulers o.eulersI }
    else if o.status .quatF then
      let o := { o with quatI := om.quatBfpOfReal o.quatF }.setBit .quatI
      { o with rmatI := om.int32RmatOfQuat o.quatI }
    else if o.status .eulerF then
      let o := { o with eulersI := om.eulersBfpOfReal o.eulersF }.setBit .eulerI
      { o with rmatI := om.int32RmatOfEulers o.eulersI }
    else o).setBit .rmatI

def orientationCalcEulersI (o : OrientationReps) : OrientationReps :=
  if o.status .eulerI then o
  else
    (if o.status .eulerF then { o with eulersI := om.eulersBfpOfReal o.eulersF }
    else if o.status .rmatI then { o with eulersI := om.int32EulersOfRmat o.rmatI }
    else if o.status .quatI then { o with eulersI := om.int32EulersOfQuat o.quatI }
    else if o.status .rmatF then
      let o := { o with rmatI := om.rmatBfpOfReal o.rmatF }.setBit .rmatI
      { o with eulersI := om.int32EulersOfRmat o.rmatI }
    else if o.status .quatF then
      let o := { o with quatI := om.quatBfpOfReal o.quatF }.setBit .quatI
      { o with eulersI := om.int32EulersOfQuat o.quatI }
    else o).setBit .eulerI

def orientationCalcQuatF (o : OrientationReps) : OrientationReps :=
  if o.status .quatF then o
  else
    (if o.status .quatI then { o with quatF := om.quatFloatOfBfp o.quatI }
    else if o.status .rmatF then { o with quatF := om.floatQuatOfRmat o.rmatF }
    else if o.status .eulerF then { o with quatF := om.floatQuatOfEulers o.eulersF }
    else if o.status .rmatI then
      let o := { o with rmatF := om.rmatFloatOfBfp o.rmatI }.setBit .rmatF
      { o with quatF := om.floatQuatOfRmat o.rmatF }
    else if o.status .eulerI then
      let o := { o with eulersF := om.eulersFloatOfBfp o.eulersI }.setBit .eulerF
      { o with quatF := om.floatQuatOfEulers o.eulersF }
    else o).setBit .quatF

def orientationCalcRMatF (o : OrientationReps) : OrientationReps :=
  if o.status .rmatF then o
  else
    (if o.status .rmatI then { o with rmatF := om.rmatFloatOfBfp o.rmatI }
    else if o.status .quatF then { o with rmatF := om.floatRmatOfQuat o.quatF }
    else if o.status .eulerF then { o with rmatF := om.floatRmatOfEulers o.eulersF }
    else if o.status .quatI then
      let o := { o with quatF := om.quatFloatOfBfp o.quatI }.setBit .quatF
      { o with rmatF := om.floatRmatOfQuat o.quatF }
    else if o.status .eulerI then
      let o := { o with eulersF := om.eulersFloatOfBfp o.eulersI }.setBit .eulerF
      { o with rmatF := om.floatRmatOfEulers o.eulersF }
    else o).setBit .rmatF

def orientationCalcEulersF (o : OrientationReps) : OrientationReps :=
  if o.status .eulerF then o
  else
    (if o.status .eulerI then { o with eulersF := om.eulersFloatOfBfp o.eulersI }
    else if o.status .rmatF then { o with eulersF := om.floatEulersOfRmat o.rmatF }
    else if o.status .quatF then { o with eulersF := om.floatEulersOfQuat o.quatF }
    else if o.status .rmatI then
      let o := { o with rmatF := om.rmatFloatOfBfp o.rmatI }.setBit .rmatF
      { o with eulersF := om.floatEulersOfRmat o.rmatF }
    else if o.status .quatI then
      let o := { o with quatF := om.quatFloatOfBfp o.quatI }.setBit .quatF
      { o with eulersF := om.floatEulersOfQuat o.quatF }
    else o).setBit .eulerF

/-- The transformation function of a representation. -/
def orientationCalc : OrRep → OrientationReps → OrientationReps
  | .quatI => orientationCalcQuatI om
  | .eulerI => orientationCalcEulersI om
  | .rmatI => orientationCalcRMatI om
  | .quatF => orientationCalcQuatF om
  | .eulerF => orientationCalcEulersF om
  | .rmatF => orientationCalcRMatF om

/-- `stateSetNedToBodyQuat_i` to `stateSetNedToBodyEulers_f`. -/
def stateSetNedToBody (x : Orientation) (s : VehicleState) : VehicleState :=
  { s with nedToBodyOrientation := orientationSet x s.nedToBodyOrientation }

/-- `orientationGetQuat_i` to `orientationGetEulers_f`. -/
def orientationGet (r : OrRep) (o : OrientationReps) : OrientationReps × Orientation :=
  let o := if o.status r then o else orientationCalc om r o
  match r with
  | .quatI => (o, .quatI o.quatI)
  | .eulerI => (o, .eulerI o.eulersI)
  | .rmatI => (o, .rmatI o.rmatI)
  | .quatF => (o, .quatF o.quatF)
  | .eulerF => (o, .eulerF o.eulersF)
  | .rmatF => (o, .rmatF o.rmatF)

/-- `stateGetNedToBodyQuat_i` to `stateGetNedToBodyEulers_f`. -/
def stateGetNedToBody (r : OrRep) (s : VehicleState) : VehicleState × Orientation :=
  let (o, x) := orientationGet om r s.nedToBodyOrientation
  ({ s with nedToBodyOrientation := o }, x)

end Orientation

/-! ### Body rates -/

/-- `RATES_BFP_OF_REAL`, with `INT32_RATE_FRAC` fractional bits. -/
def ratesBfpOfReal (v : Rates) : Rates := (2 ^ 12 : ℚ) • v

def ratesFloatOfBfp (v : Rates) : Rates := (1 / 2 ^ 12 : ℚ) • v

/-- A status word with one bit set. -/
def StatusWord.only (n : ℕ) : StatusWord := fun n' => decide (n' = n)

def stateSetBodyRatesI (v : Rates) (s : VehicleState) : VehicleState :=
  { s with rate := { s.rate with bodyRatesI := v, rateStatus := StatusWord.only rateI } }

def stateSetBodyRatesF (v : Rates) (s : VehicleState) : VehicleState :=
  { s with rate := { s.rate with bodyRatesF := v, rateStatus := StatusWord.only rateF } }

def stateCalcBodyRatesI (s : VehicleState) : VehicleState :=
  if s.rate.rateStatus rateI then s
  else
    (if s.rate.rateStatus rateF then
      { s with rate := { s.rate with bodyRatesI := ratesBfpOfReal s.rate.bodyRatesF } }
    else s).setRateBit rateI

def stateCalcBodyRatesF (s : VehicleState) : VehicleState :=
  if s.rate.rateStatus rateF then s
  else
    (if s.rate.rateStatus rateI then
      { s with rate := { s.rate with bodyRatesF := ratesFloatOfBfp s.rate.bodyRatesI } }
    else s).setRateBit rateF

def stateGetBodyRatesI (s : VehicleState) : VehicleState × Rates :=
  let s := if s.rate.rateStatus rateI then s else stateCalcBodyRatesI s
  (s, s.rate.bodyRatesI)

def stateGetBodyRatesF (s : VehicleState) : VehicleState × Rates :=
  let s := if s.rate.rateStatus rateF then s else stateCalcBodyRatesF s
  (s, s.rate.bodyRatesF)

/-! ### Wind and airspeed -/

/-- `SetBit(state.wind_air_status, n)`. -/
def setWindAirBit (s : VehicleState) (n : ℕ) : VehicleState :=
  { s with windAir := { s.windAir with windAirStatus := s.windAir.windAirStatus.setBit n } }

def clearWindAirBit (s : VehicleState) (n : ℕ) : VehicleState :=
  { s with windAir := { s.windAir with windAirStatus := s.windAir.windAirStatus.clearBit n } }

/-- `state.wind_air_status &= ~(...)`, and the value of the assignment. -/
def maskWindAirStatus (bits : List ℕ) (s : VehicleState) : VehicleState × StatusWord :=
  let s := bits.foldl clearWindAirBit s
  (s, s.windAir.windAirStatus)

/-- The four tests clear the bits that they ask for. -/
def stateIsWindspeedValid : VehicleState → VehicleState × StatusWord :=
  maskWindAirStatus [windspeedI, windspeedF]

def stateIsAirspeedValid : VehicleState → VehicleState × StatusWord :=
  maskWindAirStatus [airspeedI, airspeedF]

def stateIsAngleOfAttackValid : VehicleState → VehicleState × StatusWord :=
  maskWindAirStatus [aoaF]

def stateIsSideslipValid : VehicleState → VehicleState × StatusWord :=
  maskWindAirStatus [sideslipF]

def stateSetHorizontalWindspeedI (v : Vect2) (s : VehicleState) : VehicleState :=
  let s := { s with windAir := { s.windAir with hWindspeedI := v } }
  setWindAirBit (clearWindAirBit s windspeedF) windspeedI

def stateSetAirspeedI (a : ℚ) (s : VehicleState) : VehicleState :=
  let s := { s with windAir := { s.windAir with airspeedI := a } }
  setWindAirBit (clearWindAirBit s airspeedF) airspeedI

def stateSetHorizontalWindspeedF (v : Vect2) (s : VehicleState) : VehicleState :=
  let s := { s with windAir := { s.windAir with hWindspeedF := v } }
  setWindAirBit (clearWindAirBit s windspeedI) windspeedF

def stateSetAirspeedF (a : ℚ) (s : VehicleState) : VehicleState :=
  let s := { s with windAir := { s.windAir with airspeedF := a } }
  setWindAirBit (clearWindAirBit s airspeedI) airspeedF

def stateSetAngleOfAttackF (a : ℚ) (s : VehicleState) : VehicleState :=
  setWindAirBit { s with windAir := { s.windAir with angleOfAttackF := a } } aoaF

def stateSetSideslipF (a : ℚ) (s : VehicleState) : VehicleState :=
  setWindAirBit { s with windAir := { s.windAir with sideslipF := a } } sideslipF

def stateCalcHorizontalWindspeedI (s : VehicleState) : VehicleState :=
  if s.windAir.windAirStatus windspeedI then s
  else
    (if s.windAir.windAirStatus windspeedF then
      { s with
        windAir := { s.windAir with
          hWindspeedI :=
            { x := speedBfpOfReal s.windAir.hWindspeedF.x
              y := speedBfpOfReal s.windAir.hWindspeedF.y } } }
    -- the source sets the bit in `rate_status`
    else s).setRateBit windspeedI

def stateCalcAirspeedI (s : VehicleState) : VehicleState :=
  if s.windAir.windAirStatus airspeedI then s
  else
    setWindAirBit
      (if s.windAir.windAirStatus airspeedF then
        { s with
          windAir := { s.windAir with airspeedI := speedBfpOfReal s.windAir.airspeedF } }
      else s) airspeedI

def stateCalcHorizontalWindspeedF (s : VehicleState) : VehicleState :=
  if s.windAir.windAirStatus windspeedF then s
  else
    (if s.windAir.windAirStatus windspeedI then
      -- the source writes the field `x` twice and the field `y` never
      let s := { s with
        windAir := { s.windAir with
          hWindspeedF :=
            { s.windAir.hWindspeedF with x := speedFloatOfBfp s.windAir.hWindspeedI.x } } }
      { s with
        windAir := { s.windAir with
          hWindspeedF :=
            { s.windAir.hWindspeedF with x := speedFloatOfBfp s.windAir.hWindspeedI.y } } }
    else s).setRateBit windspeedF

def stateCalcAirspeedF (s : VehicleState) : VehicleState :=
  if s.windAir.windAirStatus airspeedF then s
  else
    setWindAirBit
      (if s.windAir.windAirStatus airspeedI then
        { s with
          windAir := { s.windAir with airspeedF := speedFloatOfBfp s.windAir.airspeedI } }
      else s) airspeedF

def stateGetHorizontalWindspeedI (s : VehicleState) : VehicleState × Vect2 :=
  let s := if s.windAir.windAirStatus windspeedI then s else stateCalcHorizontalWindspeedI s
  (s, s.windAir.hWindspeedI)

def stateGetAirspeedI (s : VehicleState) : VehicleState × ℚ :=
  let s := if s.windAir.windAirStatus airspeedI then s else stateCalcAirspeedI s
  (s, s.windAir.airspeedI)

def stateGetHorizontalWindspeedF (s : VehicleState) : VehicleState × Vect2 :=
  let s := if s.windAir.windAirStatus windspeedF then s else stateCalcHorizontalWindspeedF s
  (s, s.windAir.hWindspeedF)

def stateGetAirspeedF (s : VehicleState) : VehicleState × ℚ :=
  let s := if s.windAir.windAirStatus airspeedF then s else stateCalcAirspeedF s
  (s, s.windAir.airspeedF)

/-- The angle of attack and the sideslip have one representation only. -/
def stateGetAngleOfAttackF (s : VehicleState) : VehicleState × ℚ :=
  (s, s.windAir.angleOfAttackF)

def stateGetSideslipF (s : VehicleState) : VehicleState × ℚ :=
  (s, s.windAir.sideslipF)

end Paparazzi.State.Domains
