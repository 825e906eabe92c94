import Paparazzi.State.Domains
import Paparazzi.State.SpeedCoherence

/-!
Isolation of the six domains of the state interface: which calls change a status
bit or a value of another domain. Four conversion functions set their bit in the
status word of another domain.
-/

namespace Paparazzi.State.DomainIsolation

open Paparazzi.Library.Machine
open Paparazzi.Math.Geodesy
open Paparazzi.Math.Velocity
open Paparazzi.State.Domains
open Paparazzi.State.Interface
open Paparazzi.State.Position (PosRep PosState Coord stateSetPosition stateSetPositionI
  stateSetPositionF stateCalcPosition stateGetPosition)
open Paparazzi.State.Speed

inductive Domain where
  | position | speed | acceleration | attitude | rates | windAir
  deriving DecidableEq, Repr

/-- The setters, getters, `stateCalc` functions and tests of the interface. -/
inductive Op where
  | setLocalOriginI (d : LtpDef)
  | setLocalUtmOriginF (u : UtmCoor)
  | setPosition (c : Coord)
  | setPositionI (ecef ned enu : Option Vect3) (lla : Option LlaCoor)
  | setPositionF (ecef ned enu : Option Vect3) (lla : Option LlaCoor) (utm : Option UtmCoor)
  | calcPosition (r : PosRep)
  | getPosition (r : PosRep)
  | setSpeedNedI (v : Vect3)
  | setSpeedEnuI (v : Vect3)
  | setSpeedEcefI (v : Vect3)
  | setSpeedI (ecef ned enu : Option Vect3)
  | setSpeedNedF (v : Vect3)
  | setSpeedEnuF (v : Vect3)
  | setSpeedEcefF (v : Vect3)
  | setSpeedF (ecef ned enu : Option Vect3)
  | calcSpeed (r : SpeedRep)
  | getSpeed (r : SpeedRep)
  | setAccelNedI (v : Vect3)
  | setAccelEcefI (v : Vect3)
  | setAccelNedF (v : Vect3)
  | setAccelEcefF (v : Vect3)
  | calcAccel (r : AccelRep)
  | getAccel (r : AccelRep)
  | setNedToBody (x : Orientation)
  | getNedToBody (r : OrRep)
  | setBodyRatesI (v : Rates)
  | setBodyRatesF (v : Rates)
  | calcBodyRatesI
  | calcBodyRatesF
  | getBodyRatesI
  | getBodyRatesF
  | isWindspeedValid
  | isAirspeedValid
  | isAngleOfAttackValid
  | isSideslipValid
  | setHorizontalWindspeedI (v : Vect2)
  | setAirspeedI (a : ℚ)
  | setHorizontalWindspeedF (v : Vect2)
  | setAirspeedF (a : ℚ)
  | setAngleOfAttackF (a : ℚ)
  | setSideslipF (a : ℚ)
  | calcHorizontalWindspeedI
  | calcAirspeedI
  | calcHorizontalWindspeedF
  | calcAirspeedF
  | getHorizontalWindspeedI
  | getAirspeedI
  | getHorizontalWindspeedF
  | getAirspeedF
  | getAngleOfAttackF
  | getSideslipF

/-- The domain that a call belongs to. -/
def Op.domain : Op → Domain
  | setLocalOriginI _ | setLocalUtmOriginF _ | setPosition _ | setPositionI .. | setPositionF ..
  | calcPosition _ | getPosition _ => .position
  | setSpeedNedI _ | setSpeedEnuI _ | setSpeedEcefI _ | setSpeedI .. | setSpeedNedF _
  | setSpeedEnuF _ | setSpeedEcefF _ | setSpeedF .. | calcSpeed _ | getSpeed _ => .speed
  | setAccelNedI _ | setAccelEcefI _ | setAccelNedF _ | setAccelEcefF _ | calcAccel _
  | getAccel _ => .acceleration
  | setNedToBody _ | getNedToBody _ => .attitude
  | setBodyRatesI _ | setBodyRatesF _ | calcBodyRatesI | calcBodyRatesF | getBodyRatesI
  | getBodyRatesF => .rates
  | _ => .windAir

/-- The calls that set an origin of the local frame. -/
def Op.isOrigin : Op → Bool
  | setLocalOriginI _ | setLocalUtmOriginF _ => true
  | _ => false

/-- A position function works on the position part. -/
def onPos (f : PosState → PosState) (s : VehicleState) : VehicleState := { s with pos := f s.pos }

section Run

variable (earth : Earth) (trig : Trig) (om : OrientationMaths)

def exec (s : VehicleState) : Op → VehicleState
  | .setLocalOriginI d => stateSetLocalOriginI d s
  | .setLocalUtmOriginF u => stateSetLocalUtmOriginF u s
  | .setPosition c => onPos (stateSetPosition c) s
  | .setPositionI ecef ned enu lla => onPos (stateSetPositionI ecef ned enu lla) s
  | .setPositionF ecef ned enu lla utm => onPos (stateSetPositionF ecef ned enu lla utm) s
  | .calcPosition r => onPos (stateCalcPosition earth r) s
  | .getPosition r => onPos (fun p => (stateGetPosition earth r p).1) s
  | .setSpeedNedI v => stateSetSpeedNedI v s
  | .setSpeedEnuI v => stateSetSpeedEnuI v s
  | .setSpeedEcefI v => stateSetSpeedEcefI v s
  | .setSpeedI ecef ned enu => stateSetSpeedI ecef ned enu s
  | .setSpeedNedF v => stateSetSpeedNedF v s
  | .setSpeedEnuF v => stateSetSpeedEnuF v s
  | .setSpeedEcefF v => stateSetSpeedEcefF v s
  | .setSpeedF ecef ned enu => stateSetSpeedF ecef ned enu s
  | .calcSpeed r => stateCalcSpeed trig r s
  | .getSpeed r => (stateGetSpeed trig r s).1
  | .setAccelNedI v => stateSetAccelNedI v s
  | .setAccelEcefI v => stateSetAccelEcefI v s
  | .setAccelNedF v => stateSetAccelNedF v s
  | .setAccelEcefF v => stateSetAccelEcefF v s
  | .calcAccel r => stateCalcAccel r s
  | .getAccel r => (stateGetAccel r s).1
  | .setNedToBody x => stateSetNedToBody x s
  | .getNedToBody r => (stateGetNedToBody om r s).1
  | .setBodyRatesI v => stateSetBodyRatesI v s
  | .setBodyRatesF v => stateSetBodyRatesF v s
  | .calcBodyRatesI => stateCalcBodyRatesI s
  | .calcBodyRatesF => stateCalcBodyRatesF s
  | .getBodyRatesI => (stateGetBodyRatesI s).1
  | .getBodyRatesF => (stateGetBodyRatesF s).1
  | .isWindspeedValid => (stateIsWindspeedValid s).1
  | .isAirspeedValid => (stateIsAirspeedValid s).1
  | .isAngleOfAttackValid => (stateIsAngleOfAttackValid s).1
  | .isSideslipValid => (stateIsSideslipValid s).1
  | .setHorizontalWindspeedI v => stateSetHorizontalWindspeedI v s
  | .setAirspeedI a => stateSetAirspeedI a s
  | .setHorizontalWindspeedF v => stateSetHorizontalWindspeedF v s
  | .setAirspeedF a => stateSetAirspeedF a s
  | .setAngleOfAttackF a => stateSetAngleOfAttackF a s
  | .setSideslipF a => stateSetSideslipF a s
  | .calcHorizontalWindspeedI => stateCalcHorizontalWindspeedI s
  | .calcAirspeedI => stateCalcAirspeedI s
  | .calcHorizontalWindspeedF => stateCalcHorizontalWindspeedF s
  | .calcAirspeedF => stateCalcAirspeedF s
  | .getHorizontalWindspeedI => (stateGetHorizontalWindspeedI s).1
  | .getAirspeedI => (stateGetAirspeedI s).1
  | .getHorizontalWindspeedF => (stateGetHorizontalWindspeedF s).1
  | .getAirspeedF => (stateGetAirspeedF s).1
  | .getAngleOfAttackF => (stateGetAngleOfAttackF s).1
  | .getSideslipF => (stateGetSideslipF s).1

/-! ### What isolation asks for -/

/-- The status and the values of every domain but one are the same. -/
structure SameOutside (d : Domain) (s t : VehicleState) : Prop where
  pos : d ≠ .position → t.pos = s.pos
  speed : d ≠ .speed → t.speed = s.speed
  accel : d ≠ .acceleration → t.accel = s.accel
  attitude : d ≠ .attitude → t.nedToBodyOrientation = s.nedToBodyOrientation
  rate : d ≠ .rates → t.rate = s.rate
  windAir : d ≠ .windAir → t.windAir = s.windAir

/-- Outside the position, an origin changes nothing but clears bits of local
representations. -/
structure OnlyClearsLocal (s t : VehicleState) : Prop where
  speed_values : ∀ r, t.speedCoord r = s.speedCoord r
  speed_bits : ∀ r, t.speed.speedStatus r = s.speed.speedStatus r ∨
    (r.isLocal = true ∧ t.speed.speedStatus r = false)
  accel_values : t.accel = { s.accel with accelStatus := t.accel.accelStatus }
  accel_bits : ∀ r, t.accel.accelStatus r = s.accel.accelStatus r ∨
    (r.isLocal = true ∧ t.accel.accelStatus r = false)
  attitude : t.nedToBodyOrientation = s.nedToBodyOrientation
  rate : t.rate = s.rate
  windAir : t.windAir = s.windAir

def Isolated (s : VehicleState) (op : Op) : Prop :=
  if op.isOrigin then OnlyClearsLocal s (exec earth trig om s op)
  else SameOutside op.domain s (exec earth trig om s op)

end Run

/-- The conversion of a speed goes through the branch that sets its bit in
`pos_status`, where that bit is clear. -/
def speedMarksPos (s : VehicleState) : SpeedRep → Bool
  | .enuI =>
      !s.speedBitIsSet .enuI && (s.pos.nedInitializedI || s.pos.utmInitializedF) &&
        !s.speedBitIsSet .enuF && s.speedBitIsSet .nedF && !s.pos.posStatus .nedI
  | .enuF =>
      !s.speedBitIsSet .enuF && (s.pos.nedInitializedF || s.pos.utmInitializedF) &&
        !s.speedBitIsSet .nedF && !s.speedBitIsSet .enuI && s.speedBitIsSet .nedI &&
          !s.pos.posStatus .nedF
  | _ => false

/-- The conversion of the wind speed to the format with number `n` is computed
and bit `n` of `rate_status` is clear. -/
def windMarksRate (s : VehicleState) (n : ℕ) : Bool :=
  !s.windAir.windAirStatus n && !s.rate.rateStatus n

/-- The calls that mark a representation of another domain. -/
def marksForeign (s : VehicleState) : Op → Bool
  | .calcSpeed r | .getSpeed r => speedMarksPos s r
  | .calcHorizontalWindspeedI | .getHorizontalWindspeedI => windMarksRate s windspeedI
  | .calcHorizontalWindspeedF | .getHorizontalWindspeedF => windMarksRate s windspeedF
  | _ => false

/-! ### Frame lemmas -/

theorem SameOutside.refl (d : Domain) (s : VehicleState) : SameOutside d s s :=
  ⟨fun _ => rfl, fun _ => rfl, fun _ => rfl, fun _ => rfl, fun _ => rfl, fun _ => rfl⟩

theorem SameOutside.ofPos (s : VehicleState) (p : PosState) :
    SameOutside .position s { s with pos := p } :=
  ⟨fun hne => absurd rfl hne, fun _ => rfl, fun _ => rfl, fun _ => rfl, fun _ => rfl, fun _ => rfl⟩

theorem SameOutside.ofSpeed (s : VehicleState) (x : SpeedState) :
    SameOutside .speed s { s with speed := x } :=
  ⟨fun _ => rfl, fun hne => absurd rfl hne, fun _ => rfl, fun _ => rfl, fun _ => rfl, fun _ => rfl⟩

theorem SameOutside.ofAccel (s : VehicleState) (a : AccelState) :
    SameOutside .acceleration s { s with accel := a } :=
  ⟨fun _ => rfl, fun _ => rfl, fun hne => absurd rfl hne, fun _ => rfl, fun _ => rfl, fun _ => rfl⟩

theorem SameOutside.ofAttitude (s : VehicleState) (o : OrientationReps) :
    SameOutside .attitude s { s with nedToBodyOrientation := o } :=
  ⟨fun _ => rfl, fun _ => rfl, fun _ => rfl, fun hne => absurd rfl hne, fun _ => rfl, fun _ => rfl⟩

theorem SameOutside.ofRate (s : VehicleState) (r : RateState) :
    SameOutside .rates s { s with rate := r } :=
  ⟨fun _ => rfl, fun _ => rfl, fun _ => rfl, fun _ => rfl, fun hne => absurd rfl hne, fun _ => rfl⟩

theorem SameOutside.ofWindAir (s : VehicleState) (w : WindAirState) :
    SameOutside .windAir s { s with windAir := w } :=
  ⟨fun _ => rfl, fun _ => rfl, fun _ => rfl, fun _ => rfl, fun _ => rfl, fun hne => absurd rfl hne⟩

/-- Setting a bit of `pos_status` changes nothing exactly if it is set already. -/
theorem pos_setPosBit_iff {s : VehicleState} {r : PosRep} :
    (s.setPosBit (posBit r)).pos = s.pos ↔ s.pos.posStatus r = true := by
  have hinj : ∀ r', posBit r' = posBit r → r' = r := by
    intro r' h
    cases r <;> cases r' <;> first | rfl | exact absurd h (by decide)
  constructor
  · intro h
    have hbit := congrFun (congrArg PosState.posStatus h) r
    simpa [VehicleState.setPosBit] using hbit.symm
  · intro h
    have hstatus : (fun r' => if posBit r' = posBit r then true else s.pos.posStatus r') =
        s.pos.posStatus := by
      funext r'
      split_ifs with heq
      · rw [hinj r' heq, h]
      · rfl
    rw [VehicleState.setPosBit, hstatus]

theorem rate_setRateBit_iff {s : VehicleState} {n : ℕ} :
    (s.setRateBit n).rate = s.rate ↔ s.rate.rateStatus n = true := by
  constructor
  · intro h
    have hbit := congrFun (congrArg RateState.rateStatus h) n
    simpa [VehicleState.setRateBit, StatusWord.setBit] using hbit.symm
  · intro h
    have hstatus : s.rate.rateStatus.setBit n = s.rate.rateStatus := by
      funext n'
      rw [StatusWord.setBit]
      split_ifs with heq
      · rw [heq, h]
      · rfl
    rw [VehicleState.setRateBit, hstatus]

/-- The wind speed conversion is the only one of its domain that leaves it. -/
theorem rate_stateCalcHorizontalWindspeedI_iff (s : VehicleState) :
    (stateCalcHorizontalWindspeedI s).rate = s.rate ↔ windMarksRate s windspeedI = false := by
  dsimp only [stateCalcHorizontalWindspeedI]
  split_ifs with hset hwindF
  · exact iff_of_true rfl (by simp [windMarksRate, hset])
  · exact (rate_setRateBit_iff (s := s)).trans (by simp [windMarksRate, hset])
  · exact rate_setRateBit_iff.trans (by simp [windMarksRate, hset])

theorem rate_stateCalcHorizontalWindspeedF_iff (s : VehicleState) :
    (stateCalcHorizontalWindspeedF s).rate = s.rate ↔ windMarksRate s windspeedF = false := by
  dsimp only [stateCalcHorizontalWindspeedF]
  split_ifs with hset hwindI
  · exact iff_of_true rfl (by simp [windMarksRate, hset])
  · exact (rate_setRateBit_iff (s := s)).trans (by simp [windMarksRate, hset])
  · exact rate_setRateBit_iff.trans (by simp [windMarksRate, hset])

/-- A wind speed conversion touches the wind and the rate part only. -/
theorem others_stateCalcHorizontalWindspeedI (s : VehicleState) :
    (stateCalcHorizontalWindspeedI s).pos = s.pos ∧
    (stateCalcHorizontalWindspeedI s).speed = s.speed ∧
    (stateCalcHorizontalWindspeedI s).accel = s.accel ∧
    (stateCalcHorizontalWindspeedI s).nedToBodyOrientation = s.nedToBodyOrientation := by
  dsimp only [stateCalcHorizontalWindspeedI]
  split_ifs <;> exact ⟨rfl, rfl, rfl, rfl⟩

theorem others_stateCalcHorizontalWindspeedF (s : VehicleState) :
    (stateCalcHorizontalWindspeedF s).pos = s.pos ∧
    (stateCalcHorizontalWindspeedF s).speed = s.speed ∧
    (stateCalcHorizontalWindspeedF s).accel = s.accel ∧
    (stateCalcHorizontalWindspeedF s).nedToBodyOrientation = s.nedToBodyOrientation := by
  dsimp only [stateCalcHorizontalWindspeedF]
  split_ifs <;> exact ⟨rfl, rfl, rfl, rfl⟩

/-- The setters of several speeds touch the speed part only. -/
theorem sameOutside_stateSetSpeeds (given : List SpeedCoord) (s : VehicleState) :
    SameOutside .speed s (stateSetSpeeds given s) := by
  have hfold : ∀ t, SameOutside .speed t
      (given.foldl (fun s c => (s.putSpeed c).setSpeedBit c.rep) t) := by
    induction given with
    | nil => exact SameOutside.refl .speed
    | cons c given ih =>
        intro t
        have h := ih ((t.putSpeed c).setSpeedBit c.rep)
        exact ⟨h.pos, fun hne => absurd rfl hne, h.accel, h.attitude, h.rate, h.windAir⟩
  have h := hfold { s with speed := { s.speed with speedStatus := fun _ => false } }
  exact ⟨h.pos, fun hne => absurd rfl hne, h.accel, h.attitude, h.rate, h.windAir⟩

/-! ### Conversions of a speed -/

section CalcSpeed

variable {s t e : VehicleState}

theorem SameOutside.putSpeed (h : SameOutside .speed s t) (c : SpeedCoord) :
    SameOutside .speed s (t.putSpeed c) :=
  ⟨h.pos, fun hne => absurd rfl hne, h.accel, h.attitude, h.rate, h.windAir⟩

theorem SameOutside.setSpeedBit (h : SameOutside .speed s t) (r : SpeedRep) :
    SameOutside .speed s (t.setSpeedBit r) :=
  ⟨h.pos, fun hne => absurd rfl hne, h.accel, h.attitude, h.rate, h.windAir⟩

theorem SameOutside.ite {d : Domain} {c : Prop} [Decidable c] (ht : SameOutside d s t)
    (he : SameOutside d s e) : SameOutside d s (if c then t else e) :=
  iteInduction (motive := SameOutside d s) (fun _ => ht) fun _ => he

/-- Two of the conversions set the bit of an intermediate speed in `pos_status`. -/
theorem sameOutside_setPosBit_iff (h : SameOutside .speed s t) (r : PosRep) {c : SpeedCoord}
    {r' : SpeedRep} :
    SameOutside .speed s (((t.setPosBit (posBit r)).putSpeed c).setSpeedBit r') ↔
      s.pos.posStatus r = true := by
  have hpos : t.pos = s.pos := h.pos (by decide)
  have hmarked : (((t.setPosBit (posBit r)).putSpeed c).setSpeedBit r').pos =
      (s.setPosBit (posBit r)).pos := by
    rw [VehicleState.pos_setSpeedBit, VehicleState.pos_putSpeed, VehicleState.setPosBit, hpos]
    rfl
  rw [← pos_setPosBit_iff]
  constructor
  · intro hsame
    exact hmarked.symm.trans (hsame.pos (by decide))
  · intro hset
    exact ⟨fun _ => hmarked.trans hset, fun hne => absurd rfl hne, h.accel, h.attitude, h.rate,
      h.windAir⟩

theorem marks_ite {c : Prop} [Decidable c] {r : SpeedRep} {marks : Bool}
    (ht : c → (SameOutside .speed s (t.setSpeedBit r) ↔ marks = false))
    (he : ¬c → (SameOutside .speed s (e.setSpeedBit r) ↔ marks = false)) :
    SameOutside .speed s ((if c then t else e).setSpeedBit r) ↔ marks = false :=
  iteInduction
    (motive := fun x : VehicleState => SameOutside .speed s (x.setSpeedBit r) ↔ marks = false) ht he

theorem speedMarksPos_of_set {s : VehicleState} {r : SpeedRep}
    (h : s.speedBitIsSet r = true) : speedMarksPos s r = false := by
  cases r <;> simp [speedMarksPos, h]

theorem sameOutside_calcSpeedEnuI_iff (s : VehicleState) :
    SameOutside .speed s (stateCalcSpeedEnuI s) ↔ speedMarksPos s .enuI = false := by
  unfold stateCalcSpeedEnuI
  by_cases hset : s.speedBitIsSet .enuI = true
  · rw [if_pos hset]
    exact iff_of_true (SameOutside.refl .speed s) (speedMarksPos_of_set hset)
  rw [if_neg hset]
  dsimp only
  -- the first assignment changes neither the other domains nor the bits
  generalize hfirst : (if s.speedBitIsSet .nedI = true then
    s.putSpeed (.enuI (vect3EnuOfNed s.speed.nedSpeedI)) else s) = t
  have hsame : SameOutside .speed s t := by
    rw [← hfirst]
    exact ((SameOutside.refl .speed s).putSpeed _).ite (SameOutside.refl .speed s)
  have hbits : ∀ r, t.speedBitIsSet r = s.speedBitIsSet r := by
    intro r
    rw [← hfirst, apply_ite (VehicleState.speedBitIsSet · r)]
    simp
  have hkept {e : VehicleState} (he : SameOutside .speed s e)
      (hmarks : speedMarksPos s .enuI = false) :
      SameOutside .speed s (e.setSpeedBit .enuI) ↔ speedMarksPos s .enuI = false :=
    iff_of_true (he.setSpeedBit .enuI) hmarks
  simp only [hbits]
  refine marks_ite (fun hinit => ?_) fun hinit => marks_ite (fun hutm => ?_) fun hutm => ?_
  · refine marks_ite (fun hEnuF => hkept (hsame.putSpeed _) ?_) fun hEnuF => ?_
    · simp [speedMarksPos, hEnuF]
    refine marks_ite (fun hNedF => (sameOutside_setPosBit_iff (hsame.putSpeed _) .nedI).trans ?_)
      fun hNedF => ?_
    · simp [speedMarksPos, hset, hinit, hEnuF, hNedF]
    have hmarks : speedMarksPos s .enuI = false := by
      simp [speedMarksPos, hNedF]
    refine marks_ite (fun _ => hkept (hsame.putSpeed _) hmarks) fun _ => ?_
    exact marks_ite (fun _ => hkept (((hsame.putSpeed _).setSpeedBit _).putSpeed _) hmarks)
      fun _ => hkept hsame hmarks
  · refine marks_ite (fun hEnuF => hkept (hsame.putSpeed _) ?_) fun hEnuF => ?_
    · simp [speedMarksPos, hEnuF]
    refine marks_ite (fun hNedF => (sameOutside_setPosBit_iff (hsame.putSpeed _) .nedI).trans ?_)
      fun hNedF => ?_
    · simp [speedMarksPos, hset, hinit, hutm, hEnuF, hNedF]
    exact hkept hsame (by simp [speedMarksPos, hNedF])
  · exact hkept (SameOutside.refl .speed s) (by simp [speedMarksPos, hinit, hutm])

theorem sameOutside_calcSpeedEnuF_iff (s : VehicleState) :
    SameOutside .speed s (stateCalcSpeedEnuF s) ↔ speedMarksPos s .enuF = false := by
  unfold stateCalcSpeedEnuF
  by_cases hset : s.speedBitIsSet .enuF = true
  · rw [if_pos hset]
    exact iff_of_true (SameOutside.refl .speed s) (speedMarksPos_of_set hset)
  rw [if_neg hset]
  have hsame : SameOutside .speed s s := SameOutside.refl .speed s
  have hkept {e : VehicleState} (he : SameOutside .speed s e)
      (hmarks : speedMarksPos s .enuF = false) :
      SameOutside .speed s (e.setSpeedBit .enuF) ↔ speedMarksPos s .enuF = false :=
    iff_of_true (he.setSpeedBit .enuF) hmarks
  refine marks_ite (fun hinit => ?_) fun hinit => marks_ite (fun hutm => ?_) fun hutm => ?_
  · refine marks_ite (fun hNedF => hkept (hsame.putSpeed _) ?_) fun hNedF => ?_
    · simp [speedMarksPos, hNedF]
    refine marks_ite (fun hEnuI => hkept (hsame.putSpeed _) ?_) fun hEnuI => ?_
    · simp [speedMarksPos, hEnuI]
    refine marks_ite (fun hNedI => (sameOutside_setPosBit_iff (hsame.putSpeed _) .nedF).trans ?_)
      fun hNedI => ?_
    · simp [speedMarksPos, hset, hinit, hNedF, hEnuI, hNedI]
    have hmarks : speedMarksPos s .enuF = false := by
      simp [speedMarksPos, hNedI]
    refine marks_ite (fun _ => hkept (hsame.putSpeed _) hmarks) fun _ => ?_
    exact marks_ite (fun _ => hkept (((hsame.putSpeed _).setSpeedBit _).putSpeed _) hmarks)
      fun _ => hkept hsame hmarks
  · refine marks_ite (fun hNedF => hkept (hsame.putSpeed _) ?_) fun hNedF => ?_
    · simp [speedMarksPos, hNedF]
    refine marks_ite (fun hEnuI => hkept (hsame.putSpeed _) ?_) fun hEnuI => ?_
    · simp [speedMarksPos, hEnuI]
    refine marks_ite (fun hNedI => (sameOutside_setPosBit_iff (hsame.putSpeed _) .nedF).trans ?_)
      fun hNedI => ?_
    · simp [speedMarksPos, hset, hinit, hutm, hNedF, hEnuI, hNedI]
    exact hkept hsame (by simp [speedMarksPos, hNedI])
  · exact hkept hsame (by simp [speedMarksPos, hinit, hutm])

/-- The position changes in the branches of `speedMarksPos` only. -/
theorem sameOutside_calcSpeed_iff (trig : Trig) (r : SpeedRep) (s : VehicleState) :
    SameOutside .speed s (stateCalcSpeed trig r s) ↔ speedMarksPos s r = false := by
  cases r with
  | enuI => exact sameOutside_calcSpeedEnuI_iff s
  | enuF => exact sameOutside_calcSpeedEnuF_iff s
  | ecefI | nedI | hnormI | hdirI | ecefF | nedF | hnormF | hdirF =>
      refine iff_of_true ?_ rfl
      dsimp only [stateCalcSpeed, stateCalcSpeedEcefI, stateCalcSpeedNedI,
        stateCalcHorizontalSpeedNormI, stateCalcHorizontalSpeedDirI, stateCalcSpeedEcefF,
        stateCalcSpeedNedF, stateCalcHorizontalSpeedNormF, stateCalcHorizontalSpeedDirF]
      repeat' first
        | apply SameOutside.ite
        | apply SameOutside.setSpeedBit
        | apply SameOutside.putSpeed
        | exact SameOutside.refl .speed s

end CalcSpeed

/-- What touches the wind and the rate part only leaves the others alone if it keeps the
rate. -/
theorem SameOutside.windAir_iff {s t : VehicleState} (h : t.pos = s.pos ∧ t.speed = s.speed ∧
    t.accel = s.accel ∧ t.nedToBodyOrientation = s.nedToBodyOrientation) :
    SameOutside .windAir s t ↔ t.rate = s.rate := by
  obtain ⟨hpos, hspeed, haccel, hatt⟩ := h
  constructor
  · intro h
    exact h.rate (by decide)
  · intro hrate
    exact ⟨fun _ => hpos, fun _ => hspeed, fun _ => haccel, fun _ => hatt, fun _ => hrate,
      fun hne => absurd rfl hne⟩

theorem sameOutside_calcHorizontalWindspeedI_iff (s : VehicleState) :
    SameOutside .windAir s (stateCalcHorizontalWindspeedI s) ↔
      windMarksRate s windspeedI = false :=
  (SameOutside.windAir_iff (others_stateCalcHorizontalWindspeedI s)).trans
    (rate_stateCalcHorizontalWindspeedI_iff s)

theorem sameOutside_calcHorizontalWindspeedF_iff (s : VehicleState) :
    SameOutside .windAir s (stateCalcHorizontalWindspeedF s) ↔
      windMarksRate s windspeedF = false :=
  (SameOutside.windAir_iff (others_stateCalcHorizontalWindspeedF s)).trans
    (rate_stateCalcHorizontalWindspeedF_iff s)

/-- A getter that finds its bit set changes nothing, otherwise it computes. -/
theorem sameOutside_ite {d : Domain} {s t : VehicleState} {set marks : Bool}
    (hset : set = true → marks = false) (ht : SameOutside d s t ↔ marks = false) :
    SameOutside d s (if set then s else t) ↔ marks = false := by
  cases set with
  | true => exact iff_of_true (SameOutside.refl d s) (hset rfl)
  | false => exact ht

theorem windMarksRate_of_set {s : VehicleState} {n : ℕ}
    (h : s.windAir.windAirStatus n = true) : windMarksRate s n = false := by
  simp [windMarksRate, h]

theorem fst_stateGetAccel (r : AccelRep) (s : VehicleState) :
    (stateGetAccel r s).1 = if s.accel.accelStatus r then s else stateCalcAccel r s := by
  cases r <;> rfl

theorem sameOutside_calcBodyRatesI (s : VehicleState) :
    SameOutside .rates s (stateCalcBodyRatesI s) := by
  unfold stateCalcBodyRatesI
  split_ifs
  · exact SameOutside.refl .rates s
  · exact SameOutside.ofRate s _
  · exact SameOutside.ofRate s _

theorem sameOutside_calcBodyRatesF (s : VehicleState) :
    SameOutside .rates s (stateCalcBodyRatesF s) := by
  unfold stateCalcBodyRatesF
  split_ifs
  · exact SameOutside.refl .rates s
  · exact SameOutside.ofRate s _
  · exact SameOutside.ofRate s _

theorem sameOutside_calcAirspeedI (s : VehicleState) :
    SameOutside .windAir s (stateCalcAirspeedI s) := by
  unfold stateCalcAirspeedI
  split_ifs
  · exact SameOutside.refl .windAir s
  · exact SameOutside.ofWindAir s _
  · exact SameOutside.ofWindAir s _

theorem sameOutside_calcAirspeedF (s : VehicleState) :
    SameOutside .windAir s (stateCalcAirspeedF s) := by
  unfold stateCalcAirspeedF
  split_ifs
  · exact SameOutside.refl .windAir s
  · exact SameOutside.ofWindAir s _
  · exact SameOutside.ofWindAir s _

/-- A getter of a domain whose conversions stay in it. -/
theorem sameOutside_get {d : Domain} {s t : VehicleState} {set : Bool}
    (ht : SameOutside d s t) : SameOutside d s (if set then s else t) := by
  cases set with
  | true => exact SameOutside.refl d s
  | false => exact ht

/-- An origin clears bits of local representations of the speed and of the
acceleration. -/
theorem onlyClearsLocal_of_clearLocal (pos : PosState) (s : VehicleState) :
    OnlyClearsLocal s { s with
      pos := pos, speed := s.speed.clearLocal, accel := s.accel.clearLocal } where
  speed_values r := by cases r <;> rfl
  speed_bits r := by
    cases hr : r.isLocal <;> simp [SpeedState.clearLocal, hr]
  accel_values := rfl
  accel_bits r := by
    cases hr : r.isLocal <;> simp [AccelState.clearLocal, hr]
  attitude := rfl
  rate := rfl
  windAir := rfl

/-- A call leaves the other domains alone exactly if it does not compute one of
the four conversions that mark a foreign representation, or finds that
representation marked already. -/
theorem isolated_iff (earth : Earth) (trig : Trig) (om : OrientationMaths) (s : VehicleState)
    (op : Op) : Isolated earth trig om s op ↔ marksForeign s op = false := by
  cases op with
  | setLocalOriginI d => exact iff_of_true (onlyClearsLocal_of_clearLocal _ s) rfl
  | setLocalUtmOriginF u => exact iff_of_true (onlyClearsLocal_of_clearLocal _ s) rfl
  | calcSpeed r => exact sameOutside_calcSpeed_iff trig r s
  | getSpeed r => exact sameOutside_ite speedMarksPos_of_set (sameOutside_calcSpeed_iff trig r s)
  | calcHorizontalWindspeedI => exact sameOutside_calcHorizontalWindspeedI_iff s
  | getHorizontalWindspeedI =>
      exact sameOutside_ite windMarksRate_of_set (sameOutside_calcHorizontalWindspeedI_iff s)
  | calcHorizontalWindspeedF => exact sameOutside_calcHorizontalWindspeedF_iff s
  | getHorizontalWindspeedF =>
      exact sameOutside_ite windMarksRate_of_set (sameOutside_calcHorizontalWindspeedF_iff s)
  | setSpeedI ecef ned enu => exact iff_of_true (sameOutside_stateSetSpeeds _ s) rfl
  | setSpeedF ecef ned enu => exact iff_of_true (sameOutside_stateSetSpeeds _ s) rfl
  | setPosition c => exact iff_of_true (SameOutside.ofPos s _) rfl
  | setPositionI ecef ned enu lla => exact iff_of_true (SameOutside.ofPos s _) rfl
  | setPositionF ecef ned enu lla utm => exact iff_of_true (SameOutside.ofPos s _) rfl
  | calcPosition r => exact iff_of_true (SameOutside.ofPos s _) rfl
  | getPosition r => exact iff_of_true (SameOutside.ofPos s _) rfl
  | setSpeedNedI v | setSpeedEnuI v | setSpeedEcefI v | setSpeedNedF v | setSpeedEnuF v
  | setSpeedEcefF v => exact iff_of_true (SameOutside.ofSpeed s _) rfl
  | setAccelNedI v | setAccelEcefI v | setAccelNedF v | setAccelEcefF v =>
      exact iff_of_true (SameOutside.ofAccel s _) rfl
  | calcAccel r => exact iff_of_true (SameOutside.ofAccel s _) rfl
  | getAccel r =>
      refine iff_of_true ?_ rfl
      change SameOutside .acceleration s (stateGetAccel r s).1
      rw [fst_stateGetAccel]
      exact sameOutside_get (SameOutside.ofAccel s _)
  | setNedToBody x => exact iff_of_true (SameOutside.ofAttitude s _) rfl
  | getNedToBody r => exact iff_of_true (SameOutside.ofAttitude s _) rfl
  | setBodyRatesI v | setBodyRatesF v => exact iff_of_true (SameOutside.ofRate s _) rfl
  | calcBodyRatesI => exact iff_of_true (sameOutside_calcBodyRatesI s) rfl
  | calcBodyRatesF => exact iff_of_true (sameOutside_calcBodyRatesF s) rfl
  | getBodyRatesI => exact iff_of_true (sameOutside_get (sameOutside_calcBodyRatesI s)) rfl
  | getBodyRatesF => exact iff_of_true (sameOutside_get (sameOutside_calcBodyRatesF s)) rfl
  | isWindspeedValid | isAirspeedValid | isAngleOfAttackValid | isSideslipValid =>
      exact iff_of_true (SameOutside.ofWindAir s _) rfl
  | setHorizontalWindspeedI v | setHorizontalWindspeedF v | setAirspeedI v | setAirspeedF v
  | setAngleOfAttackF v | setSideslipF v => exact iff_of_true (SameOutside.ofWindAir s _) rfl
  | calcAirspeedI => exact iff_of_true (sameOutside_calcAirspeedI s) rfl
  | calcAirspeedF => exact iff_of_true (sameOutside_calcAirspeedF s) rfl
  | getAirspeedI => exact iff_of_true (sameOutside_get (sameOutside_calcAirspeedI s)) rfl
  | getAirspeedF => exact iff_of_true (sameOutside_get (sameOutside_calcAirspeedF s)) rfl
  | getAngleOfAttackF | getSideslipF => exact iff_of_true (SameOutside.refl .windAir s) rfl

/-- In every state reached from `stateInit`, a call leaves the other domains
alone exactly if it does not mark a foreign representation; so every call of a
run is isolated exactly if none of them does. -/
theorem domain_isolation_iff (earth : Earth) (trig : Trig) (om : OrientationMaths)
    (s : VehicleState) (ops : List Op) :
    (∀ op, Isolated earth trig om (run (exec earth trig om) (stateInit s) ops) op ↔
      marksForeign (run (exec earth trig om) (stateInit s) ops) op = false) ∧
    (RunOk (exec earth trig om) (Isolated earth trig om) (stateInit s) ops ↔
      RunOk (exec earth trig om) (fun s op => marksForeign s op = false) (stateInit s) ops) :=
  ⟨fun op => isolated_iff earth trig om _ op,
    runOk_congr (isolated_iff earth trig om) (stateInit s) ops⟩

/-- An origin and a local speed, and nothing that says where the vehicle is. -/
def speedRun : List Op :=
  [.setLocalOriginI PositionCoherence.zeroState.nedOriginI, .setSpeedNedF ![3, 4, 0]]

/-- The rotations of a vehicle that stays level. -/
def levelMaths : OrientationMaths where
  quatBfpOfReal := id
  quatFloatOfBfp := id
  eulersBfpOfReal := id
  eulersFloatOfBfp := id
  rmatBfpOfReal := id
  rmatFloatOfBfp := id
  int32QuatOfRmat _ := ![1, 0, 0, 0]
  int32QuatOfEulers _ := ![1, 0, 0, 0]
  int32RmatOfQuat _ := ![1, 0, 0, 0, 1, 0, 0, 0, 1]
  int32RmatOfEulers _ := ![1, 0, 0, 0, 1, 0, 0, 0, 1]
  int32EulersOfRmat _ := 0
  int32EulersOfQuat _ := 0
  floatQuatOfRmat _ := ![1, 0, 0, 0]
  floatQuatOfEulers _ := ![1, 0, 0, 0]
  floatRmatOfQuat _ := ![1, 0, 0, 0, 1, 0, 0, 0, 1]
  floatRmatOfEulers _ := ![1, 0, 0, 0, 1, 0, 0, 0, 1]
  floatEulersOfRmat _ := 0
  floatEulersOfQuat _ := 0

/-- Reading that speed in the east-north-up frame marks the local position. -/
theorem getSpeedEnuI_not_isolated :
    (run (exec PositionCoherence.flatEarth SpeedCoherence.diamondTrig levelMaths)
      (stateInit SpeedCoherence.zeroState) speedRun).pos.bitIsSet .nedI = false ∧
    (run (exec PositionCoherence.flatEarth SpeedCoherence.diamondTrig levelMaths)
      (stateInit SpeedCoherence.zeroState)
      (speedRun ++ [.getSpeed .enuI])).pos.bitIsSet .nedI = true ∧
    ¬ Isolated PositionCoherence.flatEarth SpeedCoherence.diamondTrig levelMaths
      (run (exec PositionCoherence.flatEarth SpeedCoherence.diamondTrig levelMaths)
        (stateInit SpeedCoherence.zeroState) speedRun) (.getSpeed .enuI) := by
  refine ⟨rfl, rfl, ?_⟩
  rw [isolated_iff]
  exact Bool.noConfusion

end Paparazzi.State.DomainIsolation
