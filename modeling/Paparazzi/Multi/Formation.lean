import Mathlib.Algebra.Order.Ring.Rat
import Paparazzi.Library.Machine
import Paparazzi.Multi.TrafficInfo

/-!
The formation flight of the module `formation`: the slots, the messages about them and the
control law `formation_flight`.
-/

namespace Paparazzi.Multi.Formation

open Paparazzi.Library.Machine
open Paparazzi.Multi.TrafficInfo

/-! ### Slots -/

/-- `enum slot_status`; a status message can bring any byte. -/
abbrev SlotStatus := UInt8

def unset : SlotStatus := 0
def active : SlotStatus := 1
def idle : SlotStatus := 2
def lost : SlotStatus := 3

structure Slot where
  status : SlotStatus
  east : ℚ
  north : ℚ
  alt : ℚ
  deriving DecidableEq

/-- A slot in the frame of the leader. -/
structure FormPos where
  east : ℚ
  north : ℚ
  alt : ℚ
  deriving DecidableEq

def formModeGlobal : UInt8 := 0
def formModeCourse : UInt8 := 1

/-- The gains of the control law. -/
structure FormParams where
  formCarrot : ℚ
  coefFormPos : ℚ
  coefFormSpeed : ℚ
  coefFormCourse : ℚ
  coefFormAlt : ℚ
  formProx : ℚ

/-- The airframe file and the flight plan. `cosf` and `sinf` are those of the C library. -/
structure FormConfig where
  acId : UInt8
  params : FormParams
  formMode : UInt8 := formModeGlobal
  nominalCruiseThrottle : ℚ
  minCruiseThrottle : ℚ
  maxCruiseThrottle : ℚ
  groundAlt : ℚ
  securityHeight : ℚ
  nominalAirspeed : ℚ
  sinf : ℚ → ℚ
  cosf : ℚ → ℚ

structure FormationState where
  formation : Nat → Slot
  leaderId : UInt8
  params : FormParams
  formMode : UInt8
  oldCruise : ℚ
  oldAlt : ℚ
  formE : ℚ
  formN : ℚ
  formA : ℚ
  formSpeed : ℚ
  formSpeedE : ℚ
  formSpeedN : ℚ
  cruiseThrottle : ℚ
  navAltitude : ℚ
  flightAltitude : ℚ
  desiredX : ℚ
  desiredY : ℚ
  traffic : TrafficState

/-- What a call of `formation_flight` reads beside the formation. `stack` is what the local array
`form` holds before it is written. -/
structure Env where
  x : ℚ
  y : ℚ
  z : ℚ
  horizontalSpeedNorm : ℚ
  horizontalSpeedDir : ℚ
  speedUp : ℚ
  tow : UInt32
  groundAlt : ℚ
  navUtmEast0 : ℚ
  navUtmNorth0 : ℚ
  stack : Nat → FormPos

section

variable (cfg : FormConfig)

/-! ### The calls of the flight plan and the messages -/

def setStatus (status : SlotStatus) (i : Nat) (formation : Nat → Slot) : Nat → Slot :=
  Function.update formation i { formation i with status := status }

def formationInit (s : FormationState) : FormationState :=
  { s with
    formation := fun i => if i < nbAcs then { s.formation i with status := unset } else s.formation i
    leaderId := 0
    params := cfg.params
    formMode := cfg.formMode
    oldCruise := cfg.nominalCruiseThrottle
    oldAlt := cfg.groundAlt + cfg.securityHeight }

def updateSlot (id : UInt8) (se sn sa : ℚ) (s : FormationState) : FormationState :=
  let i := s.traffic.theAcsId id
  { s with
    formation := Function.update s.formation i { s.formation i with east := se, north := sn, alt := sa } }

def updateFormationStatus (id : UInt8) (status : SlotStatus) (s : FormationState) : FormationState :=
  { s with formation := setStatus status (s.traffic.theAcsId id) s.formation }

def addSlot (id : UInt8) (slotE slotN slotA : ℚ) (s : FormationState) : FormationState :=
  if id ≠ cfg.acId ∧ s.traffic.theAcsId id = 0 then s
  else updateSlot id slotE slotN slotA (updateFormationStatus id idle s)

/-- The slots with one status get another one. -/
def changeAll (old new : SlotStatus) (formation : Nat → Slot) (i : Nat) : Slot :=
  if i < nbAcs ∧ (formation i).status = old then { formation i with status := new } else formation i

def startFormation (s : FormationState) : FormationState :=
  { s with
    formation := changeAll idle active s.formation
    oldCruise := s.cruiseThrottle
    oldAlt := s.navAltitude }

def stopFormation (s : FormationState) : FormationState :=
  { s with
    formation := changeAll active idle s.formation
    cruiseThrottle := s.oldCruise
    oldCruise := cfg.nominalCruiseThrottle
    navAltitude := s.oldAlt
    oldAlt := cfg.groundAlt + cfg.securityHeight }

def parseFormationStatus (acId leader : UInt8) (status : SlotStatus) (s : FormationState) :
    FormationState :=
  if acId = cfg.acId then { s with leaderId := leader }
  else if leader = s.leaderId then updateFormationStatus acId status s
  else updateFormationStatus acId unset s

def parseFormationSlot (acId mode : UInt8) (slotEast slotNorth slotAlt : ℚ) (s : FormationState) :
    FormationState :=
  let s := updateSlot acId slotEast slotNorth slotAlt s
  if acId = s.leaderId then { s with formMode := mode } else s

/-! ### The control law -/

/-- The slots in the frame of the leader: the array `form` after its loop. -/
def computeForm (s : FormationState) (env : Env) (cr sr : ℚ) (i : Nat) : FormPos :=
  let slot := s.formation i
  if i < nbAcs ∧ slot.status ≠ unset then
    { east := slot.east * sr - slot.north * cr
      north := slot.east * cr + slot.north * sr
      alt := slot.alt }
  else env.stack i

/-- The variables of the loop, with the indices at which `form` has been read. -/
structure Loop where
  formation : Nat → Slot
  formE : ℚ
  formN : ℚ
  formA : ℚ
  formSpeed : ℚ
  nb : Nat
  reads : List Nat

/-- The age of the data of an aircraft, in seconds. -/
def deltaT (env : Env) (ac : AcInfo) : ℚ := max (((env.tow - ac.itow).toInt32.toInt : ℚ) / 1000) 0

/-- One turn of the second loop. -/
def turn (s : FormationState) (env : Env) (form : Nat → FormPos) (l : Loop) (i : Nat) : Loop :=
  if (s.traffic.theAcs i).acId = cfg.acId then l
  else
    let ac := getAcInfo (s.traffic.theAcs i).acId s.traffic
    let dt := deltaT env ac
    if dt > cfg.params.formCarrot then { l with formation := setStatus lost i l.formation }
    else
      let own := s.traffic.theAcsId cfg.acId
      let l := { l with formation := setStatus active i l.formation }
      if |env.z - ac.alt| < s.params.formProx ∧ ac.alt > 0 then
        { l with
          formE :=
            l.formE + ((ac.east + ac.gspeed * cfg.sinf ac.course * dt - env.x) -
              ((form i).east - (form own).east))
          formN :=
            l.formN + ((ac.north + ac.gspeed * cfg.cosf ac.course * dt - env.y) -
              ((form i).north - (form own).north))
          formA :=
            l.formA + ((ac.alt - env.z) - ((l.formation i).alt - (l.formation own).alt))
          formSpeed := l.formSpeed + ac.gspeed
          nb := l.nb + 1
          reads := l.reads ++ [i, own] }
      else l

def bound (x min max : ℚ) : ℚ := if x > max then max else if x < min then min else x

/-- The position of a leader is that of its slot. -/
def atSlot (s : FormationState) (env : Env) : Env :=
  let own := s.formation (s.traffic.theAcsId cfg.acId)
  if cfg.acId = s.leaderId then { env with x := env.x + own.east, y := env.y + own.north } else env

/-- The arguments of `SetAcInfo` for this aircraft. -/
def ownReport (env : Env) : Report where
  utmX := env.x
  utmY := env.y
  course := env.horizontalSpeedDir
  alt := env.z
  gspeed := env.horizontalSpeedNorm
  climb := env.speedUp
  itow := env.tow
  navUtmEast0 := env.navUtmEast0
  navUtmNorth0 := env.navUtmNorth0

/-- The part of `formation_flight` before the loops: the entry of this aircraft in the traffic
table is refreshed. -/
def beforeLoops (s : FormationState) (env : Env) : FormationState :=
  { s with
    formE := 0
    formN := 0
    formA := 0
    formSpeed := env.horizontalSpeedNorm
    formSpeedE := env.horizontalSpeedNorm * cfg.sinf env.horizontalSpeedDir
    formSpeedN := env.horizontalSpeedNorm * cfg.cosf env.horizontalSpeedDir
    traffic := setAcInfo cfg.acId (ownReport (atSlot cfg s env)) s.traffic }

/-- The aircraft is in formation, and so is its leader. -/
def isReady (s : FormationState) : Prop :=
  (s.formation (s.traffic.theAcsId cfg.acId)).status = active ∧
    (s.formation (s.traffic.theAcsId s.leaderId)).status ≠ unset ∧
    (s.formation (s.traffic.theAcsId s.leaderId)).status ≠ idle

instance (s : FormationState) : Decidable (isReady cfg s) :=
  inferInstanceAs (Decidable (_ ∧ _ ∧ _))

/-- The frame of the slots. -/
def frame (s : FormationState) : ℚ × ℚ :=
  let leader := getAcInfo s.leaderId s.traffic
  if s.formMode = formModeCourse then (cfg.cosf leader.course, cfg.sinf leader.course) else (0, 1)

def loops (s : FormationState) (env : Env) (form : Nat → FormPos) : Loop :=
  (List.range nbAcs).foldl (turn cfg s env form)
    { formation := s.formation, formE := s.formE, formN := s.formN, formA := s.formA,
      formSpeed := s.formSpeed, nb := 0, reads := [] }

/-- The commands, from the sums of the loop. -/
def commands (s : FormationState) (env : Env) (form : Nat → FormPos) (l : Loop) :
    FormationState × List Nat :=
  let own := s.traffic.theAcsId cfg.acId
  let leaderSlot := s.traffic.theAcsId s.leaderId
  let leader := getAcInfo s.leaderId s.traffic
  let nb : ℚ := max 1 (l.nb : ℚ)
  let formN := l.formN / nb
  let formE := l.formE / nb
  let formA := l.formA / nb
  let formSpeed := l.formSpeed / (l.nb + 1) - env.horizontalSpeedNorm
  let alt := if cfg.acId = s.leaderId then s.navAltitude else leader.alt - (form leaderSlot).alt
  let alt := alt + ((l.formation own).alt + s.params.coefFormAlt * formA)
  let dx := (form own).east - (form leaderSlot).east
  let dy := (form own).north - (form leaderSlot).north
  let cruise :=
    cfg.nominalCruiseThrottle +
      (s.params.coefFormPos *
          (formN * cfg.cosf env.horizontalSpeedDir + formE * cfg.sinf env.horizontalSpeedDir) +
        s.params.coefFormSpeed * formSpeed)
  ({ s with
      formation := l.formation
      formE := formE
      formN := formN
      formA := formA
      formSpeed := formSpeed
      flightAltitude := max alt (env.groundAlt + cfg.securityHeight)
      desiredX := if cfg.acId ≠ s.leaderId then leader.east + dx else s.desiredX
      desiredY := if cfg.acId ≠ s.leaderId then leader.north + dy else s.desiredY
      cruiseThrottle :=
        if l.nb > 0 then bound cruise cfg.minCruiseThrottle cfg.maxCruiseThrottle
        else s.cruiseThrottle },
    if cfg.acId ≠ s.leaderId then l.reads ++ [leaderSlot, own] else l.reads)

/-- `formation_flight`: the state after the call, and the indices at which `form` is read. -/
def formationFlight (s : FormationState) (env0 : Env) : FormationState × List Nat :=
  let env := atSlot cfg s env0
  let s := beforeLoops cfg s env0
  if isReady cfg s then
    let form := computeForm s env (frame cfg s).1 (frame cfg s).2
    commands cfg s env form (loops cfg s env form)
  else (s, [])

/-! ### Runs -/

inductive FormationEvent where
  | init
  | addSlot (id : UInt8) (slotE slotN slotA : ℚ)
  | start
  | stop
  | flight (env : Env)
  | status (acId leader : UInt8) (status : SlotStatus)
  | slot (acId mode : UInt8) (slotEast slotNorth slotAlt : ℚ)
  | acInfo (id : UInt8) (report : Report)
  /-- The settings, and the rest of the autopilot. -/
  | other (params : FormParams) (cruiseThrottle navAltitude : ℚ)

def step (s : FormationState) : FormationEvent → FormationState
  | .init => formationInit cfg s
  | .addSlot id slotE slotN slotA => addSlot cfg id slotE slotN slotA s
  | .start => startFormation s
  | .stop => stopFormation cfg s
  | .flight env => (formationFlight cfg s env).1
  | .status acId leader status => parseFormationStatus cfg acId leader status s
  | .slot acId mode slotEast slotNorth slotAlt =>
      parseFormationSlot acId mode slotEast slotNorth slotAlt s
  | .acInfo id report => { s with traffic := setAcInfo id report s.traffic }
  | .other params cruiseThrottle navAltitude =>
      { s with params := params, cruiseThrottle := cruiseThrottle, navAltitude := navAltitude }

end

end Paparazzi.Multi.Formation
