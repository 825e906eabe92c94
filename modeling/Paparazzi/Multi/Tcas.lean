import Mathlib.Algebra.Order.Ring.Rat
import Mathlib.Tactic.SplitIfs
import Paparazzi.Multi.TrafficInfo

/-!
The collision avoidance of the module `tcas`: the monitoring of the aircraft slots, the
resolution of the closest conflict, and the messages.
-/

namespace Paparazzi.Multi.Tcas

open Paparazzi.Library.Machine
open Paparazzi.Multi.TrafficInfo

inductive TcasStatus where
  | noAlarm | ta | ra
  deriving DecidableEq, Repr

inductive TcasResolve where
  | none | level | climb | descend
  deriving DecidableEq, Repr

/-- The constants of the airframe file and of the flight plan. `cosf` and `sinf` are those of
the C library. -/
structure TcasConfig where
  acId : UInt8
  groundAlt : ℚ
  securityHeight : ℚ
  tauTa : ℚ
  tauRa : ℚ
  dmod : ℚ := 10
  alim : ℚ := 15
  dtMax : UInt32 := 1500
  sinf : ℚ → ℚ
  cosf : ℚ → ℚ

def TcasConfig.hugeTau (cfg : TcasConfig) : ℚ := 100 * cfg.tauTa

structure TcasAcStatus where
  status : TcasStatus
  resolve : TcasResolve
  deriving DecidableEq

structure TcasState where
  altSetpoint : ℚ
  tauTa : ℚ
  tauRa : ℚ
  dmod : ℚ
  alim : ℚ
  status : TcasStatus
  resolve : TcasResolve
  acRa : UInt8
  acsStatus : Nat → TcasAcStatus

def tcasInit (cfg : TcasConfig) : TcasState where
  altSetpoint := cfg.groundAlt + cfg.securityHeight
  tauTa := cfg.tauTa
  tauRa := cfg.tauRa
  dmod := cfg.dmod
  alim := cfg.alim
  status := .noAlarm
  resolve := .none
  acRa := cfg.acId
  acsStatus := fun _ => { status := .noAlarm, resolve := .none }

/-- What a call reads: the state of this aircraft, the time of the GPS and the traffic. -/
structure Env where
  x : ℚ
  y : ℚ
  z : ℚ
  horizontalSpeedNorm : ℚ
  horizontalSpeedDir : ℚ
  speedUp : ℚ
  tow : UInt32
  traffic : TrafficState

inductive Downlink where
  | tcasTa (acId : UInt8)
  | tcasResolved (acId : UInt8)
  | tcasRa (acId : UInt8) (resolve : TcasResolve)
  deriving DecidableEq

section

variable (cfg : TcasConfig)

/-- No collision avoidance under the security height. -/
def isLow (env : Env) : Prop := env.z < cfg.groundAlt + cfg.securityHeight

instance (env : Env) : Decidable (isLow cfg env) := inferInstanceAs (Decidable (_ < _))

def tcasTestDirection (alim : ℚ) (env : Env) (id : UInt8) : TcasResolve :=
  let dz := (getAcInfo id env.traffic).alt - env.z
  if dz > alim / 2 then .descend
  else if dz < -alim / 2 then .climb
  else if cfg.acId < id then .descend
  else .climb

/-! ### The monitoring of one slot -/

/-- The time to the closest point of approach of the aircraft in the slot. -/
def tau (env : Env) (i : Nat) : ℚ :=
  let ac := env.traffic.theAcs i
  let vx := env.horizontalSpeedNorm * cfg.sinf env.horizontalSpeedDir
  let vy := env.horizontalSpeedNorm * cfg.cosf env.horizontalSpeedDir
  let dx := ac.east - env.x
  let dy := ac.north - env.y
  let dz := ac.alt - env.z
  let dvx := vx - ac.gspeed * cfg.sinf ac.course
  let dvy := vy - ac.gspeed * cfg.cosf ac.course
  let dvz := env.speedUp - ac.climb
  let scal := dvx * dx + dvy * dy + dvz * dz
  if scal > 0 then (dx * dx + dy * dy + dz * dz) / scal else cfg.hugeTau

/-- `TCAS_IsInside`. -/
def isInside (s : TcasState) (env : Env) (i : Nat) : Bool :=
  let ac := env.traffic.theAcs i
  let ddh := (ac.east - env.x) * (ac.east - env.x) + (ac.north - env.y) * (ac.north - env.y)
  let ddv := (ac.alt - env.z) * (ac.alt - env.z)
  ddh < s.dmod * s.dmod ∧ ddv < 2 * s.alim * (2 * s.alim)

/-- The age of the data in the slot. -/
def dt (env : Env) (i : Nat) : UInt32 := env.tow - (env.traffic.theAcs i).itow

/-- The `switch` over the status, with the messages that it sends. -/
def monitorConflict (s : TcasState) (tau : ℚ) (inside : Bool) (acId : UInt8) (a : TcasAcStatus) :
    TcasAcStatus × List Downlink :=
  match a.status with
  | .ra =>
      if tau ≥ cfg.hugeTau ∧ inside = false then
        ({ status := .noAlarm, resolve := .none }, [.tcasResolved acId])
      else (a, [])
  | .ta =>
      if tau < s.tauRa ∨ inside then ({ a with status := .ra }, [])
      else
        -- there are no braces: only the first assignment is under the test
        let a := if tau > s.tauTa ∧ inside = false then { a with status := .noAlarm } else a
        ({ a with resolve := .none }, [.tcasResolved acId])
  | .noAlarm =>
      let (a, sent) :=
        if tau < s.tauTa ∨ inside then ({ a with status := .ta }, [Downlink.tcasTa acId])
        else (a, [])
      if tau < s.tauRa ∨ inside then ({ a with status := .ra }, sent) else (a, sent)

/-- The slot is monitored: it holds an aircraft, with data from not too long ago. -/
def isMonitored (env : Env) (i : Nat) : Prop :=
  (env.traffic.theAcs i).acId ≠ 0 ∧ ¬dt env i > 3 * cfg.dtMax ∧ ¬dt env i > cfg.dtMax

instance (env : Env) (i : Nat) : Decidable (isMonitored cfg env i) :=
  inferInstanceAs (Decidable (_ ∧ _ ∧ _))

/-- One turn of the loop, as far as it is about the slot itself. -/
def monitorSlot (s : TcasState) (env : Env) (i : Nat) (a : TcasAcStatus) :
    TcasAcStatus × List Downlink :=
  if (env.traffic.theAcs i).acId = 0 then (a, [])
  else if dt env i > 3 * cfg.dtMax then ({ a with status := .noAlarm }, [])
  else if dt env i > cfg.dtMax then (a, [])
  else
    monitorConflict cfg s (tau cfg env i) (isInside s env i) (env.traffic.theAcs i).acId a

/-- The variables of the loop. The messages bear the slot that they are sent for. -/
structure Loop where
  acsStatus : Nat → TcasAcStatus
  tauMin : ℚ
  acIdClose : UInt8
  sent : List (Nat × Downlink)

def monitor (s : TcasState) (env : Env) (l : Loop) (i : Nat) : Loop :=
  let (a, sent) := monitorSlot cfg s env i (l.acsStatus i)
  let closer := isMonitored cfg env i ∧ tau cfg env i < l.tauMin
  { acsStatus := Function.update l.acsStatus i a
    tauMin := if closer then tau cfg env i else l.tauMin
    acIdClose := if closer then (env.traffic.theAcs i).acId else l.acIdClose
    sent := l.sent ++ sent.map fun message => (i, message) }

/-! ### The resolution -/

def lowestDescends (id : UInt8) : TcasResolve := if cfg.acId < id then .descend else .climb

/-- The new `tcas_resolve` and what becomes of the stored resolve of the other aircraft, whose
climb rate is `climb`. -/
def resolveConflict (id : UInt8) (climb : ℚ) (direction acResolve : TcasResolve) :
    TcasResolve × TcasResolve :=
  if acResolve ≠ .none then
    (if acResolve = direction then lowestDescends cfg id else direction, .level)
  else if acResolve ≠ .level then
    (if acResolve = direction then lowestDescends cfg id else direction, acResolve)
  else if direction = .climb ∧ climb > 1 then (.descend, acResolve)
  else if direction = .descend ∧ climb < -1 then (.climb, acResolve)
  else (direction, acResolve)

/-! ### The tasks -/

/-- The slots of the loop. -/
def slots : List Nat := List.range' 2 (nbAcs - 2)

def monitorAll (s : TcasState) (env : Env) : Loop :=
  slots.foldl (monitor cfg s env)
    { acsStatus := s.acsStatus, tauMin := s.tauTa, acIdClose := cfg.acId, sent := [] }

/-- The aircraft that the current conflict is with: one in RA is kept until it is resolved. -/
def conflictWith (s : TcasState) (env : Env) (l : Loop) : UInt8 :=
  if s.status = .ra ∧ s.acRa ≠ cfg.acId ∧
      (l.acsStatus (env.traffic.theAcsId s.acRa)).status = .ra then s.acRa
  else l.acIdClose

/-- The new state and the messages, each with the slot that it is about. -/
def tcasPeriodicTask1Hz (s : TcasState) (env : Env) : TcasState × List (Nat × Downlink) :=
  if isLow cfg env then
    ({ s with
        acsStatus := fun i =>
          if i < nbAcs then { s.acsStatus i with status := .noAlarm } else s.acsStatus i }, [])
  else
    let l := monitorAll cfg s env
    let acIdClose := conflictWith cfg s env l
    let slot := env.traffic.theAcsId acIdClose
    let status := (l.acsStatus slot).status
    if status = .ra then
      let (resolve, acResolve) :=
        resolveConflict cfg acIdClose (getAcInfo acIdClose env.traffic).climb
          (tcasTestDirection cfg s.alim env acIdClose) (l.acsStatus slot).resolve
      ({ s with
          status := status
          resolve := resolve
          acRa := acIdClose
          acsStatus :=
            Function.update l.acsStatus slot { l.acsStatus slot with resolve := acResolve } },
        l.sent ++ [(slot, .tcasRa acIdClose resolve)])
    else ({ s with status := status, acRa := cfg.acId, acsStatus := l.acsStatus }, l.sent)

def tcasPeriodicTask4Hz (s : TcasState) (env : Env) (navAltitude : ℚ) : TcasState :=
  if env.z > cfg.groundAlt + cfg.securityHeight ∧ s.status = .ra then
    let ac := getAcInfo s.acRa env.traffic
    let altSetpoint :=
      match s.resolve with
      | .climb => max navAltitude (ac.alt + s.alim)
      | .descend => min navAltitude (ac.alt - s.alim)
      | .level | .none => navAltitude
    { s with altSetpoint := max (cfg.groundAlt + cfg.securityHeight) altSetpoint }
  else { s with altSetpoint := navAltitude, resolve := .none }

/-- `ParseTcasResolve`: the resolve of the other aircraft of a conflict is stored. -/
def parseTcasResolve (acId acIdConflict : UInt8) (resolve : TcasResolve) (traffic : TrafficState)
    (s : TcasState) : TcasState :=
  if acId = cfg.acId then
    let slot := traffic.theAcsId acIdConflict
    { s with acsStatus := Function.update s.acsStatus slot { s.acsStatus slot with resolve := resolve } }
  else s

inductive TcasEvent where
  | periodic1Hz (env : Env)
  | periodic4Hz (env : Env) (navAltitude : ℚ)
  | resolve (acId acIdConflict : UInt8) (resolve : TcasResolve) (traffic : TrafficState)
  | settings (tauTa tauRa dmod alim : ℚ)

def step (s : TcasState) : TcasEvent → TcasState
  | .periodic1Hz env => (tcasPeriodicTask1Hz cfg s env).1
  | .periodic4Hz env navAltitude => tcasPeriodicTask4Hz cfg s env navAltitude
  | .resolve acId acIdConflict resolve traffic =>
      parseTcasResolve cfg acId acIdConflict resolve traffic s
  | .settings tauTa tauRa dmod alim =>
      { s with tauTa := tauTa, tauRa := tauRa, dmod := dmod, alim := alim }

end

end Paparazzi.Multi.Tcas
