import Mathlib.Algebra.Order.Ring.Rat
import Paparazzi.Multi.TrafficInfo
import Paparazzi.Rotorcraft.Datalink
import Paparazzi.State.Domains

/-!
The fixed-wing's handler of datalink messages, and `nav_move_waypoint` of `common_nav`.
-/

namespace Paparazzi.Fixedwing.Datalink

open Paparazzi.Library.LittleEndian
open Paparazzi.Multi.TrafficInfo
open Paparazzi.State.Domains
open Paparazzi.State.Interface
open Paparazzi.Rotorcraft.Datalink

/-! ### Message ids and fields -/

def dlAcinfo : UInt8 := 1
def dlWindInfo : UInt8 := 3
def dlHitlUbx : UInt8 := 6
def dlHitlInfrared : UInt8 := 7
def dlJoystickRaw : UInt8 := 11

def int16At (buf : DlBuffer) (off : Nat) : Int16 := Int16.ofNat (field buf off 2)

def dlAcinfoCourse (buf : DlBuffer) : Int16 := int16At buf 2
def dlAcinfoUtmEast (buf : DlBuffer) : Int32 := int32At buf 4
def dlAcinfoUtmNorth (buf : DlBuffer) : Int32 := int32At buf 8
def dlAcinfoAlt (buf : DlBuffer) : Int32 := int32At buf 12
def dlAcinfoItow (buf : DlBuffer) : UInt32 := UInt32.ofNat (field buf 16 4)
def dlAcinfoSpeed (buf : DlBuffer) : UInt16 := UInt16.ofNat (field buf 20 2)
def dlAcinfoClimb (buf : DlBuffer) : Int16 := int16At buf 22
def dlAcinfoAcId (buf : DlBuffer) : UInt8 := byteAt buf 24
def dlWindInfoAcId (buf : DlBuffer) : UInt8 := byteAt buf 2
def dlWindInfoEast (buf : DlBuffer) : UInt32 := floatAt buf 4
def dlWindInfoNorth (buf : DlBuffer) : UInt32 := floatAt buf 8
def dlWindInfoAirspeed (buf : DlBuffer) : UInt32 := floatAt buf 12
def dlHitlInfraredRoll (buf : DlBuffer) : Int16 := int16At buf 2
def dlHitlInfraredPitch (buf : DlBuffer) : Int16 := int16At buf 4
def dlHitlInfraredTop (buf : DlBuffer) : Int16 := int16At buf 6
def dlHitlUbxClass (buf : DlBuffer) : UInt8 := byteAt buf 2
def dlHitlUbxId (buf : DlBuffer) : UInt8 := byteAt buf 3
def dlHitlUbxPayloadLength (buf : DlBuffer) : UInt8 := byteAt buf 5
def dlHitlUbxPayload (buf : DlBuffer) : List UInt8 := buf.drop 6
def dlJoystickRawAcId (buf : DlBuffer) : UInt8 := byteAt buf 2
def dlJoystickRawRoll (buf : DlBuffer) : Int8 := (byteAt buf 3).toInt8
def dlJoystickRawPitch (buf : DlBuffer) : Int8 := (byteAt buf 4).toInt8
def dlJoystickRawThrottle (buf : DlBuffer) : Int8 := (byteAt buf 5).toInt8
def dlRc4ChAcId (buf : DlBuffer) : UInt8 := byteAt buf 2

/-! ### State and configuration -/

structure Point where
  x : ℚ
  y : ℚ
  a : ℚ
  deriving DecidableEq

/-- The part of the flight plan that the handler uses; the home waypoint is one of the table. -/
structure FlightPlan where
  nbWaypoint : UInt8
  wpHome : Fin nbWaypoint.toNat
  nbBlock : UInt8

/-- The place in the flight plan. -/
structure Place where
  navBlock : UInt8
  navStage : UInt8
  lastBlock : UInt8
  lastStage : UInt8
  blockTime : UInt16
  deriving DecidableEq

/-- What the hardware-in-the-loop messages replace. -/
structure Hitl where
  infraredRoll : Int16
  infraredPitch : Int16
  infraredTop : Int16
  gpsMsgReceived : Bool
  gpsNbOvrn : UInt8
  ubxClass : UInt8
  ubxId : UInt8
  ubxMsgBuf : List UInt8
  deriving DecidableEq

/-- The set points that a joystick moves. -/
structure Joystick where
  isAuto2 : Bool
  joystickBlock : UInt8
  hCtlRollSetpoint : ℚ
  hCtlPitchSetpoint : ℚ
  vCtlThrottleSetpoint : Int16

/-- The variables that the handler reads and writes, with a table of `n` waypoints; `σ` holds
the settings. -/
structure Vehicle (n : Nat) (σ : Type) where
  datalinkTime : UInt16
  waypoints : Fin n → Point
  place : Place
  navUtmEast0 : Int32
  navUtmNorth0 : Int32
  navUtmZone0 : UInt8
  maxDistFromHome : ℚ
  traffic : TrafficState
  stateIf : VehicleState
  hitl : Hitl
  joystick : Joystick
  rcDl : RcDl
  settings : σ

/-- The switches of the compilation, the functions generated from the settings, from the flight
plan (`navInitStage`) and from the modules, and the floating-point functions of the libraries. -/
structure DlConfig (σ : Type) where
  acId : UInt8
  trafficInfo : Bool
  nav : Bool
  windInfo : Bool
  useAirspeed : Bool
  windInfoRet : Bool
  hasHitl : Bool
  hasDlSetting : Bool
  useJoystick : Bool
  rcDatalink : Bool
  plan : FlightPlan
  auto1MaxRoll : ℚ
  auto1MaxPitch : ℚ
  radOfDeg : ℚ → ℚ
  floatOfBits : UInt32 → ℚ
  /-- East and north of a position (latitude, longitude) in a zone. -/
  utmOfLlaF : UInt8 → ℚ → ℚ → ℚ × ℚ
  dlSetting : UInt8 → UInt32 → σ → σ
  settingsGetValue : UInt8 → σ → UInt32
  modulesParseDatalink : DlBuffer → UInt8 → Vehicle plan.nbWaypoint.toNat σ →
    Vehicle plan.nbWaypoint.toNat σ

inductive Downlink where
  | pong
  | wpMoved (wpId : UInt8) (east north a : ℚ) (zone : UInt8)
  | navigation (navBlock navStage : UInt8)
  | windInfoRet (east north airspeed : ℚ)
  | dlValue (index : UInt8) (value : UInt32)

/-- The end of a message: the state, what was sent, and whether the modules get the message. -/
structure Handled (n : Nat) (σ : Type) where
  vehicle : Vehicle n σ
  sent : List Downlink
  toModules : Bool

def mOfCm (x : ℚ) : ℚ := x / 100

def boundAbs (x max : ℚ) : ℚ := if x > max then max else if x < -max then -max else x

section

variable {n : Nat} {σ : Type}

def handled (s : Vehicle n σ) (sent : List Downlink) : Handled n σ := ⟨s, sent, false⟩

/-- `waypoints[wp_id]`, with no value when the index is out of the array. -/
def waypointAt (wpId : UInt8) (s : Vehicle n σ) : Option Point :=
  if h : wpId.toNat < n then some (s.waypoints ⟨wpId.toNat, h⟩) else none

/-- `nav_move_waypoint` of `common_nav.c`. -/
def navMoveWaypoint (plan : FlightPlan) (wpId : UInt8) (ux uy alt : ℚ)
    (s : Vehicle plan.nbWaypoint.toNat σ) : Vehicle plan.nbWaypoint.toNat σ :=
  if h : wpId < plan.nbWaypoint then
    let home := s.waypoints plan.wpHome
    let dx := boundAbs (ux - (s.navUtmEast0.toInt : ℚ) - home.x) s.maxDistFromHome
    let dy := boundAbs (uy - (s.navUtmNorth0.toInt : ℚ) - home.y) s.maxDistFromHome
    { s with
      waypoints :=
        Function.update s.waypoints ⟨wpId.toNat, UInt8.lt_iff_toNat_lt.1 h⟩
          { x := home.x + dx, y := home.y + dy, a := alt } }
  else s

/-- `nav_goto_block`; `nav_init_block` bounds the block by the last one. -/
def navGotoBlock (plan : FlightPlan) (b : UInt8) (s : Vehicle n σ) : Vehicle n σ :=
  let place :=
    if b ≠ s.place.navBlock then
      { s.place with lastBlock := s.place.navBlock, lastStage := s.place.navStage }
    else s.place
  { s with
    place :=
      { place with
        navBlock := if b ≥ plan.nbBlock then plan.nbBlock - 1 else b
        navStage := 0
        blockTime := 0 } }

end

section

variable {σ : Type} (cfg : DlConfig σ) (buf : DlBuffer)

def acinfoCase (s : Vehicle cfg.plan.nbWaypoint.toNat σ) :
    Handled cfg.plan.nbWaypoint.toNat σ :=
  let report : Report :=
    { utmX := mOfCm (dlAcinfoUtmEast buf).toInt
      utmY := mOfCm (dlAcinfoUtmNorth buf).toInt
      course := cfg.radOfDeg ((dlAcinfoCourse buf).toInt / 10)
      alt := mOfCm (dlAcinfoAlt buf).toInt
      gspeed := mOfCm (dlAcinfoSpeed buf).toNat
      climb := mOfCm (dlAcinfoClimb buf).toInt
      itow := dlAcinfoItow buf
      navUtmEast0 := s.navUtmEast0.toInt
      navUtmNorth0 := s.navUtmNorth0.toInt }
  handled { s with traffic := setAcInfo (dlAcinfoAcId buf) report s.traffic } []

/-- The position of the waypoint is read back for the answer, whether or not it has moved. -/
def moveWpCase (s : Vehicle cfg.plan.nbWaypoint.toNat σ) :
    Option (Handled cfg.plan.nbWaypoint.toNat σ) :=
  let wpId := dlMoveWpWpId buf
  let a := mOfCm (dlMoveWpAlt buf).toInt
  let utm :=
    cfg.utmOfLlaF s.navUtmZone0 (cfg.radOfDeg ((dlMoveWpLat buf).toInt / 10 ^ 7))
      (cfg.radOfDeg ((dlMoveWpLon buf).toInt / 10 ^ 7))
  let s := navMoveWaypoint cfg.plan wpId utm.1 utm.2 a s
  (waypointAt wpId s).map fun wp =>
    handled s
      [.wpMoved wpId (wp.x + (s.navUtmEast0.toInt : ℚ)) (wp.y + (s.navUtmNorth0.toInt : ℚ)) a
        s.navUtmZone0]

def blockCase (s : Vehicle cfg.plan.nbWaypoint.toNat σ) :
    Handled cfg.plan.nbWaypoint.toNat σ :=
  let s := navGotoBlock cfg.plan (dlBlockBlockId buf) s
  handled s [.navigation s.place.navBlock s.place.navStage]

def windInfoCase (s : Vehicle cfg.plan.nbWaypoint.toNat σ) :
    Handled cfg.plan.nbWaypoint.toNat σ :=
  let wind : Vect2 :=
    { x := cfg.floatOfBits (dlWindInfoNorth buf), y := cfg.floatOfBits (dlWindInfoEast buf) }
  let stateIf := stateSetHorizontalWindspeedF wind s.stateIf
  let stateIf :=
    if cfg.useAirspeed then stateIf
    else stateSetAirspeedF (cfg.floatOfBits (dlWindInfoAirspeed buf)) stateIf
  if cfg.windInfoRet then
    let (stateIf, airspeed) := stateGetAirspeedF stateIf
    handled { s with stateIf := stateIf } [.windInfoRet wind.y wind.x airspeed]
  else handled { s with stateIf := stateIf } []

def hitlInfraredCase (s : Vehicle cfg.plan.nbWaypoint.toNat σ) :
    Handled cfg.plan.nbWaypoint.toNat σ :=
  handled
    { s with
      hitl :=
        { s.hitl with
          infraredRoll := dlHitlInfraredRoll buf
          infraredPitch := dlHitlInfraredPitch buf
          infraredTop := dlHitlInfraredTop buf } } []

def hitlUbxCase (s : Vehicle cfg.plan.nbWaypoint.toNat σ) :
    Handled cfg.plan.nbWaypoint.toNat σ :=
  if s.hitl.gpsMsgReceived then
    handled { s with hitl := { s.hitl with gpsNbOvrn := s.hitl.gpsNbOvrn + 1 } } []
  else
    let l := (dlHitlUbxPayloadLength buf).toNat
    handled
      { s with
        hitl :=
          { s.hitl with
            ubxClass := dlHitlUbxClass buf
            ubxId := dlHitlUbxId buf
            ubxMsgBuf := (dlHitlUbxPayload buf).take l ++ s.hitl.ubxMsgBuf.drop l
            gpsMsgReceived := true } } []

def settingCase (s : Vehicle cfg.plan.nbWaypoint.toNat σ) :
    Handled cfg.plan.nbWaypoint.toNat σ :=
  handled
    { s with settings := cfg.dlSetting (dlSettingIndex buf) (dlSettingValue buf) s.settings }
    [.dlValue (dlSettingIndex buf) (dlSettingValue buf)]

def getSettingCase (s : Vehicle cfg.plan.nbWaypoint.toNat σ) :
    Handled cfg.plan.nbWaypoint.toNat σ :=
  handled s
    [.dlValue (dlGetSettingIndex buf) (cfg.settingsGetValue (dlGetSettingIndex buf) s.settings)]

/-- `JoystickHandeDatalink`. -/
def joystickCase (s : Vehicle cfg.plan.nbWaypoint.toNat σ) :
    Handled cfg.plan.nbWaypoint.toNat σ :=
  if s.joystick.isAuto2 && s.place.navBlock = s.joystick.joystickBlock then
    handled
      { s with
        joystick :=
          { s.joystick with
            hCtlRollSetpoint := (dlJoystickRawRoll buf).toInt * (cfg.auto1MaxRoll / 0x7f)
            hCtlPitchSetpoint := (dlJoystickRawPitch buf).toInt * (cfg.auto1MaxPitch / 0x7f)
            vCtlThrottleSetpoint := 9600 / 0x7f * (dlJoystickRawThrottle buf).toInt16 } } []
  else handled s []

/-- The chain of tests of `dl_parse_msg`. -/
def dlChain (s : Vehicle cfg.plan.nbWaypoint.toNat σ) :
    Option (Handled cfg.plan.nbWaypoint.toNat σ) :=
  if idOfMsg buf = dlPing then some (handled s [.pong])
  else if cfg.trafficInfo ∧ idOfMsg buf = dlAcinfo ∧ dlAcinfoAcId buf ≠ cfg.acId then
    some (acinfoCase cfg buf s)
  else if cfg.nav ∧ idOfMsg buf = dlMoveWp ∧ dlMoveWpAcId buf = cfg.acId then moveWpCase cfg buf s
  else if cfg.nav ∧ idOfMsg buf = dlBlock ∧ dlBlockAcId buf = cfg.acId then
    some (blockCase cfg buf s)
  else if cfg.windInfo ∧ idOfMsg buf = dlWindInfo ∧ dlWindInfoAcId buf = cfg.acId then
    some (windInfoCase cfg buf s)
  else if cfg.hasHitl ∧ idOfMsg buf = dlHitlInfrared then some (hitlInfraredCase cfg buf s)
  else if cfg.hasHitl ∧ idOfMsg buf = dlHitlUbx then some (hitlUbxCase cfg buf s)
  else if cfg.hasDlSetting ∧ idOfMsg buf = dlSetting ∧ dlSettingAcId buf = cfg.acId then
    some (settingCase cfg buf s)
  else if cfg.hasDlSetting ∧ idOfMsg buf = dlGetSetting ∧ dlGetSettingAcId buf = cfg.acId then
    some (getSettingCase cfg buf s)
  else if cfg.useJoystick ∧ idOfMsg buf = dlJoystickRaw ∧ dlJoystickRawAcId buf = cfg.acId then
    some (joystickCase cfg buf s)
  else if cfg.rcDatalink ∧ idOfMsg buf = dlRc3Ch then
    some (handled
      { s with
        rcDl :=
          parseRc3ChDatalink (dlRc3ChThrottleMode buf) (dlRc3ChRoll buf) (dlRc3ChPitch buf) } [])
  else if cfg.rcDatalink ∧ idOfMsg buf = dlRc4Ch ∧ dlRc4ChAcId buf = cfg.acId then
    some (handled
      { s with
        rcDl :=
          parseRc4ChDatalink (dlRc4ChMode buf) (dlRc4ChThrottle buf) (dlRc4ChRoll buf)
            (dlRc4ChPitch buf) (dlRc4ChYaw buf) } [])
  else some ⟨s, [], true⟩

/-- `dl_parse_msg`. There is no result when it reads outside `waypoints`. -/
def dlParseMsg (s : Vehicle cfg.plan.nbWaypoint.toNat σ) :
    Option (Vehicle cfg.plan.nbWaypoint.toNat σ) :=
  (dlChain cfg buf { s with datalinkTime := 0 }).map fun r =>
    if r.toModules then cfg.modulesParseDatalink buf (idOfMsg buf) r.vehicle else r.vehicle

end

/-! ### Which messages touch the waypoints -/

section

variable {σ : Type} {cfg : DlConfig σ} {buf : DlBuffer} {s : Vehicle cfg.plan.nbWaypoint.toNat σ}

/-- A waypoint message for this aircraft with an index outside the table. -/
def WpOutOfRange (cfg : DlConfig σ) (buf : DlBuffer) : Prop :=
  cfg.nav = true ∧ idOfMsg buf = dlMoveWp ∧ dlMoveWpAcId buf = cfg.acId ∧
    cfg.plan.nbWaypoint ≤ dlMoveWpWpId buf

@[simp] theorem windInfoCase_waypoints : (windInfoCase cfg buf s).vehicle.waypoints = s.waypoints := by
  unfold windInfoCase
  split_ifs <;> rfl

@[simp] theorem hitlUbxCase_waypoints : (hitlUbxCase cfg buf s).vehicle.waypoints = s.waypoints := by
  unfold hitlUbxCase
  split_ifs <;> rfl

@[simp] theorem joystickCase_waypoints :
    (joystickCase cfg buf s).vehicle.waypoints = s.waypoints := by
  unfold joystickCase
  split_ifs <;> rfl

theorem moveWpCase_eq_none_iff :
    moveWpCase cfg buf s = none ↔ cfg.plan.nbWaypoint ≤ dlMoveWpWpId buf := by
  rw [moveWpCase, Option.map_eq_none_iff, waypointAt, dite_eq_right_iff]
  constructor
  · intro h
    by_contra hlt
    exact Option.some_ne_none _ (h (UInt8.lt_iff_toNat_lt.1 (UInt8.not_le.1 hlt)))
  · intro hle hlt
    exact absurd hlt (Nat.not_lt.2 (UInt8.le_iff_toNat_le.1 hle))

/-- The result is there and the waypoints are those of before. -/
def Keeps (waypoints : Fin cfg.plan.nbWaypoint.toNat → Point)
    (r : Option (Handled cfg.plan.nbWaypoint.toNat σ)) : Prop :=
  ∃ h, r = some h ∧ h.vehicle.waypoints = waypoints

theorem keeps_ite {c : Prop} [Decidable c] {waypoints : Fin cfg.plan.nbWaypoint.toNat → Point}
    {t e : Option (Handled cfg.plan.nbWaypoint.toNat σ)} (ht : c → Keeps waypoints t)
    (he : ¬c → Keeps waypoints e) : Keeps waypoints (if c then t else e) :=
  iteInduction (motive := Keeps waypoints) ht he

theorem keeps_some {waypoints : Fin cfg.plan.nbWaypoint.toNat → Point}
    {h : Handled cfg.plan.nbWaypoint.toNat σ} (hsame : h.vehicle.waypoints = waypoints) :
    Keeps waypoints (some h) := ⟨h, rfl, hsame⟩

/-- Only a waypoint message for this aircraft touches the waypoints. -/
theorem keeps_dlChain
    (h : ¬(cfg.nav = true ∧ idOfMsg buf = dlMoveWp ∧ dlMoveWpAcId buf = cfg.acId)) :
    Keeps s.waypoints (dlChain cfg buf s) := by
  refine keeps_ite (fun _ => keeps_some rfl) fun _ => ?_
  refine keeps_ite (fun _ => keeps_some rfl) fun _ => ?_
  refine keeps_ite (fun hmove => absurd hmove h) fun _ => ?_
  refine keeps_ite (fun _ => keeps_some rfl) fun _ => ?_
  refine keeps_ite (fun _ => keeps_some windInfoCase_waypoints) fun _ => ?_
  refine keeps_ite (fun _ => keeps_some rfl) fun _ => ?_
  refine keeps_ite (fun _ => keeps_some hitlUbxCase_waypoints) fun _ => ?_
  refine keeps_ite (fun _ => keeps_some rfl) fun _ => ?_
  refine keeps_ite (fun _ => keeps_some rfl) fun _ => ?_
  refine keeps_ite (fun _ => keeps_some joystickCase_waypoints) fun _ => ?_
  refine keeps_ite (fun _ => keeps_some rfl) fun _ => ?_
  exact keeps_ite (fun _ => keeps_some rfl) fun _ => keeps_some rfl

theorem dlChain_moveWp
    (h : cfg.nav = true ∧ idOfMsg buf = dlMoveWp ∧ dlMoveWpAcId buf = cfg.acId) :
    dlChain cfg buf s = moveWpCase cfg buf s := by
  rw [dlChain, if_neg (by rw [h.2.1]; decide), if_neg (by rw [h.2.1]; simp [dlMoveWp, dlAcinfo]),
    if_pos h]

/-- The waypoints are only accessed inside the table, and a waypoint message with an index outside
of it changes none. -/
def WaypointsChecked (cfg : DlConfig σ) (buf : DlBuffer)
    (s : Vehicle cfg.plan.nbWaypoint.toNat σ) : Prop :=
  ∃ r, dlChain cfg buf { s with datalinkTime := 0 } = some r ∧
    (idOfMsg buf = dlMoveWp → cfg.plan.nbWaypoint ≤ dlMoveWpWpId buf →
      r.vehicle.waypoints = s.waypoints)

theorem waypointsChecked_iff : WaypointsChecked cfg buf s ↔ ¬WpOutOfRange cfg buf := by
  constructor
  · rintro ⟨r, hchain, -⟩ ⟨hnav, hid, hac, hrange⟩
    rw [dlChain_moveWp ⟨hnav, hid, hac⟩, moveWpCase_eq_none_iff.2 hrange] at hchain
    cases hchain
  · intro hrange
    by_cases hmove : cfg.nav = true ∧ idOfMsg buf = dlMoveWp ∧ dlMoveWpAcId buf = cfg.acId
    · have hin : ¬cfg.plan.nbWaypoint ≤ dlMoveWpWpId buf :=
        fun hle => hrange ⟨hmove.1, hmove.2.1, hmove.2.2, hle⟩
      have hsome : moveWpCase cfg buf { s with datalinkTime := 0 } ≠ none :=
        fun hnone => hin (moveWpCase_eq_none_iff.1 hnone)
      obtain ⟨r, hr⟩ := Option.ne_none_iff_exists'.1 hsome
      exact ⟨r, by rw [dlChain_moveWp hmove, hr], fun _ hle => absurd hle hin⟩
    · obtain ⟨r, hr, hsame⟩ := @keeps_dlChain σ cfg buf { s with datalinkTime := 0 } hmove
      exact ⟨r, hr, fun _ _ => hsame⟩

end

end Paparazzi.Fixedwing.Datalink
