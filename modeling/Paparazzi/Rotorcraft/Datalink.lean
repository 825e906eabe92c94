import Paparazzi.Library.Bytes
import Paparazzi.Rotorcraft.Autopilot
import Paparazzi.Rotorcraft.Navigation

/-!
The rotorcraft's handler of datalink messages. The handler reads the fields of
`dl_buffer` at the offsets of `messages.xml` and is modelled by the list of
actions that its `switch` performs and by their execution.
-/

namespace Paparazzi.Rotorcraft.Datalink

open Paparazzi.Library.LittleEndian
open Paparazzi.Math.GeodeticInt
open Paparazzi.Rotorcraft.Autopilot
open Paparazzi.Rotorcraft.Navigation

/-! ### Message ids and fields -/

def dlMoveWp : UInt8 := 2
def dlSetting : UInt8 := 4
def dlBlock : UInt8 := 5
def dlPing : UInt8 := 8
def dlHoverPointChangeEcef : UInt8 := 14
def dlGetSetting : UInt8 := 16
def dlRc3Ch : UInt8 := 51
def dlRc4Ch : UInt8 := 52

/-- The contents of `dl_buffer`. -/
abbrev DlBuffer := List UInt8

def byteAt (buf : DlBuffer) (off : Nat) : UInt8 := buf.getD off 0

def int32At (buf : DlBuffer) (off : Nat) : Int32 := Int32.ofNat (field buf off 4)

/-- A `float`, as its bits. -/
def floatAt (buf : DlBuffer) (off : Nat) : UInt32 := UInt32.ofNat (field buf off 4)

/-- `IdOfMsg`; the byte before it is the sender. -/
def idOfMsg (buf : DlBuffer) : UInt8 := byteAt buf 1

def dlMoveWpWpId (buf : DlBuffer) : UInt8 := byteAt buf 2
def dlMoveWpAcId (buf : DlBuffer) : UInt8 := byteAt buf 3
def dlMoveWpLat (buf : DlBuffer) : Int32 := int32At buf 4
def dlMoveWpLon (buf : DlBuffer) : Int32 := int32At buf 8
def dlMoveWpAlt (buf : DlBuffer) : Int32 := int32At buf 12
def dlSettingIndex (buf : DlBuffer) : UInt8 := byteAt buf 2
def dlSettingAcId (buf : DlBuffer) : UInt8 := byteAt buf 3
def dlSettingValue (buf : DlBuffer) : UInt32 := floatAt buf 4
def dlGetSettingIndex (buf : DlBuffer) : UInt8 := byteAt buf 2
def dlGetSettingAcId (buf : DlBuffer) : UInt8 := byteAt buf 3
def dlBlockBlockId (buf : DlBuffer) : UInt8 := byteAt buf 2
def dlBlockAcId (buf : DlBuffer) : UInt8 := byteAt buf 3
def dlHoverAcId (buf : DlBuffer) : UInt8 := byteAt buf 2
def dlHoverExternalGpsFix (buf : DlBuffer) : UInt8 := byteAt buf 3
def dlHoverEcefPos (buf : DlBuffer) : EcefCoorI :=
  { x := int32At buf 4, y := int32At buf 8, z := int32At buf 12 }

def dlRc3ChThrottleMode (buf : DlBuffer) : UInt8 := byteAt buf 2
def dlRc3ChRoll (buf : DlBuffer) : Int8 := (byteAt buf 3).toInt8
def dlRc3ChPitch (buf : DlBuffer) : Int8 := (byteAt buf 4).toInt8
def dlRc4ChMode (buf : DlBuffer) : UInt8 := byteAt buf 3
def dlRc4ChThrottle (buf : DlBuffer) : UInt8 := byteAt buf 4
def dlRc4ChRoll (buf : DlBuffer) : Int8 := (byteAt buf 5).toInt8
def dlRc4ChPitch (buf : DlBuffer) : Int8 := (byteAt buf 6).toInt8
def dlRc4ChYaw (buf : DlBuffer) : Int8 := (byteAt buf 7).toInt8

/-! ### State and actions -/

/-- `rc_dl_values` and `rc_dl_frame_available`. -/
structure RcDl where
  roll : Int8
  pitch : Int8
  yaw : Int8
  throttle : Int8
  mode : Int8
  frameAvailable : Bool
  deriving DecidableEq, Repr

def parseRc3ChDatalink (throttleMode : UInt8) (roll pitch : Int8) : RcDl :=
  { roll := roll
    pitch := pitch
    yaw := 0
    throttle := (((throttleMode &&& 0xFC) >>> 2) * (128 / 64)).toInt8
    mode := (throttleMode &&& 0x03).toInt8
    frameAvailable := true }

def parseRc4ChDatalink (mode throttle : UInt8) (roll pitch yaw : Int8) : RcDl :=
  { roll := roll
    pitch := pitch
    yaw := yaw
    throttle := throttle.toInt8
    mode := mode.toInt8
    frameAvailable := true }

/-- The variables that the handler reads and writes; `σ` holds the settings. -/
structure Vehicle (σ : Type) where
  datalinkTime : UInt16
  nav : NavState
  /-- The position that `nav_init_stage` reads. -/
  position : EnuCoorI
  guidanceHMode : GuidanceHMode
  guidanceHPosSp : Int32 × Int32
  insLtpInitialised : Bool
  insLtpDef : LtpDefI
  rcDl : RcDl
  settings : σ

/-- The configuration, the functions generated from the settings and from the
modules, and the floating-point conversion of the math library. -/
structure DlConfig (σ : Type) where
  acId : UInt8
  /-- `USE_NAVIGATION` is defined. -/
  useNavigation : Bool
  /-- `RADIO_CONTROL_TYPE_DATALINK` is defined. -/
  rcDatalink : Bool
  plan : FlightPlan
  dlSetting : UInt8 → UInt32 → σ → σ
  settingsGetValue : UInt8 → σ → UInt32
  enuOfLlaPointI : LtpDefI → LlaCoorI → EnuCoorI
  modulesParseDatalink : DlBuffer → UInt8 → Vehicle σ → Vehicle σ

inductive Action where
  | sendPong
  | sendQuadSwarmAck (quadId ack : UInt8)
  | dlSetting (index : UInt8) (value : UInt32)
  | sendDlValue (index : UInt8) (value : UInt32)
  | sendHoverPoint (acId fix : UInt8) (pos : EcefCoorI)
  | setHoverPoint (pos : Int32 × Int32)
  | gotoBlock (b : UInt8)
  | moveWaypoint (wpId : UInt8) (pos : EnuCoorI)
  | sendWpMoved (wpId : UInt8) (pos : EnuCoorI)
  | parseRc (rc : RcDl)
  deriving DecidableEq, Repr

section

variable {σ : Type} (cfg : DlConfig σ)

/-- One action; there is no result when it writes outside `waypoints`. -/
def act (s : Vehicle σ) : Action → Option (Vehicle σ)
  | .dlSetting i v => some { s with settings := cfg.dlSetting i v s.settings }
  | .setHoverPoint pos => some { s with guidanceHPosSp := pos }
  | .gotoBlock b => some { s with nav := navGotoBlock cfg.plan s.position b s.nav }
  | .moveWaypoint wpId pos => (setWaypoint wpId.toNat pos s.nav).map fun nav => { s with nav := nav }
  | .parseRc rc => some { s with rcDl := rc }
  | .sendPong | .sendQuadSwarmAck _ _ | .sendDlValue _ _ | .sendHoverPoint _ _ _
  | .sendWpMoved _ _ => some s

def execute : List Action → Vehicle σ → Option (Vehicle σ)
  | [], s => some s
  | a :: actions, s => (act cfg s a).bind (execute actions)

/-! ### The cases of the switch -/

def settingCase (buf : DlBuffer) : List Action :=
  if dlSettingAcId buf ≠ cfg.acId then [.sendQuadSwarmAck 255 255]
  else
    [.dlSetting (dlSettingIndex buf) (dlSettingValue buf),
      .sendDlValue (dlSettingIndex buf) (dlSettingValue buf)]

def getSettingCase (buf : DlBuffer) (s : Vehicle σ) : List Action :=
  if dlGetSettingAcId buf ≠ cfg.acId then []
  else [.sendDlValue (dlGetSettingIndex buf) (cfg.settingsGetValue (dlGetSettingIndex buf) s.settings)]

/-- The new horizontal set point of the hover message: ECEF to NED in
centimetres, then to metres with `INT32_POS_FRAC` fractional bits. -/
def hoverPoint (buf : DlBuffer) (s : Vehicle σ) : Int32 × Int32 :=
  let ned := nedOfEcefPointI s.insLtpDef (dlHoverEcefPos buf)
  (ned.x * 64 / 25, ned.y * 64 / 25)

/-- The actions of the hover message, and whether control runs on into the next
case of the switch: there is no `break` at the end. -/
def hoverCase (buf : DlBuffer) (s : Vehicle σ) : List Action × Bool :=
  if dlHoverAcId buf ≠ cfg.acId then ([], false)
  else
    let echo := Action.sendHoverPoint (dlHoverAcId buf) (dlHoverExternalGpsFix buf)
      (dlHoverEcefPos buf)
    if dlHoverExternalGpsFix buf = 3 then
      if !s.insLtpInitialised || s.guidanceHMode ≠ .hover then ([echo], false)
      else ([echo, .setHoverPoint (hoverPoint buf s)], true)
    else ([echo], false)

def blockCase (buf : DlBuffer) : List Action :=
  if dlBlockAcId buf ≠ cfg.acId then [] else [.gotoBlock (dlBlockBlockId buf)]

/-- The new position of a waypoint, in metres with `INT32_POS_FRAC` fractional bits. -/
def moveWpPos (buf : DlBuffer) (s : Vehicle σ) : EnuCoorI :=
  let lla : LlaCoorI :=
    { lat := int32RadOfDeg (dlMoveWpLat buf)
      lon := int32RadOfDeg (dlMoveWpLon buf)
      alt := dlMoveWpAlt buf * 10 - s.insLtpDef.hmsl + s.insLtpDef.lla.alt }
  let enu := cfg.enuOfLlaPointI s.insLtpDef lla
  { x := posBfpOfReal enu.x / 100, y := posBfpOfReal enu.y / 100, z := posBfpOfReal enu.z / 100 }

def moveWpCase (buf : DlBuffer) (s : Vehicle σ) : List Action :=
  if dlMoveWpAcId buf ≠ cfg.acId then []
  else
    [.moveWaypoint (dlMoveWpWpId buf) (moveWpPos cfg buf s),
      .sendWpMoved (dlMoveWpWpId buf) (moveWpPos cfg buf s)]

def rc3ChCase (buf : DlBuffer) : List Action :=
  [.parseRc (parseRc3ChDatalink (dlRc3ChThrottleMode buf) (dlRc3ChRoll buf) (dlRc3ChPitch buf))]

def rc4ChCase (buf : DlBuffer) : List Action :=
  [.parseRc (parseRc4ChDatalink (dlRc4ChMode buf) (dlRc4ChThrottle buf) (dlRc4ChRoll buf)
    (dlRc4ChPitch buf) (dlRc4ChYaw buf))]

/-- The cases from `DL_BLOCK` on, entered at the first one that is compiled in. -/
def afterHover (buf : DlBuffer) : List Action :=
  if cfg.useNavigation then blockCase cfg buf
  else if cfg.rcDatalink then rc3ChCase buf
  else []

/-- The actions of a message without the hover message: each case of the switch
ends with a `break`. -/
def otherCases (buf : DlBuffer) (s : Vehicle σ) : List Action :=
  if idOfMsg buf = dlPing then [.sendPong]
  else if idOfMsg buf = dlSetting then settingCase cfg buf
  else if idOfMsg buf = dlGetSetting then getSettingCase cfg buf s
  else if cfg.useNavigation && idOfMsg buf = dlBlock then blockCase cfg buf
  else if cfg.useNavigation && idOfMsg buf = dlMoveWp then moveWpCase cfg buf s
  else if cfg.rcDatalink && idOfMsg buf = dlRc3Ch then rc3ChCase buf
  else if cfg.rcDatalink && idOfMsg buf = dlRc4Ch then rc4ChCase buf
  else []

/-- The actions of the `switch` of `dl_parse_msg`. -/
def dlSwitch (buf : DlBuffer) (s : Vehicle σ) : List Action :=
  if idOfMsg buf = dlHoverPointChangeEcef then
    let (actions, falls) := hoverCase cfg buf s
    if falls then actions ++ afterHover cfg buf else actions
  else otherCases cfg buf s

/-- `dl_parse_msg`: the switch, then the handlers of the modules. -/
def dlParseMsg (buf : DlBuffer) (s : Vehicle σ) : Option (Vehicle σ) :=
  (execute cfg (dlSwitch cfg buf s) { s with datalinkTime := 0 }).map
    (cfg.modulesParseDatalink buf (idOfMsg buf))

end

/-! ### Addressing -/

section

variable {σ : Type} {cfg : DlConfig σ} {buf : DlBuffer} {s : Vehicle σ}

/-- The action of the message's own id alone. -/
def ownActions (cfg : DlConfig σ) (buf : DlBuffer) (s : Vehicle σ) : List Action :=
  if idOfMsg buf = dlHoverPointChangeEcef then (hoverCase cfg buf s).1
  else otherCases cfg buf s

/-- The handler does what the message says and nothing else: its switch performs
the action of the message's own id, is defined, and changes the block, the
waypoints, the settings and the hover point only for the messages meant for it. -/
structure Conforms (cfg : DlConfig σ) (buf : DlBuffer) (s : Vehicle σ) : Prop where
  own : dlSwitch cfg buf s = ownActions cfg buf s
  effects : ∃ s', execute cfg (dlSwitch cfg buf s) { s with datalinkTime := 0 } = some s' ∧
    (s'.nav.navBlock ≠ s.nav.navBlock → idOfMsg buf = dlBlock ∧ dlBlockAcId buf = cfg.acId) ∧
    (s'.nav.waypoints ≠ s.nav.waypoints →
      (idOfMsg buf = dlMoveWp ∧ dlMoveWpAcId buf = cfg.acId) ∨
        idOfMsg buf = dlHoverPointChangeEcef) ∧
    (s'.settings ≠ s.settings → idOfMsg buf = dlSetting ∧ dlSettingAcId buf = cfg.acId)

/-- A hover message for this aircraft with a 3D fix, taken in HOVER with an
initialised local frame, runs on into another case: into that of `DL_BLOCK`,
where its fix is read as an address, or into that of `DL_RC_3CH`. -/
def FallsThrough (cfg : DlConfig σ) (buf : DlBuffer) (s : Vehicle σ) : Prop :=
  idOfMsg buf = dlHoverPointChangeEcef ∧ dlHoverAcId buf = cfg.acId ∧
    dlHoverExternalGpsFix buf = 3 ∧ s.insLtpInitialised = true ∧ s.guidanceHMode = .hover ∧
    ((cfg.useNavigation = true ∧ cfg.acId = 3) ∨
      (cfg.useNavigation = false ∧ cfg.rcDatalink = true))

/-- A waypoint message for this aircraft with an index outside the table. -/
def WpOutOfRange (cfg : DlConfig σ) (buf : DlBuffer) (s : Vehicle σ) : Prop :=
  cfg.useNavigation = true ∧ idOfMsg buf = dlMoveWp ∧ dlMoveWpAcId buf = cfg.acId ∧
    s.nav.waypoints.length ≤ (dlMoveWpWpId buf).toNat

/-! #### What a list of actions can change -/

theorem act_navBlock {a : Action} {s' : Vehicle σ} (hact : act cfg s a = some s')
    (ha : ∀ b, a ≠ .gotoBlock b) : s'.nav.navBlock = s.nav.navBlock := by
  cases a with
  | gotoBlock b => exact absurd rfl (ha b)
  | moveWaypoint wpId pos =>
      simp only [act, setWaypoint, Option.map_eq_some_iff] at hact
      obtain ⟨nav, hnav, rfl⟩ := hact
      split_ifs at hnav
      cases hnav
      rfl
  | _ =>
      cases hact
      rfl

theorem act_waypoints {a : Action} {s' : Vehicle σ} (hact : act cfg s a = some s')
    (ha : ∀ wpId pos, a ≠ .moveWaypoint wpId pos) : s'.nav.waypoints = s.nav.waypoints := by
  cases a with
  | moveWaypoint wpId pos => exact absurd rfl (ha wpId pos)
  | gotoBlock b =>
      cases hact
      exact navGotoBlock_waypoints _ _ _ _
  | _ =>
      cases hact
      rfl

theorem act_settings {a : Action} {s' : Vehicle σ} (hact : act cfg s a = some s')
    (ha : ∀ i v, a ≠ .dlSetting i v) : s'.settings = s.settings := by
  cases a with
  | dlSetting i v => exact absurd rfl (ha i v)
  | moveWaypoint wpId pos =>
      simp only [act, Option.map_eq_some_iff] at hact
      obtain ⟨nav, -, rfl⟩ := hact
      rfl
  | _ =>
      cases hact
      rfl

theorem act_length {a : Action} {s' : Vehicle σ} (hact : act cfg s a = some s') :
    s'.nav.waypoints.length = s.nav.waypoints.length := by
  by_cases hmove : ∃ wpId pos, a = .moveWaypoint wpId pos
  · obtain ⟨wpId, pos, rfl⟩ := hmove
    simp only [act, setWaypoint, Option.map_eq_some_iff] at hact
    obtain ⟨nav, hnav, rfl⟩ := hact
    split_ifs at hnav
    cases hnav
    simp
  · rw [act_waypoints hact]
    intro wpId pos heq
    exact hmove ⟨wpId, pos, heq⟩

/-- What no action of the list changes is unchanged after the list. -/
theorem execute_preserves {β : Type} (f : Vehicle σ → β) {p : Action → Prop}
    (hact : ∀ (s s' : Vehicle σ) (a : Action), p a → act cfg s a = some s' → f s' = f s)
    {actions : List Action} (hp : ∀ a ∈ actions, p a) {s s' : Vehicle σ}
    (hexec : execute cfg actions s = some s') : f s' = f s := by
  induction actions generalizing s with
  | nil =>
      cases hexec
      rfl
  | cons a actions ih =>
      simp only [execute, Option.bind_eq_some_iff] at hexec
      obtain ⟨s₁, hfirst, hrest⟩ := hexec
      rw [ih (fun b hb => hp b (List.mem_cons_of_mem a hb)) hrest]
      exact hact s s₁ a (hp a List.mem_cons_self) hfirst

/-- Actions that keep to the table of waypoints have a result. -/
theorem execute_defined {actions : List Action} {s : Vehicle σ}
    (hrange : ∀ wpId pos, Action.moveWaypoint wpId pos ∈ actions →
      wpId.toNat < s.nav.waypoints.length) : ∃ s', execute cfg actions s = some s' := by
  induction actions generalizing s with
  | nil => exact ⟨s, rfl⟩
  | cons a actions ih =>
      have hfirst : ∃ s₁, act cfg s a = some s₁ := by
        cases a with
        | moveWaypoint wpId pos =>
            simp [act, setWaypoint, hrange wpId pos List.mem_cons_self]
        | _ => exact ⟨_, rfl⟩
      obtain ⟨s₁, hs₁⟩ := hfirst
      obtain ⟨s', hs'⟩ := ih (s := s₁) (by
        intro wpId pos hmem
        rw [act_length hs₁]
        exact hrange wpId pos (List.mem_cons_of_mem a hmem))
      exact ⟨s', by simp [execute, hs₁, hs']⟩

/-! #### Which actions a message can cause -/

/-- The message behind an action that changes the block, the waypoints or the settings. -/
def Caused (cfg : DlConfig σ) (buf : DlBuffer) : Action → Prop
  | .gotoBlock _ => idOfMsg buf = dlBlock ∧ dlBlockAcId buf = cfg.acId
  | .moveWaypoint wpId _ =>
      cfg.useNavigation = true ∧ idOfMsg buf = dlMoveWp ∧ dlMoveWpAcId buf = cfg.acId ∧
        wpId = dlMoveWpWpId buf
  | .dlSetting _ _ => idOfMsg buf = dlSetting ∧ dlSettingAcId buf = cfg.acId
  | _ => True

theorem caused_ite {c : Prop} [Decidable c] {t e : List Action}
    (ht : c → ∀ a ∈ t, Caused cfg buf a) (he : ¬c → ∀ a ∈ e, Caused cfg buf a) :
    ∀ a ∈ (if c then t else e), Caused cfg buf a :=
  iteInduction (motive := fun actions => ∀ a ∈ actions, Caused cfg buf a) ht he

theorem caused_settingCase (hid : idOfMsg buf = dlSetting) :
    ∀ a ∈ settingCase cfg buf, Caused cfg buf a := by
  refine caused_ite (fun _ => by simp [Caused]) fun hac => ?_
  simp [Caused, hid, not_not.1 hac]

theorem caused_blockCase (hid : idOfMsg buf = dlBlock) :
    ∀ a ∈ blockCase cfg buf, Caused cfg buf a := by
  refine caused_ite (fun _ => by simp) fun hac => ?_
  simp [Caused, hid, not_not.1 hac]

theorem caused_moveWpCase (hnav : cfg.useNavigation = true) (hid : idOfMsg buf = dlMoveWp) :
    ∀ a ∈ moveWpCase cfg buf s, Caused cfg buf a := by
  refine caused_ite (fun _ => by simp) fun hac => ?_
  simp [Caused, hnav, hid, not_not.1 hac]

theorem caused_hoverCase : ∀ a ∈ (hoverCase cfg buf s).1, Caused cfg buf a := by
  unfold hoverCase
  split_ifs <;> simp [Caused]

/-- Each case of the switch is entered with the id of its message. -/
theorem caused_ownActions : ∀ a ∈ ownActions cfg buf s, Caused cfg buf a := by
  refine caused_ite (fun _ => caused_hoverCase) fun _ => ?_
  refine caused_ite (fun _ => by simp [Caused]) fun _ => ?_
  refine caused_ite caused_settingCase fun _ => ?_
  refine caused_ite (fun _ => ?_) fun _ => ?_
  · exact caused_ite (fun _ => by simp) fun _ => by simp [Caused]
  refine caused_ite (fun hblock => ?_) fun _ => ?_
  · exact caused_blockCase (by simpa using (Bool.and_eq_true_iff.1 hblock).2)
  refine caused_ite (fun hmove => ?_) fun _ => ?_
  · obtain ⟨hnav, hid⟩ := Bool.and_eq_true_iff.1 hmove
    exact caused_moveWpCase hnav (by simpa using hid)
  refine caused_ite (fun _ => by simp [rc3ChCase, Caused]) fun _ => ?_
  exact caused_ite (fun _ => by simp [rc4ChCase, Caused]) fun _ => by simp

theorem hoverCase_falls_iff : (hoverCase cfg buf s).2 = true ↔
    dlHoverAcId buf = cfg.acId ∧ dlHoverExternalGpsFix buf = 3 ∧
      s.insLtpInitialised = true ∧ s.guidanceHMode = .hover := by
  unfold hoverCase
  by_cases hmode : s.guidanceHMode = .hover
  · cases hltp : s.insLtpInitialised <;> split_ifs <;> simp_all
  · split_ifs <;> simp_all

/-- The hover message alone can run on into the cases after it. -/
theorem dlSwitch_eq_own_iff :
    dlSwitch cfg buf s = ownActions cfg buf s ↔ ¬ FallsThrough cfg buf s := by
  have hafter : afterHover cfg buf = [] ↔
      ¬((cfg.useNavigation = true ∧ dlBlockAcId buf = cfg.acId) ∨
        (cfg.useNavigation = false ∧ cfg.rcDatalink = true)) := by
    unfold afterHover blockCase rc3ChCase
    split_ifs <;> simp_all
  have hfield : dlBlockAcId buf = dlHoverExternalGpsFix buf := rfl
  by_cases hid : idOfMsg buf = dlHoverPointChangeEcef
  · unfold dlSwitch ownActions FallsThrough
    simp only [hid, if_true, true_and]
    by_cases hrun : (hoverCase cfg buf s).2 = true
    · obtain ⟨hac, hfix, hltp, hmode⟩ := hoverCase_falls_iff.mp hrun
      have hcomm : (3 = cfg.acId) ↔ (cfg.acId = 3) := eq_comm
      rw [hrun, if_pos rfl, List.append_right_eq_self, hafter, hfield, hfix, hcomm]
      simp only [hac, hltp, hmode, true_and]
    · rw [if_neg hrun]
      refine iff_of_true rfl ?_
      rintro ⟨hac, hfix, hltp, hmode, -⟩
      exact hrun (hoverCase_falls_iff.mpr ⟨hac, hfix, hltp, hmode⟩)
  · unfold dlSwitch ownActions FallsThrough
    simp [hid]

/-- The handler conforms exactly when the hover message does not run on into
another case and a waypoint message stays inside the table. -/
theorem dlParseMsg_conforms_iff (cfg : DlConfig σ) (buf : DlBuffer) (s : Vehicle σ) :
    Conforms cfg buf s ↔ ¬ FallsThrough cfg buf s ∧ ¬ WpOutOfRange cfg buf s := by
  constructor
  · rintro ⟨hown, s', hexec, -⟩
    refine ⟨dlSwitch_eq_own_iff.mp hown, ?_⟩
    rintro ⟨hnav, hid, hac, hrange⟩
    have hswitch : dlSwitch cfg buf s = moveWpCase cfg buf s := by
      rw [hown]
      simp [ownActions, otherCases, hid, hnav, dlMoveWp, dlHoverPointChangeEcef, dlPing,
        dlSetting, dlGetSetting, dlBlock]
    have hout : ¬(dlMoveWpWpId buf).toNat < s.nav.waypoints.length := by omega
    simp [hswitch, moveWpCase, hac, execute, act, setWaypoint, hout] at hexec
  · rintro ⟨hfalls, hrange⟩
    have hown := dlSwitch_eq_own_iff.mpr hfalls
    obtain ⟨s', hexec⟩ : ∃ s', execute cfg (dlSwitch cfg buf s)
        { s with datalinkTime := 0 } = some s' := by
      apply execute_defined
      intro wpId pos hmem
      rw [hown] at hmem
      obtain ⟨hnav, hid, hac, rfl⟩ := caused_ownActions _ hmem
      by_contra hlen
      exact hrange ⟨hnav, hid, hac, by simpa using hlen⟩
    refine ⟨hown, s', hexec, ?_, ?_, ?_⟩
    · intro hne
      by_contra hnot
      have hp : ∀ a ∈ dlSwitch cfg buf s, ∀ b, a ≠ .gotoBlock b := by
        rintro a hmem b rfl
        rw [hown] at hmem
        exact hnot (caused_ownActions _ hmem)
      have hsame := execute_preserves (fun v => v.nav.navBlock)
        (fun _ _ _ ha h => act_navBlock h ha) hp hexec
      exact hne hsame
    · intro hne
      by_contra hnot
      have hp : ∀ a ∈ dlSwitch cfg buf s, ∀ wpId pos, a ≠ .moveWaypoint wpId pos := by
        rintro a hmem wpId pos rfl
        rw [hown] at hmem
        obtain ⟨-, hid, hac, -⟩ := caused_ownActions _ hmem
        exact hnot (Or.inl ⟨hid, hac⟩)
      have hsame := execute_preserves (fun v => v.nav.waypoints)
        (fun _ _ _ ha h => act_waypoints h ha) hp hexec
      exact hne hsame
    · intro hne
      by_contra hnot
      have hp : ∀ a ∈ dlSwitch cfg buf s, ∀ i v, a ≠ .dlSetting i v := by
        rintro a hmem i v rfl
        rw [hown] at hmem
        exact hnot (caused_ownActions _ hmem)
      have hsame := execute_preserves (fun v => v.settings)
        (fun _ _ _ ha h => act_settings h ha) hp hexec
      exact hne hsame

end

/-- Aircraft 3 with one setting, navigation and no radio over the datalink. -/
def hoverConfig : DlConfig UInt32 where
  acId := 3
  useNavigation := true
  rcDatalink := false
  plan :=
    { waypoints := [⟨0, 0, 0⟩, ⟨0, 0, 0⟩]
      wpHome := 1
      nbBlock := 13
      groundAlt := 0
      securityHeight := 0
      wpHome_lt := by decide }
  dlSetting := fun i v old => if i = 0 then v else old
  settingsGetValue := fun i v => if i = 0 then v else 0
  enuOfLlaPointI := fun _ _ => ⟨0, 0, 0⟩
  modulesParseDatalink := fun _ _ s => s

def hovering : Vehicle UInt32 where
  datalinkTime := 0
  nav :=
    navInit hoverConfig.plan
      { navBlock := 0, navStage := 0, lastBlock := 0, lastStage := 0, blockTime := 0,
        stageTime := 0, waypoints := [], navigationTarget := ⟨0, 0, 0⟩,
        navigationCarrot := ⟨0, 0, 0⟩, navLastPoint := ⟨0, 0, 0⟩, groundAlt := 0,
        navAltitude := 0, navFlightAltitude := 0, horizontalMode := .waypoint,
        verticalMode := .alt, navCircleRadians := 0 }
  position := ⟨0, 0, 0⟩
  guidanceHMode := .hover
  guidanceHPosSp := (0, 0)
  insLtpInitialised := true
  insLtpDef := ⟨⟨0, 0, 0⟩, ⟨0, 0, 0⟩, ⟨0, 0, 0, 0, 0, 0, 0, 0, 0⟩, 0⟩
  rcDl := ⟨0, 0, 0, 0, 0, false⟩
  settings := 0

/-- A hover message for aircraft 3 with a 3D fix sends it to block 3. -/
theorem hover_message_runs_on :
    ¬ Conforms hoverConfig [0, 14, 3, 3, 0, 0, 0, 0, 0, 0, 0, 0, 0, 0, 0, 0] hovering := by
  rintro ⟨hown, -⟩
  revert hown
  decide

end Paparazzi.Rotorcraft.Datalink
