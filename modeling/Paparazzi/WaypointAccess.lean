import Paparazzi.Fixedwing.Datalink
import Paparazzi.Rotorcraft.Datalink

/-!
The waypoints that a datalink message can reach, on both firmwares.
-/

namespace Paparazzi.WaypointAccess

open Paparazzi.Rotorcraft.Datalink

/-! ### The rotorcraft -/

section

variable {σ : Type} {cfg : DlConfig σ} {buf : DlBuffer} {s : Vehicle σ}

/-- The switch only accesses waypoints of the table, and a waypoint message with an index outside
of it changes none. -/
def WaypointsChecked (cfg : DlConfig σ) (buf : DlBuffer) (s : Vehicle σ) : Prop :=
  ∃ s', execute cfg (dlSwitch cfg buf s) { s with datalinkTime := 0 } = some s' ∧
    (idOfMsg buf = dlMoveWp → s.nav.waypoints.length ≤ (dlMoveWpWpId buf).toNat →
      s'.nav.waypoints = s.nav.waypoints)

/-- A hover message that runs on moves no waypoint either. -/
theorem moveWaypoint_of_mem {wpId : UInt8} {pos : Math.GeodeticInt.EnuCoorI}
    (h : Action.moveWaypoint wpId pos ∈ dlSwitch cfg buf s) :
    cfg.useNavigation = true ∧ idOfMsg buf = dlMoveWp ∧ dlMoveWpAcId buf = cfg.acId ∧
      wpId = dlMoveWpWpId buf := by
  by_cases hhover : idOfMsg buf = dlHoverPointChangeEcef
  · have hno : ∀ a ∈ dlSwitch cfg buf s, ∀ wpId pos, a ≠ .moveWaypoint wpId pos := by
      rw [dlSwitch, if_pos hhover]
      unfold hoverCase afterHover blockCase rc3ChCase
      split_ifs <;> simp
    exact absurd rfl (hno _ h wpId pos)
  · have hown : dlSwitch cfg buf s = ownActions cfg buf s := by
      rw [dlSwitch, ownActions, if_neg hhover, if_neg hhover]
    rw [hown] at h
    exact caused_ownActions _ h

theorem waypointsChecked_iff : WaypointsChecked cfg buf s ↔ ¬WpOutOfRange cfg buf s := by
  constructor
  · rintro ⟨s', hexec, -⟩ ⟨hnav, hid, hac, hrange⟩
    have hswitch : dlSwitch cfg buf s = moveWpCase cfg buf s := by
      simp [dlSwitch, otherCases, hid, hnav, dlMoveWp, dlHoverPointChangeEcef, dlPing, dlSetting,
        dlGetSetting, dlBlock]
    have hout : ¬(dlMoveWpWpId buf).toNat < s.nav.waypoints.length := by omega
    simp [hswitch, moveWpCase, hac, execute, act, Rotorcraft.Navigation.setWaypoint, hout] at hexec
  · intro hrange
    obtain ⟨s', hexec⟩ : ∃ s', execute cfg (dlSwitch cfg buf s) { s with datalinkTime := 0 } =
        some s' := by
      apply execute_defined
      intro wpId pos hmem
      obtain ⟨hnav, hid, hac, rfl⟩ := moveWaypoint_of_mem hmem
      by_contra hlen
      exact hrange ⟨hnav, hid, hac, by simpa using hlen⟩
    refine ⟨s', hexec, fun hid hlen => ?_⟩
    have hnone : ∀ a ∈ dlSwitch cfg buf s, ∀ wpId pos, a ≠ .moveWaypoint wpId pos := by
      rintro a hmem wpId pos rfl
      obtain ⟨hnav, -, hac, -⟩ := moveWaypoint_of_mem hmem
      exact hrange ⟨hnav, hid, hac, hlen⟩
    have hsame := execute_preserves (fun v => v.nav.waypoints)
      (fun _ _ _ ha h => act_waypoints h ha) hnone hexec
    exact hsame

end

/-! ### Both firmwares -/

/-- Every access is inside the table exactly where no waypoint message for this aircraft has an
index outside of it. -/
theorem waypoint_indices_checked {σ τ : Type} (cfg : DlConfig σ) (s : Vehicle σ)
    (fixedwing : Fixedwing.Datalink.DlConfig τ)
    (t : Fixedwing.Datalink.Vehicle fixedwing.plan.nbWaypoint.toNat τ) (buf : DlBuffer) :
    (WaypointsChecked cfg buf s ↔ ¬WpOutOfRange cfg buf s) ∧
      (Fixedwing.Datalink.WaypointsChecked fixedwing buf t ↔
        ¬Fixedwing.Datalink.WpOutOfRange fixedwing buf) :=
  ⟨waypointsChecked_iff, Fixedwing.Datalink.waypointsChecked_iff⟩

/-- Aircraft 3 with two waypoints, navigation and nothing else. -/
def twoWaypoints : Fixedwing.Datalink.DlConfig Unit where
  acId := 3
  trafficInfo := false
  nav := true
  windInfo := false
  useAirspeed := false
  windInfoRet := false
  hasHitl := false
  hasDlSetting := false
  useJoystick := false
  rcDatalink := false
  plan := { nbWaypoint := 2, wpHome := ⟨1, by decide⟩, nbBlock := 3 }
  auto1MaxRoll := 0
  auto1MaxPitch := 0
  radOfDeg := fun x => x * (22 / 7) / 180
  floatOfBits := fun _ => 0
  utmOfLlaF := fun _ lat lon => (lon, lat)
  dlSetting := fun _ _ s => s
  settingsGetValue := fun _ _ => 0
  modulesParseDatalink := fun _ _ s => s

/-- A message that moves waypoint 200 of aircraft 3, which has two. -/
def moveWaypoint200 : DlBuffer := [0, 2, 200, 3, 0, 0, 0, 0, 0, 0, 0, 0, 0, 0, 0, 0]

theorem waypoint_200_accessed :
    ¬WaypointsChecked hoverConfig moveWaypoint200 hovering ∧
      ∀ t, ¬Fixedwing.Datalink.WaypointsChecked twoWaypoints moveWaypoint200 t := by
  constructor
  · intro h
    exact waypointsChecked_iff.1 h ⟨rfl, by decide, by decide, by decide⟩
  · intro t h
    exact Fixedwing.Datalink.waypointsChecked_iff.1 h ⟨rfl, by decide, by decide, by decide⟩

end Paparazzi.WaypointAccess
