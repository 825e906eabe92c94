import Paparazzi.Math.GeodeticInt

/-!
The navigation variables of the rotorcraft and the functions that reset them:
at start-up, on entering a block and on entering a stage. The guidance of a
stage itself is left out.
-/

namespace Paparazzi.Rotorcraft.Navigation

open Paparazzi.Math.GeodeticInt

inductive HorizontalMode where
  | waypoint | route | circle | attitude
  deriving DecidableEq, Repr

inductive VerticalMode where
  | manual | climb | alt
  deriving DecidableEq, Repr

/-- What the generated flight plan defines: the waypoints, relative to the
ground, the index of HOME, the number of blocks and two altitudes. -/
structure FlightPlan where
  waypoints : List EnuCoorI
  wpHome : Nat
  nbBlock : UInt8
  groundAlt : Int32
  securityHeight : Int32
  wpHome_lt : wpHome < waypoints.length

namespace FlightPlan

def nbWaypoint (plan : FlightPlan) : Nat := plan.waypoints.length

def home (plan : FlightPlan) : EnuCoorI := plan.waypoints.get ⟨plan.wpHome, plan.wpHome_lt⟩

end FlightPlan

structure NavState where
  navBlock : UInt8
  navStage : UInt8
  lastBlock : UInt8
  lastStage : UInt8
  blockTime : UInt16
  stageTime : UInt16
  waypoints : List EnuCoorI
  navigationTarget : EnuCoorI
  navigationCarrot : EnuCoorI
  navLastPoint : EnuCoorI
  groundAlt : Int32
  navAltitude : Int32
  navFlightAltitude : Int32
  horizontalMode : HorizontalMode
  verticalMode : VerticalMode
  navCircleRadians : Int32
  deriving DecidableEq, Repr

def navInit (plan : FlightPlan) (s : NavState) : NavState :=
  { s with
    waypoints := plan.waypoints
    navBlock := 0
    navStage := 0
    groundAlt := plan.groundAlt
    navAltitude := plan.securityHeight
    navFlightAltitude := plan.securityHeight
    navigationTarget := plan.home
    navigationCarrot := plan.home
    horizontalMode := .waypoint
    verticalMode := .alt }

/-- `nav_init_stage`, at the current position. -/
def navInitStage (position : EnuCoorI) (s : NavState) : NavState :=
  { s with
    navLastPoint := position
    stageTime := 0
    navCircleRadians := 0
    horizontalMode := .waypoint }

def navInitBlock (plan : FlightPlan) (position : EnuCoorI) (s : NavState) : NavState :=
  navInitStage position
    { s with
      navBlock := if s.navBlock ≥ plan.nbBlock then plan.nbBlock - 1 else s.navBlock
      navStage := 0
      blockTime := 0 }

def navGotoBlock (plan : FlightPlan) (position : EnuCoorI) (b : UInt8) (s : NavState) :
    NavState :=
  let s :=
    if b ≠ s.navBlock then { s with lastBlock := s.navBlock, lastStage := s.navStage } else s
  navInitBlock plan position { s with navBlock := b }

/-- `waypoints[wp_id] = pos`, with no value when the index is out of the array. -/
def setWaypoint (wpId : Nat) (pos : EnuCoorI) (s : NavState) : Option NavState :=
  if wpId < s.waypoints.length then some { s with waypoints := s.waypoints.set wpId pos }
  else none

@[simp] theorem navGotoBlock_waypoints (plan : FlightPlan) (position : EnuCoorI) (b : UInt8)
    (s : NavState) : (navGotoBlock plan position b s).waypoints = s.waypoints := by
  unfold navGotoBlock
  split <;> rfl

end Paparazzi.Rotorcraft.Navigation
