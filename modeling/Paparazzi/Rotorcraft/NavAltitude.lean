import Paparazzi.Library.Checked
import Paparazzi.Library.Machine
import Paparazzi.Rotorcraft.Navigation

/-!
The altitude set point of the rotorcraft: `nav_flight_altitude` follows `nav_altitude` when that has
moved away from what it was at the last change, which `nav_set_altitude` keeps in a static variable.
-/

namespace Paparazzi.Rotorcraft.NavAltitude

open Paparazzi.Library.Checked32
open Paparazzi.Library.Machine
open Paparazzi.Rotorcraft.Navigation

/-- The variables of the navigation, and the static ones of its functions. -/
structure Nav where
  vars : NavState
  /-- Of `nav_set_altitude`. -/
  lastNavAlt : Int32
  /-- Of `RunOnceEvery`. -/
  prescaler : UInt16
  deriving DecidableEq, Repr

/-- A length in 1/256 m is more than 0.2 m, the constant `POS_BFP_OF_REAL(0.2)`. -/
def Above (length : ℤ) : Prop := 2 ^ 8 < 5 * length

instance (length : ℤ) : Decidable (Above length) := inferInstanceAs (Decidable (_ < _))

def navSetAltitude (s : Nav) : Option Nav := do
  let diff ← check (s.vars.navAltitude.toInt - s.lastNavAlt.toInt)
  let moved ← check |diff|
  return if Above moved then
    { s with
      vars := { s.vars with navFlightAltitude := s.vars.navAltitude }
      lastNavAlt := s.vars.navAltitude }
  else s

/-- `nav_run`, where `GUIDANCE_H_USE_REF` has its default. -/
def navRun (s : Nav) : Option Nav :=
  navSetAltitude
    { s with
      vars :=
        { s.vars with
          navigationCarrot :=
            { s.vars.navigationCarrot with
              x := s.vars.navigationTarget.x
              y := s.vars.navigationTarget.y } } }

/-- What the flight plan does in `auto_nav`: it runs a stage in vertical mode `ALT`, which may set
`nav_altitude` to any value. -/
structure Stage where
  autoNav : NavState → NavState
  alt : ∀ s, (autoNav s).verticalMode = .alt
  keeps : ∀ s, (autoNav s).navFlightAltitude = s.navFlightAltitude

/-- The times of the stage and of the block, once every 16 calls. -/
def countTime (s : Nav) : Nav :=
  if s.prescaler + 1 ≥ 16 then
    { s with
      prescaler := 0
      vars := { s.vars with stageTime := s.vars.stageTime + 1, blockTime := s.vars.blockTime + 1 } }
  else { s with prescaler := s.prescaler + 1 }

/-- `nav_run` in a call of `nav_periodic_task`, after the stage. -/
def stageRun (stage : Stage) (s : Nav) : Option Nav :=
  navRun { countTime s with vars := stage.autoNav (countTime s).vars }

/-- The ground altitude is that of the reference at the end of the call. -/
def navPeriodicTask (stage : Stage) (groundAlt : Int32) (s : Nav) : Option Nav :=
  (stageRun stage s).map fun s => { s with vars := { s.vars with groundAlt := groundAlt } }

inductive NavEvent where
  | navInit
  | navPeriodicTask (stage : Stage) (groundAlt : Int32)

section

variable (plan : FlightPlan)

/-- An event, where none before has overflowed. -/
def step (s : Option Nav) : NavEvent → Option Nav
  | .navInit => s.map fun s => { s with vars := navInit plan s.vars }
  | .navPeriodicTask stage groundAlt => s.bind (navPeriodicTask stage groundAlt)

/-- `nav_flight_altitude` differs from `nav_altitude` by at most 0.2 m. -/
def Near (s : NavState) : Prop := ¬Above |s.navFlightAltitude.toInt - s.navAltitude.toInt|

/-- It does so after every call of `nav_run`. -/
def Tracks (s : Nav) (events : List NavEvent) : Prop :=
  ∀ earlier stage groundAlt, earlier ++ [.navPeriodicTask stage groundAlt] <+: events →
    ∃ s', run (step plan) (some s) (earlier ++ [.navPeriodicTask stage groundAlt]) = some s' ∧
      Near s'.vars

/-- What a stage asks for. -/
def asked (stage : Stage) (s : Nav) : ℤ := (stage.autoNav (countTime s).vars).navAltitude.toInt

/-- The altitude asked for is more than 0.2 m from the static variable, or not from
`nav_flight_altitude`. -/
def CanTrack (s : Option Nav) : NavEvent → Prop
  | .navInit => True
  | .navPeriodicTask stage _ => ∀ s₀ ∈ s,
      |asked stage s₀ - s₀.lastNavAlt.toInt| < 2 ^ 31 ∧
        (Above |asked stage s₀ - s₀.lastNavAlt.toInt| ∨
          ¬Above |s₀.vars.navFlightAltitude.toInt - asked stage s₀|)

/-- Every call of `nav_run` is right. -/
def Follows (s : Option Nav) (e : NavEvent) : Prop :=
  ∀ stage groundAlt, e = .navPeriodicTask stage groundAlt →
    ∃ s', step plan s e = some s' ∧ Near s'.vars

end

section

variable {plan : FlightPlan}

theorem navSetAltitude_eq_some_iff {s s' : Nav} :
    navSetAltitude s = some s' ↔
      |s.vars.navAltitude.toInt - s.lastNavAlt.toInt| < 2 ^ 31 ∧
        s' = if Above |s.vars.navAltitude.toInt - s.lastNavAlt.toInt| then
          { s with
            vars := { s.vars with navFlightAltitude := s.vars.navAltitude }
            lastNavAlt := s.vars.navAltitude }
        else s := by
  simp only [navSetAltitude, Option.bind_eq_bind, check_bind_eq_some_iff, Option.pure_def,
    Option.some.injEq]
  rw [← and_assoc, eq_comm]
  refine and_congr_left fun _ => ⟨fun h => h.2.2, fun h => ⟨fits_of_abs_lt h, ?_, h⟩⟩
  exact (Int.neg_nonpos_of_nonneg (by decide)).trans (abs_nonneg _)

theorem navSetAltitude_near_iff {s : Nav} :
    (∃ s', navSetAltitude s = some s' ∧ Near s'.vars) ↔
      |s.vars.navAltitude.toInt - s.lastNavAlt.toInt| < 2 ^ 31 ∧
        (Above |s.vars.navAltitude.toInt - s.lastNavAlt.toInt| ∨
          ¬Above |s.vars.navFlightAltitude.toInt - s.vars.navAltitude.toInt|) := by
  simp only [navSetAltitude_eq_some_iff, and_assoc, exists_and_left, exists_eq_left]
  refine and_congr_right fun _ => ?_
  split_ifs with habove
  · refine iff_of_true ?_ (Or.inl habove)
    rw [Near, sub_self]
    decide
  · exact ⟨Or.inr, fun h => h.resolve_left habove⟩

theorem stageRun_near_iff {stage : Stage} {s : Nav} :
    (∃ s', stageRun stage s = some s' ∧ Near s'.vars) ↔
      |asked stage s - s.lastNavAlt.toInt| < 2 ^ 31 ∧
        (Above |asked stage s - s.lastNavAlt.toInt| ∨
          ¬Above |s.vars.navFlightAltitude.toInt - asked stage s|) := by
  have hflight : (countTime s).vars.navFlightAltitude = s.vars.navFlightAltitude := by
    rw [countTime]
    split_ifs <;> rfl
  have hlast : (countTime s).lastNavAlt = s.lastNavAlt := by
    rw [countTime]
    split_ifs <;> rfl
  rw [← hlast, ← hflight, ← stage.keeps (countTime s).vars]
  exact navSetAltitude_near_iff

/-- A call is right if and only if it can be. -/
theorem follows_iff {s : Nav} {e : NavEvent} :
    Follows plan (some s) e ↔ CanTrack (some s) e := by
  cases e with
  | navInit => exact iff_of_true nofun trivial
  | navPeriodicTask stage groundAlt =>
      constructor
      · intro h s₀ hs₀
        obtain rfl := Option.some.inj hs₀
        obtain ⟨s', hs', hnear⟩ := h stage groundAlt rfl
        obtain ⟨s'', hs'', rfl⟩ := Option.map_eq_some_iff.mp hs'
        exact stageRun_near_iff.mp ⟨s'', hs'', hnear⟩
      · rintro h stage' groundAlt' heq
        obtain ⟨rfl, rfl⟩ := NavEvent.navPeriodicTask.inj heq
        obtain ⟨s', hs', hnear⟩ := stageRun_near_iff.mpr (h s rfl)
        exact ⟨_, Option.map_eq_some_iff.mpr ⟨s', hs', rfl⟩, hnear⟩

end

/-- The flight altitude follows in every call of a run if and only if every call can track. -/
theorem tracks_iff (plan : FlightPlan) (s : Nav) (events : List NavEvent) :
    Tracks plan s events ↔ RunOk (step plan) CanTrack (some s) events := by
  have hfollows : Tracks plan s events ↔ RunOk (step plan) (Follows plan) (some s) events := by
    rw [runOk_iff_forall_isPrefix]
    constructor
    · rintro h earlier e hpre stage groundAlt rfl
      obtain ⟨s', hs', hnear⟩ := h earlier stage groundAlt hpre
      rw [run_append] at hs'
      exact ⟨s', hs', hnear⟩
    · intro h earlier stage groundAlt hpre
      obtain ⟨s', hs', hnear⟩ := h earlier _ hpre stage groundAlt rfl
      exact ⟨s', by rw [run_append]; exact hs', hnear⟩
  rw [hfollows]
  refine runOk_congr_of_inv (fun s => s.isSome) ?_ ?_ rfl events
  · rintro s (_ | ⟨stage, groundAlt⟩) hs hok
    · rwa [step, Option.isSome_map]
    · obtain ⟨s', hs', -⟩ := hok stage groundAlt rfl
      rw [hs']
      rfl
  · intro s e hs
    obtain ⟨s, rfl⟩ := Option.isSome_iff_exists.mp hs
    exact follows_iff

/-- A flight plan whose security height is 25 m. -/
def highPlan : FlightPlan where
  waypoints := [⟨0, 0, 0⟩]
  wpHome := 0
  nbBlock := 1
  groundAlt := 0
  securityHeight := 6400
  wpHome_lt := by decide

/-- At power-up. -/
def poweredUp : Nav where
  vars :=
    { navBlock := 0
      navStage := 0
      lastBlock := 0
      lastStage := 0
      blockTime := 0
      stageTime := 0
      waypoints := [⟨0, 0, 0⟩]
      navigationTarget := ⟨0, 0, 0⟩
      navigationCarrot := ⟨0, 0, 0⟩
      navLastPoint := ⟨0, 0, 0⟩
      groundAlt := 0
      navAltitude := 0
      navFlightAltitude := 0
      horizontalMode := .waypoint
      verticalMode := .manual
      navCircleRadians := 0 }
  lastNavAlt := 0
  prescaler := 0

/-- A stage at an altitude of 10 m. -/
def stageAtTen : Stage where
  autoNav s := { s with verticalMode := .alt, navAltitude := 2560 }
  alt _ := rfl
  keeps _ := rfl

/-- The stage goes on after the initialisation is repeated. -/
def initTwice : List NavEvent :=
  [.navInit, .navPeriodicTask stageAtTen 0, .navInit, .navPeriodicTask stageAtTen 0]

/-- The set point stays at 25 m. -/
theorem not_tracks_after_init : ¬Tracks highPlan poweredUp initTwice := by
  intro h
  obtain ⟨s', hs', hnear⟩ := h [.navInit, .navPeriodicTask stageAtTen 0, .navInit] stageAtTen 0
    List.prefix_rfl
  have hflight : (run (step highPlan) (some poweredUp) initTwice).map
      (fun s => s.vars.navFlightAltitude.toInt - s.vars.navAltitude.toInt) = some 3840 := by
    decide
  change run (step highPlan) (some poweredUp) initTwice = some s' at hs'
  rw [hs', Option.map_some] at hflight
  rw [Near, Option.some.inj hflight] at hnear
  exact hnear (by decide)

end Paparazzi.Rotorcraft.NavAltitude
