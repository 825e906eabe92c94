import Paparazzi.FlightPlan.ForCalls

/-!
How often a `for` runs its body: runs of calls, from the first stage of the loop on.
-/

namespace Paparazzi.FlightPlan.ForRuns

open Paparazzi.FlightPlan.CommonFlightPlan
open Paparazzi.FlightPlan.Compilation
open Paparazzi.FlightPlan.ForCalls
open Paparazzi.FlightPlan.ForLoop
open Paparazzi.FlightPlan.Preservation
open Paparazzi.FlightPlan.PrintedCode
open Paparazzi.FlightPlan.Printer
open Paparazzi.FlightPlan.Stage
open Paparazzi.FlightPlan.Structural hiding enter start
open Paparazzi.Library.SwitchCode

variable {σ : Type} {env : Env σ} {nbBlock : Nat} {code : Code} {l : Loop} {rest : Stages Unit}
  {x : Nat} {k : Control} {place : Code}

/-! ### Runs -/

variable (env code l rest k) in
/-- The worlds before the calls of a run that counts right. -/
inductive Stands (first last : Int) (w₀ : World σ) : List Int → World σ → Prop
  | start : Stands first last w₀ [] w₀
  | body {c : Int} {w : World σ} (hfirst : first ≤ c) (hlast : c ≤ last)
      (h : InBody env code l rest k c last w) : Stands first last w₀ (Loop.range first c) w

section Goes

variable {first last : Int} {values : List Int} {w w' : World σ}
  (hgoes : Goes env code l rest k first last values w w')

include hgoes

theorem stands_next {w₀ w₁ : World σ} (hstays : l.Stays w w') (hbetween : l.Between w' w₁) :
    Stands env code l rest k first last w₀ (values ++ l.entry w') w₁ := by
  cases hgoes with
  | on hsilent hvalues hfirst hlast h =>
      rw [Loop.entry, if_neg hsilent.not_enters, List.append_nil, hvalues]
      exact .body hfirst hlast (h.between hbetween)
  | enters henters _ hvalues hfirst hlast h =>
      rw [Loop.entry, if_pos henters, h.counter, hvalues]
      exact .body hfirst hlast (h.between hbetween)
  | leaves h hvalues => exact absurd h hstays.loop
  | block h hsilent hvalues => exact absurd h hstays.block

theorem callRight_of_goes (hcall : Call env nbBlock code w w') :
    l.CallRight env nbBlock code (Loop.range first last) values w := by
  refine ⟨?_, ⟨w', hcall⟩, ?_, ?_⟩
  · cases hgoes with
    | on hsilent hvalues hfirst hlast h => exact hvalues ▸ range_begins hlast
    | enters henters hstays hvalues hfirst hlast h =>
        exact (List.prefix_append _ _).trans (hvalues ▸ range_begins hlast)
    | leaves h hvalues => exact hvalues ▸ List.prefix_refl _
    | block h hsilent hvalues => exact hvalues
  · intro w'' hcall' hleaves
    obtain rfl := returns_unique hcall hcall'
    cases hgoes with
    | on hsilent hvalues hfirst hlast h => exact absurd hleaves hsilent.not_leaves
    | enters henters hstays hvalues hfirst hlast h => exact absurd hleaves hstays
    | leaves h hvalues => exact hvalues
    | block h hsilent hvalues => exact absurd hleaves hsilent.not_leaves
  · intro w'' seen hcall' hseen htest hstays
    obtain rfl := returns_unique hcall hcall'
    cases hgoes with
    | on hsilent hvalues hfirst hlast h => exact absurd htest (hsilent.not_mem hseen)
    | enters henters hstays hvalues hfirst hlast h => exact henters
    | leaves h hvalues => exact absurd h hstays.loop
    | block h hsilent hvalues => exact absurd htest (hsilent.not_mem hseen)

end Goes

section Switch

variable {plan : Plan} {b : Block} {n : Nat} (hplan : plan.WellFormed) (hnb : plan.nbBlock < 256)
  (hb : b ∈ plan.blocks) (hlegal : Legal (printSwitch b n))
  (hoccurs : Occurs (printSwitch b n) l rest x k place) (hkeeps : l.Unassigned env)
  {w₀ : World σ} (hstage : w₀.navStage = l.first)

include hplan hnb hb hlegal hoccurs hkeeps hstage

/-- A call of a run that counts right. -/
theorem exists_call (hfirst : -127 ≤ l.fromValue env w₀) (hlast : l.toValue env w₀ ≤ 127)
    (hcount : CountsRight (l.fromValue env w₀) (l.toValue env w₀)) {values : List Int} {w : World σ}
    (h : Stands env (printSwitch b n) l rest k (l.fromValue env w₀) (l.toValue env w₀) w₀
      values w) :
    ∃ w', Call env plan.nbBlock (printSwitch b n) w w' ∧
      Goes env (printSwitch b n) l rest k (l.fromValue env w₀) (l.toValue env w₀) values w w' := by
  cases h with
  | start =>
      obtain ⟨place, hat, hsuffix⟩ := hoccurs.at_enter
      exact ⟨_, (exec_switch env hplan hnb hb hat hsuffix hlegal
        (hstage.trans hoccurs.no_enter.symm)).1, goes_first _ hoccurs hlegal hkeeps hfirst hlast hcount⟩
  | @body c _ hle hle' h =>
      unfold CountsRight at hcount
      rw [if_pos (by omega)] at hcount
      obtain ⟨here, hno, ⟨place, hat, hsuffix⟩, hgoes⟩ := goes_body plan.nbBlock
        hoccurs hlegal hkeeps hfirst hcount hle hle' h
      obtain ⟨hcall, hsettled⟩ := exec_switch env hplan hnb hb hat hsuffix hlegal hno
      exact ⟨_, hcall, hgoes hsettled⟩

theorem stands_of_runs (hfirst : -127 ≤ l.fromValue env w₀) (hlast : l.toValue env w₀ ≤ 127)
    (hcount : CountsRight (l.fromValue env w₀) (l.toValue env w₀)) {values : List Int} {w : World σ}
    (h : l.Runs env plan.nbBlock (printSwitch b n) w₀ values w) :
    Stands env (printSwitch b n) l rest k (l.fromValue env w₀) (l.toValue env w₀) w₀ values w := by
  induction h with
  | first => exact .start
  | next h hcall hstays hbetween ih =>
      obtain ⟨w', hcall', hgoes⟩ := exists_call hplan hnb hb hlegal hoccurs hkeeps hstage hfirst
        hlast hcount ih
      obtain rfl := returns_unique hcall hcall'
      exact stands_next hgoes hstays hbetween

/-- A run from the first stage of the loop counts right. -/
theorem right_of_countsRight (hfirst : -127 ≤ l.fromValue env w₀) (hlast : l.toValue env w₀ ≤ 127)
    (hcount : CountsRight (l.fromValue env w₀) (l.toValue env w₀)) :
    l.Right env plan.nbBlock (printSwitch b n) w₀ := by
  intro values w hruns
  have hstands := stands_of_runs hplan hnb hb hlegal hoccurs hkeeps hstage hfirst hlast hcount hruns
  obtain ⟨w', hcall, hgoes⟩ := exists_call hplan hnb hb hlegal hoccurs hkeeps hstage hfirst hlast
    hcount hstands
  exact callRight_of_goes hgoes hcall

/-! ### Counting on -/

theorem first_enters (hle : int8 (l.fromValue env w₀) ≤ int8 (l.toValue env w₀)) :
    ∃ w', Call env plan.nbBlock (printSwitch b n) w₀ w' ∧ l.Enters w' ∧ l.Stays w₀ w' ∧
      w'.counter l.counter = int8 (l.fromValue env w₀) ∧
      w'.counter l.bound = int8 (l.toValue env w₀) := by
  obtain ⟨place, hat, hsuffix⟩ := hoccurs.at_enter
  obtain ⟨hcounter, hbound⟩ := counters_enter hoccurs hlegal hkeeps w₀
  have hseen : Visits w₀ ((visit l.first w₀).initCounter env int8 l.counter l.bound l.from_
      l.toExpr) [l.first] := rfl
  obtain ⟨henters, hstays, hcounter', hbound'⟩ := enters_testCall plan.nbBlock
    rest k (hoccurs.fresh hlegal).1 hkeeps hseen test_not_mem_first (by
      rwa [hcounter, hbound, int8_succ_pred])
  refine ⟨_, (exec_switch env hplan hnb hb hat hsuffix hlegal
    (hstage.trans hoccurs.no_enter.symm)).1, henters, hstays, hcounter'.trans ?_,
    hbound'.trans hbound⟩
  rw [hcounter, int8_succ_pred]

omit hstage in
theorem next_enters (hdone : l.body = .done) {w : World σ} (hstage : w.navStage = l.test + 1)
    (hle : int8 (w.counter l.counter + 1) ≤ w.counter l.bound) :
    ∃ w', Call env plan.nbBlock (printSwitch b n) w w' ∧ l.Enters w' ∧ l.Stays w w' ∧
      w'.counter l.counter = int8 (w.counter l.counter + 1) ∧
      w'.counter l.bound = w.counter l.bound := by
  obtain ⟨place, hat, hsuffix⟩ := hoccurs.at_body
  have hcall := (exec_switch env hplan hnb hb hat hsuffix hlegal
    (hstage.trans (Loop.bodyControl_no l rest k).symm)).1
  rw [Loop.machineCall_body env plan.nbBlock l rest k hdone] at hcall
  have htest : l.test ∉ [(l.againControl rest k).no] := by
    rw [List.mem_singleton, Loop.againControl_no, Loop.test]
    omega
  have hseen : Visits w (visit (l.againControl rest k).no w) [(l.againControl rest k).no] := rfl
  exact ⟨_, hcall, enters_testCall plan.nbBlock rest k (hoccurs.fresh hlegal).1 hkeeps hseen htest
    hle⟩

/-- Up to 127 a loop with an empty body counts. -/
theorem runs_to_127 (hdone : l.body = .done) (hfirst : -127 ≤ l.fromValue env w₀)
    (hlast : l.toValue env w₀ = 127) (j : Nat) (hj : l.fromValue env w₀ + j ≤ 127) :
    ∃ w, l.Runs env plan.nbBlock (printSwitch b n) w₀
        (Loop.range (l.fromValue env w₀) (l.fromValue env w₀ + j)) w ∧
      w.navStage = l.test + 1 ∧ w.counter l.counter = l.fromValue env w₀ + j ∧
      w.counter l.bound = 127 := by
  induction j with
  | zero =>
      have hfrom : int8 (l.fromValue env w₀) = l.fromValue env w₀ :=
        int8_eq_self ⟨by omega, by omega⟩
      have hto : int8 (l.toValue env w₀) = 127 := by
        rw [hlast]
        rfl
      obtain ⟨w', hcall, henters, hstays, hcounter, hbound⟩ := first_enters hplan hnb hb hlegal
        hoccurs hkeeps hstage (by omega)
      have hruns := Loop.Runs.next .first hcall hstays (.refl l w')
      rw [Loop.entry, if_pos henters, hcounter, hfrom] at hruns
      refine ⟨w', ?_, henters.2, ?_, hbound.trans hto⟩
      · rwa [Int.natCast_zero, Int.add_zero, range_self]
      · rw [hcounter, hfrom]
        omega
  | succ j ih =>
      obtain ⟨w, hruns, hno, hcounter, hbound⟩ := ih (by omega)
      have hnext : int8 (w.counter l.counter + 1) = l.fromValue env w₀ + j + 1 := by
        rw [hcounter]
        exact int8_eq_self ⟨by omega, by omega⟩
      obtain ⟨w', hcall, henters, hstays, hcounter', hbound'⟩ := next_enters hplan hnb hb hlegal
        hoccurs hkeeps hdone hno (by omega)
      have hruns' := hruns.next hcall hstays (.refl l w')
      rw [Loop.entry, if_pos henters, hcounter', hnext, range_succ (by omega)] at hruns'
      have hcast : l.fromValue env w₀ + (j + 1 : Nat) = l.fromValue env w₀ + j + 1 := by omega
      rw [hcast]
      exact ⟨w', hruns', henters.2, hcounter'.trans hnext, hbound'.trans hbound⟩

/-- A loop with an empty body counts wrong where its values do not count right. -/
theorem not_right (hdone : l.body = .done) (hfirst : -127 ≤ l.fromValue env w₀)
    (hlast : l.toValue env w₀ ≤ 127)
    (hcount : ¬ CountsRight (l.fromValue env w₀) (l.toValue env w₀)) :
    ¬ l.Right env plan.nbBlock (printSwitch b n) w₀ := by
  intro hright
  unfold CountsRight at hcount
  split_ifs at hcount with hle
  · have hlast' : l.toValue env w₀ = 127 := by omega
    obtain ⟨j, hj⟩ : ∃ j : Nat, l.fromValue env w₀ + j = 127 :=
      ⟨(127 - l.fromValue env w₀).toNat, by omega⟩
    obtain ⟨w, hruns, hno, hcounter, hbound⟩ := runs_to_127 hplan hnb hb hlegal hoccurs hkeeps
      hstage hdone hfirst hlast' j (by omega)
    have hover : int8 (w.counter l.counter + 1) = -128 := by
      rw [hcounter, hj]
      rfl
    obtain ⟨w', hcall, henters, hstays, -, -⟩ := next_enters hplan hnb hb hlegal
      hoccurs hkeeps hdone hno (by omega)
    have hbegun := (hright _ _ (hruns.next hcall hstays (.refl l w'))).begun.length_le
    rw [Loop.entry, if_pos henters, hj, hlast', List.length_append, List.length_singleton] at hbegun
    omega
  · obtain ⟨w', hcall, henters, hstays, -, -⟩ := first_enters hplan hnb hb hlegal
      hoccurs hkeeps hstage (by omega)
    have hbegun := (hright _ _ (Loop.Runs.next .first hcall hstays (.refl l w'))).begun
    rw [Loop.entry, if_pos henters, range_eq_nil (by omega)] at hbegun
    cases List.prefix_nil.mp hbegun

end Switch

/-! ### Every loop -/

/-- Every `for` with the values `first` and `last` runs its body right, in every plan that
compiles, if it does not assign its variables. -/
def ForsRight (first last : Int) : Prop :=
  ∀ (σ : Type) (env : Env σ) (plan : Plan), plan.WellFormed → plan.nbBlock < 256 →
    ∀ b ∈ plan.blocks, Declarable b.stages → ∀ n, ∀ l ∈ loops b.stages 0, l.Unassigned env →
      ∀ w : World σ, w.navStage = l.first → l.fromValue env w = first → l.toValue env w = last →
        l.Right env plan.nbBlock (printSwitch b n) w

theorem exists_occurs {plan : Plan} (hplan : plan.WellFormed) {b : Block} (hb : b ∈ plan.blocks)
    (n : Nat) (hl : l ∈ loops b.stages 0) :
    ∃ rest x k place, Occurs (printSwitch b n) l rest x k place :=
  occurs_of_mem (x := n) (.exit b.stages.size (hplan.stages b hb)) (by simp [Control.no])
    (List.suffix_refl _) hl

/-- The loop over an empty body. -/
def emptyLoop : Loop := ⟨"i", "from", "to", .done, 0⟩

def emptyLoopBlock : Block := ⟨"Scan", "", "", [], emptyLoop.stages .done⟩

def emptyLoopPlan : Plan := ⟨[], [emptyLoopBlock]⟩

/-- An environment in which the texts "from" and "to" are two numbers. -/
def boundsEnv (first last : Int) : Env Unit where
  test _ w := (true, w.memory)
  value e w := (if e = "from" then first else last, w.memory)
  act _ w := w.memory

theorem unassigned_boundsEnv (first last : Int) (l : Loop) :
    l.Unassigned (boundsEnv first last) := by
  have hkeeps : ∀ text, Keeps (boundsEnv first last) [l.counter, l.bound] text := fun text =>
    ⟨fun _ _ _ => rfl, fun _ _ _ => rfl, fun _ _ _ => rfl⟩
  exact ⟨hkeeps _, hkeeps _, fun text _ => hkeeps text⟩

theorem emptyLoop_not_right (first last : Int) (hfirst : -127 ≤ first) (hlast : last ≤ 127)
    (hcount : ¬ CountsRight first last) :
    ¬ emptyLoop.Right (boundsEnv first last) emptyLoopPlan.nbBlock (printSwitch emptyLoopBlock 0)
      initialWorld := by
  have hplan : emptyLoopPlan.WellFormed := by decide
  have hb : emptyLoopBlock ∈ emptyLoopPlan.blocks := by decide
  have hdeclarable : Declarable emptyLoopBlock.stages := by decide
  obtain ⟨rest, x, k, place, hoccurs⟩ := exists_occurs hplan hb 0
    (List.mem_cons_self : emptyLoop ∈ loops emptyLoopBlock.stages 0)
  exact not_right hplan (by decide) hb ((legal_printSwitch_iff _ _).mpr hdeclarable) hoccurs
    (unassigned_boundsEnv first last _) rfl rfl hfirst hlast hcount

/-- The `for` loops with values from -127 to 127 run their bodies right exactly where these
count right. -/
theorem fors_right_iff {first last : Int} (hfirst : -127 ≤ first) (hlast : last ≤ 127) :
    ForsRight first last ↔ CountsRight first last := by
  constructor
  · intro hright
    by_contra hcount
    refine emptyLoop_not_right first last hfirst hlast hcount ?_
    exact hright Unit (boundsEnv first last) emptyLoopPlan (by decide) (by decide) emptyLoopBlock
      (by decide) (by decide) 0 emptyLoop List.mem_cons_self (unassigned_boundsEnv first last _)
      initialWorld rfl rfl rfl
  · intro hcount σ env plan hplan hnb b hb hdeclarable n l hl hkeeps w hstage hfrom hto
    obtain ⟨rest, x, k, place, hoccurs⟩ := exists_occurs hplan hb n hl
    subst hfrom hto
    exact right_of_countsRight hplan hnb hb ((legal_printSwitch_iff _ _).mpr hdeclarable) hoccurs
      hkeeps hstage hfirst hlast hcount

theorem fors_right_one_to_three : ForsRight 1 3 :=
  (fors_right_iff (by decide) (by decide)).mpr (by decide)

/-- A loop from 126 to 127 does not end. -/
theorem for_to_127_not_right :
    ¬ ∀ first last : Int, -127 ≤ first → last ≤ 127 → ForsRight first last := by
  intro h
  refine emptyLoop_not_right 126 127 (by decide) (by decide) (by decide) ?_
  exact h 126 127 (by decide) (by decide) Unit (boundsEnv 126 127) emptyLoopPlan (by decide)
    (by decide) emptyLoopBlock (by decide) (by decide) 0 emptyLoop List.mem_cons_self
    (unassigned_boundsEnv 126 127 _) initialWorld rfl rfl rfl

end Paparazzi.FlightPlan.ForRuns
