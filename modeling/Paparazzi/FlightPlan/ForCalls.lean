import Paparazzi.FlightPlan.ForLoop

/-!
Calls of the printed switch in a `for`: where a call goes from the first stage of the loop, and
where it goes from the body.
-/

namespace Paparazzi.FlightPlan.ForCalls

open Paparazzi.FlightPlan.CommonFlightPlan
open Paparazzi.FlightPlan.Compilation
open Paparazzi.FlightPlan.ForLoop
open Paparazzi.FlightPlan.Preservation
open Paparazzi.FlightPlan.PrintedCode
open Paparazzi.FlightPlan.Printer
open Paparazzi.FlightPlan.Stage
open Paparazzi.FlightPlan.Structural hiding enter start
open Paparazzi.Library.SwitchCode

/-- The stages that were visited in the call. -/
def Visits {σ : Type} (w w' : World σ) (seen : List Nat) : Prop := w'.visits = w.visits ++ seen

/-- A call of the switch of a block. -/
def Call {σ : Type} (env : Env σ) (nbBlock : Nat) (code : Code) (w w' : World σ) : Prop :=
  Returns (sem env nbBlock) code (enter code w.navStage) w w'

/-! ### Loops -/

/-- A `for` stage; `first` is the number of its first stage. -/
structure Loop where
  var : String
  from_ : Text
  toExpr : Text
  body : Stages Unit
  first : Nat

/-- The `for` stages of a sequence that begins at the number `n`. -/
def loops : Stages Unit → Nat → List Loop
  | .done, _ => []
  | .simple _ s rest, n => loops rest (n + s.phases)
  | .loopWhile _ _ body rest, n => loops body (n + 1) ++ loops rest (n + body.size + 2)
  | .loopFor _ var from_ toExpr body rest, n =>
      ⟨var, from_, toExpr, body, n⟩ :: (loops body (n + 2) ++ loops rest (n + body.size + 3))

namespace Loop

def counter (l : Loop) : String := cVarOfIdent l.var

def bound (l : Loop) : String := toVar l.var

/-- The number of the stage with the test. -/
def test (l : Loop) : Nat := l.first + 1

/-- The number of the stage behind the loop. -/
def behind (l : Loop) : Nat := l.first + l.body.size + 3

def stages (l : Loop) (rest : Stages Unit) : Stages Unit :=
  .loopFor () l.var l.from_ l.toExpr l.body rest

variable {σ : Type} (env : Env σ) (l : Loop)

/-- The value of `from` where the loop is entered. -/
def fromValue (w : World σ) : Int := ((w.stage l.first).value env l.from_).1

/-- The value of `to` there, behind the assignment of the loop variable. -/
def toValue (w : World σ) : Int :=
  let (first, w) := (w.stage l.first).value env l.from_
  ((w.store int8 l.counter (first - 1)).value env l.toExpr).1

/-- The call ended at the beginning of the body. -/
def Enters (w' : World σ) : Prop := w'.visits.getLast? = some l.test ∧ w'.navStage = l.test + 1

instance (w' : World σ) : Decidable (l.Enters w') := inferInstanceAs (Decidable (_ ∧ _))

/-- The value of the loop variable, where the call ended at the beginning of the body. -/
def entry (w' : World σ) : List Int := if l.Enters w' then [w'.counter l.counter] else []

/-- The call went from the test to the stage behind the loop. -/
def Leaves (w w' : World σ) : Prop :=
  ∃ before after, Visits w w' (before ++ l.test :: l.behind :: after)

/-- The call stayed in the loop. -/
structure Stays (w w' : World σ) : Prop where
  loop : ¬ l.Leaves w w'
  block : w'.navStage ≠ 0

/-- Between two calls anything changes but the place in the plan and the variables of the loop. -/
structure Between (w w' : World σ) : Prop where
  stage : w'.navStage = w.navStage
  block : w'.navBlock = w.navBlock
  counter : w'.counter l.counter = w.counter l.counter
  bound : w'.counter l.bound = w.counter l.bound

theorem Between.refl (w : World σ) : l.Between w w := ⟨rfl, rfl, rfl, rfl⟩

variable (nbBlock : Nat) (code : Code)

/-- The worlds before the calls of a run that begins in `w₀` and stays in the loop, with the values
that the loop variable had at the beginnings of the body. -/
inductive Runs (w₀ : World σ) : List Int → World σ → Prop
  | first : Runs w₀ [] w₀
  | next {values : List Int} {w w' w₁ : World σ} (h : Runs w₀ values w)
      (hcall : Call env nbBlock code w w') (hstays : l.Stays w w') (hbetween : l.Between w' w₁) :
      Runs w₀ (values ++ l.entry w') w₁

/-- `from`, `from + 1`, …, `to`. -/
def range (first last : Int) : List Int :=
  (List.range (last - first + 1).toNat).map fun (i : Nat) => first + (i : Int)

/-- What a call does in a loop over `expected` whose body began with `values` before. -/
structure CallRight (expected values : List Int) (w : World σ) : Prop where
  begun : values <+: expected
  returns : ∃ w', Call env nbBlock code w w'
  complete : ∀ w', Call env nbBlock code w w' → l.Leaves w w' → values = expected
  enters : ∀ w' seen, Call env nbBlock code w w' → Visits w w' seen → l.test ∈ seen →
    l.Stays w w' → l.Enters w'

/-- The body runs with the values from `from` to `to` in turn, and the loop is left behind them. -/
def Right (w₀ : World σ) : Prop :=
  ∀ values w, l.Runs env nbBlock code w₀ values w →
    l.CallRight env nbBlock code (range (l.fromValue env w₀) (l.toValue env w₀)) values w

end Loop

/-- The values with which a `for` counts right, in an `int8_t`. -/
def CountsRight (first last : Int) : Prop :=
  if first ≤ last then last ≤ 126 else int8 last < int8 first

instance (first last : Int) : Decidable (CountsRight first last) :=
  inferInstanceAs (Decidable (ite _ _ _))

/-- Neither the body nor the bound of the loop assigns the variables of the loop. -/
structure Loop.Unassigned {σ : Type} (env : Env σ) (l : Loop) : Prop where
  initStage : Keeps env [l.counter, l.bound] "nav_init_stage();"
  toExpr : Keeps env [l.counter, l.bound] l.toExpr
  body : ∀ text ∈ texts l.body, Keeps env [l.counter, l.bound] text

/-! ### The code of a loop -/

/-- The code of the loop stands before that of the rest of its sequence. -/
structure Occurs (code : Code) (l : Loop) (rest : Stages Unit) (x : Nat) (k : Control)
    (place : Code) : Prop where
  at_ : At code k place
  no : k.no = l.first + (l.stages rest).size
  suffix : printStages (l.stages rest) l.first x ++ place <:+ code

theorem occurs_of_mem {code : Code} {t : Stages Unit} {n x : Nat} {k : Control} {place : Code}
    (hat : At code k place) (hno : k.no = n + t.size)
    (hsuffix : printStages t n x ++ place <:+ code) {l : Loop} (hl : l ∈ loops t n) :
    ∃ rest x k place, Occurs code l rest x k place := by
  induction t generalizing n x k place with
  | done => cases hl
  | simple u s rest ih =>
      refine ih (x := x) hat ?_ ?_ hl
      · rw [hno, Stages.size]
        omega
      · rw [printStages, List.append_assoc] at hsuffix
        exact (List.suffix_append _ _).trans hsuffix
  | loopWhile u cond body rest ihBody ihRest =>
      have hloop := hsuffix
      rw [printStages_while] at hsuffix
      have hwhile := (List.suffix_cons _ _).trans hsuffix
      rcases List.mem_append.mp hl with hl | hl
      · refine ihBody (x := x + 2) (.againWhile cond body rest n x hat hno hloop) ?_ ?_ hl
        · simp only [Stages.indexStage, Control.no, loopEndNo, Stages.size_indexStage]
          omega
        · exact ((List.suffix_cons _ _).trans (List.suffix_append _ _)).trans hwhile
      · refine ihRest (x := x + 2 + labels body) hat ?_ ?_ hl
        · rw [hno, Stages.size]
          omega
        · exact ((List.suffix_cons _ _).trans (suffix_fromTest ..)).trans hwhile
  | loopFor u var from_ toExpr body rest ihBody ihRest =>
      have hloop := hsuffix
      rw [printStages_for] at hsuffix
      have hfor := (List.suffix_cons _ _).trans (suffix_fromFor hsuffix)
      rcases List.mem_cons.mp hl with rfl | hl
      · exact ⟨rest, x, k, place, hat, hno, hloop⟩
      rcases List.mem_append.mp hl with hl | hl
      · refine ihBody (x := x + 2) (.againFor var from_ toExpr body rest n x hat hno hloop) ?_ ?_ hl
        · simp only [Stages.indexStage, Control.no, loopEndNo, Stages.size_indexStage]
          omega
        · exact ((List.suffix_cons _ _).trans (List.suffix_append _ _)).trans hfor
      · refine ihRest (x := x + 2 + labels body) hat ?_ ?_ hl
        · rw [hno, Stages.size]
          omega
        · exact ((List.suffix_cons _ _).trans (suffix_fromTest ..)).trans hfor

/-- The names of the variables of a loop are those of no loop in its body. -/
theorem Occurs.fresh {code : Code} {l : Loop} {rest : Stages Unit} {x : Nat} {k : Control}
    {place : Code} (h : Occurs code l rest x k place) (hlegal : Legal code) :
    l.counter ≠ l.bound ∧ ∀ v ∈ forVars l.body, v ∉ [l.counter, l.bound] := by
  have hsublist := (h.suffix.sublist.filterMap Item.declOf).nodup hlegal.decls
  rw [List.filterMap_append, decls_printStages] at hsublist
  have hnodup := hsublist.of_append_left
  simp only [Loop.stages, forVars, List.nodup_cons, List.mem_cons, List.mem_append, not_or]
    at hnodup
  obtain ⟨⟨hne, hcounter, -⟩, ⟨hbound, -⟩, -⟩ := hnodup
  refine ⟨hne, ?_⟩
  intro v hv hmem
  rcases List.mem_pair.mp hmem with rfl | rfl
  · exact hcounter hv
  · exact hbound hv

/-! ### What a call visits -/

section Visits

variable {σ : Type} {env : Env σ} {nbBlock : Nat}

theorem Visits.trans {w w₁ w₂ : World σ} {seen seen' : List Nat} (h : Visits w w₁ seen)
    (h' : Visits w₁ w₂ seen') : Visits w w₂ (seen ++ seen') := by
  unfold Visits at *
  rw [h', h, List.append_assoc]

theorem keeps_nil (text : Text) : Keeps env [] text := ⟨nofun, nofun, nofun⟩

variable (env) in
theorem visits_conclude (here next : Control) (s : Simple) (w : World σ) :
    ∃ seen, Visits w
      (conclude env here next (runSimple env (Structural.enter env) s w)).1 seen := by
  have hverdict : QuietVerdict [] 0 w (runSimple env (Structural.enter env) s w) :=
    quiet_runSimple (fun text _ => keeps_nil text) w
  cases hrun : runSimple env (Structural.enter env) s w with
  | moveOn w' =>
      rw [hrun] at hverdict
      obtain ⟨seen, hseen, -⟩ := hverdict.visits
      exact ⟨seen, hseen⟩
  | remain w' =>
      rw [hrun] at hverdict
      obtain ⟨seen, hseen, -⟩ := hverdict.visits
      exact ⟨seen, hseen⟩
  | leave w' =>
      rw [hrun] at hverdict
      obtain ⟨seen, hseen, -⟩ := hverdict.2
      exact ⟨seen, hseen⟩

theorem visits_testLoop {m n : Nat} {goOn : World σ → Bool × World σ} {inside : Control}
    {next : World σ → World σ × Option Control} (hgoOn : ∀ w, (goOn w).2.visits = w.visits)
    (hnext : ∀ w, ∃ seen, Visits w (next w).1 (n :: seen)) (w : World σ) :
    ∃ seen, Visits w (testLoop env m goOn inside next w).1 (m :: seen) := by
  have htest : Visits w (goOn (visit m w)).2 [m] := hgoOn (visit m w)
  simp only [testLoop]
  split
  · exact ⟨[], htest⟩
  · obtain ⟨seen, hseen⟩ := hnext (goOn (visit m w)).2
    exact ⟨n :: seen, htest.trans hseen⟩

theorem visits_before_testLoop {e m n : Nat} {goOn : World σ → Bool × World σ} {inside : Control}
    {next : World σ → World σ × Option Control} (hgoOn : ∀ w, (goOn w).2.visits = w.visits)
    (hnext : ∀ w, ∃ seen, Visits w (next w).1 (n :: seen)) {w w₁ : World σ}
    (hw : Visits w w₁ [e]) :
    ∃ seen, Visits w (testLoop env m goOn inside next w₁).1 (e :: seen) := by
  obtain ⟨seen, hseen⟩ : ∃ seen, Visits w₁ (testLoop env m goOn inside next w₁).1 (m :: seen) :=
    visits_testLoop hgoOn hnext w₁
  exact ⟨m :: seen, hw.trans hseen⟩

theorem visits_stages {k : Control} {after : World σ → World σ × Option Control} {m : Nat}
    (hafter : ∀ w, ∃ seen, Visits w (after w).1 (m :: seen)) (t : Stages Unit) {n : Nat}
    (hm : m = n + t.size) (w : World σ) :
    ∃ seen, Visits w
      (callStages env int8 (Structural.enter env) k after (t.indexStage n) w).1 (n :: seen) := by
  induction t generalizing n w with
  | done =>
      subst hm
      exact hafter w
  | simple u s rest ih =>
      have hpos := s.phases_pos
      simp only [Stages.indexStage, callStages]
      split
      · rename_i hphases
        have hone : s.phases = 1 := by simp [Simple.phases, hphases]
        obtain ⟨seen, hseen⟩ := visits_conclude env
          (.run (.simple (n + s.phases - 1) s (rest.indexStage (n + s.phases))) k)
          (.run (rest.indexStage (n + s.phases)) k) s (visit (n + s.phases - 1) w)
        have hvisit : Visits w (visit (n + s.phases - 1) w) [n] := by
          rw [hone]
          rfl
        exact ⟨seen, hvisit.trans hseen⟩
      · rename_i init hphases
        have htwo : s.phases = 2 := by simp [Simple.phases, hphases]
        refine ⟨[], ?_⟩
        rw [htwo]
        rfl
  | loopWhile u cond body rest ihBody ihRest =>
      refine visits_testLoop (fun w => rfl) (fun w => ihRest ?_ w) w
      rw [hm, Stages.size]
      omega
  | loopFor u var from_ toExpr body rest ihBody ihRest =>
      refine visits_before_testLoop (n := n + body.size + 3) (fun w => rfl)
        (fun w => ihRest ?_ w) rfl
      rw [hm, Stages.size]
      omega

theorem visits_nextBlock (w : World σ) : (w.nextBlock env nbBlock).visits = w.visits := by
  simp only [World.nextBlock, World.navInitBlock]
  split <;> rfl

variable (env nbBlock) in
/-- A call visits the number of its control first. -/
theorem visits_control {code place : Code} {k : Control} (hat : At code k place) (w : World σ) :
    ∃ seen, Visits w (machineCall env nbBlock k w).1 (k.no :: seen) := by
  induction hat generalizing w with
  | exit no hlt => exact ⟨[], visits_nextBlock (visit no w)⟩
  | run t n x hk hno ih =>
      rw [no_run t hno]
      exact visits_stages ih t hno w
  | @second s rest n x k place hk hno ih =>
      obtain ⟨seen, hseen⟩ := visits_conclude env
        (.second (.simple (n + 1) s (rest.indexStage (n + 2))) k)
        (.run (rest.indexStage (n + 2)) k) s (visit (n + 1) w)
      have hvisit : Visits w (visit (n + 1) w) [n + 1] := rfl
      exact ⟨seen, hvisit.trans hseen⟩
  | againWhile cond body rest n x hk hno hloop ih =>
      refine visits_before_testLoop (n := n + body.size + 2) (fun w => rfl) (fun w => ?_) rfl
      refine visits_stages ih rest ?_ w
      rw [hno, Stages.size]
      omega
  | againFor var from_ toExpr body rest n x hk hno hloop ih =>
      refine visits_before_testLoop (n := n + body.size + 3) (fun w => rfl) (fun w => ?_) rfl
      refine visits_stages ih rest ?_ w
      rw [hno, Stages.size]
      omega

end Visits

/-! ### The test -/

namespace Loop

variable {σ : Type} (env : Env σ) (nbBlock : Nat) (l : Loop) (rest : Stages Unit) (k : Control)

def enterControl : Control := .run ((l.stages rest).indexStage l.first) k

def againControl : Control := .again ((l.stages rest).indexStage l.first) k

def bodyControl : Control := .run (l.body.indexStage (l.first + 2)) (l.againControl rest k)

/-- A call from the test of the loop on. -/
def testCall : World σ → World σ × Option Control :=
  testLoop env l.test (countOn int8 l.counter l.bound) (l.bodyControl rest k)
    (machineCall env nbBlock (.run (rest.indexStage l.behind) k))

theorem machineCall_enter (w : World σ) :
    machineCall env nbBlock (l.enterControl rest k) w =
      l.testCall env nbBlock rest k
        ((visit l.first w).initCounter env int8 l.counter l.bound l.from_ l.toExpr) := rfl

theorem machineCall_again (w : World σ) :
    machineCall env nbBlock (l.againControl rest k) w =
      l.testCall env nbBlock rest k (visit (l.againControl rest k).no w) := rfl

def counted (w : World σ) : World σ :=
  (visit l.test w).store int8 l.counter (w.counter l.counter + 1)

variable {l} in
theorem testCall_eq (hne : l.counter ≠ l.bound) (w : World σ) :
    l.testCall env nbBlock rest k w =
      if int8 (w.counter l.counter + 1) ≤ w.counter l.bound then
        moveTo env (l.bodyControl rest k) (l.counted w)
      else machineCall env nbBlock (.run (rest.indexStage l.behind) k) (l.counted w) := by
  have htest : (countOn int8 l.counter l.bound (visit l.test w)).1 =
      decide (int8 (w.counter l.counter + 1) ≤ w.counter l.bound) := by
    change (!decide ((l.counted w).counter l.counter > (l.counted w).counter l.bound)) = _
    rw [counted, counter_store, if_pos rfl, counter_store, if_neg hne.symm, ← decide_not]
    simp only [gt_iff_lt, Int.not_lt]
    rfl
  simp only [testCall, testLoop, htest, decide_eq_true_eq]
  rfl

/-- An empty body ends where it begins. -/
theorem machineCall_body (hdone : l.body = .done) (w : World σ) :
    machineCall env nbBlock (l.bodyControl rest k) w =
      l.testCall env nbBlock rest k (visit (l.againControl rest k).no w) := by
  rw [bodyControl, hdone]
  rfl

theorem againControl_no : (l.againControl rest k).no = l.first + l.body.size + 2 := by
  simp only [againControl, stages, Stages.indexStage, Control.no, loopEndNo,
    Stages.size_indexStage]
  omega

theorem bodyControl_no : (l.bodyControl rest k).no = l.test + 1 := by
  refine no_run l.body ?_
  rw [againControl_no]
  omega

end Loop

namespace Occurs

variable {σ : Type} {env : Env σ} {nbBlock : Nat} {code : Code} {l : Loop} {rest : Stages Unit}
  {x : Nat} {k : Control} {place : Code}

theorem no_rest (h : Occurs code l rest x k place) : k.no = l.behind + rest.size := by
  rw [h.no, Loop.stages, Stages.size, Loop.behind]
  omega

theorem at_enter (h : Occurs code l rest x k place) :
    ∃ place, At code (l.enterControl rest k) place ∧ place <:+ code :=
  ⟨_, .run (l.stages rest) l.first x h.at_ h.no, h.suffix⟩

theorem at_body (h : Occurs code l rest x k place) :
    ∃ place, At code (l.bodyControl rest k) place ∧ place <:+ code := by
  have hagain : At code (l.againControl rest k) _ :=
    .againFor l.var l.from_ l.toExpr l.body rest l.first x h.at_ h.no h.suffix
  refine ⟨_, .run l.body (l.first + 2) (x + 2) hagain ?_, ?_⟩
  · rw [Loop.againControl_no]
    omega
  · have hsuffix := h.suffix
    rw [Loop.stages, printStages_for] at hsuffix
    have hfor := (List.suffix_cons _ _).trans (suffix_fromFor hsuffix)
    exact ((List.suffix_cons _ _).trans (List.suffix_append _ _)).trans hfor

theorem no_enter (h : Occurs code l rest x k place) : (l.enterControl rest k).no = l.first :=
  no_run (l.stages rest) h.no

variable (env nbBlock) in
theorem leaves_testCall (h : Occurs code l rest x k place) (hne : l.counter ≠ l.bound)
    {w : World σ} (hpassed : ¬ int8 (w.counter l.counter + 1) ≤ w.counter l.bound) :
    ∃ after, Visits w (l.testCall env nbBlock rest k w).1 (l.test :: l.behind :: after) := by
  obtain ⟨after, hafter⟩ : ∃ after, Visits (l.counted w)
      (machineCall env nbBlock (.run (rest.indexStage l.behind) k) (l.counted w)).1
      (l.behind :: after) :=
    visits_stages (fun w => visits_control env nbBlock h.at_ w) rest h.no_rest (l.counted w)
  refine ⟨after, ?_⟩
  have htest : Visits w (l.counted w) [l.test] := rfl
  rw [Loop.testCall_eq env nbBlock rest k hne, if_neg hpassed]
  exact htest.trans hafter

end Occurs

/-! ### The values of the loop variable -/

theorem range_eq_nil {first last : Int} (h : last < first) : Loop.range first last = [] := by
  have hlength : (last - first + 1).toNat = 0 := by omega
  rw [Loop.range, hlength]
  rfl

theorem range_succ {first c : Int} (h : first ≤ c + 1) :
    Loop.range first c ++ [c + 1] = Loop.range first (c + 1) := by
  have hlength : (c + 1 - first + 1).toNat = (c - first + 1).toNat + 1 := by omega
  have hlast : first + ((c - first + 1).toNat : Int) = c + 1 := by omega
  rw [Loop.range, Loop.range, hlength, List.range_succ, List.map_append, List.map_singleton,
    hlast]

theorem range_self (first : Int) : Loop.range first first = [first] := by
  have hrange : Loop.range first (first - 1) ++ [first - 1 + 1] = Loop.range first (first - 1 + 1) :=
    range_succ (by omega)
  rw [range_eq_nil (by omega), Int.sub_add_cancel] at hrange
  exact hrange.symm

theorem range_begins {first c last : Int} (h : c ≤ last) :
    Loop.range first c <+: Loop.range first last := by
  refine List.IsPrefix.map _ ?_
  rw [List.range_eq_range', List.range_eq_range']
  have hle : (c - first + 1).toNat ≤ (last - first + 1).toNat := by omega
  obtain ⟨d, hd⟩ := Nat.exists_eq_add_of_le hle
  rw [hd, ← List.range'_append_1]
  exact List.prefix_append _ _

/-! ### Calls in the loop -/

section Calls

variable {σ : Type} {env : Env σ} {nbBlock : Nat} {code : Code} {l : Loop} {rest : Stages Unit}
  {x : Nat} {k : Control} {place : Code}

/-- The call did not come to the test. -/
def Silent (l : Loop) (w w' : World σ) : Prop :=
  ∃ seen, Visits w w' seen ∧ seen ≠ [] ∧ l.test ∉ seen

theorem Visits.unique {w w' : World σ} {seen seen' : List Nat} (h : Visits w w' seen)
    (h' : Visits w w' seen') : seen = seen' :=
  List.append_cancel_left (h.symm.trans h')

theorem Silent.not_mem {w w' : World σ} {seen : List Nat} (h : Silent l w w')
    (hseen : Visits w w' seen) : l.test ∉ seen := by
  obtain ⟨seen', hseen', -, htest⟩ := h
  rwa [hseen'.unique hseen] at htest

theorem Silent.not_leaves {w w' : World σ} (h : Silent l w w') : ¬ l.Leaves w w' := by
  rintro ⟨before, after, hvisits⟩
  exact h.not_mem hvisits (by simp)

theorem Silent.not_enters {w w' : World σ} (h : Silent l w w') : ¬ l.Enters w' := by
  obtain ⟨seen, hseen, hne, htest⟩ := h
  rintro ⟨hlast, -⟩
  rw [hseen, List.getLast?_append_of_ne_nil _ hne] at hlast
  exact htest (List.mem_of_getLast? hlast)

theorem Silent.of_behind {w w' : World σ} {n : Nat} {visited : List Nat}
    (hvisited : Visits w w' (n :: visited)) (hbehind : VisitsBehind l.test w w') :
    Silent l w w' := by
  obtain ⟨seen, hseen, hlt⟩ := hbehind
  obtain rfl := hvisited.unique hseen
  refine ⟨n :: visited, hvisited, List.cons_ne_nil _ _, ?_⟩
  intro htest
  exact Nat.lt_irrefl _ (hlt _ htest)

theorem append_singleton_ne {a b : Nat} {seen before after : List Nat} (h : a ∉ seen) :
    seen ++ [a] ≠ before ++ a :: b :: after := by
  induction seen generalizing before with
  | nil => cases before <;> simp
  | cons n seen ih =>
      rw [List.mem_cons, not_or] at h
      obtain ⟨hn, hseen⟩ := h
      cases before with
      | nil =>
          intro heq
          exact hn (List.cons.inj heq).1.symm
      | cons m before =>
          intro heq
          exact ih hseen (List.cons.inj heq).2

theorem not_leaves_of_last {w w' : World σ} {seen : List Nat} (htest : l.test ∉ seen)
    (h : Visits w w' (seen ++ [l.test])) : ¬ l.Leaves w w' := by
  rintro ⟨before, after, hvisits⟩
  exact append_singleton_ne htest (h.unique hvisits)

variable (env code l rest k) in
/-- The run stands in the body, with the loop variable `c` and the bound `last`. -/
structure InBody (c last : Int) (w : World σ) : Prop where
  control : ∃ c place, Within env [l.counter, l.bound] l.test (l.againControl rest k) c ∧
    At code c place ∧ place <:+ code ∧ w.navStage = c.no
  counter : w.counter l.counter = c
  bound : w.counter l.bound = last

theorem InBody.between {c last : Int} {w w' : World σ} (h : InBody env code l rest k c last w)
    (hbetween : l.Between w w') : InBody env code l rest k c last w' := by
  obtain ⟨here, place, hwithin, hat, hsuffix, hstage⟩ := h.control
  exact ⟨⟨here, place, hwithin, hat, hsuffix, hbetween.stage.trans hstage⟩,
    hbetween.counter.trans h.counter, hbetween.bound.trans h.bound⟩

variable (env code l rest k) in
/-- Where a call from `w` to `w'` goes, in a loop whose body began with `values` before. -/
inductive Goes (first last : Int) (values : List Int) (w w' : World σ) : Prop
  | on {c : Int} (hsilent : Silent l w w') (hvalues : values = Loop.range first c)
      (hfirst : first ≤ c) (hlast : c ≤ last) (h : InBody env code l rest k c last w')
  | enters {c : Int} (henters : l.Enters w') (hstays : ¬ l.Leaves w w')
      (hvalues : values ++ [c] = Loop.range first c) (hfirst : first ≤ c) (hlast : c ≤ last)
      (h : InBody env code l rest k c last w')
  | leaves (h : l.Leaves w w') (hvalues : values = Loop.range first last)
  | block (h : w'.navStage = 0) (hsilent : Silent l w w') (hvalues : values <+: Loop.range first last)

variable (nbBlock rest k) in
theorem enters_testCall (hne : l.counter ≠ l.bound) (hkeeps : l.Unassigned env) {w w₁ : World σ}
    {seen : List Nat} (hseen : Visits w w₁ seen) (htest : l.test ∉ seen)
    (hle : int8 (w₁.counter l.counter + 1) ≤ w₁.counter l.bound) :
    l.Enters (l.testCall env nbBlock rest k w₁).1 ∧
      l.Stays w (l.testCall env nbBlock rest k w₁).1 ∧
      (l.testCall env nbBlock rest k w₁).1.counter l.counter =
        int8 (w₁.counter l.counter + 1) ∧
      (l.testCall env nbBlock rest k w₁).1.counter l.bound = w₁.counter l.bound := by
  rw [Loop.testCall_eq env nbBlock rest k hne, if_pos hle]
  have hlast : Visits w (moveTo env (l.bodyControl rest k) (l.counted w₁)).1
      (seen ++ [l.test]) := by
    have hcounted : Visits w₁ (l.counted w₁) [l.test] := rfl
    exact hseen.trans hcounted
  have hstage : (moveTo env (l.bodyControl rest k) (l.counted w₁)).1.navStage = l.test + 1 :=
    Loop.bodyControl_no l rest k
  have hkept := hkeeps.initStage.act
    { l.counted w₁ with navStage := (l.bodyControl rest k).no }
  refine ⟨⟨?_, hstage⟩, ⟨not_leaves_of_last htest hlast, ?_⟩, ?_, ?_⟩
  · rw [hlast, ← List.append_assoc, List.getLast?_concat]
  · rw [hstage]
    exact Nat.succ_ne_zero _
  · refine (hkept _ (by simp)).trans ?_
    change (l.counted w₁).counter l.counter = _
    rw [Loop.counted, counter_store, if_pos rfl]
  · refine (hkept _ (by simp)).trans ?_
    change (l.counted w₁).counter l.bound = _
    rw [Loop.counted, counter_store, if_neg hne.symm]
    rfl

/-- From the test, with the next value `c` of the loop variable. -/
theorem goes_testCall (hoccurs : Occurs code l rest x k place) (hlegal : Legal code)
    (hkeeps : l.Unassigned env) {first last c : Int} {values : List Int} {w w₁ : World σ}
    {seen : List Nat} (hseen : Visits w w₁ seen) (htest : l.test ∉ seen)
    (hcounter : int8 (w₁.counter l.counter + 1) = c) (hbound : w₁.counter l.bound = last)
    (hfirst : first ≤ c) (hvalues : values ++ [c] = Loop.range first c)
    (hend : last < c → values = Loop.range first last) :
    Goes env code l rest k first last values w (l.testCall env nbBlock rest k w₁).1 := by
  obtain ⟨hne, hfresh⟩ := hoccurs.fresh hlegal
  by_cases hle : c ≤ last
  · obtain ⟨henters, hstays, hcounter', hbound'⟩ := enters_testCall nbBlock rest k hne
      hkeeps hseen htest (by omega)
    obtain ⟨place, hat, hsuffix⟩ := hoccurs.at_body
    refine .enters henters hstays.loop hvalues hfirst hle
      ⟨?_, hcounter'.trans hcounter, hbound'.trans hbound⟩
    refine ⟨_, place, .run (harmless_indexStage (Nat.lt_succ_self _) hkeeps.body hfresh) .stop,
      hat, hsuffix, ?_⟩
    rw [henters.2]
    exact (Loop.bodyControl_no l rest k).symm
  · obtain ⟨after, hafter⟩ := hoccurs.leaves_testCall env nbBlock hne
      (w := w₁) (by omega)
    exact .leaves ⟨seen, after, hseen.trans hafter⟩ (hend (by omega))

theorem int8_succ_pred (x : Int) : int8 (int8 (x - 1) + 1) = int8 x := by
  rw [int8, int8, int8, Int.bmod_add_bmod, Int.sub_add_cancel]

theorem counters_enter (hoccurs : Occurs code l rest x k place) (hlegal : Legal code)
    (hkeeps : l.Unassigned env) (w : World σ) :
    ((visit l.first w).initCounter env int8 l.counter l.bound l.from_ l.toExpr).counter l.counter =
        int8 (l.fromValue env w - 1) ∧
      ((visit l.first w).initCounter env int8 l.counter l.bound l.from_ l.toExpr).counter l.bound =
        int8 (l.toValue env w) := by
  obtain ⟨hne, -⟩ := hoccurs.fresh hlegal
  have hstage : w.stage l.first = visit l.first w := by
    refine stage_eq_visit ?_ w
    have := hoccurs.at_.no_lt
    have := hoccurs.no_rest
    rw [Loop.behind] at this
    omega
  have hfrom : ((visit l.first w).value env l.from_).1 = l.fromValue env w := by
    rw [Loop.fromValue, hstage]
  constructor
  · rw [World.initCounter, counter_store, if_neg hne]
    refine (hkeeps.toExpr.value _ _ (by simp)).trans ?_
    rw [counter_store, if_pos rfl, hfrom]
  · rw [World.initCounter, counter_store, if_pos rfl, Loop.toValue, hstage]

theorem test_not_mem_first : l.test ∉ [l.first] := by
  simp [Loop.test]

theorem goes_first (nbBlock : Nat) (hoccurs : Occurs code l rest x k place) (hlegal : Legal code)
    (hkeeps : l.Unassigned env) {w : World σ} (hfirst : -127 ≤ l.fromValue env w)
    (hlast : l.toValue env w ≤ 127) (hcount : CountsRight (l.fromValue env w) (l.toValue env w)) :
    Goes env code l rest k (l.fromValue env w) (l.toValue env w) [] w
      (machineCall env nbBlock (l.enterControl rest k) w).1 := by
  obtain ⟨hne, -⟩ := hoccurs.fresh hlegal
  obtain ⟨hcounter, hbound⟩ := counters_enter hoccurs hlegal hkeeps w
  have hseen : Visits w ((visit l.first w).initCounter env int8 l.counter l.bound l.from_
      l.toExpr) [l.first] := rfl
  rw [Loop.machineCall_enter]
  unfold CountsRight at hcount
  split_ifs at hcount with hle
  · refine goes_testCall hoccurs hlegal hkeeps hseen test_not_mem_first ?_ ?_ (Int.le_refl _) ?_ ?_
    · rw [hcounter, int8_succ_pred, int8_eq_self]
      exact ⟨by omega, by omega⟩
    · rw [hbound, int8_eq_self]
      exact ⟨by omega, by omega⟩
    · exact (range_self _).symm
    · intro hpassed
      omega
  · obtain ⟨after, hafter⟩ := hoccurs.leaves_testCall env nbBlock hne
      (w := (visit l.first w).initCounter env int8 l.counter l.bound l.from_ l.toExpr) (by
        rw [hcounter, hbound, int8_succ_pred]
        omega)
    exact .leaves ⟨[l.first], after, hseen.trans hafter⟩ (range_eq_nil (by omega)).symm

theorem goes_again (nbBlock : Nat) (hoccurs : Occurs code l rest x k place) (hlegal : Legal code)
    (hkeeps : l.Unassigned env) {first last c : Int} {w w' : World σ} (hdomain : -127 ≤ first)
    (hlast : last ≤ 126) (hfirst : first ≤ c) (hle : c ≤ last)
    (hbody : InBody env code l rest k c last w)
    (hquiet : Quiet [l.counter, l.bound] l.test w w') :
    Goes env code l rest k first last (Loop.range first c) w
      (machineCall env nbBlock (l.againControl rest k) w').1 := by
  obtain ⟨seen, hseen, hbehind⟩ := hquiet.visits
  have hvisit : Visits w' (visit (l.againControl rest k).no w') [(l.againControl rest k).no] := rfl
  have hend : Visits w (visit (l.againControl rest k).no w')
      (seen ++ [(l.againControl rest k).no]) := Visits.trans hseen hvisit
  have hcounter : w'.counter l.counter = c :=
    (hquiet.counters _ (by simp)).trans hbody.counter
  rw [Loop.machineCall_again]
  refine goes_testCall hoccurs hlegal hkeeps hend ?_ ?_ ?_ (by omega : first ≤ c + 1)
    (range_succ (by omega)) ?_
  · intro htest
    rcases List.mem_append.mp htest with htest | htest
    · exact Nat.lt_irrefl _ (hbehind _ htest)
    · rw [List.mem_singleton, Loop.againControl_no, Loop.test] at htest
      omega
  · change int8 (w'.counter l.counter + 1) = c + 1
    rw [hcounter, int8_eq_self]
    exact ⟨by omega, by omega⟩
  · exact (hquiet.counters _ (by simp)).trans hbody.bound
  · intro hpassed
    obtain rfl : c = last := by omega
    rfl

theorem goes_body (nbBlock : Nat) (hoccurs : Occurs code l rest x k place) (hlegal : Legal code)
    (hkeeps : l.Unassigned env) {first last c : Int} {w : World σ} (hdomain : -127 ≤ first)
    (hlast : last ≤ 126) (hfirst : first ≤ c) (hle : c ≤ last)
    (hbody : InBody env code l rest k c last w) :
    ∃ here, w.navStage = here.no ∧ (∃ place, At code here place ∧ place <:+ code) ∧
      (Settled nbBlock code w.navBlock (machineCall env nbBlock here w) →
        Goes env code l rest k first last (Loop.range first c) w
          (machineCall env nbBlock here w).1) := by
  obtain ⟨here, place', hwithin, hat, hsuffix, hstage⟩ := hbody.control
  refine ⟨here, hstage, ⟨place', hat, hsuffix⟩, ?_⟩
  intro hsettled
  obtain ⟨visited, hvisited⟩ := visits_control env nbBlock hat w
  have hends : Ends env [l.counter, l.bound] l.test nbBlock (l.againControl rest k) w
      (machineCall env nbBlock here w) := ends_control hkeeps.initStage hwithin w
  generalize machineCall env nbBlock here w = r at hsettled hvisited hends
  cases hends with
  | reached hquiet =>
      exact goes_again nbBlock hoccurs hlegal hkeeps hdomain hlast hfirst hle hbody hquiet
  | @moved w' here' hquiet hwithin' =>
      obtain ⟨hno, -, place'', hat', hsuffix'⟩ := hsettled
      refine .on (.of_behind hvisited hquiet.visits) rfl hfirst hle ⟨?_, ?_, ?_⟩
      · exact ⟨here', place'', hwithin', hat', hsuffix', hno⟩
      · exact (hquiet.counters _ (by simp)).trans hbody.counter
      · exact (hquiet.counters _ (by simp)).trans hbody.bound
  | left h hvisits => exact .block h (.of_behind hvisited hvisits) (range_begins hle)

end Calls

end Paparazzi.FlightPlan.ForCalls
