import Paparazzi.FlightPlan.Compilation

/-!
Runs of `auto_nav` against runs of the structural semantics.  The code counts in
an `int8_t` where a `for` loop counts in integers; the two agree as long as the
values that the loops compute are values of that type.
-/

namespace Paparazzi.FlightPlan.Preservation

open Paparazzi.FlightPlan.CommonFlightPlan
open Paparazzi.FlightPlan.Compilation
open Paparazzi.FlightPlan.PrintedCode
open Paparazzi.FlightPlan.Printer
open Paparazzi.FlightPlan.Stage
open Paparazzi.FlightPlan.Structural hiding enter
open Paparazzi.Library.SwitchCode

variable {σ : Type} (env : Env σ)

/-! ### What a call records -/

/-- The world in a verdict. -/
def worldOf : Verdict σ → World σ
  | .moveOn w => w
  | .remain w => w
  | .leave w => w

theorem stored_checkUntil (until_ : Option Text) (w : World σ) :
    (worldOf (checkUntil env until_ w)).stored = w.stored := by
  cases until_ with
  | none => rfl
  | some cond =>
      simp only [checkUntil]
      split <;> simp [worldOf]

theorem stored_navigateUnless (cond nav : Text) (w : World σ) :
    (worldOf (navigateUnless env cond nav w)).stored = w.stored := by
  simp only [navigateUnless]
  split <;> simp [worldOf]

theorem stored_navigateTo (approaching wp nav : Text) (until_ : Option Text) (w : World σ) :
    (worldOf (navigateTo env approaching wp nav until_ w)).stored = w.stored := by
  simp only [navigateTo]
  split
  · rfl
  · exact stored_checkUntil env until_ ((w.test env approaching).2.act env nav)

/-- A stage without children counts no loop. -/
theorem stored_runSimple (s : Simple) (w : World σ) :
    (worldOf (runSimple env (Structural.enter env) s w)).stored = w.stored := by
  cases s with
  | heading cond nav => exact stored_navigateUnless env cond nav w
  | attitude until_ nav =>
      cases until_ with
      | none => rfl
      | some cond => exact stored_navigateUnless env cond nav w
  | go location approaching wp nav until_ =>
      cases location with
      | none => exact stored_navigateTo env approaching wp nav until_ w
      | some assignments =>
          exact stored_navigateTo env approaching wp nav until_ (w.act env assignments)
  | stay nav until_ | circle nav until_ | eight init nav until_ | oval init nav until_ =>
      exact stored_checkUntil env until_ (w.act env nav)
  | surveyRectangle init nav | follow nav | xyz nav | home nav | set assignment
  | deroute block => rfl
  | call statement =>
      simp only [runSimple]
      split <;> simp [worldOf]

theorem stored_conclude (here next : Control) (v : Verdict σ) :
    (conclude env here next v).1.stored = (worldOf v).stored := by
  cases v <;> rfl

/-- A call forgets no value that a loop computed. -/
def Records (call : World σ → World σ × Option Control) : Prop :=
  ∀ w, w.stored ⊆ (call w).1.stored

theorem records_testLoop (no : Nat) (inside : Control) {goOn : World σ → Bool × World σ}
    {next : World σ → World σ × Option Control} (hgoOn : ∀ w, w.stored ⊆ (goOn w).2.stored)
    (hnext : Records next) : Records (testLoop env no goOn inside next) := by
  intro w
  rcases hcase : goOn (visit no w) with ⟨enters, w₁⟩
  have hvisit : w.stored ⊆ w₁.stored := by
    have := hgoOn (visit no w)
    rwa [hcase] at this
  cases enters with
  | true => simpa [testLoop, hcase, moveTo] using hvisit
  | false => simpa [testLoop, hcase] using List.Subset.trans hvisit (hnext w₁)

theorem stored_countOn (narrow : Int → Int) (v bound : String) (w : World σ) :
    (countOn narrow v bound w).2.stored = w.stored ++ [w.counter v + 1] := rfl

theorem subset_countOn (narrow : Int → Int) (v bound : String) (w : World σ) :
    w.stored ⊆ (countOn narrow v bound w).2.stored := by
  rw [stored_countOn]
  exact List.subset_append_left _ _

theorem records_stages (narrow : Int → Int) {k : Control}
    {after : World σ → World σ × Option Control} (hafter : Records after) (t : Stages Nat) :
    Records (callStages env narrow (Structural.enter env) k after t) := by
  induction t with
  | done => exact hafter
  | simple no s rest ih =>
      intro w
      cases hinit : s.init with
      | none =>
          simp only [callStages, hinit, stored_conclude, stored_runSimple]
          exact List.Subset.refl _
      | some init =>
          simp only [callStages, hinit]
          exact List.Subset.refl _
  | loopWhile no cond body rest ihBody ihRest =>
      exact records_testLoop env _ _ (fun w => List.Subset.refl _) ihRest
  | loopFor no var from_ toExpr body rest ihBody ihRest =>
      intro w
      refine List.Subset.trans ?_ (records_testLoop env _ _ (subset_countOn narrow _ _) ihRest _)
      exact List.Subset.trans (List.subset_append_left _ _) (List.subset_append_left _ _)

theorem records_control (narrow : Int → Int) (plan : Plan) (k : Control) :
    Records (callControl env narrow (Structural.enter env) (exitBlock env plan) k) := by
  induction k with
  | exit no => exact fun w => List.Subset.refl _
  | run t k ih => exact records_stages env narrow ih t
  | second t k ih =>
      cases t with
      | simple no s rest =>
          intro w
          simp only [callControl, stored_conclude, stored_runSimple]
          exact List.Subset.refl _
      | done | loopWhile no cond body rest | loopFor no var from_ toExpr body rest =>
          exact records_stages env narrow ih _
  | again t k ih =>
      cases t with
      | loopWhile no cond body rest =>
          intro w
          exact records_testLoop env _ _ (fun w => List.Subset.refl _)
            (records_stages env narrow ih rest) (visit _ w)
      | loopFor no var from_ toExpr body rest =>
          intro w
          exact records_testLoop env _ _ (subset_countOn narrow _ _)
            (records_stages env narrow ih rest) (visit _ w)
      | done | simple no s rest => exact records_stages env narrow ih _

/-! ### Counting in an `int8_t` -/

theorem store_int8 {v : String} {x : Int} {w : World σ} (hx : InInt8 x) :
    w.store int8 v x = w.store id v x := by
  simp only [World.store, int8_eq_self hx, id]

theorem countOn_int8 {v bound : String} {w : World σ} (hx : InInt8 (w.counter v + 1)) :
    countOn int8 v bound w = countOn id v bound w := by
  simp only [countOn, World.countUp, store_int8 hx]

theorem initCounter_int8 {v bound : String} {from_ toExpr : Text} {w : World σ}
    (hx : ∀ x ∈ (w.initCounter env id v bound from_ toExpr).stored, InInt8 x) :
    w.initCounter env int8 v bound from_ toExpr = w.initCounter env id v bound from_ toExpr := by
  have hfirst : InInt8 ((w.value env from_).1 - 1) := by
    apply hx
    simp [World.initCounter, World.store]
  simp only [World.initCounter, store_int8 hfirst]
  apply store_int8
  apply hx
  simp [World.initCounter, World.store]

/-- Two calls agree where the second computes values of an `int8_t` only. -/
def Agree (nbBlock : Nat) (call call' : World σ → World σ × Option Control) : Prop :=
  ∀ w, w.navBlock < nbBlock → (∀ x ∈ (call' w).1.stored, InInt8 x) → call w = call' w

theorem agree_testLoop {nbBlock no : Nat} {goOn goOn' : World σ → Bool × World σ}
    {inside : Control} {next next' : World σ → World σ × Option Control}
    (hgoOn : ∀ w, (∀ x ∈ (goOn' w).2.stored, InInt8 x) → goOn w = goOn' w)
    (hblock : ∀ w, (goOn' w).2.navBlock = w.navBlock) (hrecords : Records next')
    (hnext : Agree nbBlock next next') :
    Agree nbBlock (testLoop env no goOn inside next) (testLoop env no goOn' inside next') := by
  intro w hw hfit
  rcases hcase : goOn' (visit no w) with ⟨enters, w₁⟩
  have hw₁ : w₁.navBlock = w.navBlock := by
    have := hblock (visit no w)
    rwa [hcase] at this
  cases enters with
  | true =>
      have hsame : goOn (visit no w) = goOn' (visit no w) := by
        refine hgoOn (visit no w) ?_
        rw [hcase]
        simpa [testLoop, hcase, moveTo] using hfit
      simp [testLoop, hsame, hcase]
  | false =>
      have hnextfit : ∀ x ∈ (next' w₁).1.stored, InInt8 x := by
        simpa [testLoop, hcase] using hfit
      have hsame : goOn (visit no w) = goOn' (visit no w) := by
        refine hgoOn (visit no w) ?_
        rw [hcase]
        exact fun x hx => hnextfit x (hrecords w₁ hx)
      simpa [testLoop, hsame, hcase] using hnext w₁ (by omega) hnextfit

theorem agree_countOn (v bound : String) (w : World σ)
    (hfit : ∀ x ∈ (countOn id v bound w).2.stored, InInt8 x) :
    countOn int8 v bound w = countOn id v bound w := by
  apply countOn_int8
  apply hfit
  rw [stored_countOn]
  simp

theorem agree_stages {nbBlock : Nat} {k : Control}
    {after after' : World σ → World σ × Option Control} (hrecords : Records after')
    (hafter : Agree nbBlock after after') (t : Stages Nat) :
    Agree nbBlock (callStages env int8 (Structural.enter env) k after t)
      (callStages env id (Structural.enter env) k after' t) := by
  induction t with
  | done => exact hafter
  | simple no s rest ih =>
      intro w hw hfit
      rfl
  | loopWhile no cond body rest ihBody ihRest =>
      exact agree_testLoop env (fun w hw => rfl) (fun w => rfl)
        (records_stages env id hrecords rest) ihRest
  | loopFor no var from_ toExpr body rest ihBody ihRest =>
      intro w hw hfit
      have hrest := records_stages env id (k := k) hrecords rest
      have htest := records_testLoop env no
        (.run body (.again (.loopFor no var from_ toExpr body rest) k))
        (subset_countOn id (cVarOfIdent var) (toVar var)) hrest
      have hinit : (visit (no - 1) w).initCounter env int8 (cVarOfIdent var) (toVar var) from_
          toExpr = (visit (no - 1) w).initCounter env id (cVarOfIdent var) (toVar var) from_
          toExpr := by
        apply initCounter_int8
        exact fun x hx => hfit x (htest _ hx)
      simp only [callStages, hinit]
      exact agree_testLoop env (agree_countOn _ _) (fun w => rfl) hrest ihRest _ hw hfit

/-- With fewer than 256 blocks, the next block is the one after the current block. -/
theorem nextBlock_eq_exitBlock {plan : Plan} (hnb : plan.nbBlock < 256) {w : World σ}
    (hw : w.navBlock < plan.nbBlock) :
    w.nextBlock env plan.nbBlock = exitBlock env plan w := by
  have hmod : (w.navBlock + 1) % 256 = w.navBlock + 1 := Nat.mod_eq_of_lt (by omega)
  simp only [World.nextBlock, World.navInitBlock, exitBlock, Structural.enter, hmod]
  by_cases hlast : w.navBlock + 1 ≥ plan.nbBlock
  · have hmin : min (w.navBlock + 1) (plan.nbBlock - 1) = plan.nbBlock - 1 := by omega
    rw [if_pos hlast, hmin]
  · have hmin : min (w.navBlock + 1) (plan.nbBlock - 1) = w.navBlock + 1 := by omega
    rw [if_neg hlast, hmin]

/-- The integers of the code are those of the structural semantics, where they fit. -/
theorem agree_control {plan : Plan} (hnb : plan.nbBlock < 256) (k : Control) :
    Agree plan.nbBlock (machineCall env plan.nbBlock k)
      (callControl env id (Structural.enter env) (exitBlock env plan) k) := by
  induction k with
  | exit no =>
      intro w hw hfit
      simp only [machineCall, callControl]
      rw [nextBlock_eq_exitBlock env hnb (w := visit no w) hw]
  | run t k ih => exact agree_stages env (records_control env id plan k) ih t
  | second t k ih =>
      cases t with
      | simple no s rest =>
          intro w hw hfit
          rfl
      | done | loopWhile no cond body rest | loopFor no var from_ toExpr body rest =>
          exact agree_stages env (records_control env id plan k) ih _
  | again t k ih =>
      have hrest := fun rest => records_stages env id (k := k) (records_control env id plan k) rest
      have hagree := agree_stages env (k := k) (records_control env id plan k) ih
      cases t with
      | loopWhile no cond body rest =>
          intro w hw hfit
          exact agree_testLoop env (fun w hw => rfl) (fun w => rfl) (hrest rest) (hagree rest)
            (visit _ w) hw hfit
      | loopFor no var from_ toExpr body rest =>
          intro w hw hfit
          exact agree_testLoop env (agree_countOn _ _) (fun w => rfl) (hrest rest) (hagree rest)
            (visit _ w) hw hfit
      | done | simple no s rest => exact hagree _

/-! ### Exceptions -/

theorem checkExceptions_gotoBlock {nbBlock : Nat} (hnb : nbBlock ≤ 256) {exceptions : List Exception}
    (hresolved : ∀ x ∈ exceptions, x.deroute < nbBlock) (w : World σ) :
    checkExceptions env (jump env nbBlock) exceptions w =
      checkExceptions env (Structural.enter env) exceptions w := by
  induction exceptions generalizing w with
  | nil => rfl
  | cons x exceptions ih =>
      have hx : x.deroute < nbBlock := hresolved x (by simp)
      have hrest := ih fun y hy => hresolved y (by simp [hy])
      simp only [checkExceptions, jump, gotoBlock_eq_enter env nbBlock hx hnb]
      simp only [hrest]

/-- An exception enters its block; where none is raised, the place is kept. -/
theorem checkExceptions_place {nbBlock : Nat} {exceptions : List Exception}
    (hresolved : ∀ x ∈ exceptions, x.deroute < nbBlock) (w : World σ) {raised : Bool}
    {w' : World σ}
    (h : checkExceptions env (Structural.enter env) exceptions w = (raised, w')) :
    w'.stored = w.stored ∧
      (raised = true → w'.navStage = 0 ∧ w'.navBlock < nbBlock) ∧
      (raised = false → w'.navStage = w.navStage ∧ w'.navBlock = w.navBlock) := by
  induction exceptions generalizing w with
  | nil =>
      cases h
      simp
  | cons x exceptions ih =>
      have hx : x.deroute < nbBlock := hresolved x (by simp)
      have hrest := ih fun y hy => hresolved y (by simp [hy])
      simp only [checkExceptions] at h
      by_cases hblock : w.navBlock ≠ x.deroute
      · rw [if_pos hblock] at h
        cases hmet : (w.test env x.cond).1 with
        | true =>
            rw [hmet] at h
            cases h
            exact ⟨rfl, fun _ => ⟨rfl, hx⟩, fun h => by cases h⟩
        | false =>
            rw [hmet] at h
            exact hrest (w.test env x.cond).2 h
      · rw [if_neg hblock] at h
        exact hrest w h

/-! ### Calls of the plan -/

/-- The code of the current block has a place for the control, with its number. -/
structure Located (plan : Plan) (w : World σ) (k : Control) : Prop where
  no : w.navStage = k.no
  place : ∃ b x place, plan.blocks[w.navBlock]? = some b ∧
    (printBlocks plan.blocks 0)[w.navBlock]? = some (printSwitch b x) ∧
    At (printSwitch b x) k place ∧ place <:+ printSwitch b x

theorem located_start {plan : Plan} (hplan : plan.WellFormed) {w : World σ}
    (hblock : w.navBlock < plan.nbBlock) (hstage : w.navStage = 0) :
    Located plan w (startOf plan w) := by
  obtain ⟨b, hb⟩ : ∃ b, plan.blocks[w.navBlock]? = some b :=
    ⟨_, List.getElem?_eq_getElem hblock⟩
  have hsize := hplan.stages b (List.mem_of_getElem? hb)
  obtain ⟨x, hx⟩ := printBlocks_getElem? (x := 0) hb
  have hat : At (printSwitch b x) (start b) (printSwitch b x) :=
    .run b.stages 0 x (.exit b.stages.size hsize) (by simp [Control.no])
  have hstart : startOf plan w = start b := by simp [startOf, hb]
  refine ⟨?_, b, x, printSwitch b x, hb, hx, ?_, List.suffix_refl _⟩
  · rw [hstart, hstage]
    exact (no_run b.stages (by simp [Control.no])).symm
  · rw [hstart]
    exact hat

/-- The switch, entered at the number of the control, does what the call does. -/
theorem exec_switch {plan : Plan} (hplan : plan.WellFormed) (hnb : plan.nbBlock < 256) {b : Block}
    {x : Nat} {k : Control} {place : Code} (hb : b ∈ plan.blocks)
    (hat : At (printSwitch b x) k place) (hsuffix : place <:+ printSwitch b x)
    (hlegal : Legal (printSwitch b x)) {w : World σ} (hno : w.navStage = k.no) :
    Returns (sem env plan.nbBlock) (printSwitch b x) (enter (printSwitch b x) w.navStage) w
        (machineCall env plan.nbBlock k w).1 ∧
      Settled plan.nbBlock (printSwitch b x) w.navBlock (machineCall env plan.nbBlock k w) := by
  have hgoto : ∀ d, .stmt (.gotoBlock d) ∈ printSwitch b x → d < plan.nbBlock := by
    intro d hd
    apply hplan.resolved
    simp only [Plan.targets, List.mem_append, List.mem_flatMap]
    exact .inr ⟨b, hb, .inr (gotoBlock_mem_printSwitch hd)⟩
  obtain ⟨hreturns, hsettled⟩ := simulates_control env plan.nbBlock plan.nbBlock_pos (by omega)
    hgoto hlegal.labels hat hsuffix w
  refine ⟨?_, hsettled⟩
  obtain ⟨marks, rest, hplace, hmarks⟩ := hat.entry
  have hcase : .case k.no :: rest <:+ printSwitch b x :=
    (List.suffix_append marks _).trans (hplace ▸ hsuffix)
  have hseek : seek Item.caseOf k.no (printSwitch b x) = some rest :=
    seek_eq_some rfl hlegal.cases hcase
  have henter : enter (printSwitch b x) w.navStage = rest := by
    rw [enter, hno, hseek]
  rw [henter]
  rw [hplace, returns_skip_all hmarks] at hreturns
  exact (returns_skip rfl).mp hreturns

theorem records_callBlock {plan : Plan} {b : Block}
    (hresolved : ∀ x ∈ b.exceptions, x.deroute < plan.nbBlock) (w : World σ) (k : Control) :
    w.stored ⊆ (callBlock env id plan b w k).1.stored := by
  rcases hchecked : checkExceptions env (Structural.enter env) b.exceptions (w.act env b.preCall)
    with ⟨raised, w₁⟩
  obtain ⟨hstored, -, -⟩ := checkExceptions_place env hresolved _ hchecked
  have hw : w.stored = w₁.stored := hstored.symm
  cases raised with
  | true => simp [callBlock, hchecked, hw]
  | false => simpa [callBlock, hchecked, hw] using records_control env id plan k w₁

/-- A call in a block: the code returns, and does what the structural call does. -/
theorem runBlock_eq_callBlock {plan : Plan} (hplan : plan.WellFormed) (hnb : plan.nbBlock < 256)
    {b : Block} {x : Nat} {k : Control} {place : Code} {w : World σ}
    (hlegal : Legal (printSwitch b x)) (hb : plan.blocks[w.navBlock]? = some b)
    (hx : (printBlocks plan.blocks 0)[w.navBlock]? = some (printSwitch b x))
    (hat : At (printSwitch b x) k place) (hsuffix : place <:+ printSwitch b x)
    (hno : w.navStage = k.no) (hfit : ∀ x ∈ (callBlock env id plan b w k).1.stored, InInt8 x) :
    (∃ fuel, runBlock env plan.nbBlock b (printSwitch b x) fuel w =
        some (callBlock env id plan b w k).1) ∧
      Located plan (callBlock env id plan b w k).1 (callBlock env id plan b w k).2 := by
  have hmem := List.mem_of_getElem? hb
  have hlt : w.navBlock < plan.nbBlock := (List.getElem?_eq_some_iff.mp hb).1
  have hresolved : ∀ x ∈ b.exceptions, x.deroute < plan.nbBlock := by
    intro x hx
    apply hplan.resolved
    simp only [Plan.targets, List.mem_append, List.mem_flatMap, List.mem_map]
    exact .inr ⟨b, hmem, .inl ⟨x, hx, rfl⟩⟩
  have hmachine := checkExceptions_gotoBlock env (by omega) hresolved (w.act env b.preCall)
  rcases hchecked : checkExceptions env (Structural.enter env) b.exceptions (w.act env b.preCall)
    with ⟨raised, w₁⟩
  obtain ⟨-, hraised, hpassed⟩ := checkExceptions_place env hresolved _ hchecked
  rw [hchecked] at hmachine
  cases raised with
  | true =>
      obtain ⟨hstage, hblock⟩ := hraised rfl
      have hcall : callBlock env id plan b w k = (w₁, startOf plan w₁) := by
        simp [callBlock, hchecked]
      rw [hcall]
      refine ⟨⟨0, ?_⟩, located_start hplan hblock hstage⟩
      simp [runBlock, hmachine]
  | false =>
      obtain ⟨hstage, hblock⟩ := hpassed rfl
      have hstage₁ : w₁.navStage = k.no := hstage.trans hno
      have hblock₁ : w₁.navBlock = w.navBlock := hblock
      rcases hcontrol : callControl env id (Structural.enter env) (exitBlock env plan) k w₁ with
        ⟨w₂, k'⟩
      have hcall : callBlock env id plan b w k = (w₂.act env b.postCall,
          k'.getD (startOf plan (w₂.act env b.postCall))) := by
        simp [callBlock, hchecked, hcontrol]
      have hagree : machineCall env plan.nbBlock k w₁ = (w₂, k') := by
        rw [← hcontrol]
        refine agree_control env hnb k w₁ (by omega) ?_
        rw [hcontrol]
        rw [hcall] at hfit
        exact hfit
      obtain ⟨⟨fuel, hexec⟩, hsettled⟩ :=
        exec_switch env hplan hnb hmem hat hsuffix hlegal hstage₁
      rw [hagree] at hexec hsettled
      rw [hcall]
      refine ⟨⟨fuel, ?_⟩, ?_⟩
      · simp [runBlock, hmachine, hexec]
      · cases k' with
        | none => exact located_start hplan hsettled.2 hsettled.1
        | some k' =>
            obtain ⟨hno', hblock', place', hat', hsuffix'⟩ := hsettled
            have hblock₂ : w₂.navBlock = w.navBlock := hblock'.trans hblock₁
            refine ⟨hno', b, x, place', ?_, ?_, hat', hsuffix'⟩
            · exact (congrArg _ hblock₂).trans hb
            · exact (congrArg _ hblock₂).trans hx

section Runs

variable {plan : Plan}

theorem globalExceptions_resolved (hplan : plan.WellFormed) :
    ∀ x ∈ plan.globalExceptions, x.deroute < plan.nbBlock := by
  intro x hx
  apply hplan.resolved
  simp only [Plan.targets, List.mem_append, List.mem_map]
  exact .inl ⟨x, hx, rfl⟩

theorem exceptions_resolved (hplan : plan.WellFormed) {b : Block} (hb : b ∈ plan.blocks) :
    ∀ x ∈ b.exceptions, x.deroute < plan.nbBlock := by
  intro x hx
  apply hplan.resolved
  simp only [Plan.targets, List.mem_append, List.mem_flatMap, List.mem_map]
  exact .inr ⟨b, hb, .inl ⟨x, hx, rfl⟩⟩

theorem records_callPlan (hplan : plan.WellFormed) (w : World σ) (k : Control) :
    w.stored ⊆ (callPlan env id plan w k).1.stored := by
  rcases hchecked : checkExceptions env (Structural.enter env) plan.globalExceptions w with
    ⟨raised, w₁⟩
  obtain ⟨hstored, -, -⟩ :=
    checkExceptions_place env (globalExceptions_resolved hplan) w hchecked
  have hw : w.stored = w₁.stored := hstored.symm
  cases raised with
  | true => simp [callPlan, hchecked, hw]
  | false =>
      cases hb : plan.blocks[w₁.navBlock]? with
      | none => simp [callPlan, hchecked, hb, hw]
      | some b =>
          have hcall : callPlan env id plan w k = callBlock env id plan b w₁ k := by
            simp [callPlan, hchecked, hb]
          rw [hcall, hw]
          exact records_callBlock env (exceptions_resolved hplan (List.mem_of_getElem? hb)) w₁ k

/-- The world before a call: the rest of the autopilot changed the state. -/
def changed (change : σ → σ) (w : World σ) : World σ :=
  { w with memory := { w.memory with state := change w.memory.state } }

theorem records_runPlan (hplan : plan.WellFormed) (changes : List (σ → σ)) (w : World σ)
    (k : Control) : w.stored ⊆ (runPlan env id plan changes w k).1.stored := by
  induction changes generalizing w k with
  | nil => exact List.Subset.refl _
  | cons change changes ih =>
      have hcall := records_callPlan env hplan (changed change w) k
      exact List.Subset.trans hcall (ih _ _)

/-- One call of `auto_nav` returns, and does what the structural call does. -/
theorem autoNav_eq_callPlan (hplan : plan.WellFormed) (hnb : plan.nbBlock < 256)
    (hlegal : LegalFunction (printBlocks plan.blocks 0)) {w : World σ} {k : Control}
    (hlocated : Located plan w k)
    (hfit : ∀ x ∈ (callPlan env id plan w k).1.stored, InInt8 x) :
    (∃ fuel, autoNav env plan fuel w = some (callPlan env id plan w k).1) ∧
      Located plan (callPlan env id plan w k).1 (callPlan env id plan w k).2 := by
  obtain ⟨hno, b, x, place, hb, hx, hat, hsuffix⟩ := hlocated
  have hglobal := globalExceptions_resolved hplan
  have hmachine := checkExceptions_gotoBlock env (by omega) hglobal w
  rcases hchecked : checkExceptions env (Structural.enter env) plan.globalExceptions w with
    ⟨raised, w₁⟩
  obtain ⟨-, hraised, hpassed⟩ := checkExceptions_place env hglobal w hchecked
  rw [hchecked] at hmachine
  cases raised with
  | true =>
      obtain ⟨hstage, hblock⟩ := hraised rfl
      have hcall : callPlan env id plan w k = (w₁, startOf plan w₁) := by
        simp [callPlan, hchecked]
      rw [hcall]
      refine ⟨⟨0, ?_⟩, located_start hplan hblock hstage⟩
      simp [autoNav, hmachine]
  | false =>
      obtain ⟨hstage, hblock⟩ := hpassed rfl
      rw [← hblock] at hb hx
      have hcall : callPlan env id plan w k = callBlock env id plan b w₁ k := by
        simp [callPlan, hchecked, hb]
      rw [hcall] at hfit ⊢
      have hmem : printSwitch b x ∈ printBlocks plan.blocks 0 := List.mem_of_getElem? hx
      obtain ⟨⟨fuel, hrun⟩, hlocated⟩ := runBlock_eq_callBlock env hplan hnb
        (hlegal.switches _ hmem) hb hx hat hsuffix (hstage.trans hno) hfit
      refine ⟨⟨fuel, ?_⟩, hlocated⟩
      simp [autoNav, hmachine, hb, hx, hrun]

/-! ### Fuel -/

theorem runBlock_mono {nbBlock fuel fuel' : Nat} {b : Block} {code : Code} {w w' : World σ}
    (h : runBlock env nbBlock b code fuel w = some w') (hle : fuel ≤ fuel') :
    runBlock env nbBlock b code fuel' w = some w' := by
  unfold runBlock at h ⊢
  rcases hchecked : checkExceptions env (jump env nbBlock) b.exceptions (w.act env b.preCall)
    with ⟨raised, w₁⟩
  cases raised with
  | true => simpa [hchecked] using h
  | false =>
      simp only [hchecked, Bool.false_eq_true, if_false, Option.map_eq_some_iff] at h ⊢
      obtain ⟨w₂, hexec, hw₂⟩ := h
      exact ⟨w₂, exec_mono hexec hle, hw₂⟩

theorem autoNav_mono {fuel fuel' : Nat} {w w' : World σ}
    (h : autoNav env plan fuel w = some w') (hle : fuel ≤ fuel') :
    autoNav env plan fuel' w = some w' := by
  unfold autoNav at h ⊢
  rcases hchecked : checkExceptions env (jump env plan.nbBlock) plan.globalExceptions w with
    ⟨raised, w₁⟩
  cases raised with
  | true => simpa [hchecked] using h
  | false =>
      simp only [hchecked, Bool.false_eq_true, if_false] at h ⊢
      cases hb : plan.blocks[w₁.navBlock]? with
      | none => simpa [hb] using h
      | some b =>
          cases hcode : (printBlocks plan.blocks 0)[w₁.navBlock]? with
          | none => simpa [hb, hcode] using h
          | some code =>
              simp only [hb, hcode] at h ⊢
              exact runBlock_mono env h hle

theorem autoNavRun_mono {fuel fuel' : Nat} {changes : List (σ → σ)} {w w' : World σ}
    (h : autoNavRun env plan fuel changes w = some w') (hle : fuel ≤ fuel') :
    autoNavRun env plan fuel' changes w = some w' := by
  induction changes generalizing w with
  | nil => exact h
  | cons change changes ih =>
      obtain ⟨w₁, hcall, hrun⟩ := Option.bind_eq_some_iff.mp h
      exact Option.bind_eq_some_iff.mpr ⟨w₁, autoNav_mono env hcall hle, ih hrun⟩

/-- A run of `auto_nav` follows the structural run from every located control. -/
theorem autoNavRun_eq_runPlan (hplan : plan.WellFormed) (hnb : plan.nbBlock < 256)
    (hlegal : LegalFunction (printBlocks plan.blocks 0)) (changes : List (σ → σ)) {w : World σ}
    {k : Control} (hlocated : Located plan w k)
    (hfit : ∀ x ∈ (runPlan env id plan changes w k).1.stored, InInt8 x) :
    (∃ fuel, autoNavRun env plan fuel changes w = some (runPlan env id plan changes w k).1) ∧
      Located plan (runPlan env id plan changes w k).1 (runPlan env id plan changes w k).2 := by
  induction changes generalizing w k with
  | nil => exact ⟨⟨0, rfl⟩, hlocated⟩
  | cons change changes ih =>
      have hchanged : Located plan (changed change w) k := ⟨hlocated.no, hlocated.place⟩
      obtain ⟨⟨fuel, hcall⟩, hnext⟩ := autoNav_eq_callPlan env hplan hnb hlegal hchanged
        fun x hx => hfit x (records_runPlan env hplan changes _ _ hx)
      obtain ⟨⟨fuel', hrun⟩, hend⟩ := ih hnext hfit
      refine ⟨⟨max fuel fuel', ?_⟩, hend⟩
      refine Option.bind_eq_some_iff.mpr ⟨_, autoNav_mono env hcall (Nat.le_max_left _ _), ?_⟩
      exact autoNavRun_mono env hrun (Nat.le_max_right _ _)

end Runs

/-! ### The compilation of flight plans -/

/-- The generated code compiles, every call of the run returns, and the run is
that of the structural semantics: the same stages in the same order, with the
numbers of the index in `nav_stage`, and the same effects. -/
def PreservesStructure (plan : Plan) (changes : List (σ → σ)) (w : World σ) : Prop :=
  LegalFunction (printBlocks plan.blocks 0) ∧
    (runPlan env id plan changes w (startOf plan w)).1.navStage =
      (runPlan env id plan changes w (startOf plan w)).2.no ∧
    ∃ fuel, autoNavRun env plan fuel changes w =
      some (runPlan env id plan changes w (startOf plan w)).1

/-- Flight-plan compilation preserves the control structure where the `for` loops
of a block can be declared side by side and count within an `int8_t`, and the plan
has fewer than 256 blocks. -/
theorem compilation_preserves_structure {plan : Plan} (hplan : plan.WellFormed)
    (hnb : plan.nbBlock < 256) (hdeclarable : ∀ b ∈ plan.blocks, Declarable b.stages)
    {w : World σ} (hblock : w.navBlock < plan.nbBlock) (hstage : w.navStage = 0)
    (changes : List (σ → σ))
    (hfit : ∀ x ∈ (runPlan env id plan changes w (startOf plan w)).1.stored, InInt8 x) :
    PreservesStructure env plan changes w := by
  have hlegal := (legalFunction_iff plan).mpr hdeclarable
  obtain ⟨hrun, hend⟩ := autoNavRun_eq_runPlan env hplan hnb hlegal changes
    (located_start hplan hblock hstage) hfit
  exact ⟨hlegal, hend.no, hrun⟩

/-! ### Two loops -/

/-- An environment in which the texts "126" and "127" are these numbers. -/
def numericEnv : Env Unit where
  test _ w := (true, w.memory)
  value e w := (if e = "127" then 127 else 126, w.memory)
  act _ w := w.memory

/-- A block with one `for` loop around one `set`. -/
def loopPlan (from_ toExpr : Text) : Plan where
  globalExceptions := []
  userBlocks := [⟨"Scan", "", "", [],
    .loopFor () "i" from_ toExpr (.simple () (.set "x = 0;") .done) .done⟩]

/-- The beginning of a plan. -/
def initialWorld : World Unit where
  memory := ⟨fun _ _ => 0, ()⟩
  navBlock := 0
  navStage := 0
  visits := []
  stored := []

theorem loop_to_126_preserved :
    PreservesStructure numericEnv (loopPlan "126" "126") (List.replicate 3 id) initialWorld :=
  compilation_preserves_structure numericEnv (by decide) (by decide) (by decide) (by decide) rfl
    (List.replicate 3 id) (by decide +kernel)

/-- A loop up to 127 never ends: the code does not follow the structure of every plan. -/
theorem loop_to_127_not_preserved :
    ¬ ∀ (σ : Type) (env : Env σ) (plan : Plan), plan.WellFormed →
      ∀ w : World σ, w.navBlock < plan.nbBlock → w.navStage = 0 →
        ∀ changes, PreservesStructure env plan changes w := by
  intro h
  obtain ⟨-, -, fuel, hrun⟩ := h Unit numericEnv (loopPlan "126" "127") (by decide) initialWorld
    (by decide) rfl (List.replicate 5 id)
  have hstructure : (runPlan numericEnv id (loopPlan "126" "127") (List.replicate 5 id)
      initialWorld (startOf (loopPlan "126" "127") initialWorld)).1.navBlock = 1 := by
    decide +kernel
  have hcode : (autoNavRun numericEnv (loopPlan "126" "127") 60 (List.replicate 5 id)
      initialWorld).map World.navBlock = some 0 := by
    decide +kernel
  obtain ⟨w, hw, hblock⟩ := Option.map_eq_some_iff.mp hcode
  have hsame := (autoNavRun_mono numericEnv hw (Nat.le_max_left 60 fuel)).symm.trans
    (autoNavRun_mono numericEnv hrun (Nat.le_max_right 60 fuel))
  rw [Option.some.inj hsame, hstructure] at hblock
  cases hblock

end Paparazzi.FlightPlan.Preservation
