import Paparazzi.FlightPlan.PrintedCode
import Paparazzi.FlightPlan.Structural

/-!
The printed switch simulates the structural semantics: from the place of the code
that stands for a control, a call does what the tree does from that control and
leaves `nav_stage` at the number of the control it ends in.
-/

namespace Paparazzi.FlightPlan.Compilation

open Paparazzi.FlightPlan.CommonFlightPlan
open Paparazzi.FlightPlan.PrintedCode
open Paparazzi.FlightPlan.Printer
open Paparazzi.FlightPlan.Stage
open Paparazzi.FlightPlan.Structural hiding enter
open Paparazzi.Library.SwitchCode

/-! ### Numbers of controls -/

/-- A sequence is entered at its first number. -/
theorem no_run (t : Stages Unit) {n : Nat} {k : Control} (hno : k.no = n + t.size) :
    (Control.run (t.indexStage n) k).no = n := by
  cases t with
  | done => simpa [Stages.indexStage, Control.no, firstNo, Stages.size] using hno
  | simple _ s rest =>
      have := s.phases_pos
      simp only [Stages.indexStage, Control.no, firstNo]
      omega
  | loopWhile _ cond body rest => rfl
  | loopFor _ var from_ toExpr body rest => rfl

/-! ### Places -/

/-- The code from the end of the body of a loop on, where `n` is the number of its test. -/
def fromEnd (loop e : Label) (body : Stages Unit) (n : Nat) (tail : Code) : Code :=
  stage (n + body.size + 1) ++ .stmt (.goto loop) :: .label e :: tail

/-- The code from the test `st` of a loop on. -/
def fromTest (st : Statement) (loop e : Label) (body : Stages Unit) (n x : Nat) (tail : Code) :
    Code :=
  stage n ++ .stmt st :: (printStages body (n + 1) (x + 2) ++ fromEnd loop e body n tail)

theorem suffix_fromTest (st : Statement) (loop e : Label) (body : Stages Unit) (n x : Nat)
    (tail : Code) : .label e :: tail <:+ fromTest st loop e body n x tail := by
  refine List.IsSuffix.trans ?_ (List.suffix_append _ _)
  refine List.IsSuffix.trans ?_ (List.suffix_cons _ _)
  refine List.IsSuffix.trans ?_ (List.suffix_append _ _)
  refine List.IsSuffix.trans ?_ (List.suffix_append _ _)
  exact List.suffix_cons _ _

/-- The code from the test of a `while` on. -/
def fromWhile (cond : Text) (body : Stages Unit) (n x : Nat) (tail : Code) : Code :=
  fromTest (.whileTest cond ⟨"endwhile", x + 2⟩) ⟨"while", x + 1⟩ ⟨"endwhile", x + 2⟩ body n x tail

/-- The code from the test of a `for` on. -/
def fromFor (var : String) (body : Stages Unit) (n x : Nat) (tail : Code) : Code :=
  fromTest (.forTest (cVarOfIdent var) (toVar var) ⟨"endfor", x + 2⟩) ⟨"for", x + 1⟩
    ⟨"endfor", x + 2⟩ body n x tail

theorem printStages_while (cond : Text) (body rest : Stages Unit) (n x : Nat) (place : Code) :
    printStages (.loopWhile () cond body rest) n x ++ place =
      .label ⟨"while", x + 1⟩ :: fromWhile cond body n x
        (printStages rest (n + body.size + 2) (x + 2 + labels body) ++ place) := by
  simp [printStages, fromWhile, fromTest, fromEnd]

theorem printStages_for (var from_ toExpr : Text) (body rest : Stages Unit) (n x : Nat)
    (place : Code) :
    printStages (.loopFor () var from_ toExpr body rest) n x ++ place =
      .decl (cVarOfIdent var) :: .decl (toVar var) :: (stage n ++
        .stmt (.initCounter (cVarOfIdent var) (toVar var) from_ toExpr) ::
        .label ⟨"for", x + 1⟩ :: fromFor var body (n + 1) x
          (printStages rest (n + body.size + 3) (x + 2 + labels body) ++ place)) := by
  have hlast : n + 1 + body.size + 1 = n + body.size + 2 := by omega
  simp [printStages, fromFor, fromTest, fromEnd, hlast]

theorem suffix_fromFor {v bound : String} {n : Nat} {st : Statement} {loop : Label}
    {tail code : Code}
    (hsuffix : .decl v :: .decl bound :: (stage n ++ .stmt st :: .label loop :: tail) <:+ code) :
    .label loop :: tail <:+ code := by
  refine List.IsSuffix.trans ?_ hsuffix
  refine List.IsSuffix.trans ?_ ((List.suffix_cons _ _).trans (List.suffix_cons _ _))
  exact (List.suffix_cons _ _).trans (List.suffix_append _ _)

/-- The places of the code that stand for a control. -/
inductive At (code : Code) : Control → Code → Prop
  | exit (no : Nat) (hlt : no < 256) : At code (.exit no) (printExitBlock no)
  | run (t : Stages Unit) (n x : Nat) {k : Control} {place : Code} (hk : At code k place)
      (hno : k.no = n + t.size) :
      At code (.run (t.indexStage n) k) (printStages t n x ++ place)
  | second (s : Simple) (rest : Stages Unit) (n x : Nat) {k : Control} {place : Code}
      (hk : At code k place) (hno : k.no = n + 2 + rest.size) :
      At code (.second (.simple (n + 1) s (rest.indexStage (n + 2))) k)
        (stage (n + 1) ++ (printBody s ++ (printStages rest (n + 2) x ++ place)))
  | againWhile (cond : Text) (body rest : Stages Unit) (n x : Nat) {k : Control} {place : Code}
      (hk : At code k place) (hno : k.no = n + (Stages.loopWhile () cond body rest).size)
      (hloop : printStages (.loopWhile () cond body rest) n x ++ place <:+ code) :
      At code (.again ((Stages.loopWhile () cond body rest).indexStage n) k)
        (fromEnd ⟨"while", x + 1⟩ ⟨"endwhile", x + 2⟩ body n
          (printStages rest (n + body.size + 2) (x + 2 + labels body) ++ place))
  | againFor (var from_ toExpr : Text) (body rest : Stages Unit) (n x : Nat) {k : Control}
      {place : Code} (hk : At code k place)
      (hno : k.no = n + (Stages.loopFor () var from_ toExpr body rest).size)
      (hloop : printStages (.loopFor () var from_ toExpr body rest) n x ++ place <:+ code) :
      At code (.again ((Stages.loopFor () var from_ toExpr body rest).indexStage n) k)
        (fromEnd ⟨"for", x + 1⟩ ⟨"endfor", x + 2⟩ body (n + 1)
          (printStages rest (n + body.size + 3) (x + 2 + labels body) ++ place))

/-- The place of a control starts at the case of its number. -/
theorem At.entry {code place : Code} {k : Control} (h : At code k place) :
    ∃ marks rest, place = marks ++ .case k.no :: rest ∧ ∀ item ∈ marks, item.isStmt = false := by
  induction h with
  | exit no hlt => exact ⟨[.default], _, rfl, by simp⟩
  | run t n x hk hno ih =>
      rw [no_run t hno]
      cases t with
      | done =>
          obtain ⟨marks, rest, hplace, hmarks⟩ := ih
          refine ⟨marks, rest, ?_, hmarks⟩
          rw [printStages, List.nil_append, hplace, hno]
          rfl
      | simple _ s rest =>
          refine ⟨[], ?_⟩
          cases hinit : s.init <;> simp [printStages, printSimple, stage, hinit]
      | loopWhile _ cond body rest =>
          refine ⟨[.label ⟨"while", x + 1⟩], ?_⟩
          simp [printStages, stage]
      | loopFor _ var from_ toExpr body rest =>
          refine ⟨[.decl (cVarOfIdent var), .decl (toVar var)], ?_⟩
          simp [printStages, stage]
  | second s rest n x hk hno ih => exact ⟨[], _, rfl, by simp⟩
  | againWhile cond body rest n x hk hno hloop ih =>
      refine ⟨[], ?_⟩
      simp [Stages.indexStage, Control.no, loopEndNo, fromEnd, stage]
  | againFor var from_ toExpr body rest n x hk hno hloop ih =>
      refine ⟨[], ?_⟩
      simp [Stages.indexStage, Control.no, loopEndNo, fromEnd, stage]

theorem At.no_lt {code place : Code} {k : Control} (h : At code k place) : k.no < 256 := by
  induction h with
  | exit no hlt => exact hlt
  | run t n x hk hno ih =>
      rw [no_run t hno]
      omega
  | second s rest n x hk hno ih =>
      simp only [Control.no]
      omega
  | againWhile cond body rest n x hk hno hloop ih =>
      simp only [Stages.indexStage, Control.no, loopEndNo, Stages.size_indexStage, Stages.size] at *
      omega
  | againFor var from_ toExpr body rest n x hk hno hloop ih =>
      simp only [Stages.indexStage, Control.no, loopEndNo, Stages.size_indexStage, Stages.size] at *
      omega

/-! ### Stages without children -/

section Simulation

variable {σ : Type} (env : Env σ) (nbBlock : Nat) {code : Code}

/-- The state in which a call ends that stops with a verdict. -/
def result : Verdict σ → World σ
  | .moveOn w => w.nextStage env
  | .remain w => w
  | .leave w => w

theorem returns_until (until_ : Option Text) (place : Code) (w : World σ) :
    Returns (sem env nbBlock) code (untilCode until_ ++ .stmt .brk :: place) w
      (result env (checkUntil env until_ w)) := by
  cases until_ with
  | none => exact returns_leave rfl
  | some cond =>
      rcases htest : w.test env cond with ⟨met, w₁⟩
      cases met with
      | true =>
          simp only [checkUntil, htest, if_true, result]
          exact returns_leave (by simp [sem, htest])
      | false =>
          simp only [checkUntil, htest, Bool.false_eq_true, if_false, result]
          exact returns_next (by simp [sem, htest]) (returns_leave rfl)

theorem returns_nextElse (cond nav : Text) (place : Code) (w : World σ) :
    Returns (sem env nbBlock) code (.stmt (.nextElse cond nav) :: .stmt .brk :: place) w
      (result env (navigateUnless env cond nav w)) := by
  rcases htest : w.test env cond with ⟨met, w₁⟩
  cases met with
  | true =>
      simp only [navigateUnless, htest, if_true, result]
      exact returns_leave (by simp [sem, htest])
  | false =>
      simp only [navigateUnless, htest, Bool.false_eq_true, if_false, result]
      exact returns_next (by simp [sem, htest]) (returns_leave rfl)

theorem returns_nextFromElse (approaching wp nav : Text) (until_ : Option Text) (place : Code)
    (w : World σ) :
    Returns (sem env nbBlock) code
      (.stmt (.nextFromElse approaching wp nav) :: (untilCode until_ ++ .stmt .brk :: place)) w
      (result env (navigateTo env approaching wp nav until_ w)) := by
  rcases htest : w.test env approaching with ⟨met, w₁⟩
  cases met with
  | true =>
      simp only [navigateTo, htest, if_true, result]
      exact returns_leave (by simp [sem, htest])
  | false =>
      simp only [navigateTo, htest, Bool.false_eq_true, if_false]
      exact returns_next (by simp [sem, htest]) (returns_until env nbBlock until_ place _)

/-- The jump to a block that `get_index_block` found enters that block. -/
theorem gotoBlock_eq_enter {b : Nat} (hb : b < nbBlock) (hnb : nbBlock ≤ 256) (w : World σ) :
    w.gotoBlock env nbBlock b = Structural.enter env b w := by
  have hmod : b % 256 = b := Nat.mod_eq_of_lt (by omega)
  have hlt : ¬ b ≥ nbBlock := by omega
  simp only [World.gotoBlock, World.navInitBlock, Structural.enter, hmod, if_neg hlt]

/-- The code of the last phase of a stage does what the stage means. -/
theorem returns_printBody (hnb : nbBlock ≤ 256) (s : Simple)
    (hgoto : ∀ b, .stmt (.gotoBlock b) ∈ printBody s → b < nbBlock) (place : Code) (w : World σ) :
    Returns (sem env nbBlock) code (printBody s ++ place) w
      (result env (runSimple env (Structural.enter env) s w)) := by
  cases s with
  | heading cond nav => exact returns_nextElse env nbBlock cond nav place w
  | attitude until_ nav =>
      cases until_ with
      | none => exact returns_next rfl (returns_leave rfl)
      | some cond => exact returns_nextElse env nbBlock cond nav place w
  | go location approaching wp nav until_ =>
      cases location with
      | none =>
          simp only [printBody, Option.toList, List.map_nil, List.append_assoc, List.cons_append,
            List.nil_append]
          exact returns_nextFromElse env nbBlock approaching wp nav until_ place w
      | some assignments =>
          simp only [printBody, Option.toList, List.map_cons, List.map_nil, List.append_assoc,
            List.cons_append, List.nil_append]
          refine returns_next rfl ?_
          exact returns_nextFromElse env nbBlock approaching wp nav until_ place _
  | stay nav until_ | circle nav until_ | eight init nav until_ | oval init nav until_ =>
      simp only [printBody, List.append_assoc, List.cons_append, List.nil_append]
      exact returns_next rfl (returns_until env nbBlock until_ place (w.act env nav))
  | surveyRectangle init nav | follow nav | xyz nav | home nav =>
      exact returns_next rfl (returns_leave rfl)
  | set assignment => exact returns_next rfl (returns_leave rfl)
  | call statement =>
      rcases htest : w.test env statement with ⟨goOn, w₁⟩
      cases goOn with
      | true =>
          simp only [runSimple, htest, if_true, result]
          exact returns_next (by simp [sem, htest]) (returns_leave rfl)
      | false =>
          simp only [runSimple, htest, Bool.false_eq_true, if_false, result]
          exact returns_leave (by simp [sem, htest])
  | deroute block =>
      have hblock : block < nbBlock := hgoto block (by simp [printBody])
      refine returns_next rfl (returns_leave ?_)
      rw [gotoBlock_eq_enter env nbBlock hblock hnb]
      rfl

/-! ### Where a call ends -/

/-- A stage without children stays in its block and number, or enters a block. -/
def Keeps (w : World σ) : Verdict σ → Prop
  | .moveOn w' => w'.navStage = w.navStage ∧ w'.navBlock = w.navBlock
  | .remain w' => w'.navStage = w.navStage ∧ w'.navBlock = w.navBlock
  | .leave w' => w'.navStage = 0 ∧ w'.navBlock < nbBlock

/-- A call ends before a stage of the same block, or at the beginning of a block. -/
def Settled (code : Code) (block : Nat) : World σ × Option Control → Prop
  | (w, none) => w.navStage = 0 ∧ w.navBlock < nbBlock
  | (w, some k) => w.navStage = k.no ∧ w.navBlock = block ∧
      ∃ place, At code k place ∧ place <:+ code

theorem navInitBlock_navBlock_lt (hnb : 0 < nbBlock) (w : World σ) :
    (w.navInitBlock env nbBlock).navBlock < nbBlock := by
  change (if w.navBlock ≥ nbBlock then { w with navBlock := nbBlock - 1 } else w).navBlock < nbBlock
  split
  · change nbBlock - 1 < nbBlock
    omega
  · omega

theorem keeps_checkUntil (until_ : Option Text) (w : World σ) :
    Keeps nbBlock w (checkUntil env until_ w) := by
  cases until_ with
  | none => exact ⟨rfl, rfl⟩
  | some cond =>
      simp only [checkUntil]
      split <;> simp [Keeps]

theorem keeps_navigateUnless (cond nav : Text) (w : World σ) :
    Keeps nbBlock w (navigateUnless env cond nav w) := by
  simp only [navigateUnless]
  split <;> simp [Keeps]

theorem keeps_navigateTo (approaching wp nav : Text) (until_ : Option Text) (w : World σ) :
    Keeps nbBlock w (navigateTo env approaching wp nav until_ w) := by
  simp only [navigateTo]
  split
  · exact ⟨rfl, rfl⟩
  · exact keeps_checkUntil env nbBlock until_ ((w.test env approaching).2.act env nav)

theorem keeps_runSimple (s : Simple)
    (hgoto : ∀ b, .stmt (.gotoBlock b) ∈ printBody s → b < nbBlock) (w : World σ) :
    Keeps nbBlock w (runSimple env (Structural.enter env) s w) := by
  cases s with
  | heading cond nav => exact keeps_navigateUnless env nbBlock cond nav w
  | attitude until_ nav =>
      cases until_ with
      | none => exact ⟨rfl, rfl⟩
      | some cond => exact keeps_navigateUnless env nbBlock cond nav w
  | go location approaching wp nav until_ =>
      cases location with
      | none => exact keeps_navigateTo env nbBlock approaching wp nav until_ w
      | some assignments =>
          exact keeps_navigateTo env nbBlock approaching wp nav until_ (w.act env assignments)
  | stay nav until_ | circle nav until_ | eight init nav until_ | oval init nav until_ =>
      exact keeps_checkUntil env nbBlock until_ (w.act env nav)
  | surveyRectangle init nav | follow nav | xyz nav | home nav | set assignment => exact ⟨rfl, rfl⟩
  | call statement =>
      simp only [runSimple]
      split <;> simp [Keeps]
  | deroute block => exact ⟨rfl, hgoto block (by simp [printBody])⟩

theorem nextStage_eq_moveTo {k : Control} {w : World σ} (hno : k.no = w.navStage + 1)
    (hlt : k.no < 256) : w.nextStage env = (moveTo env k w).1 := by
  have hmod : (w.navStage + 1) % 256 = k.no := by omega
  simp only [World.nextStage, moveTo, hmod]

theorem settled_moveTo {k : Control} {w : World σ}
    (hk : ∃ place, At code k place ∧ place <:+ code) :
    Settled nbBlock code w.navBlock (moveTo env k w) :=
  ⟨rfl, rfl, hk⟩

/-- A stage without children ends where the structural semantics says. -/
theorem conclude_of_keeps {here next : Control} {w : World σ} {v : Verdict σ}
    (hv : Keeps nbBlock w v) (hstage : w.navStage = here.no) (hno : next.no = here.no + 1)
    (hlt : next.no < 256) (hhere : ∃ place, At code here place ∧ place <:+ code)
    (hnext : ∃ place, At code next place ∧ place <:+ code) :
    (conclude env here next v).1 = result env v ∧
      Settled nbBlock code w.navBlock (conclude env here next v) := by
  cases v with
  | moveOn w₁ =>
      refine ⟨(nextStage_eq_moveTo env ?_ hlt).symm, ?_⟩
      · rw [hno, hv.1, hstage]
      · rw [← hv.2]
        exact settled_moveTo env nbBlock hnext
  | remain w₁ => exact ⟨rfl, hv.1.trans hstage, hv.2, hhere⟩
  | leave w₁ => exact ⟨rfl, hv⟩

/-! ### Sequences of stages -/

/-- One call of the structural semantics, with the integers of the C code. -/
def machineCall (k : Control) : World σ → World σ × Option Control :=
  callControl env int8 (Structural.enter env) (World.nextBlock env nbBlock) k

/-- From a place of the code, the switch does what a structural call does. -/
def Simulates (code place : Code) (call : World σ → World σ × Option Control) : Prop :=
  ∀ w, Returns (sem env nbBlock) code place w (call w).1 ∧
    Settled nbBlock code w.navBlock (call w)

theorem stage_eq_visit {n : Nat} (hn : n < 256) (w : World σ) : w.stage n = visit n w := by
  have hmod : n % 256 = n := Nat.mod_eq_of_lt hn
  simp only [World.stage, visit, hmod]

/-- Passing over `Stage(n)` visits the stage `n`. -/
theorem returns_stage {n : Nat} (hn : n < 256) {place : Code} {w w' : World σ}
    (h : Returns (sem env nbBlock) code place (visit n w) w') :
    Returns (sem env nbBlock) code (stage n ++ place) w w' := by
  rw [← stage_eq_visit hn] at h
  exact (returns_skip rfl).mpr (returns_next rfl h)

theorem simulates_stage {n : Nat} (hn : n < 256) {place : Code}
    {call : World σ → World σ × Option Control} (h : Simulates env nbBlock code place call) :
    Simulates env nbBlock code (stage n ++ place) fun w => call (visit n w) := by
  intro w
  obtain ⟨hreturns, hsettled⟩ := h (visit n w)
  exact ⟨returns_stage env nbBlock hn hreturns, hsettled⟩

/-- The test of a loop, printed as the statement `st`. -/
theorem simulates_testLoop {no : Nat} {goOn : World σ → Bool × World σ} {inside : Control}
    {st : Statement} {e : Label} {place rest : Code} {next : World σ → World σ × Option Control}
    (hst : ∀ w, sem env nbBlock st w =
      if (goOn w).1 then .leave ((goOn w).2.nextStage env) else .goto e (goOn w).2)
    (hplace : ∀ w, (goOn w).2.navStage = w.navStage ∧ (goOn w).2.navBlock = w.navBlock)
    (hlt : no + 1 < 256) (hno : inside.no = no + 1)
    (hinside : ∃ place, At code inside place ∧ place <:+ code)
    (he : seek Item.labelOf e code = some rest) (hnext : Simulates env nbBlock code rest next) :
    Simulates env nbBlock code (stage no ++ .stmt st :: place) (testLoop env no goOn inside next) := by
  intro w
  obtain ⟨hstage, hblock⟩ := hplace (visit no w)
  rcases hgoOn : goOn (visit no w) with ⟨enters, w₁⟩
  rw [hgoOn] at hstage hblock
  cases enters with
  | true =>
      have hcall : testLoop env no goOn inside next w = moveTo env inside w₁ := by
        simp [testLoop, hgoOn]
      have hmove : w₁.nextStage env = (moveTo env inside w₁).1 := by
        refine nextStage_eq_moveTo env ?_ (by omega)
        rw [hstage]
        exact hno
      rw [hcall]
      refine ⟨returns_stage env nbBlock (by omega) (returns_leave ?_), ?_⟩
      · rw [hst, hgoOn, ← hmove]
        rfl
      · have hsettled := settled_moveTo env nbBlock (w := w₁) hinside
        rwa [hblock] at hsettled
  | false =>
      have hcall : testLoop env no goOn inside next w = next w₁ := by simp [testLoop, hgoOn]
      obtain ⟨hreturns, hsettled⟩ := hnext w₁
      rw [hcall]
      refine ⟨returns_stage env nbBlock (by omega) (returns_goto ?_ he hreturns), ?_⟩
      · rw [hst, hgoOn]
        rfl
      · rwa [hblock] at hsettled

theorem sem_whileTest (cond : Text) (e : Label) (w : World σ) :
    sem env nbBlock (.whileTest cond e) w =
      if (w.test env cond).1 then .leave ((w.test env cond).2.nextStage env)
      else .goto e (w.test env cond).2 := by
  cases hgoOn : (w.test env cond).1 <;> simp [sem, hgoOn]

theorem sem_forTest (v bound : String) (e : Label) (w : World σ) :
    sem env nbBlock (.forTest v bound e) w =
      if (countOn int8 v bound w).1 then .leave ((countOn int8 v bound w).2.nextStage env)
      else .goto e (countOn int8 v bound w).2 := by
  cases hover : (w.countUp int8 v bound).1 <;> simp [sem, countOn, hover]

/-- The last phase of a stage without children, at its place. -/
theorem simulates_last (hnb : nbBlock ≤ 256) (s : Simple)
    (hgoto : ∀ b, .stmt (.gotoBlock b) ∈ printBody s → b < nbBlock) {here next : Control} {no : Nat}
    (place : Code) (hhere : here.no = no) (hno : next.no = no + 1) (hlt : next.no < 256)
    (hathere : ∃ place, At code here place ∧ place <:+ code)
    (hatnext : ∃ place, At code next place ∧ place <:+ code) :
    Simulates env nbBlock code (stage no ++ (printBody s ++ place)) fun w =>
      conclude env here next (runSimple env (Structural.enter env) s (visit no w)) := by
  intro w
  have hkeeps := keeps_runSimple env nbBlock s hgoto (visit no w)
  obtain ⟨hresult, hsettled⟩ := conclude_of_keeps env nbBlock hkeeps hhere.symm (by omega) hlt
    hathere hatnext
  refine ⟨returns_stage env nbBlock (by omega) ?_, hsettled⟩
  rw [hresult]
  exact returns_printBody env nbBlock hnb s hgoto place (visit no w)

/-- From the test of a loop, once what follows the loop is simulated. -/
theorem simulates_loop (hcode : (code.filterMap Item.labelOf).Nodup) {st : Statement}
    {loop e : Label} {body : Stages Unit} {n x : Nat} {tail : Code} {again : Control}
    {goOn : World σ → Bool × World σ} {next : World σ → World σ × Option Control}
    (hst : ∀ w, sem env nbBlock st w =
      if (goOn w).1 then .leave ((goOn w).2.nextStage env) else .goto e (goOn w).2)
    (hplace : ∀ w, (goOn w).2.navStage = w.navStage ∧ (goOn w).2.navBlock = w.navBlock)
    (hloop : fromTest st loop e body n x tail <:+ code)
    (hagain : At code again (fromEnd loop e body n tail)) (hno : again.no = n + 1 + body.size)
    (hnext : Simulates env nbBlock code tail next) :
    Simulates env nbBlock code (fromTest st loop e body n x tail)
      (testLoop env n goOn (.run (body.indexStage (n + 1)) again) next) := by
  have hlt := hagain.no_lt
  have hbody : printStages body (n + 1) (x + 2) ++ fromEnd loop e body n tail <:+ code :=
    ((List.suffix_cons _ _).trans (List.suffix_append _ _)).trans hloop
  have htail := (suffix_fromTest st loop e body n x tail).trans hloop
  refine simulates_testLoop env nbBlock hst hplace (by omega) (no_run body hno)
    ⟨_, .run body (n + 1) (x + 2) hagain hno, hbody⟩ ?_ hnext
  exact seek_eq_some rfl hcode htail

/-- From the end of the body of a loop the control goes to its test. -/
theorem simulates_fromEnd {loop : Label} (e : Label) (body : Stages Unit) (n : Nat) (tail : Code)
    {target : Code}
    {call : World σ → World σ × Option Control} (hlt : n + body.size + 1 < 256)
    (hseek : seek Item.labelOf loop code = some target)
    (h : Simulates env nbBlock code target call) :
    Simulates env nbBlock code (fromEnd loop e body n tail)
      fun w => call (visit (n + body.size + 1) w) := by
  refine simulates_stage env nbBlock hlt ?_
  intro w
  exact ⟨returns_goto rfl hseek (h w).1, (h w).2⟩

section Places

variable (hnb : nbBlock ≤ 256) (hgoto : ∀ b, .stmt (.gotoBlock b) ∈ code → b < nbBlock)
  {k : Control} {place : Code} (hat : At code k place)

include hnb hgoto hat

/-- A call before a stage without children, or before its second phase. -/
theorem simulates_simple (s : Simple) (rest : Stages Unit) (n x : Nat)
    (hno : k.no = n + (Stages.simple () s rest).size)
    (hsuffix : printStages (.simple () s rest) n x ++ place <:+ code)
    (after : World σ → World σ × Option Control) :
    Simulates env nbBlock code (printStages (.simple () s rest) n x ++ place)
      (callStages env int8 (Structural.enter env) k after
        ((Stages.simple () s rest).indexStage n)) := by
  have hlt := hat.no_lt
  have hsize : (Stages.simple () s rest).size = s.phases + rest.size := rfl
  have hrest : printStages rest (n + s.phases) x ++ place <:+ code := by
    rw [printStages, List.append_assoc] at hsuffix
    exact (List.suffix_append _ _).trans hsuffix
  have hnorest := no_run rest (n := n + s.phases) (k := k) (by omega)
  cases hinit : s.init with
  | none =>
      have hphases : s.phases = 1 := by simp [Simple.phases, hinit]
      rw [hphases] at hrest hnorest
      have hbody : ∀ b, .stmt (.gotoBlock b) ∈ printBody s → b < nbBlock := by
        intro b hb
        refine hgoto b (hsuffix.subset ?_)
        simp [printStages, printSimple, hinit, hb]
      have hlast := simulates_last env nbBlock hnb s hbody (printStages rest (n + 1) x ++ place)
        (no_run (.simple () s rest) hno) hnorest (by omega)
        ⟨_, .run (.simple () s rest) n x hat hno, hsuffix⟩
        ⟨_, .run rest (n + 1) x hat (by omega), hrest⟩
      intro w
      have hcall := hlast w
      simp only [printStages, printSimple, hinit, Stages.indexStage, hphases, List.append_assoc,
        Nat.add_sub_cancel, callStages] at hcall ⊢
      exact hcall
  | some init =>
      have hphases : s.phases = 2 := by simp [Simple.phases, hinit]
      rw [hphases] at hrest
      have hcodeOf : printStages (.simple () s rest) n x ++ place = stage n ++
          (.stmt (.exec init) :: .stmt .nextStageAndBreak :: (stage (n + 1) ++
            (printBody s ++ (printStages rest (n + 2) x ++ place)))) := by
        simp [printStages, printSimple, hinit, hphases]
      have hsecond : stage (n + 1) ++ (printBody s ++ (printStages rest (n + 2) x ++ place)) <:+
          code := by
        rw [hcodeOf] at hsuffix
        refine List.IsSuffix.trans ?_ ((List.suffix_append _ _).trans hsuffix)
        exact (List.suffix_cons _ _).trans (List.suffix_cons _ _)
      intro w
      have hmove := nextStage_eq_moveTo env (w := (visit n w).act env init)
        (k := .second (.simple (n + 1) s (rest.indexStage (n + 2))) k) rfl
        (by simp only [Control.no]; omega)
      rw [hcodeOf]
      simp only [Stages.indexStage, hphases, callStages, hinit]
      refine ⟨returns_stage env nbBlock (by omega) (returns_next rfl (returns_leave ?_)), ?_⟩
      · exact congrArg Flow.leave hmove
      · exact settled_moveTo env nbBlock (w := (visit n w).act env init)
          ⟨_, .second s rest n x hat (by omega), hsecond⟩

theorem simulates_second (s : Simple) (rest : Stages Unit) (n x : Nat)
    (hno : k.no = n + 2 + rest.size)
    (hsuffix : stage (n + 1) ++ (printBody s ++ (printStages rest (n + 2) x ++ place)) <:+ code) :
    Simulates env nbBlock code
      (stage (n + 1) ++ (printBody s ++ (printStages rest (n + 2) x ++ place)))
      (machineCall env nbBlock (.second (.simple (n + 1) s (rest.indexStage (n + 2))) k)) := by
  have hlt := hat.no_lt
  have hrest : printStages rest (n + 2) x ++ place <:+ code :=
    ((List.suffix_append _ _).trans (List.suffix_append _ _)).trans hsuffix
  have hnorest := no_run rest hno
  have hbody : ∀ b, .stmt (.gotoBlock b) ∈ printBody s → b < nbBlock := by
    intro b hb
    refine hgoto b (hsuffix.subset ?_)
    simp [hb]
  exact simulates_last env nbBlock hnb s hbody _ rfl hnorest (by omega)
    ⟨_, .second s rest n x hat hno, hsuffix⟩ ⟨_, .run rest (n + 2) x hat hno, hrest⟩

end Places

section Code

variable (hpos : 0 < nbBlock) (hnb : nbBlock ≤ 256)
  (hgoto : ∀ b, .stmt (.gotoBlock b) ∈ code → b < nbBlock)
  (hcode : (code.filterMap Item.labelOf).Nodup) {k : Control} {place : Code}
  (hat : At code k place)

include hcode hat

theorem simulates_while (cond : Text) (body rest : Stages Unit) (n x : Nat)
    (hno : k.no = n + (Stages.loopWhile () cond body rest).size)
    (hloop : printStages (.loopWhile () cond body rest) n x ++ place <:+ code)
    {next : World σ → World σ × Option Control}
    (hnext : Simulates env nbBlock code
      (printStages rest (n + body.size + 2) (x + 2 + labels body) ++ place) next) :
    Simulates env nbBlock code
      (fromWhile cond body n x
        (printStages rest (n + body.size + 2) (x + 2 + labels body) ++ place))
      (testLoop env n (World.test env cond)
        (.run (body.indexStage (n + 1))
          (.again ((Stages.loopWhile () cond body rest).indexStage n) k)) next) := by
  have hsuffix := hloop
  rw [printStages_while] at hsuffix
  refine simulates_loop env nbBlock hcode (sem_whileTest env nbBlock cond _)
    (fun w => ⟨rfl, rfl⟩) ((List.suffix_cons _ _).trans hsuffix)
    (.againWhile cond body rest n x hat hno hloop) ?_ hnext
  simp only [Stages.indexStage, Control.no, loopEndNo, Stages.size_indexStage]
  omega

theorem simulates_for (var from_ toExpr : Text) (body rest : Stages Unit) (n x : Nat)
    (hno : k.no = n + (Stages.loopFor () var from_ toExpr body rest).size)
    (hloop : printStages (.loopFor () var from_ toExpr body rest) n x ++ place <:+ code)
    {next : World σ → World σ × Option Control}
    (hnext : Simulates env nbBlock code
      (printStages rest (n + body.size + 3) (x + 2 + labels body) ++ place) next) :
    Simulates env nbBlock code
      (fromFor var body (n + 1) x
        (printStages rest (n + body.size + 3) (x + 2 + labels body) ++ place))
      (testLoop env (n + 1) (countOn int8 (cVarOfIdent var) (toVar var))
        (.run (body.indexStage (n + 2))
          (.again ((Stages.loopFor () var from_ toExpr body rest).indexStage n) k)) next) := by
  have hsuffix := hloop
  rw [printStages_for] at hsuffix
  refine simulates_loop env nbBlock hcode (sem_forTest env nbBlock _ _ _)
    (fun w => ⟨rfl, rfl⟩) ((List.suffix_cons _ _).trans (suffix_fromFor hsuffix))
    (.againFor var from_ toExpr body rest n x hat hno hloop) ?_ hnext
  simp only [Stages.indexStage, Control.no, loopEndNo, Stages.size_indexStage]
  omega

include hnb hgoto

/-- A call before a sequence of stages, once what follows the sequence is simulated. -/
theorem simulates_stages (hk : Simulates env nbBlock code place (machineCall env nbBlock k))
    (t : Stages Unit) (n x : Nat) (hno : k.no = n + t.size)
    (hsuffix : printStages t n x ++ place <:+ code) :
    Simulates env nbBlock code (printStages t n x ++ place)
      (callStages env int8 (Structural.enter env) k (machineCall env nbBlock k)
        (t.indexStage n)) := by
  induction t generalizing n x with
  | done => exact hk
  | simple u s rest ih => exact simulates_simple env nbBlock hnb hgoto hat s rest n x hno hsuffix _
  | loopWhile u cond body rest ihBody ihRest =>
      have hloop := hsuffix
      rw [printStages_while] at hsuffix ⊢
      have hnorest : k.no = n + body.size + 2 + rest.size := by
        rw [hno, Stages.size]
        omega
      have hrest := ihRest (n + body.size + 2) (x + 2 + labels body) hnorest
        (((List.suffix_cons _ _).trans (suffix_fromTest ..)).trans
          ((List.suffix_cons _ _).trans hsuffix))
      have htest := simulates_while env nbBlock hcode hat cond body rest n x hno hloop hrest
      intro w
      exact ⟨(returns_skip rfl).mpr (htest w).1, (htest w).2⟩
  | loopFor u var from_ toExpr body rest ihBody ihRest =>
      have hlt := hat.no_lt
      have hloop := hsuffix
      rw [printStages_for] at hsuffix ⊢
      have hnorest : k.no = n + body.size + 3 + rest.size := by
        rw [hno, Stages.size]
        omega
      have hfor := (List.suffix_cons _ _).trans (suffix_fromFor hsuffix)
      have hrest := ihRest (n + body.size + 3) (x + 2 + labels body) hnorest
        (((List.suffix_cons _ _).trans (suffix_fromTest ..)).trans hfor)
      have htest := simulates_for env nbBlock hcode hat var from_ toExpr body rest n x hno hloop hrest
      intro w
      have hinit := htest ((visit n w).initCounter env int8 (cVarOfIdent var) (toVar var) from_ toExpr)
      refine ⟨(returns_skip rfl).mpr ((returns_skip rfl).mpr ?_), hinit.2⟩
      refine returns_stage env nbBlock (by omega) (returns_next rfl ?_)
      exact (returns_skip rfl).mpr hinit.1

include hpos

/-- From the place of every control, the switch does what the structural
semantics does from that control. -/
theorem simulates_control (hsuffix : place <:+ code) :
    Simulates env nbBlock code place (machineCall env nbBlock k) := by
  induction hat with
  | exit no hlt =>
      intro w
      refine ⟨?_, rfl, navInitBlock_navBlock_lt env nbBlock hpos _⟩
      refine (returns_skip rfl).mpr (returns_stage env nbBlock hlt ?_)
      exact returns_next rfl (returns_leave rfl)
  | run t n x hk hno ih =>
      have hplace := ih ((List.suffix_append _ _).trans hsuffix)
      exact simulates_stages env nbBlock hnb hgoto hcode hk hplace t n x hno hsuffix
  | second s rest n x hk hno ih =>
      exact simulates_second env nbBlock hnb hgoto hk s rest n x hno hsuffix
  | @againWhile cond body rest n x k place hk hno hloop ih =>
      have hlt := hk.no_lt
      have hwhile := hloop
      rw [printStages_while] at hwhile
      have htail := (suffix_fromTest ..).trans ((List.suffix_cons _ _).trans hwhile)
      have hrest := (List.suffix_cons _ _).trans htail
      have hplace := ih ((List.suffix_append _ _).trans hrest)
      have hnorest : k.no = n + body.size + 2 + rest.size := by
        rw [hno, Stages.size]
        omega
      have hnext := simulates_stages env nbBlock hnb hgoto hcode hk hplace rest (n + body.size + 2)
        (x + 2 + labels body) hnorest hrest
      have htest := simulates_while env nbBlock hcode hk cond body rest n x hno hloop hnext
      have hend := simulates_fromEnd env nbBlock ⟨"endwhile", x + 2⟩ body n
        (printStages rest (n + body.size + 2) (x + 2 + labels body) ++ place) (by omega)
        (seek_eq_some rfl hcode hwhile) htest
      intro w
      simpa [machineCall, callControl, Stages.indexStage, loopEndNo] using hend w
  | @againFor var from_ toExpr body rest n x k place hk hno hloop ih =>
      have hlt := hk.no_lt
      have hfor := hloop
      rw [printStages_for] at hfor
      have hlabel := suffix_fromFor hfor
      have htail := (suffix_fromTest ..).trans ((List.suffix_cons _ _).trans hlabel)
      have hrest := (List.suffix_cons _ _).trans htail
      have hplace := ih ((List.suffix_append _ _).trans hrest)
      have hnorest : k.no = n + body.size + 3 + rest.size := by
        rw [hno, Stages.size]
        omega
      have hnext := simulates_stages env nbBlock hnb hgoto hcode hk hplace rest (n + body.size + 3)
        (x + 2 + labels body) hnorest hrest
      have htest := simulates_for env nbBlock hcode hk var from_ toExpr body rest n x hno hloop hnext
      have hend := simulates_fromEnd env nbBlock ⟨"endfor", x + 2⟩ body (n + 1)
        (printStages rest (n + body.size + 3) (x + 2 + labels body) ++ place) (by omega)
        (seek_eq_some rfl hcode hlabel) htest
      intro w
      simpa [machineCall, callControl, Stages.indexStage, loopEndNo] using hend w

end Code

end Simulation

end Paparazzi.FlightPlan.Compilation
