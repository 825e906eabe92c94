import Paparazzi.FlightPlan.CommonFlightPlan
import Paparazzi.Library.SwitchCode

/-!
`print_stage` and `print_block`: the C code of a flight plan, with the meaning of
its statements, and `auto_nav`, which executes it.
-/

namespace Paparazzi.FlightPlan.Printer

open Paparazzi.FlightPlan.CommonFlightPlan
open Paparazzi.FlightPlan.Stage
open Paparazzi.Library.SwitchCode

/-- A label of `gen_label`: `name_number`. -/
structure Label where
  name : String
  number : Nat
  deriving DecidableEq, Repr

/-- The statements that `print_stage` prints. -/
inductive Statement where
  /-- `nav_stage=s;` -/
  | stage (s : Nat)
  | exec (text : Text)
  /-- `v = from - 1; to_var = to;` -/
  | initCounter (v toVar : String) (from_ toExpr : Text)
  /-- `if (++v > to_var) Goto(e) else NextStageAndBreak();` -/
  | forTest (v toVar : String) (e : Label)
  /-- `if (! (cond)) Goto(e) else NextStageAndBreak();` -/
  | whileTest (cond : Text) (e : Label)
  | goto (l : Label)
  | nextStageAndBreak
  /-- `if (cond) NextStageAndBreak();` -/
  | nextIf (cond : Text)
  /-- `if (! (cond)) NextStageAndBreak();` -/
  | nextUnless (cond : Text)
  /-- `if (cond) NextStageAndBreak() else { nav }` -/
  | nextElse (cond nav : Text)
  /-- `if (cond) NextStageAndBreakFrom(wp) else { nav }` -/
  | nextFromElse (cond wp nav : Text)
  | gotoBlock (b : Nat)
  | nextBlock
  | brk
  deriving DecidableEq, Repr

abbrev Code := List (Item Label Statement)

/-! ### Printing -/

/-- `Stage(n)`. -/
def stage (n : Nat) : Code := [.case n, .stmt (.stage n)]

/-- `if (until) NextStageAndBreak();`, where the stage has the attribute. -/
def untilCode : Option Text → Code
  | none => []
  | some cond => [.stmt (.nextIf cond)]

/-- What is printed after the last `Stage` of a stage without children. -/
def printBody : Simple → Code
  | .heading cond nav => [.stmt (.nextElse cond nav), .stmt .brk]
  | .attitude none nav => [.stmt (.exec nav), .stmt .brk]
  | .attitude (some cond) nav => [.stmt (.nextElse cond nav), .stmt .brk]
  | .go place approaching wp nav until_ =>
      (place.toList.map fun assignments => .stmt (.exec assignments)) ++
        [.stmt (.nextFromElse approaching wp nav)] ++ untilCode until_ ++ [.stmt .brk]
  | .stay nav until_ => [.stmt (.exec nav)] ++ untilCode until_ ++ [.stmt .brk]
  | .circle nav until_ => [.stmt (.exec nav)] ++ untilCode until_ ++ [.stmt .brk]
  | .eight _ nav until_ => [.stmt (.exec nav)] ++ untilCode until_ ++ [.stmt .brk]
  | .oval _ nav until_ => [.stmt (.exec nav)] ++ untilCode until_ ++ [.stmt .brk]
  | .surveyRectangle _ nav => [.stmt (.exec nav), .stmt .brk]
  | .follow nav => [.stmt (.exec nav), .stmt .brk]
  | .xyz nav => [.stmt (.exec nav), .stmt .brk]
  | .home nav => [.stmt (.exec nav), .stmt .brk]
  | .set assignment => [.stmt (.exec assignment), .stmt .nextStageAndBreak, .stmt .brk]
  | .call statement => [.stmt (.nextUnless statement), .stmt .brk]
  | .deroute block => [.stmt (.gotoBlock block), .stmt .brk]

/-- A stage without children; `n` is its first number. -/
def printSimple (x : Simple) (n : Nat) : Code :=
  match x.init with
  | none => stage n ++ printBody x
  | some init =>
      stage n ++ [.stmt (.exec init), .stmt .nextStageAndBreak] ++ stage (n + 1) ++ printBody x

/-- The labels that `gen_label` makes for a sequence. -/
def labels {α : Type} : Stages α → Nat
  | .done => 0
  | .simple _ _ rest => labels rest
  | .loopWhile _ _ body rest => 2 + labels body + labels rest
  | .loopFor _ _ _ _ body rest => 2 + labels body + labels rest

/-- `print_stage` over a sequence: `n` is the next stage number, one more than
the counter `stage`, and `x` the counter of `gen_label`. -/
def printStages {α : Type} : Stages α → Nat → Nat → Code
  | .done, _, _ => []
  | .simple _ s rest, n, x => printSimple s n ++ printStages rest (n + s.phases) x
  | .loopWhile _ cond body rest, n, x =>
      let w : Label := ⟨"while", x + 1⟩
      let e : Label := ⟨"endwhile", x + 2⟩
      [.label w] ++ stage n ++ [.stmt (.whileTest cond e)] ++
        printStages body (n + 1) (x + 2) ++
        stage (n + body.size + 1) ++ [.stmt (.goto w), .label e] ++
        printStages rest (n + body.size + 2) (x + 2 + labels body)
  | .loopFor _ var from_ toExpr body rest, n, x =>
      let f : Label := ⟨"for", x + 1⟩
      let e : Label := ⟨"endfor", x + 2⟩
      let v := cVarOfIdent var
      [.decl v, .decl (toVar var)] ++
        stage n ++ [.stmt (.initCounter v (toVar var) from_ toExpr)] ++
        [.label f] ++ stage (n + 1) ++ [.stmt (.forTest v (toVar var) e)] ++
        printStages body (n + 2) (x + 2) ++
        stage (n + body.size + 2) ++ [.stmt (.goto f), .label e] ++
        printStages rest (n + body.size + 3) (x + 2 + labels body)

theorem printStages_simple {α : Type} (no : α) (s : Simple) (rest : Stages α) (n x : Nat) :
    printStages (.simple no s rest) n x =
      printSimple s n ++ printStages rest (n + s.phases) x := by
  rw [printStages]

/-- The stage `exit_block`. -/
def printExitBlock (n : Nat) : Code := [.default] ++ stage n ++ [.stmt .nextBlock, .stmt .brk]

/-- The code of `switch (nav_stage)` in a block. -/
def printSwitch (b : Block) (x : Nat) : Code :=
  printStages b.stages 0 x ++ printExitBlock b.stages.size

/-- `print_blocks`, where `x` is the counter of `gen_label`. -/
def printBlocks : List Block → Nat → List Code
  | [], _ => []
  | b :: bs, x => printSwitch b x :: printBlocks bs (x + labels b.stages)

/-! ### Execution -/

section Execution

variable {σ : Type} (env : Env σ) (nbBlock : Nat)

/-- The meaning of a statement. -/
def sem : Statement → World σ → Flow Label (World σ)
  | .stage s, w => .next (w.stage s)
  | .exec text, w => .next (w.act env text)
  | .initCounter v toVar from_ toExpr, w => .next (w.initCounter env int8 v toVar from_ toExpr)
  | .forTest v toVar e, w =>
      let (passed, w) := w.countUp int8 v toVar
      if passed then .goto e w else .leave (w.nextStage env)
  | .whileTest cond e, w =>
      let (goOn, w) := w.test env cond
      if !goOn then .goto e w else .leave (w.nextStage env)
  | .goto l, w => .goto l w
  | .nextStageAndBreak, w => .leave (w.nextStage env)
  | .nextIf cond, w =>
      let (met, w) := w.test env cond
      if met then .leave (w.nextStage env) else .next w
  | .nextUnless cond, w =>
      let (met, w) := w.test env cond
      if !met then .leave (w.nextStage env) else .next w
  | .nextElse cond nav, w =>
      let (met, w) := w.test env cond
      if met then .leave (w.nextStage env) else .next (w.act env nav)
  | .nextFromElse cond wp nav, w =>
      let (met, w) := w.test env cond
      if met then .leave ((w.from_ env wp).nextStage env) else .next (w.act env nav)
  | .gotoBlock b, w => .next (w.gotoBlock env nbBlock b)
  | .nextBlock, w => .next (w.nextBlock env nbBlock)
  | .brk, w => .leave w

/-- The jump of an exception. -/
def jump (b : Nat) (w : World σ) : World σ := w.gotoBlock env nbBlock b

/-- The case of one block in `switch (nav_block)`, in at most `fuel` items. -/
def runBlock (b : Block) (code : Code) (fuel : Nat) (w : World σ) : Option (World σ) :=
  let (raised, w) := checkExceptions env (jump env nbBlock) b.exceptions (w.act env b.preCall)
  if raised then some w
  else (exec (sem env nbBlock) code fuel (enter code w.navStage) w).map (World.act env b.postCall)

/-- One call of `auto_nav`. -/
def autoNav (plan : Plan) (fuel : Nat) (w : World σ) : Option (World σ) :=
  let (raised, w) := checkExceptions env (jump env plan.nbBlock) plan.globalExceptions w
  if raised then some w
  else
    match plan.blocks[w.navBlock]?, (printBlocks plan.blocks 0)[w.navBlock]? with
    | some b, some code => runBlock env plan.nbBlock b code fuel w
    | _, _ => some w

/-- The calls of `auto_nav`, one after each change of the state by the rest of
the autopilot. -/
def autoNavRun (plan : Plan) (fuel : Nat) : List (σ → σ) → World σ → Option (World σ)
  | [], w => some w
  | change :: changes, w =>
      (autoNav env plan fuel
        { w with memory := { w.memory with state := change w.memory.state } }).bind
        (autoNavRun plan fuel changes)

end Execution

end Paparazzi.FlightPlan.Printer
