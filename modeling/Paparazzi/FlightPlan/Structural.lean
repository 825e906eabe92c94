import Paparazzi.FlightPlan.CommonFlightPlan

/-!
The structural semantics of a flight plan: what the tree of its stages means,
without labels, jumps or the switch.  A call of the plan runs the stage that the
control stands at; the numbers it visits are those of `index_stage`.
-/

namespace Paparazzi.FlightPlan.Structural

open Paparazzi.FlightPlan.CommonFlightPlan
open Paparazzi.FlightPlan.Stage

/-- Where a block stands between two calls. -/
inductive Control where
  /-- Before the end of the block. -/
  | exit (no : Nat)
  /-- Before the stages `t`. -/
  | run (t : Stages Nat) (k : Control)
  /-- Before the second phase of the first stage of `t`. -/
  | second (t : Stages Nat) (k : Control)
  /-- After the body of the loop that `t` starts with. -/
  | again (t : Stages Nat) (k : Control)
  deriving DecidableEq, Repr

/-- The number of the stage that a sequence runs first, `after` where it is empty. -/
def firstNo (after : Nat) : Stages Nat → Nat
  | .done => after
  | .simple no x _ => no + 1 - x.phases
  | .loopWhile no _ _ _ => no
  | .loopFor no _ _ _ _ _ => no - 1

/-- The hidden number of the end of a loop. -/
def loopEndNo : Stages Nat → Nat
  | .loopWhile no _ body _ => no + body.size + 1
  | .loopFor no _ _ _ body _ => no + body.size + 1
  | .simple no _ _ => no
  | .done => 0

/-- The number of the stage that the next call runs first. -/
def Control.no : Control → Nat
  | .exit no => no
  | .run t k => firstNo k.no t
  | .second (.simple no _ _) _ => no
  | .second t k => firstNo k.no t
  | .again t _ => loopEndNo t

section Semantics

variable {σ : Type} (env : Env σ)

/-- What one call of a stage without children decides. -/
inductive Verdict (σ : Type) where
  | moveOn (w : World σ)
  | remain (w : World σ)
  | leave (w : World σ)

/-- The attribute `until`, looked at after the navigation of the stage. -/
def checkUntil : Option Text → World σ → Verdict σ
  | none, w => .remain w
  | some cond, w =>
      let (met, w) := w.test env cond
      if met then .moveOn w else .remain w

/-- A stage that first looks at its condition, and navigates while it fails. -/
def navigateUnless (cond nav : Text) (w : World σ) : Verdict σ :=
  let (met, w) := w.test env cond
  if met then .moveOn w else .remain (w.act env nav)

/-- The stage `go`: towards the waypoint, until it is approached or `until` holds. -/
def navigateTo (approaching wp nav : Text) (until_ : Option Text) (w : World σ) : Verdict σ :=
  let (met, w) := w.test env approaching
  if met then .moveOn (w.from_ env wp) else checkUntil env until_ (w.act env nav)

/-- The last phase of a stage without children. -/
def runSimple (enterBlock : Nat → World σ → World σ) : Simple → World σ → Verdict σ
  | .heading cond nav, w => navigateUnless env cond nav w
  | .attitude none nav, w => .remain (w.act env nav)
  | .attitude (some cond) nav, w => navigateUnless env cond nav w
  | .go none approaching wp nav until_, w => navigateTo env approaching wp nav until_ w
  | .go (some assignments) approaching wp nav until_, w =>
      navigateTo env approaching wp nav until_ (w.act env assignments)
  | .stay nav until_, w => checkUntil env until_ (w.act env nav)
  | .circle nav until_, w => checkUntil env until_ (w.act env nav)
  | .eight _ nav until_, w => checkUntil env until_ (w.act env nav)
  | .oval _ nav until_, w => checkUntil env until_ (w.act env nav)
  | .surveyRectangle _ nav, w => .remain (w.act env nav)
  | .follow nav, w => .remain (w.act env nav)
  | .xyz nav, w => .remain (w.act env nav)
  | .home nav, w => .remain (w.act env nav)
  | .set assignment, w => .moveOn (w.act env assignment)
  | .call statement, w =>
      let (goOn, w) := w.test env statement
      if goOn then .remain w else .moveOn w
  | .deroute block, w => .leave (enterBlock block w)

/-- Visiting the stage with number `no`. -/
def visit (no : Nat) (w : World σ) : World σ :=
  { w with navStage := no, visits := w.visits ++ [no] }

/-- The end of a call that moves on to `k`. -/
def moveTo (k : Control) (w : World σ) : World σ × Option Control :=
  (World.initStage env { w with navStage := k.no }, some k)

/-- The end of a call in the last phase of a stage; `here` is its control. -/
def conclude (here next : Control) : Verdict σ → World σ × Option Control
  | .moveOn w => moveTo env next w
  | .remain w => (w, some here)
  | .leave w => (w, none)

variable (narrow : Int → Int) (enterBlock : Nat → World σ → World σ)

/-- The test of a loop: into the body, or on to `next`. -/
def testLoop (no : Nat) (goOn : World σ → Bool × World σ) (inside : Control)
    (next : World σ → World σ × Option Control) (w : World σ) : World σ × Option Control :=
  let (enters, w) := goOn (visit no w)
  if enters then moveTo env inside w else next w

/-- A `for` counts, and goes on unless the counter passed the bound. -/
def countOn (v toVar : String) (w : World σ) : Bool × World σ :=
  let (passed, w) := w.countUp narrow v toVar
  (!passed, w)

/-- One call before the stages `t`; `after` is the call that starts behind them. -/
def callStages (k : Control) (after : World σ → World σ × Option Control) :
    Stages Nat → World σ → World σ × Option Control
  | .done, w => after w
  | .simple no x rest, w =>
      match x.init with
      | none =>
          let here := Control.run (.simple no x rest) k
          conclude env here (.run rest k) (runSimple env enterBlock x (visit no w))
      | some init =>
          moveTo env (.second (.simple no x rest) k) ((visit (no - 1) w).act env init)
  | .loopWhile no cond body rest, w =>
      let inside := Control.run body (.again (.loopWhile no cond body rest) k)
      testLoop env no (World.test env cond) inside (callStages k after rest) w
  | .loopFor no var from_ toExpr body rest, w =>
      let inside := Control.run body (.again (.loopFor no var from_ toExpr body rest) k)
      let w := (visit (no - 1) w).initCounter env narrow (cVarOfIdent var) (toVar var)
        from_ toExpr
      testLoop env no (countOn narrow (cVarOfIdent var) (toVar var)) inside
        (callStages k after rest) w

/-- One call from a control; no control is left where the call leaves the block. -/
def callControl (nextBlock : World σ → World σ) : Control → World σ → World σ × Option Control
  | .exit no, w => (nextBlock (visit no w), none)
  | .run t k, w => callStages env narrow enterBlock k (callControl nextBlock k) t w
  | .second (.simple no x rest) k, w =>
      conclude env (.second (.simple no x rest) k) (.run rest k)
        (runSimple env enterBlock x (visit no w))
  | .second t k, w => callStages env narrow enterBlock k (callControl nextBlock k) t w
  | .again (.loopWhile no cond body rest) k, w =>
      let loop := Stages.loopWhile no cond body rest
      testLoop env no (World.test env cond) (.run body (.again loop k))
        (callStages env narrow enterBlock k (callControl nextBlock k) rest)
        (visit (loopEndNo loop) w)
  | .again (.loopFor no var from_ toExpr body rest) k, w =>
      let loop := Stages.loopFor no var from_ toExpr body rest
      testLoop env no (countOn narrow (cVarOfIdent var) (toVar var)) (.run body (.again loop k))
        (callStages env narrow enterBlock k (callControl nextBlock k) rest)
        (visit (loopEndNo loop) w)
  | .again t k, w => callStages env narrow enterBlock k (callControl nextBlock k) t w

/-! ### Plans -/

/-- The control at the beginning of a block. -/
def start (b : Block) : Control := .run (b.stages.indexStage 0) (.exit b.stages.size)

/-- The beginning of the block that the plan stands in. -/
def startOf (plan : Plan) (w : World σ) : Control :=
  (plan.blocks[w.navBlock]?).elim (.exit 0) start

/-- Entering a block from its beginning. -/
def enter (b : Nat) (w : World σ) : World σ :=
  World.initStage env (({ w with navBlock := b, navStage := 0 } : World σ).act env
    "block_time = 0;")

/-- After the last stage of a block comes the next block; the last one starts again. -/
def exitBlock (plan : Plan) (w : World σ) : World σ :=
  enter env (min (w.navBlock + 1) (plan.nbBlock - 1)) w

/-- One call in the block `b`: its exceptions first, then its stages. -/
def callBlock (plan : Plan) (b : Block) (w : World σ) (k : Control) : World σ × Control :=
  let (raised, w) := checkExceptions env (enter env) b.exceptions (w.act env b.preCall)
  if raised then (w, startOf plan w)
  else
    let (w, k') := callControl env narrow (enter env) (exitBlock env plan) k w
    let w := w.act env b.postCall
    (w, k'.getD (startOf plan w))

/-- One call of the plan: the global exceptions, then the current block. -/
def callPlan (plan : Plan) (w : World σ) (k : Control) : World σ × Control :=
  let (raised, w) := checkExceptions env (enter env) plan.globalExceptions w
  if raised then (w, startOf plan w)
  else
    match plan.blocks[w.navBlock]? with
    | none => (w, k)
    | some b => callBlock env narrow plan b w k

/-- A run of calls, one after each change of the state by the rest of the autopilot. -/
def runPlan (plan : Plan) : List (σ → σ) → World σ → Control → World σ × Control
  | [], w, k => (w, k)
  | change :: changes, w, k =>
      let w := { w with memory := { w.memory with state := change w.memory.state } }
      let (w, k) := callPlan env narrow plan w k
      runPlan plan changes w k

end Semantics

end Paparazzi.FlightPlan.Structural
