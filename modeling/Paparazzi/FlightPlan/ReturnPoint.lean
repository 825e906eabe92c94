import Paparazzi.FlightPlan.Printer

/-!
The return point of a flight plan: blocks with the stage `return`, the four ways into a block, and
what `last_block` and `last_stage` keep of them.
-/

namespace Paparazzi.FlightPlan.ReturnPoint

open Paparazzi.FlightPlan.CommonFlightPlan
open Paparazzi.FlightPlan.Printer (Label printSimple stage jump printExitBlock)
open Paparazzi.FlightPlan.Stage (Text Simple)
open Paparazzi.Library.SwitchCode

/-! ### Stages with returns -/

inductive Stages where
  | done
  | simple (x : Simple) (rest : Stages)
  | return_ (rest : Stages)
  | loopWhile (cond : Text) (body rest : Stages)
  | loopFor (var from_ toExpr : Text) (body rest : Stages)
  deriving DecidableEq, Repr

namespace Stages

def size : Stages → Nat
  | done => 0
  | simple x rest => x.phases + rest.size
  | return_ rest => 1 + rest.size
  | loopWhile _ body rest => body.size + 2 + rest.size
  | loopFor _ _ _ body rest => body.size + 3 + rest.size

/-- The labels that `gen_label` makes. -/
def labels : Stages → Nat
  | done => 0
  | simple _ rest => rest.labels
  | return_ rest => rest.labels
  | loopWhile _ body rest => 2 + body.labels + rest.labels
  | loopFor _ _ _ body rest => 2 + body.labels + rest.labels

def hasReturn : Stages → Bool
  | done => false
  | simple _ rest => rest.hasReturn
  | return_ _ => true
  | loopWhile _ body rest => body.hasReturn || rest.hasReturn
  | loopFor _ _ _ body rest => body.hasReturn || rest.hasReturn

end Stages

/-! ### Printing -/

inductive Statement where
  | base (s : Printer.Statement)
  /-- `Return()`, as the macro with the semicolons that the generator leaves out. -/
  | return_
  deriving DecidableEq, Repr

abbrev Code := List (Item Label Statement)

def liftItem : Item Label Printer.Statement → Item Label Statement
  | .label l => .label l
  | .case n => .case n
  | .default => .default
  | .decl v => .decl v
  | .stmt s => .stmt (.base s)

def lift (code : Printer.Code) : Code := code.map liftItem

/-- `print_stage` over a sequence; `n` is the next stage number and `x` the counter of
`gen_label`. -/
def printStages : Stages → Nat → Nat → Code
  | .done, _, _ => []
  | .simple s rest, n, x => lift (printSimple s n) ++ printStages rest (n + s.phases) x
  | .return_ rest, n, x =>
      lift (stage n) ++ [.stmt .return_, .stmt (.base .brk)] ++ printStages rest (n + 1) x
  | .loopWhile cond body rest, n, x =>
      let w : Label := ⟨"while", x + 1⟩
      let e : Label := ⟨"endwhile", x + 2⟩
      lift ([.label w] ++ stage n ++ [.stmt (.whileTest cond e)]) ++
        printStages body (n + 1) (x + 2) ++
        lift (stage (n + body.size + 1) ++ [.stmt (.goto w), .label e]) ++
        printStages rest (n + body.size + 2) (x + 2 + body.labels)
  | .loopFor var from_ toExpr body rest, n, x =>
      let f : Label := ⟨"for", x + 1⟩
      let e : Label := ⟨"endfor", x + 2⟩
      let v := cVarOfIdent var
      lift ([.decl v, .decl (toVar var)] ++
        stage n ++ [.stmt (.initCounter v (toVar var) from_ toExpr)] ++
        [.label f] ++ stage (n + 1) ++ [.stmt (.forTest v (toVar var) e)]) ++
        printStages body (n + 2) (x + 2) ++
        lift (stage (n + body.size + 2) ++ [.stmt (.goto f), .label e]) ++
        printStages rest (n + body.size + 3) (x + 2 + body.labels)

structure Block where
  preCall : Text
  postCall : Text
  exceptions : List Exception
  stages : Stages
  deriving DecidableEq, Repr

def homeBlock : Block where
  preCall := ""
  postCall := ""
  exceptions := []
  stages := .simple (.home "nav_home();") .done

/-- The code of `switch (nav_stage)` in a block. -/
def printSwitch (b : Block) (x : Nat) : Code :=
  printStages b.stages 0 x ++ lift (printExitBlock b.stages.size)

/-- `print_blocks`, where `x` is the counter of `gen_label`. -/
def printBlocks : List Block → Nat → List Code
  | [], _ => []
  | b :: bs, x => printSwitch b x :: printBlocks bs (x + b.stages.labels)

/-- The blocks of a plan and its exceptions; `get_index_block` has found the blocks that these
name. -/
structure Plan where
  globalExceptions : List Exception
  userBlocks : List Block
  global_resolved : ∀ x ∈ globalExceptions, x.deroute < userBlocks.length + 1
  exceptions_resolved : ∀ b ∈ userBlocks, ∀ x ∈ b.exceptions, x.deroute < userBlocks.length + 1

namespace Plan

def blocks (plan : Plan) : List Block := plan.userBlocks ++ [homeBlock]

def nbBlock (plan : Plan) : Nat := plan.userBlocks.length + 1

end Plan

/-! ### The state -/

/-- A block and a stage of it. -/
structure Place where
  block : Nat
  stage : Nat
  deriving DecidableEq, Repr

/-- How the current block was entered, and the place that was active just before. -/
inductive Entry where
  | start
  /-- By `nav_goto_block`. -/
  | navGotoBlock (before : Place)
  /-- By an exception, a deroute or the end of the previous block. -/
  | other (before : Place)
  | resumed
  deriving DecidableEq, Repr

def Entry.before : Entry → Option Place
  | .start => none
  | .navGotoBlock p => some p
  | .other p => some p
  | .resumed => none

/-- `entry` and `returns` are a record: the places that `Return` resumed, each with the entry of the
block that it left. -/
structure State where
  world : World Unit
  lastBlock : Nat
  lastStage : Nat
  entry : Entry
  returns : List (Place × Entry)

namespace State

def place (st : State) : Place := ⟨st.world.navBlock, st.world.navStage⟩

def last (st : State) : Place := ⟨st.lastBlock, st.lastStage⟩

/-- The world after a statement of the plan; a change of the block is an entry. -/
def moved (st : State) (w : World Unit) : State :=
  { st with
    world := w
    entry := if w.navBlock = st.world.navBlock then st.entry else .other st.place }

/-- `Return()` -/
def return_ (st : State) : State :=
  { st with
    world := { st.world with navBlock := st.lastBlock, navStage := st.lastStage }
    entry := .resumed
    returns := st.returns ++ [(st.last, st.entry)] }

end State

/-- The truth values of the conditions and the values of the expressions in one call. -/
structure Inputs where
  truth : Text → Bool
  value : Text → Int

def Inputs.env (inp : Inputs) : Env Unit where
  test cond w := (inp.truth cond, w.memory)
  value e w := (inp.value e, w.memory)
  act _ w := w.memory

def liftFlow (st : State) : Flow Label (World Unit) → Flow Label State
  | .next w => .next (st.moved w)
  | .goto l w => .goto l (st.moved w)
  | .leave w => .leave (st.moved w)

section

variable (inp : Inputs) (nbBlock : Nat)

def sem : Statement → State → Flow Label State
  | .base s, st => liftFlow st (Printer.sem inp.env nbBlock s st.world)
  | .return_, st => .next st.return_

def checkExceptions (exceptions : List Exception) (st : State) : Bool × State :=
  let (raised, w) :=
    CommonFlightPlan.checkExceptions inp.env (jump inp.env nbBlock) exceptions st.world
  (raised, st.moved w)

def act (text : Text) (st : State) : State := st.moved (st.world.act inp.env text)

/-- The case of one block in `switch (nav_block)`, in at most `fuel` items. -/
def runBlock (b : Block) (code : Code) (fuel : Nat) (st : State) : Option State :=
  let (raised, st) := checkExceptions inp nbBlock b.exceptions (act inp b.preCall st)
  if raised then some st
  else
    (exec (sem inp nbBlock) code fuel (enter code st.world.navStage) st).map (act inp b.postCall)

/-- One call of `auto_nav`. -/
def autoNav (plan : Plan) (fuel : Nat) (st : State) : Option State :=
  let (raised, st) := checkExceptions inp plan.nbBlock plan.globalExceptions st
  if raised then some st
  else
    match plan.blocks[st.world.navBlock]?, (printBlocks plan.blocks 0)[st.world.navBlock]? with
    | some b, some code => runBlock inp plan.nbBlock b code fuel st
    | _, _ => some st

end

def navGotoBlock (plan : Plan) (b : UInt8) (st : State) : State :=
  let inp : Inputs := ⟨fun _ => false, fun _ => 0⟩
  let st' :=
    if b.toNat ≠ st.world.navBlock then
      { st with
        lastBlock := st.world.navBlock
        lastStage := st.world.navStage
        entry := .navGotoBlock st.place }
    else st
  { st' with world := st.world.gotoBlock inp.env plan.nbBlock b.toNat }

/-! ### Runs -/

inductive Event where
  | autoNav (inp : Inputs)
  | navGotoBlock (b : UInt8)

/-- A call that returns. -/
inductive Step (plan : Plan) : State → Event → State → Prop where
  | autoNav {st st' : State} {inp : Inputs} (fuel : Nat)
      (h : ReturnPoint.autoNav inp plan fuel st = some st') : Step plan st (.autoNav inp) st'
  | navGotoBlock {st : State} (b : UInt8) :
      Step plan st (.navGotoBlock b) (ReturnPoint.navGotoBlock plan b st)

/-- The states of a run, each with the call made in it. -/
inductive Run (plan : Plan) : State → List (State × Event) → State → Prop where
  | nil (st : State) : Run plan st [] st
  | cons {st st₁ st' : State} {e : Event} {steps : List (State × Event)} (h : Step plan st e st₁)
      (hrest : Run plan st₁ steps st') : Run plan st ((st, e) :: steps) st'

/-- After power on: no block has been entered, and no return made. -/
structure Initial (plan : Plan) (st : State) : Prop where
  navBlock_lt : st.world.navBlock < plan.nbBlock
  lastBlock_eq : st.lastBlock = 0
  entry_eq : st.entry = .start
  returns_eq : st.returns = []

/-! ### What is asked -/

/-- The first exception of a list that applies. -/
def firstException (inp : Inputs) (exceptions : List Exception) (navBlock : Nat) :
    Option Exception :=
  exceptions.find? fun x => navBlock ≠ x.deroute ∧ inp.truth x.cond = true

/-- The exception of a call: of the plan, else of the current block. -/
def exceptionOf (plan : Plan) (inp : Inputs) (navBlock : Nat) : Option Exception :=
  (firstException inp plan.globalExceptions navBlock).or
    ((plan.blocks[navBlock]?).bind fun b => firstException inp b.exceptions navBlock)

/-- The call enters the target of its exception, and no stage runs. -/
def EntersTarget (plan : Plan) (st : State) (inp : Inputs) (st' : State) : Prop :=
  ∀ x, exceptionOf plan inp st.world.navBlock = some x →
    st'.place = ⟨x.deroute, 0⟩ ∧ st'.world.visits = st.world.visits ∧ st'.returns = st.returns

/-- Every return resumed what was active before the block was entered. -/
def ReturnsRight (st : State) : Prop :=
  ∀ r ∈ st.returns, ∀ p, r.2.before = some p → r.1 = p

/-- What is asked of a call. -/
structure CallRight (plan : Plan) (st : State) (e : Event) (st' : State) : Prop where
  navBlock_lt : st'.world.navBlock < plan.nbBlock
  enters : ∀ inp, e = .autoNav inp → EntersTarget plan st inp st'
  returns : ReturnsRight st'

/-! ### The condition -/

/-- Where the stages of a block with a `return` run, the return point is what was active before the
block; only an entry by an exception, a deroute or the end of a block can break this. -/
def StepOk (plan : Plan) (st : State) : Event → Prop
  | .autoNav inp =>
      exceptionOf plan inp st.world.navBlock = none →
        ∀ b, plan.blocks[st.world.navBlock]? = some b → b.stages.hasReturn = true →
          ∀ p, st.entry = .other p → p = st.last
  | .navGotoBlock _ => True

end Paparazzi.FlightPlan.ReturnPoint
