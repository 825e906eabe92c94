import Mathlib.Logic.Function.Basic
import Paparazzi.FlightPlan.Stage

/-!
The state that a flight plan runs on and the macros of `common_flight_plan.h`.
The C texts of a plan (conditions, values, navigation statements) are an
arbitrary environment, and may change everything but the place in the plan.
-/

namespace Paparazzi.FlightPlan.CommonFlightPlan

open Paparazzi.FlightPlan.Stage

/-- What the texts of a plan read and write: the static counters of the `for`
loops, by block and name, and the rest of the autopilot. -/
structure Memory (σ : Type) where
  vars : Nat → String → Int
  state : σ

/-- The state of a running plan.  `visits` records the values that `Stage` gave
to `nav_stage`, and `stored` the values computed for the counters of the loops. -/
structure World (σ : Type) where
  memory : Memory σ
  navBlock : Nat
  navStage : Nat
  visits : List Nat
  stored : List Int

/-- The meaning of the texts of a plan. -/
structure Env (σ : Type) where
  test : Text → World σ → Bool × Memory σ
  value : Text → World σ → Int × Memory σ
  act : Text → World σ → Memory σ

/-- The value that an `int8_t` holds after the assignment of `x`. -/
def int8 (x : Int) : Int := x.bmod 256

/-- The values of an `int8_t`. -/
def InInt8 (x : Int) : Prop := -128 ≤ x ∧ x ≤ 127

instance (x : Int) : Decidable (InInt8 x) :=
  inferInstanceAs (Decidable (_ ∧ _))

theorem int8_eq_self {x : Int} (h : InInt8 x) : int8 x = x := by
  unfold InInt8 at h
  unfold int8
  rw [Int.bmod_eq_of_le] <;> omega

/-- `c_var_of_ident`: the C name of the variable of a `for`. -/
def cVarOfIdent (x : String) : String := "_var_" ++ x

/-- The C name of its bound. -/
def toVar (x : String) : String := cVarOfIdent x ++ "_to"

namespace World

variable {σ : Type}

def act (env : Env σ) (text : Text) (w : World σ) : World σ :=
  { w with memory := env.act text w }

def test (env : Env σ) (cond : Text) (w : World σ) : Bool × World σ :=
  ((env.test cond w).1, { w with memory := (env.test cond w).2 })

def value (env : Env σ) (e : Text) (w : World σ) : Int × World σ :=
  ((env.value e w).1, { w with memory := (env.value e w).2 })

/-- The counter `v` of the current block. -/
def counter (w : World σ) (v : String) : Int := w.memory.vars w.navBlock v

/-- `v = x;` where the type of `v` makes `narrow x` of `x`. -/
def store (narrow : Int → Int) (v : String) (x : Int) (w : World σ) : World σ :=
  let block := Function.update (w.memory.vars w.navBlock) v (narrow x)
  { w with
    memory := { w.memory with vars := Function.update w.memory.vars w.navBlock block }
    stored := w.stored ++ [x] }

/-- `v = from - 1; to_var = to;`. -/
def initCounter (env : Env σ) (narrow : Int → Int) (v toVar : String) (from_ toExpr : Text)
    (w : World σ) : World σ :=
  let (first, w) := w.value env from_
  let w := w.store narrow v (first - 1)
  let (last, w) := w.value env toExpr
  w.store narrow toVar last

/-- `++v > to_var`. -/
def countUp (narrow : Int → Int) (v toVar : String) (w : World σ) : Bool × World σ :=
  let w := w.store narrow v (w.counter v + 1)
  (decide (w.counter v > w.counter toVar), w)

/-- `Stage(s)`, after its `case`. -/
def stage (s : Nat) (w : World σ) : World σ :=
  { w with navStage := s % 256, visits := w.visits ++ [s % 256] }

def initStage (env : Env σ) (w : World σ) : World σ := w.act env "nav_init_stage();"

/-- `NextStageAndBreak()`, before its `break`. -/
def nextStage (env : Env σ) (w : World σ) : World σ :=
  initStage env { w with navStage := (w.navStage + 1) % 256 }

/-- The assignment of `NextStageAndBreakFrom(wp)`. -/
def from_ (env : Env σ) (wp : Text) (w : World σ) : World σ :=
  w.act env ("last_wp = " ++ wp ++ ";")

def navInitBlock (env : Env σ) (nbBlock : Nat) (w : World σ) : World σ :=
  let w := if w.navBlock ≥ nbBlock then { w with navBlock := nbBlock - 1 } else w
  let w := { w with navStage := 0 }
  initStage env (w.act env "block_time = 0;")

def nextBlock (env : Env σ) (nbBlock : Nat) (w : World σ) : World σ :=
  navInitBlock env nbBlock { w with navBlock := (w.navBlock + 1) % 256 }

def gotoBlock (env : Env σ) (nbBlock b : Nat) (w : World σ) : World σ :=
  navInitBlock env nbBlock { w with navBlock := b % 256 }

/-! The texts keep the place in the plan and what was recorded. -/

section Place

variable (env : Env σ) (text : Text) (w : World σ)

@[simp] theorem act_place :
    (w.act env text).navBlock = w.navBlock ∧ (w.act env text).navStage = w.navStage ∧
      (w.act env text).visits = w.visits ∧ (w.act env text).stored = w.stored :=
  ⟨rfl, rfl, rfl, rfl⟩

@[simp] theorem test_place :
    (w.test env text).2.navBlock = w.navBlock ∧ (w.test env text).2.navStage = w.navStage ∧
      (w.test env text).2.visits = w.visits ∧ (w.test env text).2.stored = w.stored :=
  ⟨rfl, rfl, rfl, rfl⟩

@[simp] theorem value_place :
    (w.value env text).2.navBlock = w.navBlock ∧ (w.value env text).2.navStage = w.navStage ∧
      (w.value env text).2.visits = w.visits ∧ (w.value env text).2.stored = w.stored :=
  ⟨rfl, rfl, rfl, rfl⟩

@[simp] theorem from_place :
    (w.from_ env text).navBlock = w.navBlock ∧ (w.from_ env text).navStage = w.navStage ∧
      (w.from_ env text).visits = w.visits ∧ (w.from_ env text).stored = w.stored :=
  ⟨rfl, rfl, rfl, rfl⟩

@[simp] theorem initStage_place :
    (w.initStage env).navBlock = w.navBlock ∧ (w.initStage env).navStage = w.navStage ∧
      (w.initStage env).visits = w.visits ∧ (w.initStage env).stored = w.stored :=
  ⟨rfl, rfl, rfl, rfl⟩

end Place

section Counters

variable (env : Env σ) (narrow : Int → Int) (v toVar : String) (from_ toExpr : Text) (w : World σ)

@[simp] theorem initCounter_place :
    (w.initCounter env narrow v toVar from_ toExpr).navBlock = w.navBlock ∧
      (w.initCounter env narrow v toVar from_ toExpr).navStage = w.navStage ∧
      (w.initCounter env narrow v toVar from_ toExpr).visits = w.visits :=
  ⟨rfl, rfl, rfl⟩

@[simp] theorem countUp_place :
    (w.countUp narrow v toVar).2.navBlock = w.navBlock ∧
      (w.countUp narrow v toVar).2.navStage = w.navStage ∧
      (w.countUp narrow v toVar).2.visits = w.visits :=
  ⟨rfl, rfl, rfl⟩

end Counters

end World

/-- `if ((nav_block != i) && cond) { GotoBlock(i); return; }`, where
`get_index_block` gave the index `deroute`. -/
structure Exception where
  cond : Text
  deroute : Nat
  deriving DecidableEq, Repr

/-- A list of exceptions, with the jump that they make; `true` if one returned. -/
def checkExceptions {σ : Type} (env : Env σ) (jump : Nat → World σ → World σ) :
    List Exception → World σ → Bool × World σ
  | [], w => (false, w)
  | x :: exceptions, w =>
      if w.navBlock ≠ x.deroute then
        let (raised, w) := w.test env x.cond
        if raised then (true, jump x.deroute w)
        else checkExceptions env jump exceptions w
      else checkExceptions env jump exceptions w

structure Block where
  name : String
  preCall : Text
  postCall : Text
  exceptions : List Exception
  stages : Stages Unit
  deriving DecidableEq, Repr

/-- The safety block added after those of the plan. -/
def homeBlock : Block where
  name := "HOME"
  preCall := ""
  postCall := ""
  exceptions := []
  stages := .simple () (.home "nav_home();") .done

/-- The blocks and the exceptions of a flight plan. -/
structure Plan where
  globalExceptions : List Exception
  userBlocks : List Block
  deriving DecidableEq, Repr

namespace Plan

def blocks (plan : Plan) : List Block := plan.userBlocks ++ [homeBlock]

def nbBlock (plan : Plan) : Nat := plan.blocks.length

/-- The blocks that the stages and the exceptions jump to. -/
def targets (plan : Plan) : List Nat :=
  plan.globalExceptions.map Exception.deroute ++
    plan.blocks.flatMap fun b => b.exceptions.map Exception.deroute ++ b.stages.targets

theorem nbBlock_pos (plan : Plan) : 0 < plan.nbBlock := by
  simp [nbBlock, blocks]

/-- The plans that the generator prints: `get_index_block` finds every block, and
the stages of a block have numbers below 256. -/
structure WellFormed (plan : Plan) : Prop where
  resolved : ∀ b ∈ plan.targets, b < plan.nbBlock
  stages : ∀ b ∈ plan.blocks, b.stages.size < 256

instance (plan : Plan) : Decidable plan.WellFormed :=
  decidable_of_iff ((∀ b ∈ plan.targets, b < plan.nbBlock) ∧
      ∀ b ∈ plan.blocks, b.stages.size < 256)
    ⟨fun h => ⟨h.1, h.2⟩, fun h => ⟨h.1, h.2⟩⟩

end Plan

end Paparazzi.FlightPlan.CommonFlightPlan
