import Mathlib.Data.Int.Bitwise
import Paparazzi.FlightPlan.ExprSyntax

/-!
The joystick of the ground station, `input2ivy.ml`: the messages and trims that a reading of the
device brings about.
-/

namespace Paparazzi.Ground.Joystick

open Paparazzi.FlightPlan.ExprSyntax

/-! ### The input device -/

/-- The buttons as bits. -/
structure Reading where
  buttons : ℕ
  hat : ℤ
  axis : List ℤ

structure Axis where
  index : ℕ
  deadband : ℤ
  limit : Float
  exponent : Float
  trim : Float

inductive Input where
  | axis (a : Axis)
  | button (index : ℕ)
  | hat (index : ℕ)

def maxInput : ℤ := 127
def minInput : ℤ := -127
def trimStep : Float := 0.2

def applyDeadband (x min : ℤ) : ℤ := if (x.natAbs : ℤ) < min then 0 else x

def applyExponent (x : ℤ) (expon : Float) : Float :=
  let powValue := Float.ofInt x ^ (3 : Float) / Float.ofInt maxInput ^ (2 : Float)
  Float.ofInt x * (1 - expon) + powValue * expon

def applyLimit (x limit : Float) : Float := limit * x

def bound (x min max : ℤ) : ℤ := if x < min then min else if x > max then max else x

def applyTrim (x trim : Float) : ℤ :=
  let xNew := (x + trim).toInt64.toInt
  if xNew > maxInput then maxInput else if xNew < minInput then minInput else xNew

/-- An axis that the device does not have is an exception. -/
def evalInput (r : Reading) : Input → Option ℤ
  | .axis a => (r.axis[a.index]?).map fun x =>
      applyTrim (applyLimit (applyExponent (applyDeadband x a.deadband) a.exponent) a.limit) a.trim
  | .button i => some (if r.buttons.testBit i then 1 else 0)
  | .hat _ => some r.hat

/-! ### Expressions -/

/-- The integers of the run time have 63 bits. -/
def wrap (x : ℤ) : ℤ := x.bmod (2 ^ 63)

/-- The division of the language, an exception for 0. -/
def quotient (a b : ℤ) : Option ℤ := if b = 0 then none else some (wrap (a.tdiv b))

def scale (x min max : ℤ) : Option ℤ :=
  (quotient (wrap ((x - minInput) * (max - min))) (maxInput - minInput)).map fun q => wrap (min + q)

def fit (x min max minIn maxIn : ℤ) : Option ℤ :=
  (quotient (wrap ((x - min) * (maxIn - minIn))) (wrap (max - min))).map fun q =>
    bound (wrap (minIn + q)) minIn maxIn

def pprzThreshold : ℤ := maxInput / 2

def pprzMode (mode : ℤ) : ℤ :=
  if mode > pprzThreshold then 2 else if mode < -pprzThreshold then 0 else 1

def ofBool (p : Prop) [Decidable p] : ℤ := if p then 1 else 0

/-- `eval_call`, where `%` is the division. -/
def evalCall (joystickId : ℤ) (hat : ℤ) (f : String) (args : List ℤ) : Option ℤ :=
  match f, args with
  | "-", [a] => some (wrap (-a))
  | "-", [a₁, a₂] => some (wrap (a₁ - a₂))
  | "+", [a₁, a₂] => some (wrap (a₁ + a₂))
  | "*", [a₁, a₂] => some (wrap (a₁ * a₂))
  | "%", [a₁, a₂] => quotient a₁ a₂
  | "&&", [a₁, a₂] => some (a₁.land a₂)
  | "||", [a₁, a₂] => some (a₁.lor a₂)
  | "<", [a₁, a₂] => some (ofBool (a₁ < a₂))
  | ">", [a₁, a₂] => some (ofBool (a₁ > a₂))
  | "HatCentered", [_] => some (ofBool (hat = 0))
  | "HatUp", [_] => some (ofBool (hat = 1))
  | "HatRight", [_] => some (ofBool (hat = 2))
  | "HatRightUp", [_] => some (ofBool (hat = 3))
  | "HatDown", [_] => some (ofBool (hat = 4))
  | "HatRightDown", [_] => some (ofBool (hat = 6))
  | "HatLeft", [_] => some (ofBool (hat = 8))
  | "HatLeftUp", [_] => some (ofBool (hat = 9))
  | "HatLeftDown", [_] => some (ofBool (hat = 12))
  | "Scale", [x, min, max] => scale x min max
  | "Fit", [x, min, max, minIn, maxIn] => fit x min max minIn maxIn
  | "Bound", [x, min, max] => some (bound x min max)
  | "PprzMode", [x] => some (pprzMode x)
  | "JoystickID", [] => some joystickId
  | _, _ => none

variable {D : Type}

structure Var (D : Type) where
  value : ℤ
  varEvent : List (ℤ × Expression D)

structure Env (D : Type) where
  joystickId : ℤ
  reading : Reading
  inputs : List (Ident × Input)
  vars : List (Ident × Var D)

/-- The identifiers: inputs first, then variables. -/
def Env.ident (env : Env D) (i : Ident) : Option ℤ :=
  match env.inputs.lookup i with
  | some input => evalInput env.reading input
  | none => (env.vars.lookup i).map Var.value

mutual

def evalExpr (env : Env D) : Expression D → Option ℤ
  | .ident i => env.ident i
  | .int n => some n
  | .float _ => none
  | .call f es =>
      (evalArgs env es).bind fun args =>
        evalCall env.joystickId env.reading.hat (String.ofList f) args
  | .unary o e =>
      (evalExpr env e).bind fun a =>
        evalCall env.joystickId env.reading.hat (String.ofList o.text) [a]
  | .binary o e₁ e₂ =>
      (evalExpr env e₁).bind fun a₁ => (evalExpr env e₂).bind fun a₂ =>
        evalCall env.joystickId env.reading.hat (String.ofList o.text) [a₁, a₂]
  | .index _ _ => none
  | .field _ _ => none
  | .deref _ _ => none

def evalArgs (env : Env D) : Expressions D → Option (List ℤ)
  | .none => some []
  | .snoc es e => (evalArgs env es).bind fun args => (evalExpr env e).map fun a => args ++ [a]

end

/-! ### Messages -/

inductive MsgClass where
  | datalink
  | ground
  | trimPlus
  | trimMinus
  | trimSave
  deriving DecidableEq, Repr

/-- A trim has the name of its axis, and no fields. -/
structure Msg (D : Type) where
  msgName : Ident
  msgClass : MsgClass
  fields : List (Ident × Expression D)
  onEvent : Option (Expression D)
  sendAlways : Bool
  hasAcId : Bool

/-- Whether the event holds, and the values of the fields. -/
abbrev Pair := Bool × List (Ident × ℤ)

/-- What leaves the program: a message on the bus, a trim that has been changed, or the file of the
trims. -/
inductive Effect where
  | message (msgClass : MsgClass) (msgName : Ident) (values : List (Ident × ℤ))
  | trim (axisName : Ident)
  | save
  deriving DecidableEq, Repr

/-- What may change: the trims within the inputs, the variables, and `last_values`. -/
structure State (D : Type) where
  inputs : List (Ident × Input)
  vars : List (Ident × Var D)
  lastValues : Ident → Option Pair

def State.previousValues (s : State D) (msgName : Ident) : Pair :=
  (s.lastValues msgName).getD (false, [])

def State.recordValues (s : State D) (msgName : Ident) (values : Pair) : State D :=
  { s with lastValues := Function.update s.lastValues msgName (some values) }

/-- The first input of this name; there is no trim for buttons and hats. -/
def trimAdjust (axisName : Ident) (adjustment : Float) :
    List (Ident × Input) → Option (List (Ident × Input))
  | [] => none
  | (name, input) :: inputs =>
      if name = axisName then
        match input with
        | .axis a => some ((name, .axis { a with trim := a.trim + adjustment }) :: inputs)
        | _ => none
      else (trimAdjust axisName adjustment inputs).map ((name, input) :: ·)

/-- The program at a reading: `joystick_id`, the number of the aircraft, and the device. -/
structure Tick where
  joystickId : ℤ
  acId : ℤ
  reading : Reading

def env (t : Tick) (s : State D) : Env D := ⟨t.joystickId, t.reading, s.inputs, s.vars⟩

def evaluate (t : Tick) (s : State D) (m : Msg D) : Option Pair := do
  let values ← m.fields.mapM fun (name, expr) => (evalExpr (env t s) expr).map fun v => (name, v)
  let onEvent ← match m.onEvent with
    | none => some true
    | some expr => (evalExpr (env t s) expr).map fun v => decide (v ≠ 0)
  some (onEvent, values)

def send (t : Tick) (s : State D) (m : Msg D) (values : List (Ident × ℤ)) :
    Option (State D × Effect) :=
  let vs := if m.hasAcId then ("ac_id".toList, t.acId) :: values else values
  match m.msgClass with
  | .datalink => some (s, .message .datalink m.msgName vs)
  | .ground => some (s, .message .ground m.msgName vs)
  | .trimPlus =>
      (trimAdjust m.msgName trimStep s.inputs).map fun inputs =>
        ({ s with inputs := inputs }, .trim m.msgName)
  | .trimMinus =>
      (trimAdjust m.msgName (-trimStep) s.inputs).map fun inputs =>
        ({ s with inputs := inputs }, .trim m.msgName)
  | .trimSave => some (s, .save)

/-- `execute_action`; `none` is an exception, which leaves the state as it was. -/
def executeAction (t : Tick) (s : State D) (m : Msg D) :
    Option (State D × Pair × Option Effect) := do
  let (onEvent, values) ← evaluate t s m
  if ((onEvent, values) ≠ s.previousValues m.msgName ∨ m.sendAlways = true) ∧ onEvent = true then
    let (s', effect) ← send t s m values
    some (s'.recordValues m.msgName (onEvent, values), (onEvent, values), some effect)
  else some (s.recordValues m.msgName (onEvent, values), (onEvent, values), none)

def updateVariable (t : Tick) (s : State D) (name : Ident) (value : ℤ) (expr : Expression D) :
    Option (State D) :=
  (evalExpr (env t s) expr).map fun event =>
    if event ≠ 0 then
      { s with vars := s.vars.map fun (name', var) =>
          (name', if name' = name then { var with value := value } else var) }
    else s

/-- `update_variables`, up to the first exception; the flag says whether there was none. -/
def updateVariables (t : Tick) : List (Ident × ℤ × Expression D) → State D → State D × Bool
  | [], s => (s, true)
  | (name, value, expr) :: events, s =>
      match updateVariable t s name value expr with
      | none => (s, false)
      | some s' => updateVariables t events s'

def State.events (s : State D) : List (Ident × ℤ × Expression D) :=
  s.vars.flatMap fun (name, var) => var.varEvent.map fun (value, expr) => (name, value, expr)

/-- What has been done for one message, by its place in the description. -/
structure Record where
  index : ℕ
  msgName : Ident
  pair : Pair
  effect : Option Effect
  deriving DecidableEq, Repr

/-- The messages in order, up to the first exception. -/
def executeMessages (t : Tick) : ℕ → List (Msg D) → State D → State D × List Record
  | _, [], s => (s, [])
  | i, m :: ms, s =>
      match executeAction t s m with
      | none => (s, [])
      | some (s', pair, effect) =>
          let (s'', records) := executeMessages t (i + 1) ms s'
          (s'', ⟨i, m.msgName, pair, effect⟩ :: records)

/-- `execute_actions`: one handler for everything that a reading brings about. -/
def executeActions (messages : List (Msg D)) (s : State D) (t : Tick) : State D × List Record :=
  match updateVariables t s.events s with
  | (s', false) => (s', [])
  | (s', true) => executeMessages t 0 messages s'

end Paparazzi.Ground.Joystick
