import Paparazzi.Generator.PeriodicChain
import Paparazzi.Generator.Settings
import Paparazzi.Library.Machine

/-!
`gen_modules`: the function that calls the periodic functions of the modules, with their start
and stop functions.
-/

namespace Paparazzi.Generator.Modules

open Paparazzi.Generator.PeriodicChain
open Paparazzi.Generator.Settings (Attribs attrib)

/-- A module with its elements `periodic`. -/
structure Module where
  name : String
  periodic : List Attribs

/-- An element `periodic` and the name of its module. -/
abbrev Func := Attribs × String

def allPeriodic (modules : List Module) : List Func :=
  modules.flatMap fun m => m.periodic.map fun x => (x, m.name)

/-! ### The generator -/

def isStatusLock (f : Attribs) : Bool := (attrib f "autorun").getD "LOCK" == "LOCK"

/-- `n_function_status`, without what follows a parenthesis. -/
def getStatusName (f : Func) : String :=
  f.2 ++ "_" ++ String.ofList (((attrib f.1 "fun").getD "").toList.takeWhile (· ≠ '(')) ++ "_status"

/-- The code of an element `periodic` in front of the periodic functions. -/
inductive StartStop where
  | nothing
  /-- `start;` -/
  | always (start : String)
  /-- `if (status == MODULES_START) { start; status = MODULES_RUN; }`, and the same for stop -/
  | byStatus (status start stop : String)
  deriving DecidableEq

def startStop (f : Func) : StartStop :=
  if isStatusLock f.1 then (attrib f.1 "start").elim .nothing .always
  else
    .byStatus (getStatusName f) ((attrib f.1 "start").getD "") ((attrib f.1 "stop").getD "")

/-- A call of a function; where there is a status, it must be `MODULES_RUN`. -/
structure Call where
  function : String
  status : Option String
  deriving DecidableEq

def callOf (f : Func) (function : String) : Call :=
  ⟨function, if isStatusLock f.1 then none else some (getStatusName f)⟩

/-- A call with its test, where the modulo is not 1. -/
abbrev Line := Option Test × Call

/-- The printing loop; `l` are the pairs that it has seen. -/
def printLines : List (Nat × Int) → List (Entry Call) → List Line
  | _, [] => []
  | l, e :: es =>
      if e.modulo = 1 then (none, e.body) :: printLines l es
      else
        (some ⟨needsElse l e.modulo e.phase, e.modulo, e.phase⟩, e.body) ::
          printLines ((e.modulo, e.phase) :: l) es

structure Code where
  modulos : List Nat
  startStop : List StartStop
  lines : List Line
  deriving DecidableEq

section

variable {F : Type} (fl : Floats F) (intOfString : String → Option Int) (freq : Nat)

/-- The period of `get_period_and_freq`. -/
def getPeriod (f : Attribs) : F :=
  match (attrib f "period").bind fl.ofString, (attrib f "freq").bind fl.ofString with
  | none, none => fl.div (fl.ofInt 1) (fl.ofInt freq)
  | some p, _ => p
  | none, some f => fl.div (fl.ofInt 1) f

def functionModulo (f : Func) : Nat :=
  boundedModulo (fl.toInt (fl.mul (getPeriod fl freq f.1) (fl.ofInt freq)))

def functionsModulo (modules : List Module) : List (Func × Nat) :=
  (allPeriodic modules).map fun f => (f, functionModulo fl freq f)

/-- The loop over the sorted functions; `i` is the balance, `same` the number of functions with
a modulo. -/
def entries (same : Nat → Nat) : Nat → List (Func × Nat) → Option (List (Entry Call))
  | _, [] => some []
  | i, (f, p) :: functions =>
      (attrib f.1 "fun").bind fun function =>
        if p = 1 then (entries same i functions).map (⟨1, 0, callOf f function⟩ :: ·)
        else
          match attrib f.1 "delay" with
          | some delay =>
              (intOfString delay).bind fun delay =>
                (entries same i functions).map (⟨p, delay.tmod p, callOf f function⟩ :: ·)
          | none =>
              let i := i % p
              (entries same (i + p / (same p + 1)) functions).map
                (⟨p, i, callOf f function⟩ :: ·)

def printPeriodicFunctions (modules : List Module) : Option Code :=
  let functions := functionsModulo fl freq modules
  (entries intOfString (fun p => (functions.map Prod.snd).count p) 0 (sortByModulo functions)).map
    fun es =>
      ⟨singletonize (functions.map Prod.snd), (allPeriodic modules).map startStop, printLines [] es⟩

end

/-! ### The generated function -/

/-- The values of a status. -/
def modulesIdle : Nat := 0
def modulesRun : Nat := 1
def modulesStart : Nat := 2
def modulesStop : Nat := 3

/-- What is called: the start and the stop function of an element, or the function of a line. -/
inductive Event where
  | start (k : Nat)
  | stop (k : Nat)
  | call (n : Nat)
  deriving DecidableEq

/-- What the texts of functions read and write. -/
structure Memory (σ : Type) where
  status : String → Nat
  state : σ

structure World (σ : Type) where
  memory : Memory σ
  counters : Nat → Nat
  events : List Event

section

variable {σ : Type} (env : String → Memory σ → Memory σ)

def exec (text : String) (e : Event) (w : World σ) : World σ :=
  { w with memory := env text w.memory, events := w.events ++ [e] }

def setStatus (v : String) (x : Nat) (w : World σ) : World σ :=
  { w with memory := { w.memory with status := Function.update w.memory.status v x } }

/-- `if (status == value) { text; status = next; }` -/
def switchStatus (v : String) (value next : Nat) (text : String) (e : Event) (w : World σ) :
    World σ :=
  if w.memory.status v = value then setStatus v next (exec env text e w) else w

def runStartStop (k : Nat) : StartStop → World σ → World σ
  | .nothing, w => w
  | .always start, w => exec env start (.start k) w
  | .byStatus v start stop, w =>
      switchStatus env v modulesStop modulesIdle stop (.stop k)
        (switchStatus env v modulesStart modulesRun start (.start k) w)

def runStartStops : Nat → List StartStop → World σ → World σ
  | _, [], w => w
  | k, x :: xs, w => runStartStops (k + 1) xs (runStartStop env k x w)

def isRunning (c : Call) (w : World σ) : Bool :=
  c.status.all fun v => w.memory.status v == modulesRun

def runCall (n : Nat) (c : Call) (w : World σ) : World σ := exec env c.function (.call n) w

/-- The lines, numbered from `n` on. -/
def runLines (counter : Nat → Nat) : Nat → List Line → Bool → World σ → World σ
  | _, [], _, w => w
  | n, (none, c) :: rest, _, w =>
      runLines counter (n + 1) rest false (if isRunning c w then runCall env n c w else w)
  | n, (some t, c) :: rest, taken, w =>
      if t.els && taken then runLines counter (n + 1) rest true w
      else if decide ((counter t.modulo : Int) = t.phase) && isRunning c w then
        runLines counter (n + 1) rest true (runCall env n c w)
      else runLines counter (n + 1) rest false w

/-- The task, before its first `n` lines of periodic functions are run. -/
def beforeLines (code : Code) (w : World σ) : World σ :=
  runStartStops env 0 code.startStop { w with counters := bumpAll code.modulos w.counters }

def modulesPeriodicTask (code : Code) (w : World σ) : World σ :=
  let w := beforeLines env code w
  runLines env w.counters 0 code.lines false w

/-- The task, when it has come to its line `n`. -/
def reached (code : Code) (n : Nat) (w : World σ) : World σ :=
  let w := beforeLines env code w
  runLines env w.counters 0 (code.lines.take n) false w

/-- A call of the task, after the rest of the autopilot has changed the memory. -/
def step (code : Code) (w : World σ) (change : Memory σ → Memory σ) : World σ :=
  modulesPeriodicTask env code { w with memory := change w.memory }

end

end Paparazzi.Generator.Modules
