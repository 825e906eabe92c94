import Paparazzi.Library.GuardedChoice

/-!
The generator of the autopilot core: from the description of the modes to the functions that
choose the mode, and what these functions do. The control loops, which the periodic task calls
after the mode is set, are left out.
-/

namespace Paparazzi.Generator.Autopilot

/-! ### Descriptions -/

/-- `<select cond exception?>` -/
structure Select where
  cond : String
  exception : Option String

/-- `<exception cond deroute>` -/
structure Exception where
  cond : String
  deroute : String

/-- `<mode name start? stop?>` -/
structure Mode where
  name : String
  start : Option String
  stop : Option String
  selects : List Select
  exceptions : List Exception

/-- `<autopilot>` -/
structure Description where
  modes : List Mode
  exceptions : List Exception

/-! ### Generated code -/

/-- The tests: an expression of the description, or `private_autopilot_mode != NAME`. -/
inductive Test where
  | cond (text : String)
  | differs (name : String)
  | and (a b : Test)
  | or (a b : Test)
  deriving DecidableEq

/-- A mode, or `last_autopilot_mode`. -/
inductive Value where
  | mode (name : String)
  | lastMode
  deriving DecidableEq

/-- `if (test) { return value; }`, or `if (test) { mode = value; }`. -/
structure Branch where
  test : Test
  value : Value
  deriving DecidableEq

/-- The generated file: the names of the modes, which are defined as 0, 1, …, the mode at the
start, the bodies of the functions, and the cases of their `switch` statements. -/
structure Core where
  defines : List String
  init : String
  modeSelect : List Branch
  modeExceptions : List (String × List Branch)
  globalExceptions : List Branch
  stop : List (String × List String)
  start : List (String × List String)

/-! ### The generator -/

/-- `Str.split` at each `|`: a separator at the start and one at the end are left out. -/
def split (s : String) : List String :=
  let parts := s.toList.splitOn '|'
  let parts := if parts.head? = some [] then parts.tail else parts
  let parts := if parts.getLast? = some [] then parts.dropLast else parts
  parts.map String.ofList

def printModeName (name : String) : String := "AUTOPILOT_MODE_" ++ name.toUpper

def printModes (modes : List Mode) : List String := modes.map fun m => printModeName m.name

/-- The mode with `$DEFAULT_MODE` among its conditions, or the first one. -/
def findDefaultMode (modes : List Mode) : Option Mode :=
  match modes.filter fun m => m.selects.any fun s => s.cond = "$DEFAULT_MODE" with
  | [] => modes.head?
  | [m] => some m
  | _ => none

/-- The modes of an exception list. -/
def excluded (s : Select) : List String :=
  match s.exception with
  | none => []
  | some exception => (split exception).map printModeName

/-- The list as it is printed, with ` || ` between the comparisons. -/
def except (s : Select) : Option Test :=
  match excluded s with
  | [] => none
  | name :: names => some ((names.map .differs).foldl .or (.differs name))

def printSelect (m : Mode) (s : Select) : List Branch :=
  if s.cond = "$DEFAULT_MODE" then []
  else
    match except s with
    | none => [⟨.cond s.cond, .mode (printModeName m.name)⟩]
    | some test => [⟨.and (.cond s.cond) test, .mode (printModeName m.name)⟩]

def printTestSelect (modes : List Mode) : List Branch :=
  modes.flatMap fun m => m.selects.flatMap (printSelect m)

def printException (e : Exception) : Branch :=
  if e.deroute = "$LAST_MODE" then ⟨.cond e.cond, .lastMode⟩
  else ⟨.cond e.cond, .mode (printModeName e.deroute)⟩

def printTestException (modes : List Mode) : List (String × List Branch) :=
  modes.map fun m => (printModeName m.name, m.exceptions.map printException)

def printGlobalExceptions (exceptions : List Exception) : List Branch :=
  exceptions.map fun e => ⟨.cond e.cond, .mode (printModeName e.deroute)⟩

/-- The cases for the start functions, or for the stop functions. -/
def printSwitch (f : Mode → Option String) (modes : List Mode) : List (String × List String) :=
  modes.filterMap fun m => (f m).map fun functions => (printModeName m.name, split functions)

def printCore (ap : Description) (init : Mode) : Core where
  defines := printModes ap.modes
  init := printModeName init.name
  modeSelect := printTestSelect ap.modes
  modeExceptions := printTestException ap.modes
  globalExceptions := printGlobalExceptions ap.exceptions
  stop := printSwitch Mode.stop ap.modes
  start := printSwitch Mode.start ap.modes

def parseModes (ap : Description) : Option Core :=
  (findDefaultMode ap.modes).map (printCore ap)

/-! ### What the generated code does -/

/-- The variables, and the start and stop functions called so far. -/
structure State where
  autopilotMode : UInt8
  privateAutopilotMode : UInt8
  lastAutopilotMode : UInt8
  calls : List String
  deriving DecidableEq

/-- How the conditions come out in a call, by their places in the functions: those of the selects,
of the exceptions of the mode that is selected, and of the global exceptions. -/
structure Truths where
  select : Nat → Bool
  exception : Nat → Bool
  global : Nat → Bool

namespace Core

variable (c : Core) (s : State)

/-- The number that a name is defined as. -/
def number (name : String) : Nat := c.defines.idxOf name

def autopilotCoreInit : State :=
  let mode := UInt8.ofNat (c.number c.init)
  { autopilotMode := mode
    privateAutopilotMode := mode
    lastAutopilotMode := mode
    calls := [] }

/-- The value of a test whose condition comes out as `truth`. -/
def eval (truth : Bool) : Test → Bool
  | .cond _ => truth
  | .differs name => s.privateAutopilotMode.toNat ≠ c.number name
  | .and a b => eval truth a && eval truth b
  | .or a b => eval truth a || eval truth b

/-- A value is stored in a byte. -/
def value : Value → UInt8
  | .mode name => UInt8.ofNat (c.number name)
  | .lastMode => s.lastAutopilotMode

/-- The branches that return. -/
def runReturns (truth : Nat → Bool) : List Branch → Nat → Option UInt8
  | [], _ => none
  | b :: rest, k =>
      if c.eval s (truth k) b.test then some (c.value s b.value) else runReturns truth rest (k + 1)

/-- The branches that set the mode. -/
def runSets (truth : Nat → Bool) : List Branch → UInt8 → Nat → UInt8
  | [], mode, _ => mode
  | b :: rest, mode, k =>
      runSets truth rest (if c.eval s (truth k) b.test then c.value s b.value else mode) (k + 1)

/-- The body of the case with the number of the mode. -/
def caseOf {β : Type} (cases : List (String × List β)) (mode : UInt8) : List β :=
  ((cases.find? fun x => c.number x.1 = mode.toNat).map Prod.snd).getD []

def autopilotCoreModeSelect (truth : Nat → Bool) : UInt8 :=
  (c.runReturns s truth c.modeSelect 0).getD s.privateAutopilotMode

def autopilotCoreModeExceptions (truth : Nat → Bool) (mode : UInt8) : UInt8 :=
  (c.runReturns s truth (c.caseOf c.modeExceptions mode) 0).getD mode

def autopilotCoreGlobalExceptions (truth : Nat → Bool) (mode : UInt8) : UInt8 :=
  c.runSets s truth c.globalExceptions mode 0

def autopilotCoreSetMode (newMode : UInt8) : State :=
  if newMode = s.privateAutopilotMode then s
  else
    { autopilotMode := newMode
      privateAutopilotMode := newMode
      lastAutopilotMode := s.privateAutopilotMode
      calls := s.calls ++ c.caseOf c.stop s.privateAutopilotMode ++ c.caseOf c.start newMode }

/-- `autopilot_core_periodic_task`, up to its control loops. -/
def autopilotCorePeriodicTask (truths : Truths) : State :=
  let mode := c.autopilotCoreModeSelect s truths.select
  let mode := c.autopilotCoreModeExceptions s truths.exception mode
  let mode := c.autopilotCoreGlobalExceptions s truths.global mode
  c.autopilotCoreSetMode s mode

end Core

end Paparazzi.Generator.Autopilot
