import Paparazzi.Generator.PeriodicChain
import Paparazzi.Generator.Settings
import Paparazzi.Library.Machine
import Paparazzi.Library.Fallible

/-!
`gen_periodic`: the macro that sends the telemetry messages, and how often it sends each.
-/

namespace Paparazzi.Generator.Telemetry

open Paparazzi.Generator.PeriodicChain
open Paparazzi.Generator.Settings (Attribs attrib)
open Paparazzi.Library
open Paparazzi.Library.Machine
open Paparazzi.Library.MapM

structure Mode where
  name : String
  messages : List Attribs

/-! ### The generator -/

section

variable {F : Type} (fl : Floats F) (freq : Nat)

/-- `int_of_float (x *. float_of_int freq)`, for an attribute `x`. -/
def ticks (x : Attribs) (name : String) : Option Int :=
  ((attrib x name).bind fl.ofString).map fun v => fl.toInt (fl.mul v (fl.ofInt freq))

/-- The messages that are not of a module that is not loaded. -/
def filteredMsg (modules : List String) (mode : Mode) : List Attribs :=
  mode.messages.filter fun x => (attrib x "module").all fun att => att ∈ modules

def withModulo (x : Attribs) : Option (Attribs × Nat) :=
  (ticks fl freq x "period").map fun v => (x, boundedModulo v)

/-- The phase of a message: the attribute, or the balance `i`. -/
def messagePhase (i : Nat) (x : Attribs) : Int := (ticks fl freq x "phase").getD i

/-- The loop over the messages; `i` is the balance. -/
def entries : Nat → List (Attribs × Nat) → Option (List (Entry String))
  | _, [] => some []
  | i, (x, p) :: messages =>
      let i := i % p
      (attrib x "name").bind fun name =>
        (entries (i + freq / 10) messages).map (⟨p, messagePhase fl freq i x, name⟩ :: ·)

/-- The block of a mode: the constant that stands for the mode, the counters and the tests. -/
structure Block where
  number : Nat
  modulos : List Nat
  tests : List (Test × String)

/-- The value of the constant of a mode: of two with one name the last definition counts. -/
def modeNumber (modes : List Mode) (mode : Mode) : Nat :=
  ((modes.zipIdx.filter fun m => m.1.name = mode.name).getLast?.map Prod.snd).getD 0

def outputMode (modes : List Mode) (modules : List String) (mode : Mode) : Option Block :=
  ((filteredMsg modules mode).mapM (withModulo fl freq)).bind fun messages =>
    (entries fl freq 0 (sortByModulo messages)).map fun es =>
      ⟨modeNumber modes mode, singletonize (messages.map Prod.snd), link [] es⟩

def outputModes (modes : List Mode) (modules : List String) : Option (List Block) :=
  modes.mapM (outputMode fl freq modes modules)

end

/-! ### The macro -/

/-- A message that is sent: the place of its block and of its test. -/
structure Sent where
  mode : Nat
  no : Nat
  message : String
  deriving DecidableEq, Repr

structure State where
  counters : Nat → Nat → Nat
  sent : List Sent

def start : State := ⟨fun _ _ => 0, []⟩

def send (mode no : Nat) (message : String) (sent : List Sent) : List Sent :=
  sent ++ [⟨mode, no, message⟩]

def callBlock (k : Nat) (b : Block) (s : State) : State :=
  let c := bumpAll b.modulos (s.counters k)
  ⟨Function.update s.counters k c, runTests c (fun _ _ => true) (send k) 0 b.tests false s.sent⟩

def callBlocks (telemetryMode : Nat) : Nat → List Block → State → State
  | _, [], s => s
  | k, b :: bs, s =>
      callBlocks telemetryMode (k + 1) bs (if telemetryMode = b.number then callBlock k b s else s)

/-- One call of the macro; the event is the value of `telemetry_mode`. -/
def periodicSend (blocks : List Block) (s : State) (telemetryMode : Nat) : State :=
  callBlocks telemetryMode 0 blocks s

/-- How often the message of a test was sent. -/
def timesSent (mode no : Nat) (sent : List Sent) : Nat :=
  sent.countP fun x => x.mode = mode ∧ x.no = no

end Paparazzi.Generator.Telemetry
