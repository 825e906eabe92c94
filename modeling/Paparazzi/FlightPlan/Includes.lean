import Paparazzi.FlightPlan.Procedure

/-!
The trees of an included procedure: the rest of `fp_proc.ml`. Exceptions and deroutes get new
targets, the values of other attributes their arguments.
-/

namespace Paparazzi.FlightPlan.Includes

open Paparazzi.FlightPlan.ExprSyntax
open Paparazzi.FlightPlan.ExprParser
open Paparazzi.FlightPlan.ExprLexer
open Paparazzi.FlightPlan.Procedure (transformExpression)

abbrev Text := List Char

abbrev Attribs := List (Text × Text)

inductive Xml where
  | element (tag : Text) (attribs : Attribs) (children : List Xml)
  | pcData (text : Text)

def lowercase (s : Text) : Text := s.map Char.toLower

/-- `Xml.attrib`, for an attribute in small letters. -/
def attrib (attribs : Attribs) (name : Text) : Option Text :=
  (attribs.find? fun a => lowercase a.1 = name).map Prod.snd

def substAttrib (name value : Text) (attribs : Attribs) : Attribs :=
  (attribs.filter fun a => lowercase a.1 ≠ name) ++ [(name, value)]

namespace Text

def exception : Text := ['e', 'x', 'c', 'e', 'p', 't', 'i', 'o', 'n']
def deroute : Text := ['d', 'e', 'r', 'o', 'u', 't', 'e']
def block : Text := ['b', 'l', 'o', 'c', 'k']
def while' : Text := ['w', 'h', 'i', 'l', 'e']
def name : Text := ['n', 'a', 'm', 'e']
def heading : Text := ['h', 'e', 'a', 'd', 'i', 'n', 'g']
def attitude : Text := ['a', 't', 't', 'i', 't', 'u', 'd', 'e']
def go : Text := ['g', 'o']
def xyz : Text := ['x', 'y', 'z']
def circle : Text := ['c', 'i', 'r', 'c', 'l', 'e']
def eight : Text := ['e', 'i', 'g', 'h', 't']
def stay : Text := ['s', 't', 'a', 'y']
def call : Text := ['c', 'a', 'l', 'l']
def set : Text := ['s', 'e', 't']
def vmode : Text := ['v', 'm', 'o', 'd', 'e']
def hmode : Text := ['h', 'm', 'o', 'd', 'e']
def wp : Text := ['w', 'p']
def from' : Text := ['f', 'r', 'o', 'm']
def center : Text := ['c', 'e', 'n', 't', 'e', 'r']
def turnAround : Text := ['t', 'u', 'r', 'n', '_', 'a', 'r', 'o', 'u', 'n', 'd']
def radius : Text := ['r', 'a', 'd', 'i', 'u', 's']

end Text

/-! ### The traversal -/

section

variable {D : Type} (F : Doubles D) (env : List (Text × Text))

/-- The text of an expression with the arguments in it; the exit of `parse_expression` is
`none`. -/
def newValue (v : Text) : Option Text :=
  (parseExpression F v).map fun c => transformExpression F env (c.ast exprLevel)

/-- Every value is parsed, also those that are kept. -/
def transformAttrib (attribsNotModified : List Text) (a : Text × Text) : Option (Text × Text) :=
  (newValue F env a.2).map fun v =>
    (a.1, if lowercase a.1 ∈ attribsNotModified then a.2 else v)

def transformValues (attribsNotModified : List Text) (attribs : Attribs) : Option Attribs :=
  attribs.mapM (transformAttrib F env attribsNotModified)

/-- The block that a target of the procedure stands for; `prefixed` is the `prefix` of the
source. -/
def route (prefixed : Text → Text) (reroutes : List (Text × Text)) (v : Text) : Text :=
  (reroutes.lookup v).getD (prefixed v)

variable (prefixed : Text → Text) (reroutes : List (Text × Text))

def prefixOrDeroute (name : Text) (attribs : Attribs) : Attribs :=
  attribs.map fun a => (a.1, if lowercase a.1 = name then route prefixed reroutes a.2 else a.2)

/-- A failed assertion is `none`, as any failure. -/
def transformException : Xml → Option Xml
  | .element tag attribs [] =>
      (transformValues F env [] (prefixOrDeroute prefixed reroutes Text.deroute attribs)).map
        fun attribs => .element tag attribs []
  | _ => none

/-- The stages whose attributes are transformed and nothing else: whether they are asserted to
have no children, and the attributes that are kept. -/
def stageRule (tag : Text) : Option (Bool × List Text) :=
  [(Text.heading, true, [Text.vmode]), (Text.attitude, false, [Text.vmode]),
    (Text.go, true, [Text.wp, Text.from', Text.hmode, Text.vmode]), (Text.xyz, true, []),
    (Text.circle, true, [Text.wp, Text.hmode, Text.vmode]),
    (Text.eight, false, [Text.center, Text.turnAround, Text.radius]),
    (Text.stay, false, [Text.wp, Text.vmode]), (Text.call, false, []),
    (Text.set, false, [])].lookup tag

mutual

def transformStage : Xml → Option Xml
  | .element tag attribs children =>
      if lowercase tag = Text.exception then
        transformException F env prefixed reroutes (.element tag attribs children)
      else if lowercase tag = Text.while' then
        (transformValues F env [] attribs).bind fun attribs =>
          (transformStages children).map fun children => .element tag attribs children
      else if lowercase tag = Text.deroute then
        if children.isEmpty then
          some (.element tag (prefixOrDeroute prefixed reroutes Text.block attribs) children)
        else none
      else
        match stageRule (lowercase tag) with
        | some (assertsNoChildren, attribsNotModified) =>
            if assertsNoChildren && !children.isEmpty then none
            else
              (transformValues F env attribsNotModified attribs).map fun attribs =>
                .element tag attribs children
        | none => none
  | .pcData _ => none

/-- `List.map`, in the traversal. -/
def transformStages : List Xml → Option (List Xml)
  | [] => some []
  | xml :: xmls =>
      (transformStage xml).bind fun xml => (transformStages xmls).map fun xmls => xml :: xmls

end

def transformBlock : Xml → Option Xml
  | .element _ attribs children =>
      (transformStages F env prefixed reroutes children).bind fun stages =>
        (attrib attribs Text.name).map fun name =>
          .element Text.block (substAttrib Text.name (prefixed name) attribs) stages
  | .pcData _ => none

end

/-! ### The include -/

/-- A procedure: its parameters with their default values, and the children of its sections. -/
structure Procedure where
  params : List (Text × Option Text)
  waypoints : List Xml
  blocks : List Xml
  exceptions : List Xml
  sectors : List Xml
  header : Text

/-- An element `include`. -/
structure Include where
  name : Text
  reroutes : List (Text × Text)
  args : List (Text × Text)

/-- The sections of a flight plan that an include adds to. -/
structure Sections where
  waypoints : List Xml
  blocks : List Xml
  exceptions : List Xml
  sectors : List Xml
  header : Text

def makeAssoc (args : List (Text × Text)) (p : Text × Option Text) : Option (Text × Text) :=
  match args.lookup p.1 with
  | some v => some (p.1, v)
  | none => p.2.map fun v => (p.1, v)

def Include.prefixed (inc : Include) (x : Text) : Text := inc.name ++ '.' :: x

/-- `parse_include`, from the procedure in the file. -/
def parseInclude {D : Type} (F : Doubles D) (flightPlan : Sections) (inc : Include)
    (proc : Procedure) : Option Sections :=
  (proc.params.mapM (makeAssoc inc.args)).bind fun env =>
    (proc.exceptions.mapM (transformException F env inc.prefixed inc.reroutes)).bind
      fun exceptions =>
        (proc.blocks.mapM (transformBlock F env inc.prefixed inc.reroutes)).map fun blocks =>
          { waypoints := flightPlan.waypoints ++ proc.waypoints
            blocks := flightPlan.blocks ++ blocks
            exceptions := flightPlan.exceptions ++ exceptions
            sectors := flightPlan.sectors ++ proc.sectors
            header := flightPlan.header ++ '\n' :: proc.header }

end Paparazzi.FlightPlan.Includes
