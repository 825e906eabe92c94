import Mathlib
import Paparazzi.FlightPlan.Paths

/-!
Waypoints given by a bearing and a distance from another one: the rest of `fp_proc.ml`, and the
places that `gen_flight_plan.ml` gives to the waypoints. Numbers are taken exact, also when they
are printed.
-/

namespace Paparazzi.FlightPlan.RelativeWaypoints

open Paparazzi.FlightPlan.Includes
open Paparazzi.FlightPlan.Paths (processPaths)

/-- The functions on numbers and their texts. -/
structure Numbers (K : Type) where
  floatOfString : Text → Option K
  /-- `sprintf "%.0f"` -/
  rounded : K → Text
  underscore_not_mem : ∀ x, '_' ∉ rounded x
  radOfDeg : K → K
  cos : K → K
  sin : K → K
  /-- `rel_utm_of_wgs84`, of a latitude and a longitude that `deg_of_string` reads. -/
  relUtmOfWgs84 : Text → Text → Option (K × K)

/-- The value of an attribute: a text of the file, or a number that was printed. -/
inductive Value (K : Type) where
  | text (t : Text)
  | number (x : K)
  deriving DecidableEq

/-- The attributes of a waypoint that are read. -/
structure Waypoint (K : Type) where
  name : Option Text
  x : Option (Value K)
  y : Option (Value K)
  lat : Option Text
  lon : Option Text
  alt : Option Text
  deriving DecidableEq

namespace Text

def x : Text := ['x']
def y : Text := ['y']
def lat : Text := ['l', 'a', 't']
def lon : Text := ['l', 'o', 'n']
def alt : Text := ['a', 'l', 't']
def wpQdr : Text := ['w', 'p', '_', 'q', 'd', 'r']
def wpDist : Text := ['w', 'p', '_', 'd', 'i', 's', 't']
def fromQdr : Text := ['f', 'r', 'o', 'm', '_', 'q', 'd', 'r']
def fromDist : Text := ['f', 'r', 'o', 'm', '_', 'd', 'i', 's', 't']
def dummy : Text := ['d', 'u', 'm', 'm', 'y']

end Text

def waypointOfXml {K : Type} : Xml → Option (Waypoint K)
  | .element _ attribs _ =>
      some
        { name := attrib attribs Includes.Text.name
          x := (attrib attribs Text.x).map .text
          y := (attrib attribs Text.y).map .text
          lat := attrib attribs Text.lat
          lon := attrib attribs Text.lon
          alt := attrib attribs Text.alt }
  | .pcData _ => none

/-- The two relative waypoints of a stage. -/
inductive Ref where
  | wp
  | from_
  deriving DecidableEq, Repr

namespace Ref

def key : Ref → Text
  | wp => Includes.Text.wp
  | from_ => Includes.Text.from'

def qdr : Ref → Text
  | wp => Text.wpQdr
  | from_ => Text.fromQdr

def dist : Ref → Text
  | wp => Text.wpDist
  | from_ => Text.fromDist

def names (k : Ref) : List Text := [k.key, k.qdr, k.dist]

end Ref

theorem lawfulBEq_text : LawfulBEq Text := inferInstance

attribute [local instance] lawfulBEq_text

def removeAttribs (attribs : Attribs) (names : List Text) : Attribs :=
  attribs.filter fun a => lowercase a.1 ∉ names

/-- `xml_assoc_attrib "name"`, which fails at a waypoint without a name. -/
def xmlAssocName {K : Type} (wp : Text) : List (Waypoint K) → Option (Waypoint K)
  | [] => none
  | w :: waypoints => w.name.bind fun name =>
      if name = wp then some w else xmlAssocName wp waypoints

section

variable {K : Type} (F : Numbers K)

def Value.read : Value K → Option K
  | .text t => F.floatOfString t
  | .number x => some x

def g2DOfWaypoint (w : Waypoint K) : Option (K × K) :=
  (w.x.bind (Value.read F)).bind fun x => (w.y.bind (Value.read F)).map fun y => (x, y)

/-- The name of a new waypoint, `sprintf "%s_%.0f_%.0f" wp qdr dist`. -/
def newName (wp : Text) (qdr dist : K) : Text :=
  wp ++ '_' :: (F.rounded qdr ++ '_' :: F.rounded dist)

variable [Ring K]

/-- `polar2cart` of a distance and the angle `90 - qdr`. -/
def polar (qdr dist : K) : K × K :=
  (dist * F.cos (F.radOfDeg (90 - qdr)), dist * F.sin (F.radOfDeg (90 - qdr)))

/-- The new waypoint, which the source puts in front of the others. -/
def newWaypoint (wp : Text) (qdr dist : K) (waypoints : List (Waypoint K)) :
    Option (Waypoint K) :=
  (xmlAssocName wp waypoints).bind fun base =>
    (g2DOfWaypoint F base).map fun wp2D =>
      let xy := wp2D + polar F qdr dist
      { name := some (newName F wp qdr dist)
        x := some (.number xy.1)
        y := some (.number xy.2)
        lat := none
        lon := none
        alt := base.alt }

/-- What a stage asks for: a waypoint, a bearing and a distance. -/
def asked (k : Ref) (attribs : Attribs) : Option (Text × K × K) :=
  ((attrib attribs k.qdr).bind F.floatOfString).bind fun qdr =>
    ((attrib attribs k.dist).bind F.floatOfString).bind fun dist =>
      (attrib attribs k.key).map fun wp => (wp, qdr, dist)

/-- `replace_wp` and `replace_from`, on the attributes and the children of a stage; a failure
leaves the stage as it is. -/
def replace (k : Ref) (stage : Attribs × List Xml) (waypoints : List (Waypoint K)) :
    (Attribs × List Xml) × List (Waypoint K) :=
  match asked F k stage.1 with
  | none => (stage, waypoints)
  | some (wp, qdr, dist) =>
      match newWaypoint F wp qdr dist waypoints with
      | none => (stage, waypoints)
      | some w =>
          (((k.key, newName F wp qdr dist) :: removeAttribs stage.1 k.names, []),
            w :: waypoints)

def isMove (tag : Text) : Bool :=
  tag = Includes.Text.go || tag = Includes.Text.stay || tag = Includes.Text.circle

mutual

/-- `process_stage`; a text is no stage. -/
def processStage : Xml → List (Waypoint K) → Option (Xml × List (Waypoint K))
  | .element tag attribs children, waypoints =>
      if isMove (lowercase tag) then
        let (stage, waypoints) := replace F .wp (attribs, children) waypoints
        let (stage, waypoints) := replace F .from_ stage waypoints
        some (.element tag stage.1 stage.2, waypoints)
      else if lowercase tag = Includes.Text.while' then
        (processStages children waypoints).map fun r =>
          (.element Includes.Text.while' attribs r.1, r.2)
      else some (.element tag attribs children, waypoints)
  | .pcData _, _ => none

/-- `List.map`, from the first stage on. -/
def processStages : List Xml → List (Waypoint K) → Option (List Xml × List (Waypoint K))
  | [], waypoints => some ([], waypoints)
  | xml :: xmls, waypoints =>
      (processStage xml waypoints).bind fun r =>
        (processStages xmls r.2).map fun rs => (r.1 :: rs.1, rs.2)

end

def processBlocks : List Xml → List (Waypoint K) → Option (List Xml × List (Waypoint K))
  | [], waypoints => some ([], waypoints)
  | .element tag attribs children :: blocks, waypoints =>
      (processStages F children waypoints).bind fun r =>
        (processBlocks blocks r.2).map fun rs => (.element tag attribs r.1 :: rs.1, rs.2)
  | .pcData _ :: _, _ => none

/-- Computes `x` and `y` if `lat` and `lon` are available. -/
def localizeWaypoint (w : Waypoint K) : Option (Waypoint K) :=
  match w.lat, w.lon with
  | some lat, some lon => (F.relUtmOfWgs84 lat lon).map fun xy =>
      { w with x := some (.number xy.1), y := some (.number xy.2) }
  | _, _ => some w

def dummyWaypoint : Waypoint K where
  name := some Text.dummy
  x := some (.number 42)
  y := some (.number 42)
  lat := none
  lon := none
  alt := none

/-- The attributes that `print_stage` looks up among the waypoints. -/
def lookedUp (tag : Text) : List Text :=
  if tag = Includes.Text.go then [Includes.Text.wp, Includes.Text.from'] else [Includes.Text.wp]

mutual

/-- `get_index_waypoint` finds the waypoints of a stage. -/
def known (waypoints : List (Waypoint K)) : Xml → Bool
  | .element tag attribs children =>
      if isMove (lowercase tag) then
        (lookedUp (lowercase tag)).all fun key =>
          match attrib attribs key with
          | some v => (xmlAssocName v waypoints).isSome
          | none => true
      else knownAll waypoints children
  | .pcData _ => true

def knownAll (waypoints : List (Waypoint K)) : List Xml → Bool
  | [] => true
  | xml :: xmls => known waypoints xml && knownAll waypoints xmls

end

/-- A flight plan as it is printed: the waypoints by index, and the blocks. -/
structure Output (K : Type) where
  waypoints : List (Waypoint K)
  blocks : List Xml

/-- The passes of the generator; every error it reports about waypoints is `none`. -/
def generate (flightPlan : Sections) : Option (Output K) :=
  (processPaths flightPlan).bind fun flightPlan =>
    (flightPlan.waypoints.mapM waypointOfXml).bind fun waypoints =>
      (processBlocks F flightPlan.blocks waypoints).bind fun r =>
        (r.2.mapM (localizeWaypoint F)).bind fun waypoints =>
          let waypoints := dummyWaypoint :: waypoints
          if waypoints.all (fun w => w.name.isSome && (g2DOfWaypoint F w).isSome) &&
              r.1.all (known waypoints) then
            some ⟨waypoints, r.1⟩
          else none

end

/-! ### The stages of a plan -/

mutual

/-- The attributes of the stages `go`, `stay` and `circle` at any depth, and whether only `while`
stands around them. -/
def moves (inWhile : Bool) : Xml → List (Bool × Attribs)
  | .element tag attribs children =>
      if isMove (lowercase tag) then [(inWhile, attribs)]
      else movesAll (inWhile && lowercase tag = Includes.Text.while') children
  | .pcData _ => []

def movesAll (inWhile : Bool) : List Xml → List (Bool × Attribs)
  | [] => []
  | xml :: xmls => moves inWhile xml ++ movesAll inWhile xmls

end

def movesOfBlock : Xml → List (Bool × Attribs)
  | .element _ _ children => movesAll true children
  | .pcData _ => []

def movesOfBlocks (blocks : List Xml) : List (Bool × Attribs) := blocks.flatMap movesOfBlock

/-! ### What is asked -/

section

variable {K : Type} (F : Numbers K)

/-- The place of the first waypoint with a name. -/
def placeOf (waypoints : List (Waypoint K)) (wp : Text) : Option (K × K) :=
  (xmlAssocName wp waypoints).bind (g2DOfWaypoint F)

/-- A stage has the three attributes of a relative waypoint. -/
structure IsRelative (k : Ref) (attribs : Attribs) (wp qdr dist : Text) : Prop where
  key_eq : attrib attribs k.key = some wp
  qdr_eq : attrib attribs k.qdr = some qdr
  dist_eq : attrib attribs k.dist = some dist

variable [Ring K]

/-- The place that a stage asks for, among the localized waypoints of the file. -/
def askedPlace (localized : List (Waypoint K)) (wp qdr dist : Text) : Option (K × K) :=
  (placeOf F localized wp).bind fun base =>
    (F.floatOfString qdr).bind fun qdr => (F.floatOfString dist).map fun dist =>
      base + polar F qdr dist

/-- The stages before and after the passes. -/
def stagePairs (before : Sections) (out : Output K) : List (Attribs × Attribs) :=
  ((movesOfBlocks before.blocks).map Prod.snd).zip ((movesOfBlocks out.blocks).map Prod.snd)

/-- The place that a stage refers to after the passes. -/
def placeAfter (out : Output K) (k : Ref) (stage : Attribs × Attribs) : Option (K × K) :=
  (attrib stage.2 k.key).bind (placeOf F out.waypoints)

/-- Every relative waypoint is at the place that is asked for, and two that are asked at different
offsets from one base are at different places. -/
structure Right (before : Sections) (localized : List (Waypoint K)) (out : Output K) : Prop where
  length_eq : (movesOfBlocks out.blocks).length = (movesOfBlocks before.blocks).length
  resolved : ∀ stage ∈ stagePairs before out, ∀ k wp qdr dist,
    IsRelative k stage.1 wp qdr dist →
      ∃ place, askedPlace F localized wp qdr dist = some place ∧
        placeAfter F out k stage = some place
  distinct : ∀ stage ∈ stagePairs before out, ∀ stage' ∈ stagePairs before out,
    ∀ k k' wp qdr dist qdr' dist' q d q' d', IsRelative k stage.1 wp qdr dist →
      IsRelative k' stage'.1 wp qdr' dist' → F.floatOfString qdr = some q →
        F.floatOfString dist = some d → F.floatOfString qdr' = some q' →
          F.floatOfString dist' = some d' → polar F q d ≠ polar F q' d' →
            placeAfter F out k stage ≠ placeAfter F out k' stage'

/-! ### The condition -/

/-- A stage is rewritten: only `while` stands around it, its numbers can be read, and its base has
an `x` and a `y` in the file. -/
def Rewritten (raw : List (Waypoint K)) (k : Ref) (stage : Bool × Attribs) (wp : Text) (qdr dist : K) :
    Prop :=
  stage.1 = true ∧ asked F k stage.2 = some (wp, qdr, dist) ∧ (placeOf F raw wp).isSome

/-- The bases of the relative waypoints keep their names for themselves: no name is made for a
new waypoint, and none is that of the first entry. -/
def BasesKept (before : Sections) (raw : List (Waypoint K)) : Prop :=
  ∀ stage ∈ movesOfBlocks before.blocks, ∀ k wp qdr dist, IsRelative k stage.2 wp qdr dist →
    wp ≠ Text.dummy ∧
      ∀ stage' ∈ movesOfBlocks before.blocks, ∀ k' wp' q' d',
        Rewritten F raw k' stage' wp' q' d' → newName F wp' q' d' ≠ wp

/-- A stage that is rewritten has a base whose `x` and `y` are its place; one that is not has the
offset zero. Offsets from one base that are rounded alike are equal. -/
structure Clear (before : Sections) (raw localized : List (Waypoint K)) : Prop where
  placed : ∀ stage ∈ movesOfBlocks before.blocks, ∀ k wp qdr dist,
    IsRelative k stage.2 wp qdr dist → ∃ base q d, placeOf F localized wp = some base ∧
      F.floatOfString qdr = some q ∧ F.floatOfString dist = some d ∧
      (stage.1 = true ∧ placeOf F raw wp = some base ∨
        (stage.1 = true → placeOf F raw wp = none) ∧ polar F q d = 0)
  named : ∀ stage ∈ movesOfBlocks before.blocks, ∀ stage' ∈ movesOfBlocks before.blocks,
    ∀ k k' wp q d q' d', Rewritten F raw k stage wp q d → Rewritten F raw k' stage' wp q' d' →
      F.rounded q = F.rounded q' → F.rounded d = F.rounded d' → polar F q d = polar F q' d'

end

end Paparazzi.FlightPlan.RelativeWaypoints
