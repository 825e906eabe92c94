import Paparazzi.FlightPlan.Includes
import Paparazzi.Library.Fallible
import Paparazzi.Library.StrSplit

/-!
The expansion of `path` stages in `fp_proc.ml`: a path becomes `go` stages between its waypoints.
-/

namespace Paparazzi.FlightPlan.Paths

open Paparazzi.FlightPlan.Includes
open Paparazzi.Library.MapM
open Paparazzi.Library.StrSplit

def pathTag : Text := ['p', 'a', 't', 'h']
def wpts : Text := ['w', 'p', 't', 's']
def route : Text := ['r', 'o', 'u', 't', 'e']

/-- The characters of `regexp_path`, which stands for runs of them. -/
def isPathDelimiter (c : Char) : Bool := c == ' ' || c == '\t' || c == ','

/-! ### The generator -/

/-- `loop`, in front of the stages `rest`. -/
def goStages (attribs : Attribs) (rest : List Xml) : List Text → Option (List Xml)
  | [] => none
  | [wp] => some (.element Text.go ((Text.wp, wp) :: attribs) [] :: rest)
  | wp1 :: wp2 :: ps =>
      (if ps.isEmpty then some rest else goStages attribs rest (wp2 :: ps)).map fun stages =>
        .element Text.go
            ([(Text.from', wp1), (Text.hmode, route), (Text.wp, wp2)] ++ attribs) [] :: stages

def stageProcessPath (stage : Xml) (rest : List Xml) : Option (List Xml) :=
  match stage with
  | .element tag attribs _ =>
      if tag = pathTag then
        (attrib attribs wpts).bind fun v => goStages attribs rest (words isPathDelimiter v)
      else some (stage :: rest)
  | .pcData _ => none

/-- `List.fold_right`, where a step may fail. -/
def processStages : List Xml → Option (List Xml)
  | [] => some []
  | stage :: stages => (processStages stages).bind (stageProcessPath stage)

def blockProcessPath : Xml → Option Xml
  | .element tag attribs children =>
      (processStages children).map fun stages => .element tag attribs stages
  | .pcData _ => none

def processPaths (flightPlan : Sections) : Option Sections :=
  (flightPlan.blocks.mapM blockProcessPath).map fun blocks =>
    { flightPlan with blocks := blocks }

/-! ### What a path stands for -/

/-- The stages of a path over the waypoints `ws`. The path's attributes stay, also `wpts`, which
no `go` reads. -/
def legs (attribs : Attribs) : List Text → List Xml
  | [wp] => [.element Text.go ((Text.wp, wp) :: attribs) []]
  | ws => (ws.zip ws.tail).map fun leg =>
      .element Text.go ([(Text.from', leg.1), (Text.hmode, route), (Text.wp, leg.2)] ++ attribs) []

def waypoints (attribs : Attribs) : List Text :=
  words isPathDelimiter ((attrib attribs wpts).getD [])

mutual

/-- All paths in a stage are replaced, at any depth. -/
def expand : Xml → List Xml
  | .element tag attribs children =>
      if tag = pathTag then legs attribs (waypoints attribs)
      else [.element tag attribs (expandAll children)]
  | .pcData text => [.pcData text]

def expandAll : List Xml → List Xml
  | [] => []
  | xml :: xmls => expand xml ++ expandAll xmls

end

mutual

def hasPath : Xml → Bool
  | .element tag _ children => tag = pathTag || hasPaths children
  | .pcData _ => false

def hasPaths : List Xml → Bool
  | [] => false
  | xml :: xmls => hasPath xml || hasPaths xmls

end

def children : Xml → List Xml
  | .element _ _ children => children
  | .pcData _ => []

def expandBlock : Xml → Xml
  | .element tag attribs children => .element tag attribs (expandAll children)
  | .pcData text => .pcData text

/-- No path is left, and every path stands replaced in its place. -/
structure Expanded (flightPlan out : Sections) : Prop where
  noPath : ∀ b ∈ out.blocks, hasPaths (children b) = false
  replaced : out = { flightPlan with blocks := flightPlan.blocks.map expandBlock }

/-- The paths stand directly in their blocks. -/
def PathsOnTop (flightPlan : Sections) : Prop :=
  ∀ b ∈ flightPlan.blocks, ∀ tag attribs stages, .element tag attribs stages ∈ children b →
    tag ≠ pathTag → hasPaths stages = false

/-! ### The expansion -/

theorem goStages_eq {attribs : Attribs} {rest out : List Xml} {ws : List Text}
    (h : goStages attribs rest ws = some out) : out = legs attribs ws ++ rest := by
  induction ws generalizing out with
  | nil => cases h
  | cons wp1 ws ih =>
      cases ws with
      | nil =>
          cases h
          rfl
      | cons wp2 ps =>
          obtain ⟨stages, hstages, rfl⟩ := Option.map_eq_some_iff.mp h
          cases ps with
          | nil =>
              cases hstages
              rfl
          | cons wp3 ps =>
              rw [ih hstages]
              rfl

/-- One stage, expanded on top only. -/
def top : Xml → List Xml
  | .element tag attribs children =>
      if tag = pathTag then legs attribs (waypoints attribs) else [.element tag attribs children]
  | .pcData text => [.pcData text]

theorem stageProcessPath_eq {stage : Xml} {rest out : List Xml}
    (h : stageProcessPath stage rest = some out) : out = top stage ++ rest := by
  cases stage with
  | pcData text => cases h
  | element tag attribs stages =>
      simp only [stageProcessPath] at h
      split_ifs at h with htag
      · obtain ⟨v, hv, h⟩ := Option.bind_eq_some_iff.mp h
        rw [goStages_eq h, top, if_pos htag, waypoints, hv, Option.getD_some]
      · cases h
        rw [top, if_neg htag]
        rfl

theorem processStages_eq {stages out : List Xml} (h : processStages stages = some out) :
    out = stages.flatMap top := by
  induction stages generalizing out with
  | nil =>
      cases h
      rfl
  | cons stage stages ih =>
      obtain ⟨rest, hrest, h⟩ := Option.bind_eq_some_iff.mp h
      rw [stageProcessPath_eq h, ih hrest, List.flatMap_cons]

mutual

theorem expand_of_not_hasPath {x : Xml} (h : hasPath x = false) : expand x = [x] := by
  cases x with
  | pcData text => rfl
  | element tag attribs stages =>
      rw [hasPath, Bool.or_eq_false_iff, decide_eq_false_iff_not] at h
      rw [expand, if_neg h.1, expandAll_of_not_hasPaths h.2]

theorem expandAll_of_not_hasPaths {xs : List Xml} (h : hasPaths xs = false) :
    expandAll xs = xs := by
  cases xs with
  | nil => rfl
  | cons x xs =>
      rw [hasPaths, Bool.or_eq_false_iff] at h
      rw [expandAll, expand_of_not_hasPath h.1, expandAll_of_not_hasPaths h.2]
      rfl

end

theorem hasPaths_append (xs ys : List Xml) :
    hasPaths (xs ++ ys) = (hasPaths xs || hasPaths ys) := by
  induction xs with
  | nil => rfl
  | cons x xs ih => rw [List.cons_append, hasPaths, hasPaths, ih, Bool.or_assoc]

theorem hasPaths_eq_false_iff {xs : List Xml} :
    hasPaths xs = false ↔ ∀ x ∈ xs, hasPath x = false := by
  induction xs with
  | nil => simp [hasPaths]
  | cons x xs ih => simp [hasPaths, ih]

theorem hasPaths_legs (attribs : Attribs) (ws : List Text) :
    hasPaths (legs attribs ws) = false := by
  have hgo : ∀ attribs, hasPath (.element Text.go attribs []) = false := fun _ => rfl
  rw [hasPaths_eq_false_iff]
  intro x hx
  unfold legs at hx
  split at hx
  · rw [List.mem_singleton.mp hx]
    exact hgo _
  · obtain ⟨leg, -, rfl⟩ := List.mem_map.mp hx
    exact hgo _

mutual

theorem hasPaths_expand (x : Xml) : hasPaths (expand x) = false := by
  cases x with
  | pcData text => rfl
  | element tag attribs stages =>
      rw [expand]
      split_ifs with htag
      · exact hasPaths_legs _ _
      · simp [hasPaths, hasPath, htag, hasPaths_expandAll stages]

theorem hasPaths_expandAll (xs : List Xml) : hasPaths (expandAll xs) = false := by
  cases xs with
  | nil => rfl
  | cons x xs => rw [expandAll, hasPaths_append, hasPaths_expand, hasPaths_expandAll]; rfl

end

/-- Above stages without paths the expansion on top is all there is. -/
theorem flatMap_top {xs : List Xml}
    (h : ∀ tag attribs stages, .element tag attribs stages ∈ xs → tag ≠ pathTag →
      hasPaths stages = false) : xs.flatMap top = expandAll xs := by
  induction xs with
  | nil => rfl
  | cons x xs ih =>
      have htop : top x = expand x := by
        cases x with
        | pcData text => rfl
        | element tag attribs stages =>
            rw [top, expand]
            split_ifs with htag
            · rfl
            · rw [expandAll_of_not_hasPaths (h tag attribs stages List.mem_cons_self htag)]
      rw [List.flatMap_cons, expandAll, htop,
        ih fun tag attribs stages hmem => h tag attribs stages (List.mem_cons_of_mem _ hmem)]

/-- One block, expanded on top only. -/
def topBlock : Xml → Xml
  | .element tag attribs stages => .element tag attribs (stages.flatMap top)
  | .pcData text => .pcData text

theorem children_topBlock (b : Xml) : children (topBlock b) = (children b).flatMap top := by
  cases b with
  | pcData text => rfl
  | element tag attribs stages => rfl

theorem blockProcessPath_eq {b b' : Xml} (h : blockProcessPath b = some b') : b' = topBlock b := by
  cases b with
  | pcData text => cases h
  | element tag attribs stages =>
      obtain ⟨out, hout, rfl⟩ := Option.map_eq_some_iff.mp h
      rw [processStages_eq hout, topBlock]

theorem topBlock_eq {b : Xml}
    (h : ∀ tag attribs stages, .element tag attribs stages ∈ children b → tag ≠ pathTag →
      hasPaths stages = false) : topBlock b = expandBlock b := by
  cases b with
  | pcData text => rfl
  | element tag attribs stages =>
      have hstages : stages.flatMap top = expandAll stages := flatMap_top h
      rw [topBlock, expandBlock, hstages]

/-- The paths are expanded completely exactly when they stand directly in their blocks. -/
theorem paths_expanded_iff {flightPlan out : Sections}
    (h : processPaths flightPlan = some out) :
    Expanded flightPlan out ↔ PathsOnTop flightPlan := by
  obtain ⟨blocks, hblocks, rfl⟩ := Option.map_eq_some_iff.mp h
  obtain rfl := eq_map_of_mapM (fun _ _ => blockProcessPath_eq) hblocks
  constructor
  · rintro ⟨hnoPath, -⟩ b hb tag attribs stages hmem htag
    have hblock := hnoPath (topBlock b) (List.mem_map_of_mem hb)
    rw [children_topBlock, hasPaths_eq_false_iff] at hblock
    -- the stage stands in the result as it is
    have hstage := hblock (.element tag attribs stages)
      (List.mem_flatMap.mpr ⟨_, hmem, by rw [top, if_neg htag]; exact List.mem_singleton_self _⟩)
    rw [hasPath, Bool.or_eq_false_iff] at hstage
    exact hstage.2
  · intro honTop
    have hreplaced : flightPlan.blocks.map topBlock = flightPlan.blocks.map expandBlock :=
      List.map_congr_left fun b hb => topBlock_eq (honTop b hb)
    refine ⟨?_, by rw [hreplaced]⟩
    intro b hb
    rw [hreplaced] at hb
    obtain ⟨b, -, rfl⟩ := List.mem_map.mp hb
    cases b with
    | pcData text => rfl
    | element tag attribs stages => exact hasPaths_expandAll stages

/-! ### Examples -/

/-- A path in a loop. -/
def nestedPath : Sections where
  waypoints := []
  blocks := [.element Text.block [] [.element Text.while' []
    [.element pathTag [(wpts, ['a', ' ', 'b'])] []]]]
  exceptions := []
  sectors := []
  header := []

/-- A path over three waypoints in a block. -/
def topPath : Sections where
  waypoints := []
  blocks := [.element Text.block [] [.element pathTag [(wpts, ['a', ',', ' ', 'b', ' ', 'c'])] []]]
  exceptions := []
  sectors := []
  header := []

theorem paths_expanded_top :
    Expanded topPath { topPath with blocks := topPath.blocks.map expandBlock } ↔
      PathsOnTop topPath :=
  paths_expanded_iff rfl

theorem path_left_in_while :
    ¬ ∀ flightPlan out, processPaths flightPlan = some out → Expanded flightPlan out := by
  intro h
  obtain ⟨hnoPath, -⟩ := h nestedPath nestedPath rfl
  exact absurd (hnoPath _ List.mem_cons_self) (by decide)

end Paparazzi.FlightPlan.Paths
