import Paparazzi.FlightPlan.Includes
import Paparazzi.Library.Fallible

/-!
The blocks that the exceptions and deroutes of an included procedure name.
-/

namespace Paparazzi.FlightPlan.Includes

open Paparazzi.FlightPlan.ExprSyntax
open Paparazzi.FlightPlan.ExprParser
open Paparazzi.FlightPlan.ExprLexer
open Paparazzi.FlightPlan.CMeaning (micro)
open Paparazzi.FlightPlan.Procedure (transformExpression IsIdent)
open Paparazzi.Library.MapM

/-! ### Targets -/

/-- Where a block is named. -/
inductive Site where
  | exception
  | deroute
  deriving DecidableEq

def targetsOf (site : Site) (name : Text) (attribs : Attribs) : List (Site × Text) :=
  (attribs.filter fun a => lowercase a.1 = name).map fun a => (site, a.2)

def exceptionTargets : Xml → List (Site × Text)
  | .element _ attribs _ => targetsOf .exception Text.deroute attribs
  | .pcData _ => []

mutual

/-- The targets in a stage, in their order. -/
def stageTargets : Xml → List (Site × Text)
  | .element tag attribs children =>
      if lowercase tag = Text.exception then targetsOf .exception Text.deroute attribs
      else if lowercase tag = Text.while' then stagesTargets children
      else if lowercase tag = Text.deroute then targetsOf .deroute Text.block attribs
      else []
  | .pcData _ => []

def stagesTargets : List Xml → List (Site × Text)
  | [] => []
  | xml :: xmls => stageTargets xml ++ stagesTargets xmls

end

def blockTargets : Xml → List (Site × Text)
  | .element _ _ children => stagesTargets children
  | .pcData _ => []

def blockName : Xml → Option Text
  | .element _ attribs _ => attrib attribs Text.name
  | .pcData _ => none

/-- The targets of global exceptions and those in blocks. -/
def targets (exceptions blocks : List Xml) : List (Site × Text) :=
  exceptions.flatMap exceptionTargets ++ blocks.flatMap blockTargets

/-! ### What becomes of a target -/

section

variable {D : Type} (F : Doubles D) (env : List (Text × Text)) (prefixed : Text → Text)
  (reroutes : List (Text × Text))

/-- The target of an exception is routed and then taken for an expression, the one of a deroute is
routed. -/
def Becomes (x y : Site × Text) : Prop :=
  y.1 = x.1 ∧
    match x.1 with
    | .exception => newValue F env (route prefixed reroutes x.2) = some y.2
    | .deroute => y.2 = route prefixed reroutes x.2

theorem becomes_deroute (attribs : Attribs) :
    List.Forall₂ (Becomes F env prefixed reroutes) (targetsOf .deroute Text.block attribs)
      (targetsOf .deroute Text.block (prefixOrDeroute prefixed reroutes Text.block attribs)) := by
  induction attribs with
  | nil => exact .nil
  | cons a attribs ih =>
      rw [targetsOf, targetsOf, prefixOrDeroute, List.map_cons]
      by_cases hname : lowercase a.1 = Text.block
      · rw [List.filter_cons_of_pos (by simpa using hname),
          List.filter_cons_of_pos (by simpa using hname), if_pos hname]
        exact .cons ⟨rfl, rfl⟩ ih
      · rw [List.filter_cons_of_neg (by simpa using hname),
          List.filter_cons_of_neg (by simpa using hname)]
        exact ih

theorem becomes_exception {attribs attribs' : Attribs}
    (h : transformValues F env [] (prefixOrDeroute prefixed reroutes Text.deroute attribs) =
      some attribs') :
    List.Forall₂ (Becomes F env prefixed reroutes) (targetsOf .exception Text.deroute attribs)
      (targetsOf .exception Text.deroute attribs') := by
  induction attribs generalizing attribs' with
  | nil =>
      cases h
      exact .nil
  | cons a attribs ih =>
      obtain ⟨b, bs, hb, hbs, rfl⟩ := mapM_cons_eq_some h
      obtain ⟨v, hv, rfl⟩ := Option.map_eq_some_iff.mp hb
      rw [targetsOf, targetsOf]
      by_cases hname : lowercase a.1 = Text.deroute
      · rw [List.filter_cons_of_pos (by simpa using hname),
          List.filter_cons_of_pos (by simpa using hname)]
        dsimp only at hv
        rw [if_pos hname] at hv
        exact .cons ⟨rfl, hv⟩ (ih hbs)
      · rw [List.filter_cons_of_neg (by simpa using hname),
          List.filter_cons_of_neg (by simpa using hname)]
        exact ih hbs

theorem transformException_element {tag : Text} {attribs : Attribs} {children : List Xml}
    {xml' : Xml}
    (h : transformException F env prefixed reroutes (.element tag attribs children) = some xml') :
    ∃ attribs', xml' = .element tag attribs' [] ∧
      List.Forall₂ (Becomes F env prefixed reroutes) (targetsOf .exception Text.deroute attribs)
        (targetsOf .exception Text.deroute attribs') := by
  cases children with
  | cons child children => cases h
  | nil =>
      obtain ⟨attribs', hattribs, rfl⟩ := Option.map_eq_some_iff.mp h
      exact ⟨attribs', rfl, becomes_exception F env prefixed reroutes hattribs⟩

theorem becomes_transformException {xml xml' : Xml}
    (h : transformException F env prefixed reroutes xml = some xml') :
    List.Forall₂ (Becomes F env prefixed reroutes) (exceptionTargets xml)
      (exceptionTargets xml') := by
  cases xml with
  | pcData text => cases h
  | element tag attribs children =>
      obtain ⟨attribs', rfl, hattribs⟩ := transformException_element F env prefixed reroutes h
      exact hattribs

mutual

theorem becomes_transformStage : ∀ (xml xml' : Xml),
    transformStage F env prefixed reroutes xml = some xml' →
      List.Forall₂ (Becomes F env prefixed reroutes) (stageTargets xml) (stageTargets xml')
  | .pcData _, _, h => by
      rw [transformStage] at h
      cases h
  | .element tag attribs children, xml', h => by
      rw [transformStage] at h
      by_cases hexception : lowercase tag = Text.exception
      · rw [if_pos hexception] at h
        obtain ⟨attribs', rfl, hattribs⟩ := transformException_element F env prefixed reroutes h
        rw [stageTargets, stageTargets, if_pos hexception, if_pos hexception]
        exact hattribs
      rw [if_neg hexception] at h
      by_cases hwhile : lowercase tag = Text.while'
      · rw [if_pos hwhile] at h
        obtain ⟨attribs', -, h⟩ := Option.bind_eq_some_iff.mp h
        obtain ⟨children', hchildren, rfl⟩ := Option.map_eq_some_iff.mp h
        rw [stageTargets, stageTargets, if_neg hexception, if_neg hexception, if_pos hwhile,
          if_pos hwhile]
        exact becomes_transformStages children children' hchildren
      rw [if_neg hwhile] at h
      by_cases hderoute : lowercase tag = Text.deroute
      · rw [if_pos hderoute] at h
        split_ifs at h
        cases h
        rw [stageTargets, stageTargets, if_neg hexception, if_neg hexception, if_neg hwhile,
          if_neg hwhile, if_pos hderoute, if_pos hderoute]
        exact becomes_deroute F env prefixed reroutes attribs
      rw [if_neg hderoute] at h
      have hnone : ∀ attribs, stageTargets (.element tag attribs children) = [] := by
        intro attribs
        rw [stageTargets, if_neg hexception, if_neg hwhile, if_neg hderoute]
      split at h
      · split_ifs at h
        obtain ⟨attribs', -, rfl⟩ := Option.map_eq_some_iff.mp h
        rw [hnone, hnone]
        exact .nil
      · cases h

theorem becomes_transformStages : ∀ (xmls xmls' : List Xml),
    transformStages F env prefixed reroutes xmls = some xmls' →
      List.Forall₂ (Becomes F env prefixed reroutes) (stagesTargets xmls) (stagesTargets xmls')
  | [], _, h => by
      rw [transformStages] at h
      cases h
      rw [stagesTargets]
      exact .nil
  | xml :: xmls, xmls', h => by
      rw [transformStages] at h
      obtain ⟨y, hy, hrest⟩ := Option.bind_eq_some_iff.mp h
      obtain ⟨ys, hys, rfl⟩ := Option.map_eq_some_iff.mp hrest
      rw [stagesTargets, stagesTargets]
      exact List.rel_append (becomes_transformStage xml y hy) (becomes_transformStages xmls ys hys)

end

theorem becomes_transformBlock {xml xml' : Xml}
    (h : transformBlock F env prefixed reroutes xml = some xml') :
    List.Forall₂ (Becomes F env prefixed reroutes) (blockTargets xml) (blockTargets xml') := by
  cases xml with
  | pcData text => cases h
  | element tag attribs children =>
      obtain ⟨stages, hstages, h⟩ := Option.bind_eq_some_iff.mp h
      obtain ⟨name, -, rfl⟩ := Option.map_eq_some_iff.mp h
      exact becomes_transformStages F env prefixed reroutes children stages hstages

/-- The copy of a block has the name of the block with that of the include in front. -/
theorem blockName_transformBlock {xml xml' : Xml}
    (h : transformBlock F env prefixed reroutes xml = some xml') :
    blockName xml' = (blockName xml).map prefixed := by
  cases xml with
  | pcData text => cases h
  | element tag attribs children =>
      obtain ⟨stages, -, h⟩ := Option.bind_eq_some_iff.mp h
      obtain ⟨name, hname, rfl⟩ := Option.map_eq_some_iff.mp h
      rw [blockName, blockName, hname, substAttrib, attrib, List.find?_append]
      have hnone : (attribs.filter fun a => lowercase a.1 ≠ Text.name).find?
          (fun a => lowercase a.1 = Text.name) = none := by
        rw [List.find?_eq_none]
        intro a ha
        simpa using (List.mem_filter.mp ha).2
      rw [hnone]
      rfl

/-- The targets of the procedure and those of what is appended. -/
theorem becomes_targets {exceptions exceptions' blocks blocks' : List Xml}
    (hexceptions : exceptions.mapM (transformException F env prefixed reroutes) =
      some exceptions')
    (hblocks : blocks.mapM (transformBlock F env prefixed reroutes) = some blocks') :
    List.Forall₂ (Becomes F env prefixed reroutes) (targets exceptions blocks)
      (targets exceptions' blocks') := by
  apply List.rel_append
  · exact List.rel_flatMap (forall₂_of_mapM hexceptions) fun _ _ h =>
      becomes_transformException F env prefixed reroutes h
  · exact List.rel_flatMap (forall₂_of_mapM hblocks) fun _ _ h =>
      becomes_transformBlock F env prefixed reroutes h

theorem map_blockName {blocks blocks' : List Xml}
    (hblocks : blocks.mapM (transformBlock F env prefixed reroutes) = some blocks') :
    blocks'.map blockName = blocks.map fun xml => (blockName xml).map prefixed := by
  have hall := forall₂_of_mapM hblocks
  clear hblocks
  induction hall with
  | nil => rfl
  | cons h _ ih =>
      rw [List.map_cons, List.map_cons, ih, blockName_transformBlock F env prefixed reroutes h]

/-! ### Routing -/

/-- The text of a block name is an expression, and the one that is printed for it with the
arguments in it. -/
def Fixed (v : Text) : Prop := newValue F env v = some v

theorem Becomes.eq_iff {x y : Site × Text} (h : Becomes F env prefixed reroutes x y) :
    y = (x.1, route prefixed reroutes x.2) ↔
      (x.1 = .exception → Fixed F env (route prefixed reroutes x.2)) := by
  obtain ⟨site, v⟩ := x
  obtain ⟨site', w⟩ := y
  obtain ⟨hsite, hw⟩ := h
  dsimp only at hsite
  subst hsite
  cases site' with
  | exception =>
      dsimp only at hw
      rw [Fixed, hw]
      simp
  | deroute =>
      dsimp only at hw
      rw [hw]
      simp

theorem eq_map_iff_of_becomes {xs ys : List (Site × Text)}
    (h : List.Forall₂ (Becomes F env prefixed reroutes) xs ys) :
    ys = xs.map (fun x => (x.1, route prefixed reroutes x.2)) ↔
      ∀ x ∈ xs, x.1 = .exception → Fixed F env (route prefixed reroutes x.2) := by
  induction h with
  | nil => simp
  | cons h _ ih =>
      rw [List.map_cons, List.cons.injEq, List.forall_mem_cons, ih,
        Becomes.eq_iff F env prefixed reroutes h]

end

/-- Every target names the block that it is rerouted to, or else the copy of its block; the copies
of the blocks are appended under their names. -/
def Routed (flightPlan out : Sections) (inc : Include) (proc : Procedure) : Prop :=
  ∃ exceptions blocks,
    out.exceptions = flightPlan.exceptions ++ exceptions ∧
    out.blocks = flightPlan.blocks ++ blocks ∧
    blocks.map blockName = (proc.blocks.map fun xml => (blockName xml).map inc.prefixed) ∧
    targets exceptions blocks =
      (targets proc.exceptions proc.blocks).map
        fun x => (x.1, route inc.prefixed inc.reroutes x.2)

theorem parseInclude_eq {D : Type} (F : Doubles D) {flightPlan : Sections} {inc : Include}
    {proc : Procedure} {env : List (Text × Text)} {exceptions blocks : List Xml}
    (henv : proc.params.mapM (makeAssoc inc.args) = some env)
    (hexceptions : proc.exceptions.mapM (transformException F env inc.prefixed inc.reroutes) =
      some exceptions)
    (hblocks : proc.blocks.mapM (transformBlock F env inc.prefixed inc.reroutes) = some blocks) :
    parseInclude F flightPlan inc proc =
      some ⟨flightPlan.waypoints ++ proc.waypoints, flightPlan.blocks ++ blocks,
        flightPlan.exceptions ++ exceptions, flightPlan.sectors ++ proc.sectors,
        flightPlan.header ++ '\n' :: proc.header⟩ := by
  rw [parseInclude, henv, Option.bind_some, hexceptions, Option.bind_some, hblocks]
  rfl

/-- An include routes to the right blocks exactly when the name that each exception should get
comes out of the expression printer as it went into the parser. -/
theorem include_routes_iff {D : Type} (F : Doubles D) (flightPlan out : Sections) (inc : Include)
    (proc : Procedure) (env : List (Text × Text))
    (henv : proc.params.mapM (makeAssoc inc.args) = some env)
    (h : parseInclude F flightPlan inc proc = some out) :
    Routed flightPlan out inc proc ↔
      ∀ t, (.exception, t) ∈ targets proc.exceptions proc.blocks →
        Fixed F env (route inc.prefixed inc.reroutes t) := by
  rw [parseInclude, henv, Option.bind_some] at h
  obtain ⟨exceptions, hexceptions, h⟩ := Option.bind_eq_some_iff.mp h
  obtain ⟨blocks, hblocks, rfl⟩ := Option.map_eq_some_iff.mp h
  have hbecomes := becomes_targets F env inc.prefixed inc.reroutes hexceptions hblocks
  have hiff := eq_map_iff_of_becomes F env inc.prefixed inc.reroutes hbecomes
  constructor
  · rintro ⟨exceptions', blocks', hexceptions', hblocks', -, htargets⟩ t ht
    obtain rfl := List.append_cancel_left hexceptions'
    obtain rfl := List.append_cancel_left hblocks'
    exact hiff.mp htargets (.exception, t) ht rfl
  · intro hfixed
    refine ⟨exceptions, blocks, rfl, rfl,
      map_blockName F env inc.prefixed inc.reroutes hblocks, hiff.mpr ?_⟩
    rintro ⟨site, t⟩ hx hsite
    cases hsite
    exact hfixed t hx

/-! ### Names -/

/-- A block whose name is an identifier is found again, whatever the parameters are called. -/
theorem fixed_prefixed {D : Type} (F : Doubles D) (env : List (Text × Text)) (inc : Include)
    {t : Text} (hname : IsIdent inc.name) (ht : IsIdent t) : Fixed F env (inc.prefixed t) := by
  have hparse : parseExpression F (inc.prefixed t) = some (.first [] (.field inc.name t) []) :=
    @Procedure.parseExpression_transform D F [] (.field inc.name t) ⟨hname, ht⟩
  rw [Fixed, newValue, hparse]
  rfl

/-- An exception that has only a target. -/
theorem transformException_deroute {D : Type} (F : Doubles D) (env : List (Text × Text))
    (inc : Include) {t v : Text}
    (h : newValue F env (route inc.prefixed inc.reroutes t) = some v) :
    transformException F env inc.prefixed inc.reroutes
        (.element Text.exception [(Text.deroute, t)] []) =
      some (.element Text.exception [(Text.deroute, v)] []) := by
  have hattrib : transformAttrib F env [] (Text.deroute, route inc.prefixed inc.reroutes t) =
      some (Text.deroute, v) := by
    rw [transformAttrib, h]
    rfl
  have hattribs : transformValues F env []
      (prefixOrDeroute inc.prefixed inc.reroutes Text.deroute [(Text.deroute, t)]) =
        some [(Text.deroute, v)] := mapM_singleton hattrib
  rw [transformException, hattribs]
  rfl

def blockA : Xml :=
  .element Text.block [(Text.name, ['a'])] [.element Text.deroute [(Text.block, ['a'])] []]

/-- A procedure with the block `a`, to which an exception leads. -/
def procedureA : Procedure :=
  ⟨[], [], [blockA], [.element Text.exception [(Text.deroute, ['a'])] []], [], []⟩

def includeP : Include := ⟨['p'], [], []⟩

def emptyPlan : Sections := ⟨[], [], [], [], []⟩

theorem include_routes_block :
    Routed emptyPlan
        ⟨[], [.element Text.block [(Text.name, ['p', '.', 'a'])]
          [.element Text.deroute [(Text.block, ['p', '.', 'a'])] []]],
          [.element Text.exception [(Text.deroute, ['p', '.', 'a'])] []], [], ['\n']⟩
        includeP procedureA ↔
      ∀ t, (.exception, t) ∈ targets procedureA.exceptions procedureA.blocks →
        Fixed micro [] (route includeP.prefixed includeP.reroutes t) :=
  include_routes_iff micro _ _ _ _ [] rfl (by
    have hfixed : newValue micro [] ['p', '.', 'a'] = some ['p', '.', 'a'] :=
      fixed_prefixed micro [] includeP ⟨rfl, rfl⟩ ⟨rfl, rfl⟩
    have hexception := transformException_deroute micro [] includeP hfixed
    exact parseInclude_eq micro rfl (mapM_singleton hexception) rfl)

/-- The block `a-b` is a difference of a field and a variable. -/
theorem include_routes_nowhere :
    ¬ ∀ out, parseInclude micro emptyPlan includeP
        ⟨[], [], [.element Text.block [(Text.name, ['a', '-', 'b'])] []],
          [.element Text.exception [(Text.deroute, ['a', '-', 'b'])] []], [], []⟩ = some out →
      Routed emptyPlan out includeP
        ⟨[], [], [.element Text.block [(Text.name, ['a', '-', 'b'])] []],
          [.element Text.exception [(Text.deroute, ['a', '-', 'b'])] []], [], []⟩ := by
  intro h
  have hvalue : newValue micro [] ['p', '.', 'a', '-', 'b'] =
      some ['(', 'p', '.', 'a', '-', 'b', ')'] := by
    have hlex : exprLex micro ['p', '.', 'a', '-', 'b'] =
        some [.ident ['p'], .dot, .ident ['a'], .binary .minus, .ident ['b']] :=
      exprLex_token rfl (exprLex_token rfl (exprLex_token rfl (exprLex_token rfl
        (exprLex_token rfl (exprLex_nil micro)))))
    rw [newValue, parseExpression, hlex]
    rfl
  have hexception := transformException_deroute micro [] includeP hvalue
  have hout : parseInclude micro emptyPlan includeP
      ⟨[], [], [.element Text.block [(Text.name, ['a', '-', 'b'])] []],
        [.element Text.exception [(Text.deroute, ['a', '-', 'b'])] []], [], []⟩ =
      some ⟨[], [.element Text.block [(Text.name, ['p', '.', 'a', '-', 'b'])] []],
        [.element Text.exception [(Text.deroute, ['(', 'p', '.', 'a', '-', 'b', ')'])] []], [],
        ['\n']⟩ := parseInclude_eq micro rfl (mapM_singleton hexception) rfl
  obtain ⟨exceptions, blocks, hexceptions, hblocks, -, htargets⟩ := h _ hout
  obtain rfl : _ = exceptions := hexceptions
  obtain rfl : _ = blocks := hblocks
  exact absurd htargets (by decide)

end Paparazzi.FlightPlan.Includes
