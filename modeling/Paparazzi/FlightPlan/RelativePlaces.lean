import Mathlib
import Paparazzi.FlightPlan.RelativeWaypoints
import Paparazzi.Library.IntText

/-!
When the relative waypoints of a flight plan are at the places that are asked for.
-/

namespace Paparazzi.FlightPlan.RelativeWaypoints

open Paparazzi.FlightPlan.Includes
open Paparazzi.FlightPlan.Paths (processPaths)
open Paparazzi.Library.MapM

/-! ### Names -/

theorem eq_of_append_underscore {a b u v : Text} (hu : '_' ∉ u) (hv : '_' ∉ v)
    (h : a ++ '_' :: u = b ++ '_' :: v) : a = b ∧ u = v := by
  have hnil : ∀ {c u v : Text}, '_' ∉ u → '_' :: u = c ++ '_' :: v → c = [] := by
    intro c u v hu h
    cases c with
    | nil => rfl
    | cons x c =>
        rw [List.cons_append, List.cons.injEq] at h
        refine absurd ?_ hu
        rw [h.2]
        exact List.mem_append_right _ List.mem_cons_self
  rcases List.append_eq_append_iff.mp h with ⟨c, rfl, hc⟩ | ⟨c, rfl, hc⟩
  · cases hnil hu hc
    exact ⟨(List.append_nil a).symm, (List.cons.inj hc).2⟩
  · cases hnil hv hc
    exact ⟨List.append_nil b, (List.cons.inj hc).2.symm⟩

section

variable {K : Type} {F : Numbers K}

theorem newName_inj {wp wp' : Text} {q d q' d' : K} (h : newName F wp q d = newName F wp' q' d') :
    wp = wp' ∧ F.rounded q = F.rounded q' ∧ F.rounded d = F.rounded d' := by
  have hassoc : ∀ wp q d, newName F wp q d =
      (wp ++ '_' :: F.rounded q) ++ '_' :: F.rounded d := by
    intro wp q d
    rw [newName, List.append_assoc, List.cons_append]
  rw [hassoc, hassoc] at h
  obtain ⟨hfront, hdist⟩ :=
    eq_of_append_underscore (F.underscore_not_mem _) (F.underscore_not_mem _) h
  obtain ⟨hwp, hqdr⟩ :=
    eq_of_append_underscore (F.underscore_not_mem _) (F.underscore_not_mem _) hfront
  exact ⟨hwp, hqdr, hdist⟩

theorem newName_ne_dummy (wp : Text) (q d : K) : newName F wp q d ≠ Text.dummy := by
  intro h
  have hmem : '_' ∈ newName F wp q d := List.mem_append_right _ List.mem_cons_self
  rw [h] at hmem
  revert hmem
  decide

/-! ### Waypoints by name -/

theorem xmlAssocName_append_of_ne {g ws : List (Waypoint K)} {wp : Text}
    (h : ∀ w ∈ g, ∃ n, w.name = some n ∧ n ≠ wp) :
    xmlAssocName wp (g ++ ws) = xmlAssocName wp ws := by
  induction g with
  | nil => rfl
  | cons w g ih =>
      obtain ⟨⟨n, hname, hne⟩, hg⟩ := List.forall_mem_cons.mp h
      rw [List.cons_append, xmlAssocName, hname, Option.bind_some, if_neg hne]
      exact ih hg

theorem xmlAssocName_append_of_mem {g ws : List (Waypoint K)} {wp : Text}
    (h : ∀ w ∈ g, ∃ n, w.name = some n) (hmem : ∃ w ∈ g, w.name = some wp) :
    ∃ w ∈ g, w.name = some wp ∧ xmlAssocName wp (g ++ ws) = some w := by
  induction g with
  | nil =>
      obtain ⟨w, hw, -⟩ := hmem
      cases hw
  | cons w g ih =>
      obtain ⟨⟨n, hname⟩, hg⟩ := List.forall_mem_cons.mp h
      rw [List.cons_append, xmlAssocName, hname, Option.bind_some]
      rcases Decidable.em (n = wp) with rfl | hne
      · rw [if_pos rfl]
        exact ⟨w, List.mem_cons_self, hname, rfl⟩
      · rw [if_neg hne]
        obtain ⟨v, hv, hvname⟩ := hmem
        rcases List.mem_cons.mp hv with rfl | hv
        · cases hname.symm.trans hvname
          exact absurd rfl hne
        · obtain ⟨u, hu, huname, heq⟩ := ih hg ⟨v, hv, hvname⟩
          exact ⟨u, List.mem_cons_of_mem _ hu, huname, heq⟩

theorem mapM_localizeWaypoint_append {g ws wl : List (Waypoint K)} (hg : ∀ w ∈ g, w.lat = none)
    (h : (g ++ ws).mapM (localizeWaypoint F) = some wl) :
    ∃ wl', ws.mapM (localizeWaypoint F) = some wl' ∧ wl = g ++ wl' := by
  induction g generalizing wl with
  | nil => exact ⟨wl, h, rfl⟩
  | cons w g ih =>
      obtain ⟨hlat, hg⟩ := List.forall_mem_cons.mp hg
      obtain ⟨v, vs, hv, hvs, rfl⟩ := mapM_cons_eq_some h
      obtain ⟨wl', hwl', rfl⟩ := ih hg hvs
      rw [localizeWaypoint, hlat] at hv
      cases hv
      exact ⟨wl', hwl', rfl⟩

/-! ### Attributes -/

theorem attrib_removeAttribs {attribs : Attribs} {names : List Text} {name : Text}
    (h : name ∉ names) : attrib (removeAttribs attribs names) name = attrib attribs name := by
  rw [attrib, removeAttribs, List.find?_filter, attrib]
  congr 2
  funext a
  rcases Decidable.em (lowercase a.1 = name) with heq | hne
  · simp [heq, h]
  · simp [hne]

theorem attrib_cons_self {attribs : Attribs} {name v : Text} (h : lowercase name = name) :
    attrib ((name, v) :: attribs) name = some v := by
  simp only [attrib, List.find?_cons, h, decide_true, Option.map_some]

theorem attrib_cons_of_ne {attribs : Attribs} {name name' v : Text} (h : lowercase name' ≠ name) :
    attrib ((name', v) :: attribs) name = attrib attribs name := by
  simp only [attrib, List.find?_cons, h, decide_false]

theorem lowercase_key (k : Ref) : lowercase k.key = k.key := by
  cases k <;> decide

/-- The attributes of the other relative waypoint stay. -/
theorem attrib_replaced {k k' : Ref} (hk : k ≠ k') {name v : Text} (hname : name ∈ k'.names)
    (attribs : Attribs) :
    attrib ((k.key, v) :: removeAttribs attribs k.names) name = attrib attribs name := by
  have hne : ∀ name ∈ k'.names, lowercase k.key ≠ name ∧ name ∉ k.names := by
    cases k <;> cases k' <;> first | exact absurd rfl hk | decide
  obtain ⟨hkey, hnames⟩ := hne name hname
  rw [attrib_cons_of_ne hkey, attrib_removeAttribs hnames]

theorem asked_replaced {k k' : Ref} (hk : k ≠ k') {v : Text} (attribs : Attribs) :
    asked F k' ((k.key, v) :: removeAttribs attribs k.names) = asked F k' attribs := by
  simp only [asked]
  rw [attrib_replaced hk (List.mem_cons_of_mem _ List.mem_cons_self),
    attrib_replaced hk (List.mem_cons_of_mem _ (List.mem_cons_of_mem _ List.mem_cons_self)),
    attrib_replaced hk List.mem_cons_self]

theorem asked_eq_some {k : Ref} {attribs : Attribs} {wp : Text} {q d : K}
    (h : asked F k attribs = some (wp, q, d)) :
    ∃ qdr dist, IsRelative k attribs wp qdr dist ∧ F.floatOfString qdr = some q ∧
      F.floatOfString dist = some d := by
  obtain ⟨q', hq, h⟩ := Option.bind_eq_some_iff.mp h
  obtain ⟨d', hd, h⟩ := Option.bind_eq_some_iff.mp h
  obtain ⟨wp', hwp, h⟩ := Option.map_eq_some_iff.mp h
  cases h
  obtain ⟨qdr, hqdr, hq⟩ := Option.bind_eq_some_iff.mp hq
  obtain ⟨dist, hdist, hd⟩ := Option.bind_eq_some_iff.mp hd
  exact ⟨qdr, dist, ⟨hwp, hqdr, hdist⟩, hq, hd⟩

theorem asked_of_isRelative {k : Ref} {attribs : Attribs} {wp qdr dist : Text} {q d : K}
    (h : IsRelative k attribs wp qdr dist) (hq : F.floatOfString qdr = some q)
    (hd : F.floatOfString dist = some d) : asked F k attribs = some (wp, q, d) := by
  rw [asked, h.qdr_eq, h.dist_eq, h.key_eq, Option.bind_some, Option.bind_some, hq, hd]
  rfl

end

/-! ### What a stage makes -/

section

variable {K : Type} [Ring K] {F : Numbers K} {raw : List (Waypoint K)}

/-- The waypoint made for a stage from the waypoints of the file. -/
def made (F : Numbers K) (raw : List (Waypoint K)) (k : Ref) (stage : Bool × Attribs) :
    Option (Waypoint K) :=
  if stage.1 = true then
    (asked F k stage.2).bind fun a => newWaypoint F a.1 a.2.1 a.2.2 raw
  else none

/-- A waypoint that was made for the stage, at `base` and the offset. -/
structure Makes (F : Numbers K) (raw : List (Waypoint K)) (k : Ref) (stage : Bool × Attribs)
    (w : Waypoint K) (wp : Text) (q d : K) (base : K × K) : Prop where
  rewritten : Rewritten F raw k stage wp q d
  base_eq : placeOf F raw wp = some base
  name_eq : w.name = some (newName F wp q d)
  place_eq : g2DOfWaypoint F w = some (base + polar F q d)
  lat_eq : w.lat = none

theorem newWaypoint_eq_some {wp : Text} {q d : K} {w : Waypoint K}
    (h : newWaypoint F wp q d raw = some w) :
    ∃ base, placeOf F raw wp = some base ∧ w.name = some (newName F wp q d) ∧
      g2DOfWaypoint F w = some (base + polar F q d) ∧ w.lat = none := by
  obtain ⟨v, hv, h⟩ := Option.bind_eq_some_iff.mp h
  obtain ⟨base, hbase, rfl⟩ := Option.map_eq_some_iff.mp h
  refine ⟨base, ?_, rfl, rfl, rfl⟩
  rw [placeOf, hv, Option.bind_some, hbase]

theorem makes_of_made {k : Ref} {stage : Bool × Attribs} {w : Waypoint K}
    (h : made F raw k stage = some w) : ∃ wp q d base, Makes F raw k stage w wp q d base := by
  rw [made] at h
  split_ifs at h with hinWhile
  obtain ⟨⟨wp, q, d⟩, hasked, h⟩ := Option.bind_eq_some_iff.mp h
  obtain ⟨base, hbase, hname, hplace, hlat⟩ := newWaypoint_eq_some h
  exact ⟨wp, q, d, base, ⟨hinWhile, hasked, by rw [hbase]; rfl⟩, hbase, hname, hplace, hlat⟩

theorem made_of_rewritten {k : Ref} {stage : Bool × Attribs} {wp : Text} {q d : K}
    (h : Rewritten F raw k stage wp q d) :
    ∃ w base, made F raw k stage = some w ∧ Makes F raw k stage w wp q d base := by
  obtain ⟨hinWhile, hasked, hsome⟩ := h
  obtain ⟨base, hbase⟩ := Option.isSome_iff_exists.mp hsome
  obtain ⟨v, hv, hplace⟩ := Option.bind_eq_some_iff.mp hbase
  have hmade : ∃ w, made F raw k stage = some w := by
    rw [made, if_pos hinWhile, hasked, Option.bind_some, newWaypoint, hv, Option.bind_some, hplace]
    exact ⟨_, rfl⟩
  obtain ⟨w, hw⟩ := hmade
  obtain ⟨wp', q', d', base', hmakes⟩ := makes_of_made hw
  cases hasked.symm.trans hmakes.rewritten.2.1
  exact ⟨w, base', hw, hmakes⟩

/-! ### The passes -/

/-- A stage before and after: the references that were made are new, the others stay. -/
def After (F : Numbers K) (raw : List (Waypoint K)) (stage stage' : Bool × Attribs) : Prop :=
  ∀ k, attrib stage'.2 k.key =
    (made F raw k stage).elim (attrib stage.2 k.key) Waypoint.name

/-- The stages before and after a pass, with the waypoints that were added before and after. -/
structure Serves (F : Numbers K) (raw : List (Waypoint K)) (stages stages' : List (Bool × Attribs))
    (g g' : List (Waypoint K)) : Prop where
  after : List.Forall₂ (After F raw) stages stages'
  mem_iff : ∀ w, w ∈ g' ↔ w ∈ g ∨ ∃ s ∈ stages, ∃ k, made F raw k s = some w

theorem Serves.nil (g : List (Waypoint K)) : Serves F raw [] [] g g := by
  refine ⟨.nil, fun w => ?_⟩
  simp only [List.not_mem_nil, false_and, exists_false, or_false]

theorem Serves.append {s₁ s₂ t₁ t₂ : List (Bool × Attribs)} {g g' g'' : List (Waypoint K)}
    (h : Serves F raw s₁ t₁ g g') (h' : Serves F raw s₂ t₂ g' g'') :
    Serves F raw (s₁ ++ s₂) (t₁ ++ t₂) g g'' := by
  refine ⟨List.rel_append h.after h'.after, fun w => ?_⟩
  rw [h'.mem_iff, h.mem_iff, or_assoc]
  simp only [List.mem_append, or_and_right, exists_or]

theorem Serves.of_false {stages : List (Bool × Attribs)} (h : ∀ s ∈ stages, s.1 = false)
    (g : List (Waypoint K)) : Serves F raw stages stages g g := by
  have hnone : ∀ s ∈ stages, ∀ k, made F raw k s = none := by
    intro s hs k
    rw [made, if_neg]
    rw [h s hs]
    exact Bool.false_ne_true
  refine ⟨List.forall₂_same.mpr fun s hs k => ?_, fun w => ?_⟩
  · rw [hnone s hs k, Option.elim_none]
  · constructor
    · exact Or.inl
    · rintro (hw | ⟨s, hs, k, hw⟩)
      · exact hw
      · cases (hnone s hs k).symm.trans hw

mutual

theorem eq_false_of_mem_moves {x : Xml} {s : Bool × Attribs} (h : s ∈ moves false x) :
    s.1 = false := by
  cases x with
  | pcData text => cases h
  | element tag attribs children =>
      rw [moves] at h
      split_ifs at h
      · cases List.mem_singleton.mp h
        rfl
      · exact eq_false_of_mem_movesAll h

theorem eq_false_of_mem_movesAll {xs : List Xml} {s : Bool × Attribs}
    (h : s ∈ movesAll false xs) : s.1 = false := by
  cases xs with
  | nil => cases h
  | cons x xs =>
      rcases List.mem_append.mp h with h | h
      · exact eq_false_of_mem_moves h
      · exact eq_false_of_mem_movesAll h

end

/-- The bases that stages ask for have no names that were made. -/
def Kept (F : Numbers K) (raw : List (Waypoint K)) (stages : List (Bool × Attribs)) : Prop :=
  ∀ s ∈ stages, ∀ k wp q d, asked F k s.2 = some (wp, q, d) →
    ∀ s' ∈ stages, ∀ k' w, made F raw k' s' = some w → w.name ≠ some wp

section

variable {all : List (Bool × Attribs)}

/-- The waypoints that were added so far were made for stages of the plan. -/
def FromStages (F : Numbers K) (raw : List (Waypoint K)) (all : List (Bool × Attribs))
    (g : List (Waypoint K)) : Prop :=
  ∀ w ∈ g, ∃ s ∈ all, ∃ k, made F raw k s = some w

theorem name_of_fromStages {g : List (Waypoint K)} (hg : FromStages F raw all g) :
    ∀ w ∈ g, ∃ n, w.name = some n := by
  intro w hw
  obtain ⟨s, -, k, hmade⟩ := hg w hw
  obtain ⟨wp, q, d, base, hmakes⟩ := makes_of_made hmade
  exact ⟨_, hmakes.name_eq⟩

theorem Serves.fromStages {stages stages' : List (Bool × Attribs)} {g g' : List (Waypoint K)}
    (h : Serves F raw stages stages' g g') (hsub : ∀ s ∈ stages, s ∈ all)
    (hg : FromStages F raw all g) : FromStages F raw all g' := by
  intro w hw
  rcases (h.mem_iff w).mp hw with hw | ⟨s, hs, k, hmade⟩
  · exact hg w hw
  · exact ⟨s, hsub s hs, k, hmade⟩

/-- One replacement: it does what it would do with the waypoints of the file alone. -/
theorem replace_eq (hkept : Kept F raw all) {k : Ref} {attribs : Attribs} {children : List Xml}
    {g : List (Waypoint K)} {attribs₀ : Attribs} (hmem : (true, attribs₀) ∈ all)
    (hsame : asked F k attribs = asked F k attribs₀) (hg : FromStages F raw all g) :
    replace F k (attribs, children) (g ++ raw) =
      match made F raw k (true, attribs₀) with
      | none => ((attribs, children), g ++ raw)
      | some w => (((k.key, w.name.getD []) :: removeAttribs attribs k.names, []),
          w :: (g ++ raw)) := by
  rw [replace, made, if_pos rfl]
  dsimp only
  rw [hsame]
  cases hasked : asked F k attribs₀ with
  | none => rfl
  | some a =>
      obtain ⟨wp, q, d⟩ := a
      have hlookup : xmlAssocName wp (g ++ raw) = xmlAssocName wp raw := by
        refine xmlAssocName_append_of_ne fun w hw => ?_
        obtain ⟨n, hname⟩ := name_of_fromStages hg w hw
        obtain ⟨s, hs, k', hmade⟩ := hg w hw
        refine ⟨n, hname, ?_⟩
        rintro rfl
        exact hkept _ hmem k _ q d hasked s hs k' w hmade hname
      have hnew : newWaypoint F wp q d (g ++ raw) = newWaypoint F wp q d raw := by
        rw [newWaypoint, hlookup, newWaypoint]
      simp only [Option.bind_some, hnew]
      cases hw : newWaypoint F wp q d raw with
      | none => rfl
      | some w =>
          obtain ⟨base, -, hname, -, -⟩ := newWaypoint_eq_some hw
          simp only [hname, Option.getD_some]

theorem replace_spec (hkept : Kept F raw all) {k : Ref} {attribs attribs₀ : Attribs}
    (children : List Xml) {g : List (Waypoint K)} (hmem : (true, attribs₀) ∈ all)
    (hsame : asked F k attribs = asked F k attribs₀)
    (hkey : attrib attribs k.key = attrib attribs₀ k.key) (hg : FromStages F raw all g) :
    ∃ attribs' children' g',
      replace F k (attribs, children) (g ++ raw) = ((attribs', children'), g' ++ raw) ∧
      attrib attribs' k.key =
        (made F raw k (true, attribs₀)).elim (attrib attribs₀ k.key) Waypoint.name ∧
      (∀ k', k ≠ k' → asked F k' attribs' = asked F k' attribs ∧
        attrib attribs' k'.key = attrib attribs k'.key) ∧
      ∀ w, w ∈ g' ↔ w ∈ g ∨ made F raw k (true, attribs₀) = some w := by
  rw [replace_eq hkept hmem hsame hg]
  cases hmade : made F raw k (true, attribs₀) with
  | none =>
      refine ⟨attribs, children, g, rfl, hkey, fun k' _ => ⟨rfl, rfl⟩, fun w => ?_⟩
      simp only [reduceCtorEq, or_false]
  | some w =>
      obtain ⟨wp, q, d, base, hmakes⟩ := makes_of_made hmade
      refine ⟨_, [], w :: g, rfl, ?_, fun k' hk => ⟨asked_replaced hk _, ?_⟩, fun v => ?_⟩
      · rw [attrib_cons_self (lowercase_key k), Option.elim_some, hmakes.name_eq, Option.getD_some]
      · exact attrib_replaced hk List.mem_cons_self _
      · rw [List.mem_cons, or_comm, Option.some.injEq, eq_comm]

/-- The two replacements of a stage. -/
theorem serves_move (hkept : Kept F raw all) {attribs : Attribs} (children : List Xml)
    {g : List (Waypoint K)} (hmem : (true, attribs) ∈ all) (hg : FromStages F raw all g) :
    ∃ attribs' children' g',
      replace F .from_ (replace F .wp (attribs, children) (g ++ raw)).1
          (replace F .wp (attribs, children) (g ++ raw)).2 =
        ((attribs', children'), g' ++ raw) ∧
      Serves F raw [(true, attribs)] [(true, attribs')] g g' := by
  obtain ⟨a₁, c₁, g₁, h₁, hkey₁, hother₁, hmem₁⟩ := replace_spec hkept children hmem rfl rfl hg
    (k := .wp)
  have hg₁ : FromStages F raw all g₁ := by
    intro w hw
    rcases (hmem₁ w).mp hw with hw | hw
    · exact hg w hw
    · exact ⟨_, hmem, _, hw⟩
  obtain ⟨hasked, hattrib⟩ := hother₁ .from_ (by decide)
  obtain ⟨a₂, c₂, g₂, h₂, hkey₂, hother₂, hmem₂⟩ :=
    replace_spec hkept c₁ hmem hasked hattrib hg₁ (k := .from_)
  refine ⟨a₂, c₂, g₂, by rw [h₁, h₂], .cons (fun k => ?_) .nil, fun w => ?_⟩
  · cases k with
    | wp => rw [(hother₂ .wp (by decide)).2, hkey₁]
    | from_ => exact hkey₂
  · rw [hmem₂, hmem₁, or_assoc]
    constructor
    · rintro (hw | hw | hw)
      · exact Or.inl hw
      · exact Or.inr ⟨_, List.mem_cons_self, _, hw⟩
      · exact Or.inr ⟨_, List.mem_cons_self, _, hw⟩
    · rintro (hw | ⟨s, hs, k, hw⟩)
      · exact Or.inl hw
      · cases List.mem_singleton.mp hs
        cases k with
        | wp => exact Or.inr (Or.inl hw)
        | from_ => exact Or.inr (Or.inr hw)

mutual

theorem serves_processStage (hkept : Kept F raw all) {x y : Xml} {g ws : List (Waypoint K)}
    (hsub : ∀ s ∈ moves true x, s ∈ all) (hg : FromStages F raw all g)
    (h : processStage F x (g ++ raw) = some (y, ws)) :
    ∃ g', ws = g' ++ raw ∧ Serves F raw (moves true x) (moves true y) g g' := by
  cases x with
  | pcData text => cases h
  | element tag attribs children =>
      rw [processStage] at h
      split_ifs at h with hmove hwhile
      · rw [moves, if_pos hmove] at hsub
        obtain ⟨attribs', children', g', heq, hserves⟩ :=
          serves_move hkept children (hsub _ List.mem_cons_self) hg
        simp only [heq] at h
        cases h
        refine ⟨g', rfl, ?_⟩
        rw [moves, if_pos hmove, moves, if_pos hmove]
        exact hserves
      · obtain ⟨r, hr, heq⟩ := Option.map_eq_some_iff.mp h
        cases heq
        have hchildren : moves true (.element tag attribs children) = movesAll true children := by
          rw [moves, if_neg hmove, decide_eq_true hwhile, Bool.and_self]
        have hout : moves true (.element Includes.Text.while' attribs r.1) = movesAll true r.1 := by
          rw [moves, if_neg (by decide)]
          rfl
        rw [hchildren, hout]
        rw [hchildren] at hsub
        exact serves_processStages hkept hsub hg hr
      · cases h
        refine ⟨g, rfl, Serves.of_false (fun s hs => ?_) g⟩
        rw [moves, if_neg hmove, decide_eq_false hwhile, Bool.and_false] at hs
        exact eq_false_of_mem_movesAll hs

theorem serves_processStages (hkept : Kept F raw all) {xs ys : List Xml}
    {g ws : List (Waypoint K)} (hsub : ∀ s ∈ movesAll true xs, s ∈ all)
    (hg : FromStages F raw all g) (h : processStages F xs (g ++ raw) = some (ys, ws)) :
    ∃ g', ws = g' ++ raw ∧ Serves F raw (movesAll true xs) (movesAll true ys) g g' := by
  cases xs with
  | nil =>
      cases h
      exact ⟨g, rfl, Serves.nil g⟩
  | cons x xs =>
      rw [processStages] at h
      obtain ⟨⟨y, ws₁⟩, hx, h⟩ := Option.bind_eq_some_iff.mp h
      obtain ⟨⟨ys', ws₂⟩, hxs, heq⟩ := Option.map_eq_some_iff.mp h
      cases heq
      rw [movesAll] at hsub
      have hsubx : ∀ s ∈ moves true x, s ∈ all := fun s hs => hsub s (List.mem_append_left _ hs)
      obtain ⟨g₁, rfl, h₁⟩ := serves_processStage hkept hsubx hg hx
      obtain ⟨g₂, rfl, h₂⟩ := serves_processStages hkept
        (fun s hs => hsub s (List.mem_append_right _ hs)) (h₁.fromStages hsubx hg) hxs
      refine ⟨g₂, rfl, ?_⟩
      rw [movesAll, movesAll]
      exact h₁.append h₂

end

theorem serves_processBlocks (hkept : Kept F raw all) {blocks out : List Xml}
    {g ws : List (Waypoint K)} (hsub : ∀ s ∈ movesOfBlocks blocks, s ∈ all)
    (hg : FromStages F raw all g) (h : processBlocks F blocks (g ++ raw) = some (out, ws)) :
    ∃ g', ws = g' ++ raw ∧ Serves F raw (movesOfBlocks blocks) (movesOfBlocks out) g g' := by
  induction blocks generalizing g out with
  | nil =>
      cases h
      exact ⟨g, rfl, Serves.nil g⟩
  | cons b blocks ih =>
      cases b with
      | pcData text => cases h
      | element tag attribs children =>
          rw [processBlocks] at h
          obtain ⟨⟨ys, ws₁⟩, hx, h⟩ := Option.bind_eq_some_iff.mp h
          obtain ⟨⟨out', ws₂⟩, hxs, heq⟩ := Option.map_eq_some_iff.mp h
          cases heq
          rw [movesOfBlocks, List.flatMap_cons] at hsub
          have hsubx : ∀ s ∈ movesAll true children, s ∈ all :=
            fun s hs => hsub s (List.mem_append_left _ hs)
          obtain ⟨g₁, rfl, h₁⟩ := serves_processStages hkept hsubx hg hx
          obtain ⟨g₂, rfl, h₂⟩ := ih (fun s hs => hsub s (List.mem_append_right _ hs))
            (h₁.fromStages hsubx hg) hxs
          refine ⟨g₂, rfl, ?_⟩
          rw [movesOfBlocks, List.flatMap_cons, movesOfBlocks, List.flatMap_cons]
          exact h₁.append h₂

end

end

/-! ### The places after the passes -/

section

variable {K : Type} [Ring K] {F : Numbers K} {raw localized : List (Waypoint K)}
  {before : Sections} {out : Output K}

theorem generate_eq_some {flightPlan : Sections} (h : generate F flightPlan = some out) :
    ∃ before raw ws wl, processPaths flightPlan = some before ∧
      before.waypoints.mapM waypointOfXml = some raw ∧
      processBlocks F before.blocks raw = some (out.blocks, ws) ∧
      ws.mapM (localizeWaypoint F) = some wl ∧ out.waypoints = dummyWaypoint :: wl := by
  obtain ⟨before, hbefore, h⟩ := Option.bind_eq_some_iff.mp h
  obtain ⟨raw, hraw, h⟩ := Option.bind_eq_some_iff.mp h
  obtain ⟨⟨blocks, ws⟩, hblocks, h⟩ := Option.bind_eq_some_iff.mp h
  obtain ⟨wl, hwl, h⟩ := Option.bind_eq_some_iff.mp h
  dsimp only at h
  split_ifs at h
  cases h
  exact ⟨before, raw, ws, wl, hbefore, hraw, hblocks, hwl, rfl⟩

/-- The waypoints that are printed: the first entry, those that were made for the stages, and
those of the file. -/
structure Printed (F : Numbers K) (before : Sections) (raw localized : List (Waypoint K))
    (out : Output K) (g : List (Waypoint K)) : Prop where
  waypoints_eq : out.waypoints = dummyWaypoint :: (g ++ localized)
  after : List.Forall₂ (After F raw) (movesOfBlocks before.blocks) (movesOfBlocks out.blocks)
  mem_iff : ∀ w, w ∈ g ↔ ∃ s ∈ movesOfBlocks before.blocks, ∃ k, made F raw k s = some w

theorem kept_of_basesKept (h : BasesKept F before raw) :
    Kept F raw (movesOfBlocks before.blocks) := by
  intro s hs k wp q d hasked s' hs' k' w hmade hname
  obtain ⟨qdr, dist, hrelative, -, -⟩ := asked_eq_some hasked
  obtain ⟨wp', q', d', base, hmakes⟩ := makes_of_made hmade
  refine (h s hs k wp qdr dist hrelative).2 s' hs' k' wp' q' d' hmakes.rewritten ?_
  exact Option.some.inj (hmakes.name_eq.symm.trans hname)

theorem printed_of_generate {flightPlan : Sections} (hbefore : processPaths flightPlan = some before)
    (hraw : before.waypoints.mapM waypointOfXml = some raw)
    (hlocalized : raw.mapM (localizeWaypoint F) = some localized)
    (hkept : BasesKept F before raw) (h : generate F flightPlan = some out) :
    ∃ g, Printed F before raw localized out g := by
  obtain ⟨before', raw', ws, wl, hbefore', hraw', hblocks, hwl, hout⟩ := generate_eq_some h
  cases hbefore.symm.trans hbefore'
  cases hraw.symm.trans hraw'
  have hfrom : FromStages F raw (movesOfBlocks before.blocks) [] := fun w hw => nomatch hw
  obtain ⟨g, rfl, hserves⟩ :=
    serves_processBlocks (kept_of_basesKept hkept) (fun _ hs => hs) hfrom hblocks
  have hmem : ∀ w, w ∈ g ↔ ∃ s ∈ movesOfBlocks before.blocks, ∃ k, made F raw k s = some w := by
    intro w
    rw [hserves.mem_iff]
    simp only [List.not_mem_nil, false_or]
  have hlat : ∀ w ∈ g, w.lat = none := by
    intro w hw
    obtain ⟨s, -, k, hmade⟩ := (hmem w).mp hw
    obtain ⟨_, _, _, _, hmakes⟩ := makes_of_made hmade
    exact hmakes.lat_eq
  obtain ⟨wl', hwl', rfl⟩ := mapM_localizeWaypoint_append hlat hwl
  cases hlocalized.symm.trans hwl'
  exact ⟨g, hout, hserves.after, hmem⟩

variable {g : List (Waypoint K)}

theorem placeOf_waypoints (h : out.waypoints = dummyWaypoint :: (g ++ localized)) {wp : Text}
    (hne : wp ≠ Text.dummy) : placeOf F out.waypoints wp = placeOf F (g ++ localized) wp := by
  have hne' : ¬ Text.dummy = wp := fun heq => hne heq.symm
  have hname : (dummyWaypoint : Waypoint K).name = some Text.dummy := rfl
  rw [placeOf, h, xmlAssocName, hname, Option.bind_some, if_neg hne', placeOf]

/-- A base keeps the place that it has in the file. -/
theorem Printed.placeOf_base (h : Printed F before raw localized out g)
    (hkept : BasesKept F before raw) {stage : Bool × Attribs}
    (hstage : stage ∈ movesOfBlocks before.blocks) {k : Ref} {wp qdr dist : Text}
    (hrelative : IsRelative k stage.2 wp qdr dist) :
    placeOf F out.waypoints wp = placeOf F localized wp := by
  obtain ⟨hne, hnames⟩ := hkept stage hstage k wp qdr dist hrelative
  rw [placeOf_waypoints h.waypoints_eq hne, placeOf, xmlAssocName_append_of_ne, placeOf]
  intro w hw
  obtain ⟨s, hs, k', hmade⟩ := (h.mem_iff w).mp hw
  obtain ⟨wp', q', d', base, hmakes⟩ := makes_of_made hmade
  exact ⟨_, hmakes.name_eq, hnames s hs k' wp' q' d' hmakes.rewritten⟩

/-- A name that was made leads to a waypoint that was made under this name, for some stage. -/
theorem Printed.placeOf_newName (h : Printed F before raw localized out g)
    {stage : Bool × Attribs} (hstage : stage ∈ movesOfBlocks before.blocks) {k : Ref} {wp : Text}
    {q d : K} (hrewritten : Rewritten F raw k stage wp q d) :
    ∃ stage' ∈ movesOfBlocks before.blocks, ∃ k' q' d' base,
      Rewritten F raw k' stage' wp q' d' ∧ placeOf F raw wp = some base ∧
      F.rounded q = F.rounded q' ∧ F.rounded d = F.rounded d' ∧
      placeOf F out.waypoints (newName F wp q d) = some (base + polar F q' d') := by
  obtain ⟨w, base, hmade, hmakes⟩ := made_of_rewritten hrewritten
  have hsome : ∀ v ∈ g, ∃ n, v.name = some n := by
    intro v hv
    obtain ⟨s, -, k', hv⟩ := (h.mem_iff v).mp hv
    obtain ⟨_, _, _, _, hv⟩ := makes_of_made hv
    exact ⟨_, hv.name_eq⟩
  have hmem : ∃ w ∈ g, w.name = some (newName F wp q d) :=
    ⟨w, (h.mem_iff w).mpr ⟨stage, hstage, k, hmade⟩, hmakes.name_eq⟩
  obtain ⟨v, hv, hvname, hlookup⟩ := @xmlAssocName_append_of_mem _ g localized _ hsome hmem
  obtain ⟨stage', hstage', k', hvmade⟩ := (h.mem_iff v).mp hv
  obtain ⟨wp', q', d', base', hvmakes⟩ := makes_of_made hvmade
  obtain ⟨rfl, hq, hd⟩ := newName_inj (Option.some.inj (hvname.symm.trans hvmakes.name_eq))
  refine ⟨stage', hstage', k', q', d', base', hvmakes.rewritten, hvmakes.base_eq, hq, hd, ?_⟩
  rw [placeOf_waypoints h.waypoints_eq (newName_ne_dummy wp q d), placeOf, hlookup,
    Option.bind_some, hvmakes.place_eq]

/-! ### Stages before and after -/

theorem mem_zip_of_mem {s t : List (Bool × Attribs)} (h : List.Forall₂ (After F raw) s t)
    {stage : Bool × Attribs} (hstage : stage ∈ s) :
    ∃ stage', (stage.2, stage'.2) ∈ (s.map Prod.snd).zip (t.map Prod.snd) ∧
      After F raw stage stage' := by
  induction h with
  | nil => cases hstage
  | cons hafter _ ih =>
      rcases List.mem_cons.mp hstage with rfl | hstage
      · exact ⟨_, List.mem_cons_self, hafter⟩
      · obtain ⟨stage', hmem, hafter'⟩ := ih hstage
        exact ⟨stage', List.mem_cons_of_mem _ hmem, hafter'⟩

theorem after_of_mem_zip {s t : List (Bool × Attribs)} (h : List.Forall₂ (After F raw) s t)
    {pair : Attribs × Attribs} (hpair : pair ∈ (s.map Prod.snd).zip (t.map Prod.snd)) :
    ∃ stage ∈ s, ∃ stage', After F raw stage stage' ∧ pair = (stage.2, stage'.2) := by
  induction h with
  | nil => cases hpair
  | cons hafter _ ih =>
      rcases List.mem_cons.mp hpair with rfl | hpair
      · exact ⟨_, List.mem_cons_self, _, hafter, rfl⟩
      · obtain ⟨stage, hstage, rest⟩ := ih hpair
        exact ⟨stage, List.mem_cons_of_mem _ hstage, rest⟩

/-- A rewritten stage refers to the new name. -/
theorem After.of_rewritten {stage stage' : Bool × Attribs} (h : After F raw stage stage') {k : Ref}
    {wp : Text} {q d : K} (hrewritten : Rewritten F raw k stage wp q d) :
    placeAfter F out k (stage.2, stage'.2) = placeOf F out.waypoints (newName F wp q d) := by
  obtain ⟨w, base, hmade, hmakes⟩ := made_of_rewritten hrewritten
  have hattrib := h k
  rw [hmade, Option.elim_some, hmakes.name_eq] at hattrib
  rw [placeAfter, hattrib, Option.bind_some]

/-- A stage that is not rewritten still refers to its base. -/
theorem After.of_not_rewritten {stage stage' : Bool × Attribs} (h : After F raw stage stage')
    {k : Ref} {wp qdr dist : Text} (hrelative : IsRelative k stage.2 wp qdr dist)
    (hnot : ∀ q d, ¬ Rewritten F raw k stage wp q d) :
    placeAfter F out k (stage.2, stage'.2) = placeOf F out.waypoints wp := by
  have hmade : made F raw k stage = none := by
    cases hmade : made F raw k stage with
    | none => rfl
    | some w =>
        obtain ⟨wp', q, d, base, hmakes⟩ := makes_of_made hmade
        obtain ⟨qdr', dist', hrelative', -, -⟩ := asked_eq_some hmakes.rewritten.2.1
        cases hrelative.key_eq.symm.trans hrelative'.key_eq
        exact absurd hmakes.rewritten (hnot q d)
  have hattrib := h k
  rw [hmade, Option.elim_none, hrelative.key_eq] at hattrib
  rw [placeAfter, hattrib, Option.bind_some]

theorem askedPlace_eq_some {wp qdr dist : Text} {place : K × K}
    (h : askedPlace F localized wp qdr dist = some place) :
    ∃ base q d, placeOf F localized wp = some base ∧ F.floatOfString qdr = some q ∧
      F.floatOfString dist = some d ∧ place = base + polar F q d := by
  obtain ⟨base, hbase, h⟩ := Option.bind_eq_some_iff.mp h
  obtain ⟨q, hq, h⟩ := Option.bind_eq_some_iff.mp h
  obtain ⟨d, hd, rfl⟩ := Option.map_eq_some_iff.mp h
  exact ⟨base, q, d, hbase, hq, hd, rfl⟩

theorem askedPlace_of_eq {wp qdr dist : Text} {base : K × K} {q d : K}
    (hbase : placeOf F localized wp = some base) (hq : F.floatOfString qdr = some q)
    (hd : F.floatOfString dist = some d) :
    askedPlace F localized wp qdr dist = some (base + polar F q d) := by
  rw [askedPlace, hbase, Option.bind_some, hq, Option.bind_some, hd, Option.map_some]

/-! ### The exact condition -/

theorem Printed.clear_of_right (h : Printed F before raw localized out g)
    (hkept : BasesKept F before raw) (hright : Right F before localized out) :
    Clear F before raw localized := by
  -- a rewritten stage is at the place of the waypoint found under its new name
  have hfound : ∀ stage ∈ movesOfBlocks before.blocks, ∀ k wp q d,
      Rewritten F raw k stage wp q d → ∃ base, placeOf F localized wp = some base ∧
        placeOf F out.waypoints (newName F wp q d) = some (base + polar F q d) := by
    intro stage hstage k wp q d hrewritten
    obtain ⟨stage', hpair, hafter⟩ := mem_zip_of_mem h.after hstage
    obtain ⟨qdr, dist, hrelative, hq, hd⟩ := asked_eq_some hrewritten.2.1
    obtain ⟨place, hasked, hplace⟩ := hright.resolved _ hpair k wp qdr dist hrelative
    obtain ⟨base, q', d', hbase, hq', hd', rfl⟩ := askedPlace_eq_some hasked
    cases hq.symm.trans hq'
    cases hd.symm.trans hd'
    refine ⟨base, hbase, ?_⟩
    rw [← hafter.of_rewritten hrewritten, hplace]
  refine ⟨?_, ?_⟩
  · intro stage hstage k wp qdr dist hrelative
    obtain ⟨stage', hpair, hafter⟩ := mem_zip_of_mem h.after hstage
    obtain ⟨place, hasked, hplace⟩ := hright.resolved _ hpair k wp qdr dist hrelative
    obtain ⟨base, q, d, hbase, hq, hd, rfl⟩ := askedPlace_eq_some hasked
    refine ⟨base, q, d, hbase, hq, hd, ?_⟩
    rcases Classical.em (Rewritten F raw k stage wp q d) with hrewritten | hnot
    · obtain ⟨s', hs', k', q', d', base', hrewritten', hraw, hqeq, hdeq, hnew⟩ :=
        h.placeOf_newName hstage hrewritten
      -- the stage that the waypoint found was made for is at its place as well
      obtain ⟨base₁, hbase₁, hnew₁⟩ := hfound s' hs' k' wp q' d' hrewritten'
      have hname : newName F wp q d = newName F wp q' d' := by rw [newName, hqeq, hdeq, newName]
      rw [hname, hnew₁] at hnew
      cases hbase.symm.trans hbase₁
      cases add_right_cancel (Option.some.inj hnew)
      exact Or.inl ⟨hrewritten.1, hraw⟩
    · have hnot' : ∀ q' d', ¬ Rewritten F raw k stage wp q' d' := by
        intro q' d' hrewritten
        cases (asked_of_isRelative hrelative hq hd).symm.trans hrewritten.2.1
        exact hnot hrewritten
      rw [hafter.of_not_rewritten hrelative hnot', h.placeOf_base hkept hstage hrelative, hbase]
        at hplace
      refine Or.inr ⟨fun hinWhile => ?_, left_eq_add.mp (Option.some.inj hplace)⟩
      cases hraw : placeOf F raw wp with
      | none => rfl
      | some base' =>
          refine absurd ⟨hinWhile, asked_of_isRelative hrelative hq hd, ?_⟩ hnot
          rw [hraw]
          rfl
  · intro stage hstage stage' hstage' k k' wp q d q' d' hrewritten hrewritten' hq hd
    have hname : newName F wp q d = newName F wp q' d' := by rw [newName, hq, hd, newName]
    obtain ⟨base, hbase, hnew⟩ := hfound stage hstage k wp q d hrewritten
    obtain ⟨base', hbase', hnew'⟩ := hfound stage' hstage' k' wp q' d' hrewritten'
    cases hbase.symm.trans hbase'
    rw [hname, hnew'] at hnew
    exact (add_left_cancel (Option.some.inj hnew)).symm

theorem Printed.resolved_of_clear (h : Printed F before raw localized out g)
    (hkept : BasesKept F before raw) (hclear : Clear F before raw localized)
    {pair : Attribs × Attribs} (hpair : pair ∈ stagePairs before out) {k : Ref}
    {wp qdr dist : Text} (hrelative : IsRelative k pair.1 wp qdr dist) :
    ∃ base q d, placeOf F localized wp = some base ∧ F.floatOfString qdr = some q ∧
      F.floatOfString dist = some d ∧ placeAfter F out k pair = some (base + polar F q d) := by
  obtain ⟨stage, hstage, stage', hafter, rfl⟩ := after_of_mem_zip h.after hpair
  obtain ⟨base, q, d, hbase, hq, hd, hplaced⟩ := hclear.placed stage hstage k wp qdr dist hrelative
  refine ⟨base, q, d, hbase, hq, hd, ?_⟩
  have hasked := asked_of_isRelative hrelative hq hd
  rcases hplaced with ⟨hinWhile, hraw⟩ | ⟨hnone, hzero⟩
  · have hrewritten : Rewritten F raw k stage wp q d := by
      refine ⟨hinWhile, hasked, ?_⟩
      rw [hraw]
      rfl
    obtain ⟨s', hs', k', q', d', base', hrewritten', hraw', hqeq, hdeq, hnew⟩ :=
      h.placeOf_newName hstage hrewritten
    cases hraw.symm.trans hraw'
    rw [hafter.of_rewritten hrewritten, hnew,
      hclear.named stage hstage s' hs' k k' wp q d q' d' hrewritten hrewritten' hqeq hdeq]
  · have hnot : ∀ q' d', ¬ Rewritten F raw k stage wp q' d' := by
      rintro q' d' ⟨hinWhile, -, hsome⟩
      rw [hnone hinWhile] at hsome
      cases hsome
    rw [hafter.of_not_rewritten hrelative hnot, h.placeOf_base hkept hstage hrelative, hbase, hzero,
      add_zero]

theorem Printed.right_of_clear (h : Printed F before raw localized out g)
    (hkept : BasesKept F before raw) (hclear : Clear F before raw localized) :
    Right F before localized out where
  length_eq := h.after.length_eq.symm
  resolved := by
    intro pair hpair k wp qdr dist hrelative
    obtain ⟨base, q, d, hbase, hq, hd, hplace⟩ := h.resolved_of_clear hkept hclear hpair hrelative
    exact ⟨_, askedPlace_of_eq hbase hq hd, hplace⟩
  distinct := by
    intro pair hpair pair' hpair' k k' wp qdr dist qdr' dist' q d q' d' hrelative hrelative' hq hd
      hq' hd' hne heq
    obtain ⟨base, q₁, d₁, hbase, hq₁, hd₁, hplace⟩ :=
      h.resolved_of_clear hkept hclear hpair hrelative
    obtain ⟨base', q₂, d₂, hbase', hq₂, hd₂, hplace'⟩ :=
      h.resolved_of_clear hkept hclear hpair' hrelative'
    cases hbase.symm.trans hbase'
    cases hq.symm.trans hq₁
    cases hd.symm.trans hd₁
    cases hq'.symm.trans hq₂
    cases hd'.symm.trans hd₂
    rw [hplace, hplace'] at heq
    exact hne (add_left_cancel (Option.some.inj heq))

/-- Where the generator reports no error and the bases keep their names, the relative waypoints are
at their places exactly when the stages that are not rewritten have the offset zero, the others a
base with its place in `x` and `y`, and offsets that are rounded alike are equal. -/
theorem relative_right_iff {flightPlan : Sections} (hbefore : processPaths flightPlan = some before)
    (hraw : before.waypoints.mapM waypointOfXml = some raw)
    (hlocalized : raw.mapM (localizeWaypoint F) = some localized)
    (h : generate F flightPlan = some out) (hkept : BasesKept F before raw) :
    Right F before localized out ↔ Clear F before raw localized := by
  obtain ⟨g, hprinted⟩ := printed_of_generate hbefore hraw hlocalized hkept h
  exact ⟨hprinted.clear_of_right hkept, hprinted.right_of_clear hkept⟩

end

/-! ### The stages of the file -/

theorem movesAll_append (inWhile : Bool) (xs ys : List Xml) :
    movesAll inWhile (xs ++ ys) = movesAll inWhile xs ++ movesAll inWhile ys := by
  induction xs with
  | nil => rfl
  | cons x xs ih => rw [List.cons_append, movesAll, ih, movesAll, List.append_assoc]

/-- Paths have no children, so that no stage goes with them. -/
def PathsEmpty (stages : List Xml) : Prop :=
  ∀ tag attribs children, Xml.element tag attribs children ∈ stages → tag = Paths.pathTag →
    children = []

theorem movesAll_sublist_top {stages : List Xml} (h : PathsEmpty stages) :
    (movesAll true stages).Sublist (movesAll true (stages.flatMap Paths.top)) := by
  induction stages with
  | nil => exact List.nil_sublist _
  | cons x stages ih =>
      have hx : (moves true x).Sublist (movesAll true (Paths.top x)) := by
        cases x with
        | pcData text => exact List.nil_sublist _
        | element tag attribs children =>
            rw [Paths.top]
            split_ifs with htag
            · cases h tag attribs children List.mem_cons_self htag
              rw [htag, moves, if_neg (by decide)]
              exact List.nil_sublist _
            · rw [movesAll, movesAll, List.append_nil]
      rw [movesAll, List.flatMap_cons, movesAll_append]
      refine hx.append (ih fun tag attribs children hmem => ?_)
      exact h tag attribs children (List.mem_cons_of_mem _ hmem)

/-- Every stage of the file is among those that the result is about. -/
theorem movesOfBlocks_sublist {flightPlan before : Sections}
    (h : processPaths flightPlan = some before)
    (hempty : ∀ b ∈ flightPlan.blocks, PathsEmpty (Paths.children b)) :
    (movesOfBlocks flightPlan.blocks).Sublist (movesOfBlocks before.blocks) := by
  obtain ⟨blocks, hblocks, rfl⟩ := Option.map_eq_some_iff.mp h
  rw [eq_map_of_mapM (fun _ _ => Paths.blockProcessPath_eq) hblocks]
  have hall : ∀ blocks : List Xml, (∀ b ∈ blocks, PathsEmpty (Paths.children b)) →
      (movesOfBlocks blocks).Sublist (movesOfBlocks (blocks.map Paths.topBlock)) := by
    intro blocks hempty
    induction blocks with
    | nil => exact List.nil_sublist _
    | cons b blocks ih =>
        obtain ⟨hb, hblocks⟩ := List.forall_mem_cons.mp hempty
        rw [movesOfBlocks, List.flatMap_cons, List.map_cons, movesOfBlocks, List.flatMap_cons]
        refine List.Sublist.append ?_ (ih hblocks)
        cases b with
        | pcData text => exact List.nil_sublist _
        | element tag attribs stages => exact movesAll_sublist_top hb
  exact hall flightPlan.blocks hempty

/-! ### A stage in a `while`, and one in a `for` -/

/-- Whole numbers, and angles that are zero. -/
def wholeNumbers : Numbers Int where
  floatOfString := Library.IntText.toInt 63
  rounded := Library.IntText.ofInt
  underscore_not_mem := by
    intro x hx
    rcases Library.IntText.isDigit_or_minus_of_mem hx with h | h
    · exact absurd h (by decide)
    · exact absurd h (by decide)
  radOfDeg x := x
  cos x := if x = 0 then 1 else 0
  sin x := x
  relUtmOfWgs84 _ _ := none

def homeText : Text := ['H', 'O', 'M', 'E']

def homeXml : Xml :=
  .element ['w', 'a', 'y', 'p', 'o', 'i', 'n', 't']
    [(Includes.Text.name, homeText), (Text.x, ['3']), (Text.y, ['4'])] []

/-- 25 m to the east of `HOME`. -/
def goAttribs : Attribs :=
  [(Includes.Text.wp, homeText), (Text.wpQdr, ['9', '0']), (Text.wpDist, ['2', '5'])]

def planWithLoop (loop : Text) : Sections where
  waypoints := [homeXml]
  blocks := [.element Includes.Text.block []
    [.element loop [] [.element Includes.Text.go goAttribs []]]]
  exceptions := []
  sectors := []
  header := []

def forTag : Text := ['f', 'o', 'r']

def homeWaypoint : Waypoint Int where
  name := some homeText
  x := some (.text ['3'])
  y := some (.text ['4'])
  lat := none
  lon := none
  alt := none

def eastWaypoint : Waypoint Int where
  name := some (homeText ++ ['_', '9', '0', '_', '2', '5'])
  x := some (.number 28)
  y := some (.number 4)
  lat := none
  lon := none
  alt := none

def whileOutput : Output Int where
  waypoints := [dummyWaypoint, eastWaypoint, homeWaypoint]
  blocks := [.element Includes.Text.block []
    [.element Includes.Text.while' [] [.element Includes.Text.go
      [(Includes.Text.wp, homeText ++ ['_', '9', '0', '_', '2', '5'])] []]]]

theorem isRelative_goAttribs {k : Ref} {wp qdr dist : Text}
    (h : IsRelative k goAttribs wp qdr dist) :
    k = .wp ∧ wp = homeText ∧ qdr = ['9', '0'] ∧ dist = ['2', '5'] := by
  obtain ⟨hkey, hqdr, hdist⟩ := h
  cases k with
  | from_ => cases hkey
  | wp =>
      cases hkey
      cases hqdr
      cases hdist
      exact ⟨rfl, rfl, rfl, rfl⟩

theorem rewritten_goAttribs {raw : List (Waypoint Int)} {k : Ref} {b : Bool} {wp : Text} {q d : Int}
    (h : Rewritten wholeNumbers raw k (b, goAttribs) wp q d) : wp = homeText ∧ q = 90 ∧ d = 25 := by
  obtain ⟨qdr, dist, hrelative, hq, hd⟩ := asked_eq_some h.2.1
  obtain ⟨-, rfl, rfl, rfl⟩ := isRelative_goAttribs hrelative
  cases hq
  cases hd
  exact ⟨rfl, rfl, rfl⟩

theorem relative_right_in_while :
    Right wholeNumbers (planWithLoop Includes.Text.while') [homeWaypoint] whileOutput ∧
      placeOf wholeNumbers whileOutput.waypoints (homeText ++ ['_', '9', '0', '_', '2', '5']) =
        some (28, 4) := by
  refine ⟨?_, rfl⟩
  have hkept : BasesKept wholeNumbers (planWithLoop Includes.Text.while') [homeWaypoint] := by
    intro stage hstage k wp qdr dist hrelative
    cases List.mem_singleton.mp hstage
    obtain ⟨-, rfl, -, -⟩ := isRelative_goAttribs hrelative
    refine ⟨by decide, fun stage' hstage' k' wp' q' d' hrewritten => ?_⟩
    cases List.mem_singleton.mp hstage'
    obtain ⟨rfl, rfl, rfl⟩ := rewritten_goAttribs hrewritten
    decide
  have hiff := @relative_right_iff Int _ wholeNumbers [homeWaypoint] [homeWaypoint]
    (planWithLoop Includes.Text.while') whileOutput (planWithLoop Includes.Text.while')
    rfl rfl rfl rfl hkept
  refine hiff.mpr ⟨?_, ?_⟩
  · intro stage hstage k wp qdr dist hrelative
    cases List.mem_singleton.mp hstage
    obtain ⟨-, rfl, rfl, rfl⟩ := isRelative_goAttribs hrelative
    exact ⟨(3, 4), 90, 25, rfl, rfl, rfl, Or.inl ⟨rfl, rfl⟩⟩
  · intro stage hstage stage' hstage' k k' wp q d q' d' hrewritten hrewritten' _ _
    cases List.mem_singleton.mp hstage
    cases List.mem_singleton.mp hstage'
    obtain ⟨-, rfl, rfl⟩ := rewritten_goAttribs hrewritten
    obtain ⟨-, rfl, rfl⟩ := rewritten_goAttribs hrewritten'
    rfl

/-- A `for` is passed over, and the stage in it flies to its base. -/
theorem not_relative_right_in_for :
    ∃ out, generate wholeNumbers (planWithLoop forTag) = some out ∧
      ¬ Right wholeNumbers (planWithLoop forTag) [homeWaypoint] out := by
  refine ⟨⟨[dummyWaypoint, homeWaypoint], (planWithLoop forTag).blocks⟩, rfl, fun h => ?_⟩
  obtain ⟨place, hasked, hplace⟩ := h.resolved (goAttribs, goAttribs) List.mem_cons_self .wp homeText
    ['9', '0'] ['2', '5'] ⟨rfl, rfl, rfl⟩
  have hasked' : askedPlace wholeNumbers [homeWaypoint] homeText ['9', '0'] ['2', '5'] =
      some (28, 4) := rfl
  have hplace' : placeAfter wholeNumbers
      ⟨[dummyWaypoint, homeWaypoint], (planWithLoop forTag).blocks⟩ .wp (goAttribs, goAttribs) =
      some (3, 4) := rfl
  have heq := (hasked'.symm.trans hasked).trans (hplace.symm.trans hplace')
  exact absurd heq (by decide)

end Paparazzi.FlightPlan.RelativeWaypoints
