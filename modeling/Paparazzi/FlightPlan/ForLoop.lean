import Mathlib
import Paparazzi.FlightPlan.Preservation

/-!
Calls in the body of a `for`.  Up to its end they keep the counter of the loop and its bound, and
visit no stage before the body.
-/

namespace Paparazzi.FlightPlan.ForLoop

open Paparazzi.FlightPlan.CommonFlightPlan
open Paparazzi.FlightPlan.Compilation
open Paparazzi.FlightPlan.PrintedCode
open Paparazzi.FlightPlan.Stage
open Paparazzi.FlightPlan.Structural hiding enter

/-! ### Texts -/

/-- The C texts of a stage without children. -/
def textsOf : Simple → List Text
  | .heading until_ nav => [until_, nav]
  | .attitude until_ nav => nav :: until_.toList
  | .go place approaching wp nav until_ =>
      approaching :: ("last_wp = " ++ wp ++ ";") :: nav :: (place.toList ++ until_.toList)
  | .stay nav until_ => nav :: until_.toList
  | .circle nav until_ => nav :: until_.toList
  | .eight init nav until_ => init :: nav :: until_.toList
  | .oval init nav until_ => init :: nav :: until_.toList
  | .surveyRectangle init nav => [init, nav]
  | .follow nav => [nav]
  | .xyz nav => [nav]
  | .home nav => [nav]
  | .set assignment => [assignment]
  | .call statement => [statement]
  | .deroute _ => []

/-- The C texts of a sequence of stages. -/
def texts {α : Type} : Stages α → List Text
  | .done => []
  | .simple _ s rest => textsOf s ++ texts rest
  | .loopWhile _ cond body rest => cond :: (texts body ++ texts rest)
  | .loopFor _ _ from_ toExpr body rest => from_ :: toExpr :: (texts body ++ texts rest)

theorem init_mem_textsOf {s : Simple} {init : Text} (h : s.init = some init) :
    init ∈ textsOf s := by
  cases s <;> cases h <;> exact List.mem_cons_self

variable {σ : Type} (env : Env σ)

/-- The text assigns none of the counters. -/
structure Keeps (counters : List String) (text : Text) : Prop where
  act : ∀ (w : World σ), ∀ v ∈ counters, (w.act env text).counter v = w.counter v
  test : ∀ (w : World σ), ∀ v ∈ counters, (w.test env text).2.counter v = w.counter v
  value : ∀ (w : World σ), ∀ v ∈ counters, (w.value env text).2.counter v = w.counter v

/-! ### Quiet steps -/

variable (counters : List String) (no : Nat)

/-- Only stages behind the test `no` were visited. -/
def VisitsBehind (w w' : World σ) : Prop :=
  ∃ seen, w'.visits = w.visits ++ seen ∧ ∀ i ∈ seen, no < i

/-- What happens in the body of a loop with the test `no`. -/
structure Quiet (w w' : World σ) : Prop where
  block : w'.navBlock = w.navBlock
  counters : ∀ v ∈ counters, w'.counter v = w.counter v
  visits : VisitsBehind no w w'

variable {env counters no}

theorem Quiet.refl (w : World σ) : Quiet counters no w w :=
  ⟨rfl, fun _ _ => rfl, [], (List.append_nil _).symm, nofun⟩

theorem VisitsBehind.trans {w w₁ w₂ : World σ} (h : VisitsBehind no w w₁)
    (h' : VisitsBehind no w₁ w₂) : VisitsBehind no w w₂ := by
  obtain ⟨seen, hseen, hlt⟩ := h
  obtain ⟨seen', hseen', hlt'⟩ := h'
  refine ⟨seen ++ seen', ?_, ?_⟩
  · rw [hseen', hseen, List.append_assoc]
  · intro i hi
    exact (List.mem_append.mp hi).elim (hlt i) (hlt' i)

theorem Quiet.trans {w w₁ w₂ : World σ} (h : Quiet counters no w w₁)
    (h' : Quiet counters no w₁ w₂) : Quiet counters no w w₂ :=
  ⟨h'.block.trans h.block, fun v hv => (h'.counters v hv).trans (h.counters v hv),
    h.visits.trans h'.visits⟩

section Steps

variable {text : Text} (htext : Keeps env counters text) (w : World σ)

include htext

theorem quiet_act : Quiet counters no w (w.act env text) :=
  ⟨rfl, htext.act w, [], (List.append_nil _).symm, nofun⟩

theorem quiet_test : Quiet counters no w (w.test env text).2 :=
  ⟨rfl, htext.test w, [], (List.append_nil _).symm, nofun⟩

theorem quiet_value : Quiet counters no w (w.value env text).2 :=
  ⟨rfl, htext.value w, [], (List.append_nil _).symm, nofun⟩

end Steps

theorem quiet_visit {n : Nat} (hn : no < n) (w : World σ) : Quiet counters no w (visit n w) :=
  ⟨rfl, fun _ _ => rfl, [n], rfl, fun _ hi => List.mem_singleton.mp hi ▸ hn⟩

theorem counter_store (narrow : Int → Int) (v u : String) (x : Int) (w : World σ) :
    (w.store narrow v x).counter u = if u = v then narrow x else w.counter u := by
  simp only [World.store, World.counter, Function.update_self, Function.update_apply]

theorem quiet_store {v : String} (hv : v ∉ counters) (x : Int) (w : World σ) :
    Quiet counters no w (w.store int8 v x) := by
  refine ⟨rfl, ?_, [], (List.append_nil _).symm, nofun⟩
  intro u hu
  rw [counter_store, if_neg]
  rintro rfl
  exact hv hu

theorem quiet_countOn {v : String} (hv : v ∉ counters) (bound : String) (w : World σ) :
    Quiet counters no w (countOn int8 v bound w).2 :=
  quiet_store hv _ w

theorem quiet_initCounter {v bound : String} {from_ toExpr : Text} (hv : v ∉ counters)
    (hbound : bound ∉ counters) (hfrom : Keeps env counters from_)
    (hto : Keeps env counters toExpr) (w : World σ) :
    Quiet counters no w (w.initCounter env int8 v bound from_ toExpr) :=
  ((quiet_value hfrom w).trans (quiet_store hv _ _)).trans
    ((quiet_value hto _).trans (quiet_store hbound _ _))

/-! ### Stages without children -/

variable (counters no) in
def QuietVerdict (w : World σ) : Verdict σ → Prop
  | .moveOn w' => Quiet counters no w w'
  | .remain w' => Quiet counters no w w'
  | .leave w' => w'.navStage = 0 ∧ VisitsBehind no w w'

theorem QuietVerdict.after {w w₁ : World σ} {v : Verdict σ} (h : Quiet counters no w w₁)
    (hv : QuietVerdict counters no w₁ v) : QuietVerdict counters no w v := by
  cases v with
  | moveOn w₂ => exact h.trans hv
  | remain w₂ => exact h.trans hv
  | leave w₂ => exact ⟨hv.1, h.visits.trans hv.2⟩

theorem quiet_checkUntil {until_ : Option Text}
    (htext : ∀ text ∈ until_, Keeps env counters text) (w : World σ) :
    QuietVerdict counters no w (checkUntil env until_ w) := by
  cases until_ with
  | none => exact Quiet.refl w
  | some cond =>
      have htest : Quiet counters no w (w.test env cond).2 := quiet_test (htext cond rfl) w
      simp only [checkUntil]
      split
      · exact htest
      · exact htest

theorem quiet_navigateUnless {cond nav : Text} (hcond : Keeps env counters cond)
    (hnav : Keeps env counters nav) (w : World σ) :
    QuietVerdict counters no w (navigateUnless env cond nav w) := by
  have htest : Quiet counters no w (w.test env cond).2 := quiet_test hcond w
  simp only [navigateUnless]
  split
  · exact htest
  · exact htest.trans (quiet_act hnav _)

theorem quiet_navigateTo {approaching wp nav : Text} {until_ : Option Text}
    (happroaching : Keeps env counters approaching)
    (hwp : Keeps env counters ("last_wp = " ++ wp ++ ";")) (hnav : Keeps env counters nav)
    (huntil : ∀ text ∈ until_, Keeps env counters text) (w : World σ) :
    QuietVerdict counters no w (navigateTo env approaching wp nav until_ w) := by
  have htest : Quiet counters no w (w.test env approaching).2 := quiet_test happroaching w
  simp only [navigateTo]
  split
  · exact htest.trans (quiet_act hwp _)
  · exact (quiet_checkUntil huntil _).after (htest.trans (quiet_act hnav _))

theorem quiet_runSimple {s : Simple} (htext : ∀ text ∈ textsOf s, Keeps env counters text)
    (w : World σ) :
    QuietVerdict counters no w (runSimple env (Structural.enter env) s w) := by
  cases s with
  | heading cond nav =>
      exact quiet_navigateUnless (htext _ (by simp [textsOf])) (htext _ (by simp [textsOf])) w
  | attitude until_ nav =>
      have hnav := htext nav (by simp [textsOf])
      cases until_ with
      | none => exact quiet_act hnav w
      | some cond => exact quiet_navigateUnless (htext cond (by simp [textsOf])) hnav w
  | go location approaching wp nav until_ =>
      have hgo : ∀ w, QuietVerdict counters no w (navigateTo env approaching wp nav until_ w) :=
        quiet_navigateTo (htext _ (by simp [textsOf])) (htext _ (by simp [textsOf]))
          (htext _ (by simp [textsOf])) fun text h => htext text (by simp_all [textsOf])
      cases location with
      | none => exact hgo w
      | some assignments =>
          exact (hgo _).after (quiet_act (htext assignments (by simp [textsOf])) w)
  | stay nav until_ | circle nav until_ | eight init nav until_ | oval init nav until_ =>
      have huntil : ∀ w, QuietVerdict counters no w (checkUntil env until_ w) :=
        quiet_checkUntil fun text h => htext text (by simp_all [textsOf])
      exact (huntil _).after (quiet_act (htext nav (by simp [textsOf])) w)
  | surveyRectangle init nav | follow nav | xyz nav | home nav | set assignment =>
      exact quiet_act (htext _ (by simp [textsOf])) w
  | call statement =>
      have htest : Quiet counters no w (w.test env statement).2 :=
        quiet_test (htext statement (by simp [textsOf])) w
      simp only [runSimple]
      split
      · exact htest
      · exact htest
  | deroute block => exact ⟨rfl, [], (List.append_nil _).symm, by rintro _ ⟨⟩⟩

/-! ### Sequences of stages -/

variable (env counters no) in
/-- The stages come after the test `no` and leave the counters alone. -/
def Harmless : Stages Nat → Prop
  | .done => True
  | .simple m s rest =>
      no + s.phases ≤ m ∧ (∀ text ∈ textsOf s, Keeps env counters text) ∧ Harmless rest
  | .loopWhile m cond body rest =>
      no < m ∧ Keeps env counters cond ∧ Harmless body ∧ Harmless rest
  | .loopFor m var from_ toExpr body rest =>
      no + 1 < m ∧ (cVarOfIdent var ∉ counters ∧ toVar var ∉ counters) ∧
        (Keeps env counters from_ ∧ Keeps env counters toExpr) ∧ Harmless body ∧ Harmless rest

theorem harmless_indexStage {t : Stages Unit} {n : Nat} (hn : no < n)
    (htexts : ∀ text ∈ texts t, Keeps env counters text)
    (hvars : ∀ v ∈ forVars t, v ∉ counters) : Harmless env counters no (t.indexStage n) := by
  induction t generalizing n with
  | done => trivial
  | simple u s rest ih =>
      have hpos := s.phases_pos
      refine ⟨by omega, fun text h => htexts text (by simp [texts, h]), ih (by omega) ?_ hvars⟩
      exact fun text h => htexts text (by simp [texts, h])
  | loopWhile u cond body rest ihBody ihRest =>
      refine ⟨hn, htexts cond (by simp [texts]), ihBody (by omega) ?_ ?_, ihRest (by omega) ?_ ?_⟩
      · exact fun text h => htexts text (by simp [texts, h])
      · exact fun v h => hvars v (by simp [forVars, h])
      · exact fun text h => htexts text (by simp [texts, h])
      · exact fun v h => hvars v (by simp [forVars, h])
  | loopFor u var from_ toExpr body rest ihBody ihRest =>
      refine ⟨by omega, ⟨hvars _ (by simp [forVars]), hvars _ (by simp [forVars])⟩,
        ⟨htexts _ (by simp [texts]), htexts _ (by simp [texts])⟩, ihBody (by omega) ?_ ?_,
        ihRest (by omega) ?_ ?_⟩
      · exact fun text h => htexts text (by simp [texts, h])
      · exact fun v h => hvars v (by simp [forVars, h])
      · exact fun text h => htexts text (by simp [texts, h])
      · exact fun v h => hvars v (by simp [forVars, h])

/-! ### Calls -/

variable (env counters no) in
/-- The controls in a sequence of stages that ends in `stop`. -/
inductive Within (stop : Control) : Control → Prop
  | stop : Within stop stop
  | run {t : Stages Nat} {k : Control} (ht : Harmless env counters no t) (h : Within stop k) :
      Within stop (.run t k)
  | second {t : Stages Nat} {k : Control} (ht : Harmless env counters no t) (h : Within stop k) :
      Within stop (.second t k)
  | again {t : Stages Nat} {k : Control} (ht : Harmless env counters no t) (h : Within stop k) :
      Within stop (.again t k)

variable (env counters no) in
/-- A call goes on from `stop`, or ends before it, or leaves the block. -/
inductive Ends (nbBlock : Nat) (stop : Control) (w : World σ) :
    World σ × Option Control → Prop
  | reached {w' : World σ} (h : Quiet counters no w w') :
      Ends nbBlock stop w (machineCall env nbBlock stop w')
  | moved {w' : World σ} {k : Control} (h : Quiet counters no w w')
      (hk : Within env counters no stop k) : Ends nbBlock stop w (w', some k)
  | left {w' : World σ} (h : w'.navStage = 0) (hvisits : VisitsBehind no w w') :
      Ends nbBlock stop w (w', none)

section Calls

variable {nbBlock : Nat} {stop : Control}

theorem Ends.after {w w₁ : World σ} {r : World σ × Option Control}
    (h : Quiet counters no w w₁) (hr : Ends env counters no nbBlock stop w₁ r) :
    Ends env counters no nbBlock stop w r := by
  cases hr with
  | reached h' => exact .reached (h.trans h')
  | moved h' hk => exact .moved (h.trans h') hk
  | left h' hvisits => exact .left h' (h.visits.trans hvisits)

variable (hinit : Keeps env counters "nav_init_stage();")

include hinit

theorem ends_moveTo {k : Control} (hk : Within env counters no stop k) (w : World σ) :
    Ends env counters no nbBlock stop w (moveTo env k w) := by
  refine .moved ?_ hk
  have hmoved : Quiet counters no w { w with navStage := k.no } :=
    ⟨rfl, fun _ _ => rfl, [], (List.append_nil _).symm, nofun⟩
  exact hmoved.trans (quiet_act hinit _)

theorem ends_conclude {here next : Control} (hhere : Within env counters no stop here)
    (hnext : Within env counters no stop next) {w : World σ} {v : Verdict σ}
    (hv : QuietVerdict counters no w v) :
    Ends env counters no nbBlock stop w (conclude env here next v) := by
  cases v with
  | moveOn w' => exact (ends_moveTo hinit hnext w').after hv
  | remain w' => exact .moved hv hhere
  | leave w' => exact .left hv.1 hv.2

theorem ends_testLoop {m : Nat} {goOn : World σ → Bool × World σ} {inside : Control}
    {next : World σ → World σ × Option Control} (hm : no < m)
    (hgoOn : ∀ w, Quiet counters no w (goOn w).2)
    (hinside : Within env counters no stop inside)
    (hnext : ∀ w, Ends env counters no nbBlock stop w (next w)) (w : World σ) :
    Ends env counters no nbBlock stop w (testLoop env m goOn inside next w) := by
  have hquiet : Quiet counters no w (goOn (visit m w)).2 :=
    (quiet_visit hm w).trans (hgoOn (visit m w))
  simp only [testLoop]
  split
  · exact (ends_moveTo hinit hinside _).after hquiet
  · exact (hnext _).after hquiet

theorem ends_stages {k : Control} {after : World σ → World σ × Option Control}
    (hk : Within env counters no stop k)
    (hafter : ∀ w, Ends env counters no nbBlock stop w (after w)) {t : Stages Nat}
    (ht : Harmless env counters no t) (w : World σ) :
    Ends env counters no nbBlock stop w
      (callStages env int8 (Structural.enter env) k after t w) := by
  induction t generalizing w with
  | done => exact hafter w
  | simple m s rest ih =>
      have hwhole := ht
      obtain ⟨hm, htexts, hrest⟩ := ht
      have hpos := s.phases_pos
      simp only [callStages]
      split
      · refine ends_conclude hinit (.run hwhole hk) (.run hrest hk) ?_
        exact (quiet_runSimple htexts _).after (quiet_visit (by omega) w)
      · rename_i init hphases
        have hm' : no < m - 1 := by
          have htwo : s.phases = 2 := by simp [Simple.phases, hphases]
          omega
        refine (ends_moveTo hinit (.second hwhole hk) _).after ?_
        exact (quiet_visit hm' w).trans (quiet_act (htexts init (init_mem_textsOf hphases)) _)
  | loopWhile m cond body rest ihBody ihRest =>
      have hwhole := ht
      obtain ⟨hm, hcond, hbody, hrest⟩ := ht
      exact ends_testLoop hinit hm (quiet_test hcond)
        (.run hbody (.again hwhole hk)) (ihRest hrest) w
  | loopFor m var from_ toExpr body rest ihBody ihRest =>
      have hwhole := ht
      obtain ⟨hm, hvars, htexts, hbody, hrest⟩ := ht
      refine (ends_testLoop hinit (by omega) (quiet_countOn hvars.1 _)
        (.run hbody (.again hwhole hk)) (ihRest hrest) _).after ?_
      exact (quiet_visit (by omega) w).trans
        (quiet_initCounter hvars.1 hvars.2 htexts.1 htexts.2 _)

/-- A call in a sequence of stages that ends in `stop`. -/
theorem ends_control {k : Control} (hk : Within env counters no stop k) (w : World σ) :
    Ends env counters no nbBlock stop w (machineCall env nbBlock k w) := by
  induction hk generalizing w with
  | stop => exact .reached (Quiet.refl w)
  | run ht hk ih => exact ends_stages hinit hk ih ht w
  | @second t k ht hk ih =>
      cases t with
      | simple m s rest =>
          have hpos := s.phases_pos
          have hwhole := ht
          obtain ⟨hm, htexts, hrest⟩ := ht
          refine ends_conclude hinit (.second hwhole hk) (.run hrest hk) ?_
          exact (quiet_runSimple htexts _).after (quiet_visit (by omega) w)
      | done | loopWhile m cond body rest | loopFor m var from_ toExpr body rest =>
          exact ends_stages hinit hk ih ht w
  | @again t k ht hk ih =>
      cases t with
      | loopWhile m cond body rest =>
          have hwhole := ht
          obtain ⟨hm, hcond, hbody, hrest⟩ := ht
          refine (ends_testLoop hinit hm (quiet_test hcond)
            (.run hbody (.again hwhole hk))
            (ends_stages hinit hk ih hrest) _).after (quiet_visit ?_ w)
          simp only [loopEndNo]
          omega
      | loopFor m var from_ toExpr body rest =>
          have hwhole := ht
          obtain ⟨hm, hvars, htexts, hbody, hrest⟩ := ht
          refine (ends_testLoop hinit (by omega) (quiet_countOn hvars.1 _)
            (.run hbody (.again hwhole hk))
            (ends_stages hinit hk ih hrest) _).after (quiet_visit ?_ w)
          simp only [loopEndNo]
          omega
      | done | simple m s rest => exact ends_stages hinit hk ih ht w

end Calls

end Paparazzi.FlightPlan.ForLoop
