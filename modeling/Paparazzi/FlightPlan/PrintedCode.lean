import Paparazzi.FlightPlan.Printer

/-!
When the printed code of a block is the body of a legal C switch: its labels and
case values are always distinct, the declarations of `for` loops are the problem.
-/

namespace Paparazzi.FlightPlan.PrintedCode

open Paparazzi.FlightPlan.CommonFlightPlan
open Paparazzi.FlightPlan.Printer
open Paparazzi.FlightPlan.Stage
open Paparazzi.Library.SwitchCode

variable {α : Type}

/-- The static variables that the `for` loops of a sequence declare. -/
def forVars : Stages α → List String
  | .done => []
  | .simple _ _ rest => forVars rest
  | .loopWhile _ _ body rest => forVars body ++ forVars rest
  | .loopFor _ var _ _ body rest =>
      cVarOfIdent var :: toVar var :: (forVars body ++ forVars rest)

/-- No `for` directly follows a loop; `after` tells whether a loop ended just before. -/
def forsSeparated : Stages α → Bool → Bool
  | .done, _ => true
  | .simple _ _ rest, _ => forsSeparated rest false
  | .loopWhile _ _ body rest, _ => forsSeparated body false && forsSeparated rest true
  | .loopFor _ _ _ _ body rest, after =>
      !after && forsSeparated body false && forsSeparated rest true

/-- The blocks whose `for` loops can be declared where they are printed. -/
structure Declarable (t : Stages α) : Prop where
  distinct : (forVars t).Nodup
  separated : forsSeparated t false = true

instance (t : Stages α) : Decidable (Declarable t) :=
  decidable_of_iff ((forVars t).Nodup ∧ forsSeparated t false = true)
    ⟨fun h => ⟨h.1, h.2⟩, fun h => ⟨h.1, h.2⟩⟩

/-! ### Stages without children -/

theorem isStmt_untilCode (until_ : Option Text) :
    ∀ item ∈ untilCode until_, item.isStmt = true := by
  cases until_ <;> simp [untilCode, Item.isStmt]

theorem isStmt_printBody (s : Simple) : ∀ item ∈ printBody s, item.isStmt = true := by
  intro item hitem
  cases s with
  | attitude until_ nav => cases until_ <;> simp_all [printBody] <;> grind [Item.isStmt]
  | go place approaching wp nav until_ =>
      simp only [printBody, List.mem_append, List.mem_map] at hitem
      rcases hitem with ((⟨_, _, rfl⟩ | hitem) | hitem) | hitem
      · rfl
      · simp_all [Item.isStmt]
      · exact isStmt_untilCode until_ item hitem
      · simp_all [Item.isStmt]
  | stay nav until_ | circle nav until_ | eight init nav until_ | oval init nav until_ =>
      simp only [printBody, List.mem_append] at hitem
      rcases hitem with (hitem | hitem) | hitem
      · simp_all [Item.isStmt]
      · exact isStmt_untilCode until_ item hitem
      · simp_all [Item.isStmt]
  | heading cond nav | surveyRectangle init nav | follow nav | xyz nav | home nav
  | set assignment | call statement | deroute block =>
      simp only [printBody, List.mem_cons, List.not_mem_nil, or_false] at hitem
      grind [Item.isStmt]

/-- Statements have none of the keys of the marks and declarations. -/
theorem filterMap_printBody {κ : Type*} {f : Item Label Statement → Option κ}
    (hkey : ∀ st, f (.stmt st) = none) (s : Simple) : (printBody s).filterMap f = [] := by
  rw [List.filterMap_eq_nil_iff]
  intro item hitem
  have hstmt := isStmt_printBody s item hitem
  cases item with
  | stmt st => exact hkey st
  | label l => cases hstmt
  | case n => cases hstmt
  | default => cases hstmt
  | decl v => cases hstmt

theorem labels_printSimple (s : Simple) (n : Nat) :
    (printSimple s n).filterMap Item.labelOf = [] := by
  unfold printSimple
  cases s.init <;>
    simp [stage, filterMap_printBody (f := Item.labelOf) fun _ => by simp]

theorem decls_printSimple (s : Simple) (n : Nat) :
    (printSimple s n).filterMap Item.declOf = [] := by
  unfold printSimple
  cases s.init <;>
    simp [stage, filterMap_printBody (f := Item.declOf) fun _ => by simp]

theorem defaults_printSimple (s : Simple) (n : Nat) :
    (printSimple s n).filterMap Item.defaultOf = [] := by
  unfold printSimple
  cases s.init <;>
    simp [stage, filterMap_printBody (f := Item.defaultOf) fun _ => by simp]

theorem cases_printSimple (s : Simple) (n : Nat) :
    (printSimple s n).filterMap Item.caseOf = List.range' n s.phases := by
  unfold printSimple Simple.phases
  cases s.init <;>
    simp [stage, filterMap_printBody (f := Item.caseOf) fun _ => by simp, List.range'_succ]

theorem marksFollowed_printSimple (s : Simple) (n : Nat) (rest : Code) :
    marksFollowed (printSimple s n ++ rest) = marksFollowed rest := by
  unfold printSimple
  cases s.init <;>
    simp [stage, marksFollowed_append_of_stmts (isStmt_printBody s)]

theorem gotoBlock_mem_printBody {s : Simple} {d : Nat}
    (hd : .stmt (.gotoBlock d) ∈ printBody s) : s = .deroute d := by
  cases s with
  | attitude until_ nav => cases until_ <;> simp [printBody] at hd
  | go place approaching wp nav until_ => cases until_ <;> simp [printBody, untilCode] at hd
  | stay nav until_ | circle nav until_ | eight init nav until_ | oval init nav until_ =>
      cases until_ <;> simp [printBody, untilCode] at hd
  | heading cond nav | surveyRectangle init nav | follow nav | xyz nav | home nav
  | set assignment | call statement => simp [printBody] at hd
  | deroute block =>
      simp only [printBody, List.mem_cons, Item.stmt.injEq, Statement.gotoBlock.injEq,
        reduceCtorEq, List.not_mem_nil, or_false] at hd
      rw [hd]

theorem gotoBlock_mem_printSimple {s : Simple} {n d : Nat}
    (hd : .stmt (.gotoBlock d) ∈ printSimple s n) : s = .deroute d := by
  apply gotoBlock_mem_printBody
  unfold printSimple at hd
  cases hinit : s.init <;> simpa [hinit, stage] using hd

/-! ### Sequences of stages -/

/-- The printed jumps are those of the tree. -/
theorem gotoBlock_mem_printStages {t : Stages α} {n x d : Nat}
    (hd : .stmt (.gotoBlock d) ∈ printStages t n x) : d ∈ t.targets := by
  induction t generalizing n x with
  | done => cases hd
  | simple no s rest ih =>
      rcases List.mem_append.mp hd with hd | hd
      · rw [gotoBlock_mem_printSimple hd]
        exact List.mem_cons_self
      · have hrest := ih hd
        cases s <;> simp_all [Stages.targets]
  | loopWhile no cond body rest ihBody ihRest =>
      have hparts : .stmt (.gotoBlock d) ∈ printStages body (n + 1) (x + 2) ∨
          .stmt (.gotoBlock d) ∈
            printStages rest (n + body.size + 2) (x + 2 + labels body) := by
        simpa [printStages, stage] using hd
      rw [Stages.targets, List.mem_append]
      exact hparts.imp ihBody ihRest
  | loopFor no var from_ toExpr body rest ihBody ihRest =>
      have hparts : .stmt (.gotoBlock d) ∈ printStages body (n + 2) (x + 2) ∨
          .stmt (.gotoBlock d) ∈
            printStages rest (n + body.size + 3) (x + 2 + labels body) := by
        simpa [printStages, stage] using hd
      rw [Stages.targets, List.mem_append]
      exact hparts.imp ihBody ihRest

theorem gotoBlock_mem_printSwitch {b : Block} {x d : Nat}
    (hd : .stmt (.gotoBlock d) ∈ printSwitch b x) : d ∈ b.stages.targets := by
  apply gotoBlock_mem_printStages (n := 0) (x := x)
  simpa [printSwitch, printExitBlock, stage] using hd

theorem range'_loop (n a b : Nat) :
    n :: (List.range' (n + 1) a ++ (n + a + 1) :: List.range' (n + a + 2) b) =
      List.range' n (a + 2 + b) := by
  have htail : (n + a + 1) :: List.range' (n + a + 2) b = List.range' (n + 1 + 1 * a) (b + 1) := by
    rw [List.range'_succ]
    have hfirst : n + 1 + 1 * a = n + a + 1 := by omega
    rw [hfirst]
  rw [htail, List.range'_append, ← List.range'_succ]
  congr 1
  omega

/-- The case values of a sequence are its stage numbers, hidden ones included, in order. -/
theorem cases_printStages (t : Stages α) (n x : Nat) :
    (printStages t n x).filterMap Item.caseOf = List.range' n t.size := by
  induction t generalizing n x with
  | done => rfl
  | simple no s rest ih =>
      rw [printStages_simple, List.filterMap_append, cases_printSimple, ih, Stages.size,
        ← List.range'_append]
      simp
  | loopWhile no cond body rest ihBody ihRest =>
      rw [Stages.size, ← range'_loop]
      simp [printStages, stage, ihBody, ihRest]
  | loopFor no var from_ toExpr body rest ihBody ihRest =>
      have hsize : body.size + 3 + rest.size = body.size + 2 + rest.size + 1 := by omega
      rw [Stages.size, hsize, List.range'_succ, ← range'_loop]
      simp [printStages, stage, ihBody, ihRest]
      grind

theorem decls_printStages (t : Stages α) (n x : Nat) :
    (printStages t n x).filterMap Item.declOf = forVars t := by
  induction t generalizing n x with
  | done => rfl
  | simple no s rest ih => simp [printStages, decls_printSimple, forVars, ih]
  | loopWhile no cond body rest ihBody ihRest =>
      simp [printStages, stage, forVars, ihBody, ihRest]
  | loopFor no var from_ toExpr body rest ihBody ihRest =>
      simp [printStages, stage, forVars, ihBody, ihRest]

theorem defaults_printStages (t : Stages α) (n x : Nat) :
    (printStages t n x).filterMap Item.defaultOf = [] := by
  induction t generalizing n x with
  | done => rfl
  | simple no s rest ih => rw [printStages_simple, List.filterMap_append, defaults_printSimple, ih]; rfl
  | loopWhile no cond body rest ihBody ihRest =>
      simp only [printStages, List.filterMap_append, ihBody, ihRest]
      rfl
  | loopFor no var from_ toExpr body rest ihBody ihRest =>
      simp only [printStages, List.filterMap_append, ihBody, ihRest]
      rfl

section Labels

variable (no : α) (cond var from_ toExpr : Text) (body rest : Stages α) (n x : Nat)

theorem labels_printStages_while :
    (printStages (.loopWhile no cond body rest) n x).filterMap Item.labelOf =
      ⟨"while", x + 1⟩ :: ((printStages body (n + 1) (x + 2)).filterMap Item.labelOf ++
        ⟨"endwhile", x + 2⟩ ::
          (printStages rest (n + body.size + 2) (x + 2 + labels body)).filterMap Item.labelOf) := by
  simp [printStages, stage]

theorem labels_printStages_for :
    (printStages (.loopFor no var from_ toExpr body rest) n x).filterMap Item.labelOf =
      ⟨"for", x + 1⟩ :: ((printStages body (n + 2) (x + 2)).filterMap Item.labelOf ++
        ⟨"endfor", x + 2⟩ ::
          (printStages rest (n + body.size + 3) (x + 2 + labels body)).filterMap Item.labelOf) := by
  simp [printStages, stage]

end Labels

section LoopLabels

variable {l l' : Label} {inner outer : List Label} {x a b : Nat}

/-- The labels of a loop, given the ranges of those of its parts. -/
theorem mem_loop_labels (hl : l.number = x + 1) (hl' : l'.number = x + 2)
    (hinner : ∀ i ∈ inner, x + 2 < i.number ∧ i.number ≤ x + 2 + a)
    (houter : ∀ i ∈ outer, x + 2 + a < i.number ∧ i.number ≤ x + 2 + a + b) {i : Label}
    (hi : i ∈ l :: (inner ++ l' :: outer)) : x < i.number ∧ i.number ≤ x + (2 + a + b) := by
  simp only [List.mem_cons, List.mem_append] at hi
  rcases hi with rfl | hi | rfl | hi
  · omega
  · have := hinner i hi
    omega
  · omega
  · have := houter i hi
    omega

/-- The labels of a loop are distinct where those of its parts are. -/
theorem nodup_loop_labels (hl : l.number = x + 1) (hl' : l'.number = x + 2)
    (hinner : ∀ i ∈ inner, x + 2 < i.number ∧ i.number ≤ x + 2 + a)
    (houter : ∀ i ∈ outer, x + 2 + a < i.number ∧ i.number ≤ x + 2 + a + b)
    (hnodupInner : inner.Nodup) (hnodupOuter : outer.Nodup) :
    (l :: (inner ++ l' :: outer)).Nodup := by
  have hcons : (l' :: outer).Nodup := by
    refine List.nodup_cons.mpr ⟨?_, hnodupOuter⟩
    intro hmem
    have := houter l' hmem
    omega
  refine List.nodup_cons.mpr ⟨?_, hnodupInner.append hcons ?_⟩
  · intro hmem
    simp only [List.mem_append, List.mem_cons] at hmem
    rcases hmem with hmem | rfl | hmem
    · have := hinner l hmem
      omega
    · omega
    · have := houter l hmem
      omega
  · intro i hi hi'
    have := hinner i hi
    rcases List.mem_cons.mp hi' with rfl | hi'
    · omega
    · have := houter i hi'
      omega

end LoopLabels

/-- The labels of a sequence are those that `gen_label` makes from its counter. -/
theorem mem_labels {t : Stages α} {n x : Nat} {l : Label}
    (hl : l ∈ (printStages t n x).filterMap Item.labelOf) :
    x < l.number ∧ l.number ≤ x + labels t := by
  induction t generalizing n x l with
  | done => cases hl
  | simple no s rest ih =>
      rw [printStages, List.filterMap_append, labels_printSimple] at hl
      exact ih hl
  | loopWhile no cond body rest ihBody ihRest =>
      rw [labels_printStages_while] at hl
      exact mem_loop_labels rfl rfl (fun i hi => ihBody hi) (fun i hi => ihRest hi) hl
  | loopFor no var from_ toExpr body rest ihBody ihRest =>
      rw [labels_printStages_for] at hl
      exact mem_loop_labels rfl rfl (fun i hi => ihBody hi) (fun i hi => ihRest hi) hl

theorem nodup_labels (t : Stages α) (n x : Nat) :
    ((printStages t n x).filterMap Item.labelOf).Nodup := by
  induction t generalizing n x with
  | done => exact List.nodup_nil
  | simple no s rest ih =>
      rw [printStages, List.filterMap_append, labels_printSimple]
      exact ih _ _
  | loopWhile no cond body rest ihBody ihRest =>
      rw [labels_printStages_while]
      exact nodup_loop_labels rfl rfl (fun i hi => mem_labels hi) (fun i hi => mem_labels hi)
        (ihBody _ _) (ihRest _ _)
  | loopFor no var from_ toExpr body rest ihBody ihRest =>
      rw [labels_printStages_for]
      exact nodup_loop_labels rfl rfl (fun i hi => mem_labels hi) (fun i hi => mem_labels hi)
        (ihBody _ _) (ihRest _ _)

/-- Only a declaration right after the end of a loop is labelled wrongly. -/
theorem marksFollowed_printStages (t : Stages α) (n x : Nat) (after : Bool) (place : Code)
    (hplace : labelled place = true) :
    ((!after || labelled (printStages t n x ++ place)) &&
        marksFollowed (printStages t n x ++ place)) =
      (forsSeparated t after && marksFollowed place) := by
  induction t generalizing n x after place with
  | done => simp [printStages, forsSeparated, hplace]
  | simple no s rest ih =>
      have hfirst : labelled (printSimple s n ++ printStages rest (n + s.phases) x ++ place) =
          true := by
        unfold printSimple
        cases s.init <;> rfl
      have hrest := ih (n + s.phases) x false place hplace
      rw [printStages, hfirst, forsSeparated, ← hrest, List.append_assoc,
        marksFollowed_printSimple]
      simp
  | loopWhile no cond body rest ihBody ihRest =>
      let w : Label := ⟨"while", x + 1⟩
      let e : Label := ⟨"endwhile", x + 2⟩
      have hrest := ihRest (n + body.size + 2) (x + 2 + labels body) true place hplace
      have hbody := ihBody (n + 1) (x + 2) false
        (stage (n + body.size + 1) ++ [.stmt (.goto w), .label e] ++
          printStages rest (n + body.size + 2) (x + 2 + labels body) ++ place) rfl
      simp [printStages, stage, forsSeparated, Bool.and_assoc] at hbody hrest ⊢
      rw [hbody, hrest]
  | loopFor no var from_ toExpr body rest ihBody ihRest =>
      let f : Label := ⟨"for", x + 1⟩
      let e : Label := ⟨"endfor", x + 2⟩
      have hrest := ihRest (n + body.size + 3) (x + 2 + labels body) true place hplace
      have hbody := ihBody (n + 2) (x + 2) false
        (stage (n + body.size + 2) ++ [.stmt (.goto f), .label e] ++
          printStages rest (n + body.size + 3) (x + 2 + labels body) ++ place) rfl
      simp [printStages, stage, forsSeparated, Bool.and_assoc] at hbody hrest ⊢
      rw [hbody, hrest]

/-- The printed switch of a block is legal C exactly where its `for` loops declare
distinct variables and do not directly follow another loop. -/
theorem legal_printSwitch_iff (b : Block) (x : Nat) :
    Legal (printSwitch b x) ↔ Declarable b.stages := by
  have hdecls : (printSwitch b x).filterMap Item.declOf = forVars b.stages := by
    simp [printSwitch, printExitBlock, stage, decls_printStages]
  have hmarks := marksFollowed_printStages b.stages 0 x false
    (printExitBlock b.stages.size) rfl
  have hexit : marksFollowed (printExitBlock b.stages.size) = true := rfl
  simp only [Bool.not_false, Bool.true_or, Bool.true_and, hexit, Bool.and_true] at hmarks
  constructor
  · intro h
    exact ⟨hdecls ▸ h.decls, hmarks ▸ h.marks⟩
  · intro h
    refine ⟨?_, ?_, ?_, hdecls ▸ h.distinct, hmarks ▸ h.separated⟩
    · simpa [printSwitch, printExitBlock, stage] using nodup_labels b.stages 0 x
    · have hcases : (printSwitch b x).filterMap Item.caseOf =
          List.range' 0 b.stages.size ++ [b.stages.size] := by
        simp [printSwitch, printExitBlock, stage, cases_printStages]
      rw [hcases, ← List.range_eq_range', ← List.range_succ]
      exact List.nodup_range
    · simp [printSwitch, printExitBlock, stage, defaults_printStages]

/-! ### Whole plans -/

/-- What a C compiler asks of `auto_nav`: legal switches, and labels that are
distinct in the whole function. -/
structure LegalFunction (codes : List Code) : Prop where
  switches : ∀ code ∈ codes, Legal code
  labels : (codes.flatMap (List.filterMap Item.labelOf)).Nodup

theorem labels_printSwitch (b : Block) (x : Nat) :
    (printSwitch b x).filterMap Item.labelOf = (printStages b.stages 0 x).filterMap Item.labelOf := by
  simp [printSwitch, printExitBlock, stage]

theorem lt_of_mem_printBlocks {bs : List Block} {x : Nat} {l : Label}
    (hl : l ∈ (printBlocks bs x).flatMap (List.filterMap Item.labelOf)) : x < l.number := by
  induction bs generalizing x with
  | nil => cases hl
  | cons b bs ih =>
      rw [printBlocks, List.flatMap_cons, List.mem_append, labels_printSwitch] at hl
      rcases hl with hl | hl
      · exact (mem_labels hl).1
      · have := ih hl
        omega

theorem nodup_labels_printBlocks (bs : List Block) (x : Nat) :
    ((printBlocks bs x).flatMap (List.filterMap Item.labelOf)).Nodup := by
  induction bs generalizing x with
  | nil => exact List.nodup_nil
  | cons b bs ih =>
      rw [printBlocks, List.flatMap_cons, labels_printSwitch]
      refine (nodup_labels b.stages 0 x).append (ih _) ?_
      intro l hl hl'
      have := (mem_labels hl).2
      have := lt_of_mem_printBlocks hl'
      omega

theorem forall_mem_printBlocks {bs : List Block} {x : Nat} :
    (∀ code ∈ printBlocks bs x, Legal code) ↔ ∀ b ∈ bs, Declarable b.stages := by
  induction bs generalizing x with
  | nil => simp [printBlocks]
  | cons b bs ih => simp [printBlocks, ih, legal_printSwitch_iff]

/-- The generated `auto_nav` compiles exactly where every block is declarable. -/
theorem legalFunction_iff (plan : Plan) :
    LegalFunction (printBlocks plan.blocks 0) ↔ ∀ b ∈ plan.blocks, Declarable b.stages := by
  constructor
  · intro h
    exact forall_mem_printBlocks.mp h.switches
  · intro h
    exact ⟨forall_mem_printBlocks.mpr h, nodup_labels_printBlocks plan.blocks 0⟩

/-- The code of a block is that of its place in the list, whatever the labels before it. -/
theorem printBlocks_getElem? {bs : List Block} {b : Block} {i x : Nat} (hb : bs[i]? = some b) :
    ∃ x', (printBlocks bs x)[i]? = some (printSwitch b x') := by
  induction bs generalizing i x with
  | nil => cases hb
  | cons b' bs ih =>
      cases i with
      | zero =>
          cases hb
          exact ⟨x, rfl⟩
      | succ i => exact ih hb

end Paparazzi.FlightPlan.PrintedCode
