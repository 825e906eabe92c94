import Mathlib.Data.List.Nodup
import Mathlib.Tactic.SplitIfs

/-!
The stages of a flight-plan block and the numbers that `index_stage` gives them,
those of the dump that the ground station reads.
-/

namespace Paparazzi.FlightPlan.Stage

/-- The C text of an expression or of a sequence of statements. -/
abbrev Text := String

/-- The stages without children.  `nav` is the text of the navigation statements
(mode and set points), `init` that of the first phase of a stage in two phases;
`place` are the assignments of a `go` to coordinates. -/
inductive Simple where
  | heading (until_ nav : Text)
  | attitude (until_ : Option Text) (nav : Text)
  | go (place : Option Text) (approaching wp nav : Text) (until_ : Option Text)
  | stay (nav : Text) (until_ : Option Text)
  | circle (nav : Text) (until_ : Option Text)
  | eight (init nav : Text) (until_ : Option Text)
  | oval (init nav : Text) (until_ : Option Text)
  | surveyRectangle (init nav : Text)
  | follow (nav : Text)
  | xyz (nav : Text)
  | home (nav : Text)
  | set (assignment : Text)
  | call (statement : Text)
  | deroute (block : Nat)
  deriving DecidableEq, Repr

/-- The text of the first phase of the stages in two phases. -/
def Simple.init : Simple → Option Text
  | .eight init _ _ => some init
  | .oval init _ _ => some init
  | .surveyRectangle init _ => some init
  | _ => none

/-- The stage numbers that a stage without children takes. -/
def Simple.phases (x : Simple) : Nat :=
  if x.init.isSome then 2 else 1

theorem Simple.phases_pos (x : Simple) : 0 < x.phases := by
  unfold Simple.phases
  split_ifs <;> omega

/-- A sequence of stages, each with the attributes `α` beside its own. -/
inductive Stages (α : Type) where
  | done
  | simple (no : α) (x : Simple) (rest : Stages α)
  | loopWhile (no : α) (cond : Text) (body rest : Stages α)
  | loopFor (no : α) (var from_ toExpr : Text) (body rest : Stages α)
  deriving DecidableEq, Repr

namespace Stages

variable {α : Type}

/-- The stage numbers that a sequence takes, the hidden ones included: the
initialisation of a `for`, the end of a loop and the first of two phases. -/
def size : Stages α → Nat
  | done => 0
  | simple _ x rest => x.phases + rest.size
  | loopWhile _ _ body rest => body.size + 2 + rest.size
  | loopFor _ _ _ _ body rest => body.size + 3 + rest.size

/-- The blocks that the stages of a sequence jump to. -/
def targets : Stages α → List Nat
  | done => []
  | simple _ (.deroute block) rest => block :: rest.targets
  | simple _ _ rest => rest.targets
  | loopWhile _ _ body rest => body.targets ++ rest.targets
  | loopFor _ _ _ _ body rest => body.targets ++ rest.targets

/-- `index_stage` over the children of a block or a loop; `n` is the next number,
one more than the counter `stage`. -/
def indexStage : Stages α → Nat → Stages Nat
  | done, _ => done
  | simple _ x rest, n =>
      simple (n + x.phases - 1) x (rest.indexStage (n + x.phases))
  | loopWhile _ cond body rest, n =>
      loopWhile n cond (body.indexStage (n + 1)) (rest.indexStage (n + body.size + 2))
  | loopFor _ var from_ toExpr body rest, n =>
      loopFor (n + 1) var from_ toExpr (body.indexStage (n + 2))
        (rest.indexStage (n + body.size + 3))

/-- The numbers of `indexed_stages`, the dump of one block. -/
def indexedStages : Stages Nat → List Nat
  | done => []
  | simple no _ rest => no :: rest.indexedStages
  | loopWhile no _ body rest => no :: (body.indexedStages ++ rest.indexedStages)
  | loopFor no _ _ _ body rest => no :: (body.indexedStages ++ rest.indexedStages)

@[simp] theorem size_indexStage (t : Stages α) (n : Nat) : (t.indexStage n).size = t.size := by
  induction t generalizing n with
  | done => rfl
  | simple no x rest ih => simp [indexStage, size, ih]
  | loopWhile no cond body rest ihBody ihRest => simp [indexStage, size, ihBody, ihRest]
  | loopFor no var from_ toExpr body rest ihBody ihRest => simp [indexStage, size, ihBody, ihRest]

/-- The numbers of a sequence lie in the range that its size reserves. -/
theorem mem_indexedStages {t : Stages α} {n i : Nat}
    (hi : i ∈ (t.indexStage n).indexedStages) : n ≤ i ∧ i < n + t.size := by
  induction t generalizing n with
  | done => cases hi
  | simple no x rest ih =>
      have hpos := Simple.phases_pos x
      rcases List.mem_cons.mp hi with rfl | hi
      · simp only [size]
        omega
      · have := ih hi
        simp only [size]
        omega
  | loopWhile no cond body rest ihBody ihRest =>
      rcases List.mem_cons.mp hi with rfl | hi
      · simp only [size]
        omega
      · rcases List.mem_append.mp hi with hi | hi
        · have := ihBody hi
          simp only [size]
          omega
        · have := ihRest hi
          simp only [size]
          omega
  | loopFor no var from_ toExpr body rest ihBody ihRest =>
      rcases List.mem_cons.mp hi with rfl | hi
      · simp only [size]
        omega
      · rcases List.mem_append.mp hi with hi | hi
        · have := ihBody hi
          simp only [size]
          omega
        · have := ihRest hi
          simp only [size]
          omega

/-- The numbers of a loop, those of its body and those behind it are distinct. -/
theorem nodup_loop {no : Nat} (limit : Nat) {inner outer : List Nat} (hno : no < limit)
    (hinner : ∀ i ∈ inner, no < i ∧ i < limit) (houter : ∀ i ∈ outer, limit ≤ i)
    (hnodup : inner.Nodup) (hnodup' : outer.Nodup) : (no :: (inner ++ outer)).Nodup := by
  refine List.nodup_cons.mpr ⟨?_, hnodup.append hnodup' ?_⟩
  · intro hmem
    rcases List.mem_append.mp hmem with hmem | hmem
    · have := hinner no hmem
      omega
    · have := houter no hmem
      omega
  · intro i hi hi'
    have := hinner i hi
    have := houter i hi'
    omega

/-- No two stages of a block share a number in the dump. -/
theorem nodup_indexedStages (t : Stages α) (n : Nat) :
    (t.indexStage n).indexedStages.Nodup := by
  induction t generalizing n with
  | done => exact List.nodup_nil
  | simple no x rest ih =>
      refine List.nodup_cons.mpr ⟨?_, ih _⟩
      intro hmem
      have hpos := Simple.phases_pos x
      have := mem_indexedStages hmem
      omega
  | loopWhile no cond body rest ihBody ihRest =>
      refine nodup_loop (n + body.size + 2) (by omega) ?_ ?_ (ihBody _) (ihRest _)
      · intro i hi
        have := mem_indexedStages hi
        omega
      · intro i hi
        exact (mem_indexedStages hi).1
  | loopFor no var from_ toExpr body rest ihBody ihRest =>
      refine nodup_loop (n + body.size + 3) (by omega) ?_ ?_ (ihBody _) (ihRest _)
      · intro i hi
        have := mem_indexedStages hi
        omega
      · intro i hi
        exact (mem_indexedStages hi).1

end Stages

end Paparazzi.FlightPlan.Stage
