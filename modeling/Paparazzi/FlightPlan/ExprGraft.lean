import Mathlib
import Paparazzi.FlightPlan.CMeaning

/-!
An expression that is read behind an operator, and with another name for its first identifier:
the chain that the parser makes of its tokens, wherever they stand.
-/

namespace Paparazzi.FlightPlan.ExprGraft

open Paparazzi.Library
open Paparazzi.FlightPlan.ExprSyntax
open Paparazzi.FlightPlan.ExprParser
open Paparazzi.FlightPlan.CMeaning

variable {D : Type} (l : Level D) (f : Ident → Ident)

/-! ### Grafts -/

/-- The first identifier of an operand has another name. -/
def lead : Primary D → Primary D
  | .ident i => .ident (f i)
  | .field i h => .field (f i) h
  | .call i es => .call (f i) es
  | .index i e => .index (f i) e
  | p => p

/-- The chain behind what has been read of a level. -/
def graft : Chain D → Chain D
  | .first signs p fs => Level.close ⟨l.before, l.signs ++ signs⟩ (lead f p) fs
  | .more c o signs p fs => .more (graft c) o signs p fs

def graftLevel (x : Level D) : Level D :=
  match x.before with
  | none => ⟨l.before, l.signs ++ x.signs⟩
  | some (c, o) => ⟨some (graft l f c, o), x.signs⟩

/-- The names that are renamed while the first operand of a level is read. -/
def leadIn (x : Level D) : Ident → Ident := if x.before.isNone then f else id

def graftPlace (x : Level D) : Place D → Place D
  | .operand => .operand
  | .after p fs => .after (lead (leadIn f x) p) fs
  | .dot i => .dot (leadIn f x i)
  | .arrow p fs => .arrow (lead (leadIn f x) p) fs

def graftFrame : Frame D → Frame D
  | .paren x => .paren (graftLevel l f x)
  | .call i es x => .call (leadIn f x i) es (graftLevel l f x)
  | .index i x => .index (leadIn f x i) (graftLevel l f x)

/-- The frames over other ones: the last bracket stands in the level. -/
def graftFrames (frames : List (Frame D)) : List (Frame D) → List (Frame D)
  | [] => frames
  | [x] => graftFrame l f x :: frames
  | x :: y :: xs => x :: graftFrames frames (y :: xs)

def graftState (frames : List (Frame D)) (s : State D) : State D :=
  match s.frames with
  | [] => ⟨graftLevel l f s.level, graftPlace f s.level s.place, frames⟩
  | x :: xs => ⟨s.level, s.place, graftFrames l f frames (x :: xs)⟩

/-- The first operand has begun. -/
def Begun (s : State D) : Prop :=
  s.frames = [] → s.level.before = none → s.place ≠ .operand

variable {l f}

theorem lead_id (p : Primary D) : lead id p = p := by
  cases p <;> rfl

theorem close_graftLevel (x : Level D) (p : Primary D) (fs : List Ident) :
    (graftLevel l f x).close (lead (leadIn f x) p) fs = graft l f (x.close p fs) := by
  obtain ⟨before, signs⟩ := x
  cases before with
  | none => rfl
  | some y =>
      rw [show leadIn f ⟨some y, signs⟩ = id from rfl, lead_id]
      rfl

/-- A closing bracket where an operand is expected ends a call without arguments. -/
theorem stepOperand_rp {x : Level D} {frames : List (Frame D)} {s : State D}
    (h : stepOperand x frames .rp = some s) :
    ∃ i y rest, x = ⟨none, []⟩ ∧ frames = .call i .none y :: rest ∧
      s = ⟨y, .after (.call i .none) [], rest⟩ := by
  obtain ⟨before, signs⟩ := x
  cases before with
  | some y => cases h
  | none =>
      cases signs with
      | cons o signs => cases h
      | nil =>
          cases frames with
          | nil => cases h
          | cons x rest =>
              cases x with
              | paren y => cases h
              | index i y => cases h
              | call i es y =>
                  cases es with
                  | snoc es e => cases h
                  | none =>
                      cases h
                      exact ⟨i, y, rest, rfl, rfl, rfl⟩

theorem begun_step {s s' : State D} {t : Token D} (hs : Begun s) (h : step s t = some s') :
    Begun s' := by
  obtain ⟨x, place, frames⟩ := s
  cases place with
  | operand =>
      cases t with
      | rp =>
          obtain ⟨i, y, rest, -, -, rfl⟩ := stepOperand_rp h
          simp [Begun]
      | binary o =>
          cases o <;> cases h
          exact fun hframes hbefore => hs hframes hbefore
      | not =>
          cases h
          exact fun hframes hbefore => hs hframes hbefore
      | _ =>
          cases h
          try simp [Begun]
  | after p fs =>
      cases t <;> simp only [step, stepAfter] at h <;> try split at h
      all_goals cases h
      all_goals simp [Begun]
  | dot i =>
      cases t <;> cases h
      simp [Begun]
  | arrow p fs =>
      cases t <;> cases h
      simp [Begun]

theorem step_graftState {frames : List (Frame D)} {s s' : State D} {t : Token D} (hs : Begun s)
    (h : step s t = some s') :
    step (graftState l f frames s) t = some (graftState l f frames s') := by
  obtain ⟨⟨before, signs⟩, place, fr⟩ := s
  cases place with
  | operand =>
      cases t with
      | rp =>
          obtain ⟨i, y, rest, hx, rfl, rfl⟩ := stepOperand_rp h
          cases hx
          cases rest <;> rfl
      | binary o =>
          cases o <;> cases h
          cases fr with
          | cons x xs => rfl
          | nil =>
              cases before with
              | none => exact absurd rfl (hs rfl rfl)
              | some y => rfl
      | not =>
          cases h
          cases fr with
          | cons x xs => rfl
          | nil =>
              cases before with
              | none => exact absurd rfl (hs rfl rfl)
              | some y => rfl
      | _ =>
          cases h
          all_goals
            cases fr with
            | cons x xs => rfl
            | nil =>
                cases before with
                | none => exact absurd rfl (hs rfl rfl)
                | some y => rfl
  | after p fs =>
      cases t with
      | binary o =>
          cases h
          cases fr with
          | cons x xs => rfl
          | nil =>
              have hclose := @close_graftLevel _ l f ⟨before, signs⟩ p fs
              exact congrArg (fun c => some (State.mk ⟨some (c, o), []⟩ .operand frames)) hclose
      | deref =>
          cases h
          cases fr <;> rfl
      | rp =>
          rcases fr with _ | ⟨_ | _ | _, _ | _⟩ <;> cases h <;> rfl
      | comma =>
          rcases fr with _ | ⟨_ | _ | _, _ | _⟩ <;> cases h <;> rfl
      | rb =>
          rcases fr with _ | ⟨_ | _ | _, _ | _⟩ <;> cases h <;> rfl
      | dot =>
          cases p <;> cases fs <;> cases h
          cases fr <;> rfl
      | lp =>
          cases p <;> cases fs <;> cases h
          cases fr <;> rfl
      | lb =>
          cases p <;> cases fs <;> cases h
          cases fr <;> rfl
      | _ => cases h
  | dot i =>
      cases t <;> cases h
      cases fr <;> rfl
  | arrow p fs =>
      cases t <;> cases h
      cases fr <;> rfl

theorem run_graftState {frames : List (Frame D)} {ts : List (Token D)} {s s' : State D}
    (hs : Begun s) (h : run s ts = some s') :
    run (graftState l f frames s) ts = some (graftState l f frames s') := by
  induction ts generalizing s with
  | nil =>
      cases h
      rfl
  | cons t ts ih =>
      obtain ⟨s₁, hstep, hrun⟩ := Option.bind_eq_some_iff.1 h
      rw [run, step_graftState hs hstep]
      exact ih (begun_step hs hstep) hrun

/-- What the parser makes of a text where an operand is expected, in any level. -/
def Reads (l : Level D) (frames : List (Frame D)) (ts : List (Token D)) (c : Chain D) : Prop :=
  ∃ l' p fs, run ⟨l, .operand, frames⟩ ts = some ⟨l', .after p fs, frames⟩ ∧ l'.close p fs = c

theorem reads_first {frames : List (Frame D)} {ts : List (Token D)}
    {signs : List UnaryOperator} {p : Primary D} {fs : List Ident}
    (h : run ⟨l, .operand, frames⟩ ts = some ⟨⟨l.before, l.signs ++ signs⟩, .after p fs, frames⟩) :
    Reads l frames ts (graft l id (.first signs p fs)) :=
  ⟨_, p, fs, h, by rw [graft, lead_id]⟩

theorem reads_of_begun {frames : List (Frame D)} {ts : List (Token D)} {s s' : State D}
    {c : Chain D} (hs : Begun s) (h : run s ts = some s') (hfinish : s'.finish = some c) :
    ∃ l' p fs, run (graftState l f frames s) ts = some ⟨l', .after p fs, frames⟩ ∧
      l'.close p fs = graft l f c := by
  obtain ⟨x, place, fr⟩ := s'
  unfold State.finish at hfinish
  dsimp only at hfinish
  split at hfinish
  · cases hfinish
    rename_i p fs
    exact ⟨_, _, _, run_graftState hs h, close_graftLevel x p fs⟩
  · cases hfinish

/-- A text that begins with an identifier is read with another name in its place. -/
theorem reads_ident {frames : List (Frame D)} {i : Ident} {ts : List (Token D)} {c : Chain D}
    (h : parse (.ident i :: ts) = some c) :
    Reads l frames (.ident (f i) :: ts) (graft l f c) := by
  obtain ⟨s', hrun, hfinish⟩ := Option.bind_eq_some_iff.1 h
  have hbegun : Begun (⟨.start, .after (.ident i) [], []⟩ : State D) := nofun
  obtain ⟨l', p, fs, hrun', hclose⟩ := @reads_of_begun _ l f frames _ _ _ _ hbegun hrun hfinish
  refine ⟨l', p, fs, ?_, hclose⟩
  rw [← hrun']
  simp [run, step, stepOperand, graftState, graftLevel, graftPlace, lead, leadIn, Level.start]

theorem reads_signs {frames : List (Frame D)} {signs : List UnaryOperator} {ts : List (Token D)}
    {s' : State D} {c : Chain D} (h : run ⟨⟨none, signs⟩, .operand, []⟩ ts = some s')
    (hfinish : s'.finish = some c) :
    Reads ⟨l.before, l.signs ++ signs⟩ frames ts (graft l id c) := by
  induction ts generalizing signs with
  | nil =>
      cases h
      cases hfinish
  | cons t ts ih =>
      obtain ⟨s₁, hstep, hrun⟩ := Option.bind_eq_some_iff.1 h
      -- the first token behind the prefix operators begins the operand
      have hsign : ∀ o, s₁ = ⟨⟨none, signs ++ [o]⟩, .operand, []⟩ →
          Reads ⟨l.before, l.signs ++ signs ++ [o]⟩ frames ts (graft l id c) := by
        rintro o rfl
        rw [List.append_assoc]
        exact ih hrun
      have hoperand : Begun s₁ → step ⟨⟨l.before, l.signs ++ signs⟩, .operand, frames⟩ t =
          some (graftState l id frames s₁) →
            Reads ⟨l.before, l.signs ++ signs⟩ frames (t :: ts) (graft l id c) := by
        intro hbegun hfirst
        obtain ⟨l', p, fs, hrun', hclose⟩ := @reads_of_begun _ l id frames _ _ _ _ hbegun hrun hfinish
        exact ⟨l', p, fs, by rw [run, hfirst]; exact hrun', hclose⟩
      cases t with
      | binary o =>
          cases o <;> cases hstep
          exact hsign .minus rfl
      | not =>
          cases hstep
          exact hsign .not rfl
      | rp =>
          obtain ⟨i, y, rest, -, hframes, -⟩ := stepOperand_rp hstep
          cases hframes
      | _ =>
          cases hstep
          try exact hoperand nofun rfl

/-- A text is read in any level. -/
theorem reads_graft {frames : List (Frame D)} {ts : List (Token D)} {c : Chain D}
    (h : parse ts = some c) : Reads l frames ts (graft l id c) := by
  obtain ⟨s', hrun, hfinish⟩ := Option.bind_eq_some_iff.1 h
  have hreads := @reads_signs _ l frames [] ts s' c hrun hfinish
  rwa [List.append_nil] at hreads

/-! ### The trees -/

theorem graft_start (c : Chain D) : graft .start id c = c := by
  induction c using Chain.induction with
  | first signs p fs => exact congrArg (Chain.first signs · fs) (lead_id p)
  | more c o signs p fs ih => exact congrArg (Chain.more · o signs p fs) ih

theorem graft_graft_start (l : Level D) (f : Ident → Ident) (c : Chain D) :
    graft l id (graft .start f c) = graft l f c := by
  induction c using Chain.induction with
  | first signs p fs =>
      exact congrArg (Level.close ⟨l.before, l.signs ++ signs⟩ · fs) (lead_id _)
  | more c o signs p fs ih => exact congrArg (Chain.more · o signs p fs) ih

/-- The chain of two chains with an operator between them. -/
def joinChains (c₁ : Chain D) (o : BinaryOperator) (c₂ : Chain D) : Chain D :=
  graft ⟨some (c₁, o), []⟩ id c₂

theorem ops_joinChains (level : BinaryOperator → Nat) (c₁ : Chain D) (o : BinaryOperator)
    (c₂ : Chain D) : ((joinChains c₁ o c₂).tree level).ops =
      (c₂.tree level).ops ++ o :: (c₁.tree level).ops := by
  induction c₂ using Chain.induction with
  | first signs p fs => exact Precedence.Tree.ops_read _ _ _ _
  | more c o' signs p fs ih =>
      rw [joinChains] at ih
      rw [joinChains, graft, Chain.tree, Chain.tree, Precedence.Tree.ops_read,
        Precedence.Tree.ops_read, ih]
      rfl

theorem operands_joinChains (level : BinaryOperator → Nat) (c₁ : Chain D) (o : BinaryOperator)
    (c₂ : Chain D) : ((joinChains c₁ o c₂).tree level).operands =
      (c₁.tree level).operands ++ (c₂.tree level).operands := by
  induction c₂ using Chain.induction with
  | first signs p fs =>
      rw [joinChains, graft, lead_id]
      exact Precedence.Tree.operands_read _ _ _ _
  | more c o' signs p fs ih =>
      rw [joinChains] at ih
      rw [joinChains, graft, Chain.tree, Chain.tree, Precedence.Tree.operands_read,
        Precedence.Tree.operands_read, ih, List.append_assoc]

/-- A value that does not depend on the name of the first identifier is left. -/
theorem map_tree_graft {V : Type} {value : Expression D → V} (level : BinaryOperator → Nat)
    (f : Ident → Ident) (hvalue : ∀ signs p fs, value (operand signs ((lead f p).ast level) fs) =
      value (operand signs (p.ast level) fs)) (c : Chain D) :
    ((graft .start f c).tree level).map value = (c.tree level).map value := by
  induction c using Chain.induction with
  | first signs p fs => exact congrArg Precedence.Tree.leaf (hvalue signs p fs)
  | more c o signs p fs ih =>
      rw [graft, Chain.tree, Chain.tree, Precedence.Tree.map_read, Precedence.Tree.map_read, ih]

end Paparazzi.FlightPlan.ExprGraft
