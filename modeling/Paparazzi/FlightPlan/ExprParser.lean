import Paparazzi.Library.Precedence
import Paparazzi.FlightPlan.ExprSyntax

/-!
The grammar of `expr_parser.mly`. A text is read, token by token, into a chain of
operands with binary operators between them, and the levels of a precedence table
make the expression of a chain.
-/

namespace Paparazzi.FlightPlan.ExprParser

open Paparazzi.Library
open Paparazzi.FlightPlan.ExprSyntax

variable {D : Type}

mutual

/-- What an operand is before its prefix operators and its `->`. -/
inductive Primary (D : Type) where
  | int (n : Nat)
  | float (x : D)
  | ident (i : Ident)
  | field (i f : Ident)
  | call (i : Ident) (es : Args D)
  | index (i : Ident) (e : Chain D)
  | paren (e : Chain D)

/-- Operands, each with its prefix operators and its `->`, and the operators between
them; the last operand is outside. -/
inductive Chain (D : Type) where
  | first (signs : List UnaryOperator) (p : Primary D) (fs : List Ident)
  | more (c : Chain D) (o : BinaryOperator) (signs : List UnaryOperator) (p : Primary D)
      (fs : List Ident)

inductive Args (D : Type) where
  | none
  | snoc (es : Args D) (e : Chain D)

end

/-- For what no expression inside an operand matters to. -/
@[elab_as_elim]
theorem Chain.induction {motive : Chain D → Prop}
    (first : ∀ signs p fs, motive (.first signs p fs))
    (more : ∀ c o signs p fs, motive c → motive (.more c o signs p fs)) : ∀ c, motive c
  | .first signs p fs => first signs p fs
  | .more c o signs p fs => more c o signs p fs (Chain.induction first more c)

/-- `DEREF` binds tighter than `UMINUS` and `NOT`. -/
def operand (signs : List UnaryOperator) (e : Expression D) (fs : List Ident) : Expression D :=
  signs.foldr .unary (fs.foldl .deref e)

/-- The levels of the `%left` lines. -/
def exprLevel : BinaryOperator → Nat
  | .and | .or => 0
  | .eq | .gt | .geq => 1
  | .plus | .minus => 2
  | .mult | .div | .mod => 3

mutual

def Primary.ast (level : BinaryOperator → Nat) : Primary D → Expression D
  | .int n => .int n
  | .float x => .float x
  | .ident i => .ident i
  | .field i f => .field i f
  | .call i es => .call i (es.ast level)
  | .index i e => .index i ((e.tree level).fold .binary)
  | .paren e => (e.tree level).fold .binary

def Chain.tree (level : BinaryOperator → Nat) :
    Chain D → Precedence.Tree BinaryOperator (Expression D)
  | .first signs p fs => .leaf (operand signs (p.ast level) fs)
  | .more c o signs p fs => (c.tree level).read level o (operand signs (p.ast level) fs)

def Args.ast (level : BinaryOperator → Nat) : Args D → Expressions D
  | .none => .none
  | .snoc es e => .snoc (es.ast level) ((e.tree level).fold .binary)

end

/-- The expression of a chain. -/
def Chain.ast (level : BinaryOperator → Nat) (c : Chain D) : Expression D :=
  (c.tree level).fold .binary

/-! ### Reading -/

/-- What has been read of the chain that is being read: the operands before the last
binary operator, and the prefix operators behind it. -/
structure Level (D : Type) where
  before : Option (Chain D × BinaryOperator)
  signs : List UnaryOperator

def Level.start : Level D := ⟨none, []⟩

def Level.close (l : Level D) (p : Primary D) (fs : List Ident) : Chain D :=
  match l.before with
  | none => .first l.signs p fs
  | some (c, o) => .more c o l.signs p fs

/-- An open bracket, with what was read in front of it. -/
inductive Frame (D : Type) where
  | paren (l : Level D)
  | call (i : Ident) (es : Args D) (l : Level D)
  | index (i : Ident) (l : Level D)

inductive Place (D : Type) where
  | operand
  | after (p : Primary D) (fs : List Ident)
  | dot (i : Ident)
  | arrow (p : Primary D) (fs : List Ident)

structure State (D : Type) where
  level : Level D
  place : Place D
  frames : List (Frame D)

/-- A token where an operand is expected. -/
def stepOperand (l : Level D) (frames : List (Frame D)) : Token D → Option (State D)
  | .int n => some ⟨l, .after (.int n) [], frames⟩
  | .float x => some ⟨l, .after (.float x) [], frames⟩
  | .ident i => some ⟨l, .after (.ident i) [], frames⟩
  | .binary .minus => some ⟨{ l with signs := l.signs ++ [.minus] }, .operand, frames⟩
  | .not => some ⟨{ l with signs := l.signs ++ [.not] }, .operand, frames⟩
  | .lp => some ⟨.start, .operand, .paren l :: frames⟩
  | .rp =>
      match l, frames with
      | ⟨none, []⟩, .call i .none l' :: frames => some ⟨l', .after (.call i .none) [], frames⟩
      | _, _ => none
  | _ => none

/-- A token behind an operand. -/
def stepAfter (l : Level D) (p : Primary D) (fs : List Ident) (frames : List (Frame D)) :
    Token D → Option (State D)
  | .binary o => some ⟨⟨some (l.close p fs, o), []⟩, .operand, frames⟩
  | .deref => some ⟨l, .arrow p fs, frames⟩
  | .dot =>
      match p, fs with
      | .ident i, [] => some ⟨l, .dot i, frames⟩
      | _, _ => none
  | .lp =>
      match p, fs with
      | .ident i, [] => some ⟨.start, .operand, .call i .none l :: frames⟩
      | _, _ => none
  | .lb =>
      match p, fs with
      | .ident i, [] => some ⟨.start, .operand, .index i l :: frames⟩
      | _, _ => none
  | .rp =>
      match frames with
      | .paren l' :: frames => some ⟨l', .after (.paren (l.close p fs)) [], frames⟩
      | .call i es l' :: frames =>
          some ⟨l', .after (.call i (.snoc es (l.close p fs))) [], frames⟩
      | _ => none
  | .comma =>
      match frames with
      | .call i es l' :: frames =>
          some ⟨.start, .operand, .call i (.snoc es (l.close p fs)) l' :: frames⟩
      | _ => none
  | .rb =>
      match frames with
      | .index i l' :: frames => some ⟨l', .after (.index i (l.close p fs)) [], frames⟩
      | _ => none
  | _ => none

def step (s : State D) (t : Token D) : Option (State D) :=
  match s.place with
  | .operand => stepOperand s.level s.frames t
  | .after p fs => stepAfter s.level p fs s.frames t
  | .dot i =>
      match t with
      | .ident f => some ⟨s.level, .after (.field i f) [], s.frames⟩
      | _ => none
  | .arrow p fs =>
      match t with
      | .ident f => some ⟨s.level, .after p (fs ++ [f]), s.frames⟩
      | _ => none

def run : State D → List (Token D) → Option (State D)
  | s, [] => some s
  | s, t :: ts => (step s t).bind fun s => run s ts

def State.finish (s : State D) : Option (Chain D) :=
  match s.place, s.frames with
  | .after p fs, [] => some (s.level.close p fs)
  | _, _ => none

/-- The chain of a text, if the text is an `expression`. -/
def parse (ts : List (Token D)) : Option (Chain D) :=
  (run ⟨.start, .operand, []⟩ ts).bind State.finish

theorem run_append (s : State D) (ts us : List (Token D)) :
    run s (ts ++ us) = (run s ts).bind fun s => run s us := by
  induction ts generalizing s with
  | nil => rfl
  | cons t ts ih =>
      rw [List.cons_append, run, run]
      cases step s t with
      | none => rfl
      | some s => exact ih s

theorem step_decr (s : State D) : step s .decr = none := by
  obtain ⟨l, place, frames⟩ := s
  cases place <;> rfl

theorem run_decr {s : State D} {ts : List (Token D)} (h : .decr ∈ ts) : run s ts = none := by
  induction ts generalizing s with
  | nil => cases h
  | cons t ts ih =>
      rw [run]
      rcases List.mem_cons.mp h with rfl | h
      · rw [step_decr]
        rfl
      · cases step s t with
        | none => rfl
        | some s => exact ih h

/-! ### Names -/

mutual

/-- What holds of the identifiers that stand alone and of the other names. -/
def Primary.All (var name : Ident → Prop) : Primary D → Prop
  | .int _ => True
  | .float _ => True
  | .ident i => var i
  | .field i f => name i ∧ name f
  | .call i es => name i ∧ es.All var name
  | .index i e => name i ∧ e.All var name
  | .paren e => e.All var name

def Chain.All (var name : Ident → Prop) : Chain D → Prop
  | .first _ p fs => p.All var name ∧ ∀ f ∈ fs, name f
  | .more c _ _ p fs => c.All var name ∧ p.All var name ∧ ∀ f ∈ fs, name f

def Args.All (var name : Ident → Prop) : Args D → Prop
  | .none => True
  | .snoc es e => es.All var name ∧ e.All var name

end

/-- What holds of the names of an expression, whatever its constants and operators. -/
def Expression.Names (var name : Ident → Prop) (e : Expression D) : Prop :=
  e.All var name (fun _ => True) (fun _ _ => True)

def Expressions.Names (var name : Ident → Prop) (es : Expressions D) : Prop :=
  es.All var name (fun _ => True) (fun _ _ => True)

theorem names_foldl_deref {var name : Ident → Prop} (fs : List Ident) (e : Expression D) :
    Expression.Names var name (fs.foldl .deref e) ↔
      Expression.Names var name e ∧ ∀ f ∈ fs, name f := by
  induction fs generalizing e with
  | nil => simp
  | cons f fs ih =>
      rw [List.foldl_cons, ih]
      constructor
      · rintro ⟨⟨he, hf⟩, hfs⟩
        exact ⟨he, List.forall_mem_cons.mpr ⟨hf, hfs⟩⟩
      · rintro ⟨he, hfs⟩
        exact ⟨⟨he, (List.forall_mem_cons.mp hfs).1⟩, (List.forall_mem_cons.mp hfs).2⟩

theorem names_operand {var name : Ident → Prop} (signs : List UnaryOperator) (e : Expression D)
    (fs : List Ident) : Expression.Names var name (operand signs e fs) ↔
      Expression.Names var name e ∧ ∀ f ∈ fs, name f := by
  rw [← names_foldl_deref]
  induction signs with
  | nil => exact Iff.rfl
  | cons o signs ih => exact ih

theorem names_fold {var name : Ident → Prop}
    (t : Precedence.Tree BinaryOperator (Expression D)) :
    Expression.Names var name (t.fold .binary) ↔
      ∀ a ∈ t.operands, Expression.Names var name a := by
  induction t with
  | leaf a => simp [Precedence.Tree.fold, Precedence.Tree.operands]
  | node o l r ihl ihr =>
      rw [Precedence.Tree.operands, List.forall_mem_append, ← ihl, ← ihr]
      exact iff_of_eq (true_and _)

mutual

theorem names_ast (level : BinaryOperator → Nat) (var name : Ident → Prop) : ∀ p : Primary D,
    Expression.Names var name (p.ast level) ↔ p.All var name
  | .int _ => Iff.rfl
  | .float _ => Iff.rfl
  | .ident _ => Iff.rfl
  | .field _ _ => Iff.rfl
  | .call _ es => and_congr Iff.rfl (names_astArgs level var name es)
  | .index _ e =>
      and_congr Iff.rfl ((names_fold _).trans (names_tree level var name e))
  | .paren e => (names_fold _).trans (names_tree level var name e)

theorem names_tree (level : BinaryOperator → Nat) (var name : Ident → Prop) : ∀ c : Chain D,
    (∀ a ∈ (c.tree level).operands, Expression.Names var name a) ↔ c.All var name
  | .first signs p fs => by
      simp only [Chain.tree, Precedence.Tree.operands, List.mem_singleton, forall_eq, Chain.All]
      rw [names_operand, names_ast level var name p]
  | .more c o signs p fs => by
      rw [Chain.tree, Precedence.Tree.operands_read, List.forall_mem_append,
        List.forall_mem_singleton, names_tree level var name c, names_operand,
        names_ast level var name p]
      exact Iff.rfl

theorem names_astArgs (level : BinaryOperator → Nat) (var name : Ident → Prop) :
    ∀ es : Args D, Expressions.Names var name (es.ast level) ↔ es.All var name
  | .none => Iff.rfl
  | .snoc es e =>
      and_congr (names_astArgs level var name es)
        ((names_fold _).trans (names_tree level var name e))

end

/-- The names of an expression do not depend on the table. -/
theorem names_chain (level : BinaryOperator → Nat) (var name : Ident → Prop) (c : Chain D) :
    Expression.Names var name (c.ast level) ↔ c.All var name :=
  (names_fold _).trans (names_tree level var name c)

def Level.All (name : Ident → Prop) (l : Level D) : Prop :=
  ∀ c o, l.before = some (c, o) → c.All name name

def Frame.All (name : Ident → Prop) : Frame D → Prop
  | .paren l => l.All name
  | .call i es l => name i ∧ es.All name name ∧ l.All name
  | .index i l => name i ∧ l.All name

def Place.All (name : Ident → Prop) : Place D → Prop
  | .operand => True
  | .after p fs => p.All name name ∧ ∀ f ∈ fs, name f
  | .dot i => name i
  | .arrow p fs => p.All name name ∧ ∀ f ∈ fs, name f

structure State.All (name : Ident → Prop) (s : State D) : Prop where
  level : s.level.All name
  place : s.place.All name
  frames : ∀ f ∈ s.frames, f.All name

theorem Level.All.close {name : Ident → Prop} {l : Level D} {p : Primary D} {fs : List Ident}
    (h : l.All name) (hp : p.All name name) (hfs : ∀ f ∈ fs, name f) :
    (l.close p fs).All name name := by
  rw [Level.close]
  cases hbefore : l.before with
  | none => exact ⟨hp, hfs⟩
  | some co => exact ⟨h co.1 co.2 hbefore, hp, hfs⟩

theorem all_start (name : Ident → Prop) : (Level.start : Level D).All name := nofun

theorem all_stepOperand {name : Ident → Prop} {l : Level D} {frames : List (Frame D)}
    {t : Token D} {s : State D} (hl : l.All name) (hframes : ∀ f ∈ frames, f.All name)
    (ht : ∀ i, t = .ident i → name i) (h : stepOperand l frames t = some s) : s.All name := by
  unfold stepOperand at h
  split at h
  · cases h
    exact ⟨hl, ⟨trivial, nofun⟩, hframes⟩
  · cases h
    exact ⟨hl, ⟨trivial, nofun⟩, hframes⟩
  · cases h
    exact ⟨hl, ⟨ht _ rfl, nofun⟩, hframes⟩
  · cases h
    exact ⟨hl, trivial, hframes⟩
  · cases h
    exact ⟨hl, trivial, hframes⟩
  · cases h
    exact ⟨all_start name, trivial, List.forall_mem_cons.mpr ⟨hl, hframes⟩⟩
  · split at h
    · cases h
      obtain ⟨hcall, hrest⟩ := List.forall_mem_cons.mp hframes
      exact ⟨hcall.2.2, ⟨⟨hcall.1, trivial⟩, nofun⟩, hrest⟩
    · cases h
  · cases h

theorem all_stepAfter {name : Ident → Prop} {l : Level D} {p : Primary D} {fs : List Ident}
    {frames : List (Frame D)} {t : Token D} {s : State D} (hl : l.All name)
    (hp : p.All name name) (hfs : ∀ f ∈ fs, name f) (hframes : ∀ f ∈ frames, f.All name)
    (h : stepAfter l p fs frames t = some s) : s.All name := by
  have hclose := hl.close hp hfs
  unfold stepAfter at h
  split at h
  · cases h
    refine ⟨?_, trivial, hframes⟩
    rintro c o hbefore
    cases hbefore
    exact hclose
  · cases h
    exact ⟨hl, ⟨hp, hfs⟩, hframes⟩
  · split at h <;> cases h
    exact ⟨hl, hp, hframes⟩
  · split at h <;> cases h
    exact ⟨all_start name, trivial, List.forall_mem_cons.mpr ⟨⟨hp, trivial, hl⟩, hframes⟩⟩
  · split at h <;> cases h
    exact ⟨all_start name, trivial, List.forall_mem_cons.mpr ⟨⟨hp, hl⟩, hframes⟩⟩
  · split at h <;> cases h
    · obtain ⟨hparen, hrest⟩ := List.forall_mem_cons.mp hframes
      exact ⟨hparen, ⟨hclose, nofun⟩, hrest⟩
    · obtain ⟨hcall, hrest⟩ := List.forall_mem_cons.mp hframes
      exact ⟨hcall.2.2, ⟨⟨hcall.1, hcall.2.1, hclose⟩, nofun⟩, hrest⟩
  · split at h <;> cases h
    obtain ⟨hcall, hrest⟩ := List.forall_mem_cons.mp hframes
    exact ⟨all_start name, trivial,
      List.forall_mem_cons.mpr ⟨⟨hcall.1, ⟨hcall.2.1, hclose⟩, hcall.2.2⟩, hrest⟩⟩
  · split at h <;> cases h
    obtain ⟨hindex, hrest⟩ := List.forall_mem_cons.mp hframes
    exact ⟨hindex.2, ⟨⟨hindex.1, hclose⟩, nofun⟩, hrest⟩
  · cases h

theorem all_step {name : Ident → Prop} {s s' : State D} {t : Token D} (hs : s.All name)
    (ht : ∀ i, t = .ident i → name i) (h : step s t = some s') : s'.All name := by
  obtain ⟨l, place, frames⟩ := s
  obtain ⟨hl, hplace, hframes⟩ := hs
  cases place with
  | operand => exact all_stepOperand hl hframes ht h
  | after p fs => exact all_stepAfter hl hplace.1 hplace.2 hframes h
  | dot i =>
      cases t <;> cases h
      exact ⟨hl, ⟨⟨hplace, ht _ rfl⟩, nofun⟩, hframes⟩
  | arrow p fs =>
      cases t <;> cases h
      refine ⟨hl, ⟨hplace.1, ?_⟩, hframes⟩
      rintro f hf
      rcases List.mem_append.mp hf with hf | hf
      · exact hplace.2 f hf
      · cases List.mem_singleton.mp hf
        exact ht _ rfl

theorem all_run {name : Ident → Prop} {s s' : State D} {ts : List (Token D)} (hs : s.All name)
    (hts : ∀ i, .ident i ∈ ts → name i) (h : run s ts = some s') : s'.All name := by
  induction ts generalizing s with
  | nil =>
      cases h
      exact hs
  | cons t ts ih =>
      obtain ⟨s₁, hstep, hrun⟩ := Option.bind_eq_some_iff.mp h
      have hs₁ := all_step hs (fun i hi => hts i (by simp [hi])) hstep
      exact ih hs₁ (fun i hi => hts i (by simp [hi])) hrun

/-- The names of a chain are among its tokens. -/
theorem all_parse {name : Ident → Prop} {ts : List (Token D)} {c : Chain D}
    (hts : ∀ i, .ident i ∈ ts → name i) (h : parse ts = some c) : c.All name name := by
  obtain ⟨s, hrun, hfinish⟩ := Option.bind_eq_some_iff.mp h
  have hstart : State.All name (⟨.start, .operand, []⟩ : State D) :=
    ⟨all_start name, trivial, by simp⟩
  have hs := all_run hstart hts hrun
  obtain ⟨l, place, frames⟩ := s
  unfold State.finish at hfinish
  split at hfinish <;> cases hfinish
  rename_i p fs hplace hframes
  cases hplace
  exact hs.level.close hs.place.1 hs.place.2

end Paparazzi.FlightPlan.ExprParser
