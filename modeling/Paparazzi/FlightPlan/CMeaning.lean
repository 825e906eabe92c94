import Paparazzi.FlightPlan.ExprLexer
import Paparazzi.FlightPlan.PrintedText

/-!
The value of a flight-plan expression. An environment says what names, constants and
operators mean; in it, the C text that is printed for an expression has a value, and so
has the original text read with the precedence of C. The two are compared for every text.
-/

namespace Paparazzi.FlightPlan.CMeaning

open Paparazzi.Library
open Paparazzi.FlightPlan.ExprSyntax
open Paparazzi.FlightPlan.ExprParser
open Paparazzi.FlightPlan.ExprLexer
open Paparazzi.FlightPlan.CText
open Paparazzi.FlightPlan.PrintedText

variable {D V : Type}

/-- The meaning of names, constants and operators in the generated C code. -/
structure Environment (D V : Type) where
  ident : Ident → V
  int : Nat → V
  float : D → V
  call : Ident → List V → V
  unary : UnaryOperator → V → V
  binary : BinaryOperator → V → V → V
  index : Ident → V → V
  field : Ident → Ident → V
  deref : V → Ident → V

mutual

def Environment.eval (env : Environment D V) : Expression D → V
  | .ident i => env.ident i
  | .int n => env.int n
  | .float x => env.float x
  | .call i es => env.call i (env.evalArgs es)
  | .unary o e => env.unary o (env.eval e)
  | .binary o e₁ e₂ => env.binary o (env.eval e₁) (env.eval e₂)
  | .index i e => env.index i (env.eval e)
  | .field i f => env.field i f
  | .deref e f => env.deref (env.eval e) f

def Environment.evalArgs (env : Environment D V) : Expressions D → List V
  | .none => []
  | .snoc es e => env.evalArgs es ++ [env.eval e]

end

/-- What `parse` of `gen_flight_plan.ml` makes of an attribute. -/
def printed (F : Doubles D) (text : List Char) : Option (List Char) :=
  (parseExpression F text).map fun c => sprint F (c.ast exprLevel)

/-- The value of the printed text. -/
def printedValue (F : Doubles D) (env : Environment D V) (text : List Char) : Option V :=
  ((printed F text).bind (cRead F)).map env.eval

/-- The value of the original text with the precedence of C, where `$x` is the variable
of the parameter `x`. -/
def originalValue (F : Doubles D) (env : Environment D V) (text : List Char) : Option V :=
  (parseExpression F text).map fun c =>
    { env with ident := fun i => env.ident (cIdent i) }.eval (c.ast cLevel)

def KeepsMeaning (F : Doubles D) (text : List Char) : Prop :=
  ∀ (V : Type) (env : Environment D V), printedValue F env text = originalValue F env text

/-- Every constant is still there after it was printed with six decimals. -/
def Stable (F : Doubles D) (e : Expression D) : Prop :=
  e.All (fun _ => True) (fun _ => True) (fun x => reprint F x = .float x) (fun _ _ => True)

def StableArgs (F : Doubles D) (es : Expressions D) : Prop :=
  es.All (fun _ => True) (fun _ => True) (fun x => reprint F x = .float x) (fun _ _ => True)

/-- An `&&` behind an `||`, or a `>` or `>=` behind an `==` with no `&&` or `||` between. -/
def Misread (o : BinaryOperator) (before : List BinaryOperator) : Prop :=
  o = .and ∧ .or ∈ before ∨
    (o = .gt ∨ o = .geq) ∧ .eq ∈ before.takeWhile fun p => p ≠ .and ∧ p ≠ .or

/-- The operators of a chain, the last one first. -/
def ops : Chain D → List BinaryOperator
  | .first _ _ _ => []
  | .more c o _ _ _ => o :: ops c

mutual

/-- No operator between two brackets is misread. -/
def OrderedPrimary : Primary D → Prop
  | .int _ => True
  | .float _ => True
  | .ident _ => True
  | .field _ _ => True
  | .call _ es => OrderedArgs es
  | .index _ e => Ordered e
  | .paren e => Ordered e

def Ordered : Chain D → Prop
  | .first _ p _ => OrderedPrimary p
  | .more c o _ p _ => Ordered c ∧ OrderedPrimary p ∧ ¬ Misread o (ops c)

def OrderedArgs : Args D → Prop
  | .none => True
  | .snoc es e => OrderedArgs es ∧ Ordered e

end

/-! ### Two readings of one chain -/

theorem cLevel_lt (o p : BinaryOperator) (h : exprLevel o < exprLevel p) :
    cLevel o < cLevel p := by
  revert h
  cases o <;> cases p <;> decide

/-- An operator is misread if C binds it tighter than what the parser gives it. -/
theorem not_misread_iff (o : BinaryOperator) (before : List BinaryOperator) :
    ¬ Misread o before ↔
      ∀ p ∈ Precedence.Tree.taken exprLevel o before, cLevel o ≤ cLevel p := by
  have hall : ∀ (o p : BinaryOperator), exprLevel o ≤ exprLevel p →
      (cLevel o ≤ cLevel p ↔ ¬ (o = .and ∧ p = .or) ∧ ¬ ((o = .gt ∨ o = .geq) ∧ p = .eq)) := by
    intro o p
    cases o <;> cases p <;> decide
  have htaken : ∀ p ∈ Precedence.Tree.taken exprLevel o before, exprLevel o ≤ exprLevel p := by
    intro p hp
    have hp := List.mem_takeWhile_imp hp
    exact of_decide_eq_true hp
  have hgt : o = .gt ∨ o = .geq → Precedence.Tree.taken exprLevel o before =
      before.takeWhile fun p => p ≠ .and ∧ p ≠ .or := by
    intro ho
    apply congrArg (List.takeWhile · before)
    funext p
    rcases ho with rfl | rfl <;> cases p <;> rfl
  have hand : o = .and → Precedence.Tree.taken exprLevel o before = before := by
    rintro rfl
    exact List.takeWhile_eq_self_iff.mpr fun p _ => decide_eq_true (Nat.zero_le _)
  constructor
  · rintro h p hp
    rw [hall o p (htaken p hp)]
    constructor
    · rintro ⟨ho, rfl⟩
      rw [hand ho] at hp
      exact h (Or.inl ⟨ho, hp⟩)
    · rintro ⟨ho, rfl⟩
      rw [hgt ho] at hp
      exact h (Or.inr ⟨ho, hp⟩)
  · rintro h (⟨ho, hp⟩ | ⟨ho, hp⟩)
    · rw [← hand ho] at hp
      exact ((hall o .or (htaken _ hp)).mp (h _ hp)).1 ⟨ho, rfl⟩
    · rw [← hgt ho] at hp
      exact ((hall o .eq (htaken _ hp)).mp (h _ hp)).2 ⟨ho, rfl⟩

theorem ops_tree (level : BinaryOperator → Nat) (c : Chain D) : (c.tree level).ops = ops c := by
  cases c with
  | first => rfl
  | more c o signs p fs =>
      rw [Chain.tree, Precedence.Tree.ops_read, ops, ops_tree level c]

theorem allowed_tree (level : BinaryOperator → Nat) (c : Chain D) :
    (c.tree level).Allowed level := by
  cases c with
  | first => trivial
  | more c o signs p fs =>
      rw [Chain.tree]
      exact Precedence.Tree.allowed_read (allowed_tree level c) o _

mutual

theorem ast_of_ordered : ∀ {p : Primary D}, OrderedPrimary p → p.ast cLevel = p.ast exprLevel
  | .int _, _ => rfl
  | .float _, _ => rfl
  | .ident _, _ => rfl
  | .field _ _, _ => rfl
  | .call _ _, h => congrArg _ (args_of_ordered h)
  | .index i e, h => by
      rw [Primary.ast, Primary.ast, tree_of_ordered h]
  | .paren e, h => by
      rw [Primary.ast, Primary.ast, tree_of_ordered h]

/-- Where nothing is misread, the two tables make the same tree. -/
theorem tree_of_ordered : ∀ {c : Chain D}, Ordered c → c.tree cLevel = c.tree exprLevel
  | .first signs p fs, h => by
      rw [Chain.tree, Chain.tree, ast_of_ordered h]
  | .more c o signs p fs, h => by
      obtain ⟨hc, hp, ho⟩ := h
      have htree := tree_of_ordered hc
      have hallowed := allowed_tree cLevel c
      rw [htree] at hallowed
      rw [Chain.tree, Chain.tree, ast_of_ordered hp, htree,
        Precedence.Tree.read_eq_iff cLevel_lt (allowed_tree exprLevel c) hallowed, ops_tree,
        ← not_misread_iff]
      exact ho

theorem args_of_ordered : ∀ {es : Args D}, OrderedArgs es → es.ast cLevel = es.ast exprLevel
  | .none, _ => rfl
  | .snoc es e, h => by
      rw [Args.ast, Args.ast, args_of_ordered h.1, tree_of_ordered h.2]

end

/-! ### Two readings with one value -/

mutual

def size : Expression D → Nat
  | .ident _ => 0
  | .int _ => 0
  | .float _ => 0
  | .field _ _ => 0
  | .call _ es => sizeArgs es + 1
  | .unary _ e => size e + 1
  | .binary _ e₁ e₂ => size e₁ + size e₂ + 1
  | .index _ e => size e + 1
  | .deref e _ => size e + 1

def sizeArgs : Expressions D → Nat
  | .none => 0
  | .snoc es e => sizeArgs es + size e + 1

end

section Map

variable {f : Ident → Expression D} {g : D → Expression D}

mutual

theorem size_map (hf : ∀ i, size (f i) = 0) (hg : ∀ x, size (g x) = 0) :
    ∀ e : Expression D, size (e.map f g) = size e
  | .ident i => hf i
  | .int _ => rfl
  | .float x => hg x
  | .field _ _ => rfl
  | .call _ es => congrArg (· + 1) (sizeArgs_map hf hg es)
  | .unary _ e => congrArg (· + 1) (size_map hf hg e)
  | .index _ e => congrArg (· + 1) (size_map hf hg e)
  | .deref e _ => congrArg (· + 1) (size_map hf hg e)
  | .binary _ e₁ e₂ => by
      rw [Expression.map, size, size, size_map hf hg e₁, size_map hf hg e₂]

theorem sizeArgs_map (hf : ∀ i, size (f i) = 0) (hg : ∀ x, size (g x) = 0) :
    ∀ es : Expressions D, sizeArgs (es.map f g) = sizeArgs es
  | .none => rfl
  | .snoc es e => by
      rw [Expressions.map, sizeArgs, sizeArgs, sizeArgs_map hf hg es, size_map hf hg e]

end

theorem map_fold (f : Ident → Expression D) (g : D → Expression D)
    (t : Precedence.Tree BinaryOperator (Expression D)) :
    (t.fold .binary).map f g = (t.map fun e => e.map f g).fold .binary := by
  induction t with
  | leaf a => rfl
  | node o l r ihl ihr =>
      rw [Precedence.Tree.fold, Expression.map, ihl, ihr]
      rfl

theorem map_foldl_deref (f : Ident → Expression D) (g : D → Expression D) (fs : List Ident)
    (e : Expression D) : (fs.foldl .deref e).map f g = fs.foldl .deref (e.map f g) := by
  induction fs generalizing e with
  | nil => rfl
  | cons h fs ih => exact ih (.deref e h)

theorem map_operand (f : Ident → Expression D) (g : D → Expression D)
    (signs : List UnaryOperator) (e : Expression D) (fs : List Ident) :
    (operand signs e fs).map f g = operand signs (e.map f g) fs := by
  induction signs with
  | nil => exact map_foldl_deref f g fs e
  | cons o signs ih => exact congrArg (Expression.unary o) ih

end Map

theorem foldl_deref_inj {fs : List Ident} {e e' : Expression D}
    (h : fs.foldl .deref e = fs.foldl .deref e') : e = e' := by
  induction fs generalizing e e' with
  | nil => exact h
  | cons f fs ih =>
      have hderef := ih h
      injection hderef

theorem operand_inj {signs : List UnaryOperator} {fs : List Ident} {e e' : Expression D}
    (h : operand signs e fs = operand signs e' fs) : e = e' := by
  induction signs with
  | nil => exact foldl_deref_inj h
  | cons o signs ih =>
      injection h with _ h
      exact ih h

theorem size_operand (signs : List UnaryOperator) (e : Expression D) (fs : List Ident) :
    size (operand signs e fs) = size e + fs.length + signs.length := by
  have hderef : ∀ (fs : List Ident) (e : Expression D),
      size (fs.foldl .deref e) = size e + fs.length := by
    intro fs
    induction fs with
    | nil => exact fun _ => rfl
    | cons f fs ih =>
        intro e
        rw [List.foldl_cons, ih, size, List.length_cons]
        omega
  induction signs with
  | nil => exact hderef fs e
  | cons o signs ih =>
      change size (operand signs e fs) + 1 = _
      rw [ih, List.length_cons]
      omega

theorem size_binary (o : BinaryOperator) (e e' : Expression D) :
    size (.binary o e e') = size e + size e' + 1 := rfl

/-- Trees over operands of the same sizes are of the same size. -/
theorem size_fold_congr {t t' : Precedence.Tree BinaryOperator (Expression D)}
    (h : t.operands.map size = t'.operands.map size) :
    size (t.fold .binary) = size (t'.fold .binary) := by
  have ht := Precedence.Tree.size_fold size_binary t
  have ht' := Precedence.Tree.size_fold size_binary t'
  rw [h] at ht
  omega

mutual

theorem size_ast (level level' : BinaryOperator → Nat) : ∀ p : Primary D,
    size (p.ast level) = size (p.ast level')
  | .int _ => rfl
  | .float _ => rfl
  | .ident _ => rfl
  | .field _ _ => rfl
  | .call _ es => congrArg (· + 1) (size_astArgs level level' es)
  | .index _ e => congrArg (· + 1) (size_fold_congr (size_tree level level' e))
  | .paren e => size_fold_congr (size_tree level level' e)

theorem size_tree (level level' : BinaryOperator → Nat) : ∀ c : Chain D,
    (c.tree level).operands.map size = (c.tree level').operands.map size
  | .first signs p fs => by
      simp only [Chain.tree, Precedence.Tree.operands, List.map_cons, List.map_nil, size_operand,
        size_ast level level' p]
  | .more c o signs p fs => by
      simp only [Chain.tree, Precedence.Tree.operands_read, List.map_append, List.map_cons,
        List.map_nil, size_operand, size_tree level level' c, size_ast level level' p]

theorem size_astArgs (level level' : BinaryOperator → Nat) : ∀ es : Args D,
    sizeArgs (es.ast level) = sizeArgs (es.ast level')
  | .none => rfl
  | .snoc es e => by
      rw [Args.ast, Args.ast, sizeArgs, sizeArgs, size_astArgs level level' es,
        size_fold_congr (size_tree level level' e)]

end

section Readings

variable {f : Ident → Expression D} {g g' : D → Expression D}

theorem size_operands_map (hf : ∀ i, size (f i) = 0) (hg : ∀ x, size (g x) = 0)
    (t : Precedence.Tree BinaryOperator (Expression D)) :
    (t.map fun e => e.map f g).operands.map size = t.operands.map size := by
  rw [Precedence.Tree.operands_map, List.map_map]
  exact List.map_congr_left fun e _ => size_map hf hg e

/-- The trees of two readings with one value, over other names and constants. -/
theorem tree_of_fold (hf : ∀ i, size (f i) = 0) (hg : ∀ x, size (g x) = 0)
    (hg' : ∀ x, size (g' x) = 0) {c : Chain D}
    (h : ((c.tree exprLevel).fold .binary).map f g = ((c.tree cLevel).fold .binary).map f g') :
    ((c.tree exprLevel).map fun e => e.map f g) = (c.tree cLevel).map fun e => e.map f g' := by
  rw [map_fold, map_fold] at h
  apply Precedence.Tree.fold_inj size_binary _ _ h
  · rintro o o' a a' b b' heq
    injection heq with ho ha hb
    exact ⟨ho, ha, hb⟩
  · rw [size_operands_map hf hg, size_operands_map hf hg', size_tree exprLevel cLevel c]

mutual

theorem ordered_of_ast (hf : ∀ i, size (f i) = 0) (hg : ∀ x, size (g x) = 0)
    (hg' : ∀ x, size (g' x) = 0) : ∀ {p : Primary D},
    (p.ast exprLevel).map f g = (p.ast cLevel).map f g' →
      OrderedPrimary p ∧ p.ast exprLevel = p.ast cLevel
  | .int _, _ => ⟨trivial, rfl⟩
  | .float _, _ => ⟨trivial, rfl⟩
  | .ident _, _ => ⟨trivial, rfl⟩
  | .field _ _, _ => ⟨trivial, rfl⟩
  | .call i es, h => by
      injection h with _ h
      obtain ⟨hes, heq⟩ := ordered_of_args hf hg hg' h
      exact ⟨hes, congrArg (Expression.call i) heq⟩
  | .index i e, h => by
      injection h with _ h
      obtain ⟨he, heq⟩ := ordered_of_tree hf hg hg' (tree_of_fold hf hg hg' h)
      refine ⟨he, ?_⟩
      rw [Primary.ast, Primary.ast, heq]
  | .paren e, h => by
      obtain ⟨he, heq⟩ := ordered_of_tree hf hg hg' (tree_of_fold hf hg hg' h)
      refine ⟨he, ?_⟩
      rw [Primary.ast, Primary.ast, heq]

/-- Readings with one value misread nothing. -/
theorem ordered_of_tree (hf : ∀ i, size (f i) = 0) (hg : ∀ x, size (g x) = 0)
    (hg' : ∀ x, size (g' x) = 0) : ∀ {c : Chain D},
    ((c.tree exprLevel).map fun e => e.map f g) = ((c.tree cLevel).map fun e => e.map f g') →
      Ordered c ∧ c.tree exprLevel = c.tree cLevel
  | .first signs p fs, h => by
      injection h with h
      beta_reduce at h
      rw [map_operand, map_operand] at h
      obtain ⟨hp, heq⟩ := ordered_of_ast hf hg hg' (operand_inj h)
      refine ⟨hp, ?_⟩
      rw [Chain.tree, Chain.tree, heq]
  | .more c o signs p fs, h => by
      rw [Chain.tree, Chain.tree, Precedence.Tree.map_read, Precedence.Tree.map_read] at h
      obtain ⟨hmap, -, hoperand⟩ := Precedence.Tree.read_inj h
      obtain ⟨hc, htree⟩ := ordered_of_tree hf hg hg' hmap
      have hallowed := allowed_tree cLevel c
      rw [← htree] at hallowed
      have hoperand' := hoperand
      beta_reduce at hoperand'
      rw [map_operand, map_operand] at hoperand'
      obtain ⟨hp, hast⟩ := ordered_of_ast hf hg hg' (operand_inj hoperand')
      rw [← hmap, ← hoperand] at h
      have hread : ∀ e, (c.tree exprLevel).read cLevel o e = (c.tree exprLevel).read exprLevel o e := by
        intro e
        apply Precedence.Tree.read_congr cLevel_lt _ _ (allowed_tree exprLevel c) hallowed _ o _ e
          h.symm
        · exact (Precedence.Tree.allowed_map _ _ _).mpr (allowed_tree exprLevel c)
        · exact (Precedence.Tree.allowed_map _ _ _).mpr hallowed
        · exact Precedence.Tree.ops_map _ _
      constructor
      · refine ⟨hc, hp, ?_⟩
        rw [not_misread_iff, ← ops_tree exprLevel c]
        exact (Precedence.Tree.read_eq_iff cLevel_lt (allowed_tree exprLevel c) hallowed o _).mp
          (hread (p.ast cLevel))
      · rw [Chain.tree, Chain.tree, ← htree, hread, hast]

theorem ordered_of_args (hf : ∀ i, size (f i) = 0) (hg : ∀ x, size (g x) = 0)
    (hg' : ∀ x, size (g' x) = 0) : ∀ {es : Args D},
    (es.ast exprLevel).map f g = (es.ast cLevel).map f g' →
      OrderedArgs es ∧ es.ast exprLevel = es.ast cLevel
  | .none, _ => ⟨trivial, rfl⟩
  | .snoc es e, h => by
      injection h with hes he
      obtain ⟨hordered, heq⟩ := ordered_of_args hf hg hg' hes
      obtain ⟨he, htree⟩ := ordered_of_tree hf hg hg' (tree_of_fold hf hg hg' he)
      refine ⟨⟨hordered, he⟩, ?_⟩
      rw [Args.ast, Args.ast, heq, htree]

end

end Readings

/-! ### Names and constants -/

/-- An identifier that stands alone, by its C name. -/
def cVariable (i : Ident) : Expression D := .ident (cIdent i)

mutual

theorem names_map {name : Ident → Prop} : ∀ (e : Expression D),
    Expression.Names name name (e.map cVariable .float) →
      Expression.Names (fun i => name (cIdent i)) name e
  | .ident _, h => h
  | .int _, _ => trivial
  | .float _, _ => trivial
  | .field _ _, h => h
  | .call _ es, h => ⟨h.1, names_mapArgs es h.2⟩
  | .index _ e, h => ⟨h.1, names_map e h.2⟩
  | .unary _ e, h => names_map e h
  | .deref e _, h => ⟨names_map e h.1, h.2⟩
  | .binary _ e₁ e₂, h => ⟨trivial, names_map e₁ h.2.1, names_map e₂ h.2.2⟩

theorem names_mapArgs {name : Ident → Prop} : ∀ (es : Expressions D),
    Expressions.Names name name (es.map cVariable .float) →
      Expressions.Names (fun i => name (cIdent i)) name es
  | .none, _ => trivial
  | .snoc es e, h => ⟨names_mapArgs es h.1, names_map e h.2⟩

end

mutual

theorem stable_iff (F : Doubles D) : ∀ e : Expression D,
    e.map cVariable (reprint F) = e.map cVariable .float ↔ Stable F e
  | .ident _ => iff_of_true rfl trivial
  | .int _ => iff_of_true rfl trivial
  | .field _ _ => iff_of_true rfl ⟨trivial, trivial⟩
  | .float _ => Iff.rfl
  | .call i es => by
      rw [Expression.map, Expression.map, Expression.call.injEq, stableArgs_iff F es]
      exact and_congr (iff_of_true rfl trivial) Iff.rfl
  | .index i e => by
      rw [Expression.map, Expression.map, Expression.index.injEq, stable_iff F e]
      exact and_congr (iff_of_true rfl trivial) Iff.rfl
  | .unary o e => by
      rw [Expression.map, Expression.map, Expression.unary.injEq, stable_iff F e]
      exact iff_of_eq (by simp [Stable, Expression.All])
  | .deref e f => by
      rw [Expression.map, Expression.map, Expression.deref.injEq, stable_iff F e]
      exact and_congr Iff.rfl (iff_of_true rfl trivial)
  | .binary o e₁ e₂ => by
      rw [Expression.map, Expression.map, Expression.binary.injEq, stable_iff F e₁,
        stable_iff F e₂]
      exact and_congr (iff_of_true rfl trivial) Iff.rfl

theorem stableArgs_iff (F : Doubles D) : ∀ es : Expressions D,
    es.map cVariable (reprint F) = es.map cVariable .float ↔ StableArgs F es
  | .none => iff_of_true rfl trivial
  | .snoc es e => by
      rw [Expressions.map, Expressions.map, Expressions.snoc.injEq, stableArgs_iff F es,
        stable_iff F e]
      exact Iff.rfl

end

/-! ### All environments -/

/-- The environment in which every expression is its own value. -/
def free : Environment D (Expression D) where
  ident := .ident
  int := .int
  float := .float
  call i es := .call i (es.foldl .snoc .none)
  unary := .unary
  binary := .binary
  index := .index
  field := .field
  deref := .deref

mutual

theorem eval_free : ∀ e : Expression D, free.eval e = e
  | .ident _ => rfl
  | .int _ => rfl
  | .float _ => rfl
  | .field _ _ => rfl
  | .call i es => congrArg (Expression.call i) (evalArgs_free es)
  | .index i e => congrArg (Expression.index i) (eval_free e)
  | .unary o e => congrArg (Expression.unary o) (eval_free e)
  | .deref e f => congrArg (Expression.deref · f) (eval_free e)
  | .binary o e₁ e₂ => congrArg₂ (Expression.binary o) (eval_free e₁) (eval_free e₂)

theorem evalArgs_free : ∀ es : Expressions D, (free.evalArgs es).foldl .snoc .none = es
  | .none => rfl
  | .snoc es e => by
      rw [Environment.evalArgs, List.foldl_append, evalArgs_free es, List.foldl_cons,
        List.foldl_nil, eval_free e]

end

mutual

theorem eval_map (env : Environment D V) : ∀ e : Expression D,
    env.eval (e.map cVariable .float) =
      { env with ident := fun i => env.ident (cIdent i) }.eval e
  | .ident _ => rfl
  | .int _ => rfl
  | .float _ => rfl
  | .field _ _ => rfl
  | .call i es => congrArg (env.call i) (evalArgs_map env es)
  | .index i e => congrArg (env.index i) (eval_map env e)
  | .unary o e => congrArg (env.unary o) (eval_map env e)
  | .deref e f => congrArg (env.deref · f) (eval_map env e)
  | .binary o e₁ e₂ => congrArg₂ (env.binary o) (eval_map env e₁) (eval_map env e₂)

theorem evalArgs_map (env : Environment D V) : ∀ es : Expressions D,
    env.evalArgs (es.map cVariable .float) =
      { env with ident := fun i => env.ident (cIdent i) }.evalArgs es
  | .none => rfl
  | .snoc es e => by
      rw [Expressions.map, Environment.evalArgs, evalArgs_map env es, eval_map env e]
      rfl

end

/-- A value in every environment is the expression itself. -/
theorem keepsMeaning_iff_cRead {F : Doubles D} {text : List Char} {c : Chain D}
    (hc : parseExpression F text = some c) :
    KeepsMeaning F text ↔
      cRead F (sprint F (c.ast exprLevel)) = some ((c.ast cLevel).map cVariable .float) := by
  have hprinted : printed F text = some (sprint F (c.ast exprLevel)) := by
    rw [printed, hc]
    rfl
  constructor
  · intro h
    have hfree := h (Expression D) free
    rw [printedValue, originalValue, hprinted, hc, Option.bind_some, Option.map_some,
      ← eval_map, eval_free] at hfree
    obtain ⟨e, he, heval⟩ := Option.map_eq_some_iff.mp hfree
    rw [he, ← heval, eval_free]
  · intro h V env
    rw [printedValue, originalValue, hprinted, hc, Option.bind_some, h, Option.map_some,
      Option.map_some, eval_map]

theorem size_reprint (F : Doubles D) (x : D) : size (reprint F x) = 0 := by
  rw [reprint]
  cases F.millionths x <;> rfl

/-- The printed text of an expression has the value of the original one in every
environment exactly if the names are identifiers of C, no subtraction has a negation as its
right operand, every constant is left by six decimals, and no operator is misread. -/
theorem keeps_meaning_iff (F : Doubles D) (text : List Char) :
    KeepsMeaning F text ↔ ∀ c, parseExpression F text = some c →
      Named (c.ast exprLevel) ∧ Spaced (c.ast exprLevel) ∧ Stable F (c.ast exprLevel) ∧
        Ordered c := by
  cases hc : parseExpression F text with
  | none =>
      refine iff_of_true ?_ nofun
      intro V env
      simp [printedValue, originalValue, printed, hc]
  | some c =>
      rw [keepsMeaning_iff_cRead hc]
      constructor
      · rintro h c' hc'
        cases hc'
        have hnames := names_map _ (names_of_cRead h)
        have hnamed : Named (c.ast exprLevel) :=
          (names_chain exprLevel _ _ c).mpr ((names_chain cLevel _ _ c).mp hnames)
        have hspaced := spaced_of_cRead hnamed h
        rw [cRead_sprint F hnamed hspaced] at h
        have hmap := Option.some.inj h
        obtain ⟨hordered, htree⟩ := ordered_of_tree (fun _ => rfl) (size_reprint F)
          (fun _ => rfl) (tree_of_fold (fun _ => rfl) (size_reprint F) (fun _ => rfl) hmap)
        refine ⟨hnamed, hspaced, (stable_iff F _).mp ?_, hordered⟩
        rw [show c.ast cLevel = c.ast exprLevel by rw [Chain.ast, Chain.ast, htree]] at hmap
        exact hmap
      · intro h
        obtain ⟨hnamed, hspaced, hstable, hordered⟩ := h c rfl
        rw [cRead_sprint F hnamed hspaced]
        have hmap := (stable_iff F _).mpr hstable
        rw [show c.ast cLevel = c.ast exprLevel by
          rw [Chain.ast, Chain.ast, tree_of_ordered hordered]]
        exact congrArg some hmap

/-- Constants as numbers of millionths. -/
def micro : Doubles Nat := ⟨fun digits decimals => digits * 1000000 / 10 ^ decimals, some⟩

/-- The operators of C on integers, over variables of which only `a` is not zero. -/
def integers : Environment Nat Int where
  ident i := if i = ['a'] then 1 else 0
  int n := n
  float x := x / 1000000
  call _ _ := 0
  unary
    | .minus, x => -x
    | .not, x => if x = 0 then 1 else 0
  binary
    | .gt, x, y => if y < x then 1 else 0
    | .geq, x, y => if y ≤ x then 1 else 0
    | .eq, x, y => if x = y then 1 else 0
    | .and, x, y => if x ≠ 0 ∧ y ≠ 0 then 1 else 0
    | .or, x, y => if x ≠ 0 ∨ y ≠ 0 then 1 else 0
    | .plus, x, y => x + y
    | .minus, x, y => x - y
    | .mult, x, y => x * y
    | .div, x, y => x.tdiv y
    | .mod, x, y => x.tmod y
  index _ _ := 0
  field _ _ := 0
  deref _ _ := 0

/-- `a||b && c`. -/
def orAnd : List Char := ['a', '|', '|', 'b', ' ', '&', '&', ' ', 'c']

theorem parseExpression_orAnd : parseExpression micro orAnd =
    some (.more (.more (.first [] (.ident ['a']) []) .or [] (.ident ['b']) []) .and []
      (.ident ['c']) []) := by
  have hlex : exprLex micro orAnd =
      some [.ident ['a'], .binary .or, .ident ['b'], .binary .and, .ident ['c']] :=
    exprLex_token rfl (exprLex_token rfl (exprLex_token rfl (exprLex_skip rfl
      (exprLex_token rfl (exprLex_skip rfl (exprLex_token rfl (exprLex_nil micro)))))))
  rw [parseExpression, hlex]
  rfl

/-- Printed as `((a||b)&&c)`, it is false for a true `a` and a false `c`. -/
theorem or_and_misread :
    printedValue micro integers orAnd = some 0 ∧ originalValue micro integers orAnd = some 1 ∧
      ¬ KeepsMeaning micro orAnd := by
  have hprinted : printedValue micro integers orAnd = some 0 := by
    rw [printedValue, printed, parseExpression_orAnd, Option.map_some, Option.bind_some,
      cRead_sprint]
    · rfl
    · have ha : IsCName (cIdent ['a']) := by decide
      have hb : IsCName (cIdent ['b']) := by decide
      have hc : IsCName (cIdent ['c']) := by decide
      exact ⟨trivial, ⟨trivial, ha, hb⟩, hc⟩
    · exact ⟨nofun, ⟨nofun, trivial, trivial⟩, trivial⟩
  have horiginal : originalValue micro integers orAnd = some 1 := by
    rw [originalValue, parseExpression_orAnd]
    rfl
  refine ⟨hprinted, horiginal, ?_⟩
  intro h
  have hsame := h Int integers
  rw [hprinted, horiginal] at hsame
  cases hsame

end Paparazzi.FlightPlan.CMeaning
