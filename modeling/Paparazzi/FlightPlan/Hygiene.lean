import Mathlib.Data.List.Induction
import Paparazzi.FlightPlan.Procedure

/-!
Hygiene of the expansion of procedures: when the new text of an attribute has the value of the
old one with its parameters bound.
-/

namespace Paparazzi.FlightPlan.Hygiene

open Paparazzi.Library
open Paparazzi.FlightPlan.ExprSyntax
open Paparazzi.FlightPlan.ExprParser
open Paparazzi.FlightPlan.ExprLexer
open Paparazzi.FlightPlan.PrintedText (reprint primaryOf operand_primaryOf)
open Paparazzi.FlightPlan.CMeaning hiding free
open Paparazzi.FlightPlan.ExprGraft
open Paparazzi.FlightPlan.Procedure

variable {D V : Type}

/-! ### Where the operators bind -/

section

variable {F : Doubles D} (env : List (Ident × Argument F))

/-- The operators of an argument, outside its brackets, have the level `k` at least. -/
def Binds (k : Nat) : Expression D → Prop
  | .ident i => ∀ a, env.lookup i = some a → ∀ p ∈ ops a.chain, k ≤ exprLevel p
  | _ => True

/-- The argument of a parameter is the variable of the same name. -/
def OwnName (i : Ident) : Prop :=
  ∀ a, env.lookup i = some a → ∃ j, a.chain.ast exprLevel = .ident j ∧ cIdent j = cIdent i

mutual

/-- No operator next to a parameter takes a part of its argument, no constant is changed by six
decimals, and what is indexed or has a field is no parameter. -/
def Safe : Expression D → Prop
  | .ident _ => True
  | .int _ => True
  | .float x => reprint F x = .float x
  | .call _ es => SafeArgs es
  | .unary _ e => Safe e
  | .binary o e₁ e₂ =>
      (Binds env (exprLevel o) e₁ ∧ Binds env (exprLevel o + 1) e₂) ∧ Safe e₁ ∧ Safe e₂
  | .index i e => OwnName env i ∧ Safe e
  | .field i _ => OwnName env i
  | .deref e _ => Safe e

def SafeArgs : Expressions D → Prop
  | .none => True
  | .snoc es e => SafeArgs es ∧ Safe e

end

end

section

variable {F : Doubles D} {env : List (Ident × Argument F)}

theorem ops_printed (a : Argument F) : (a.printed.tree exprLevel).ops = ops a.chain := by
  have hmap := @map_tree_graft D Unit (fun _ => ()) exprLevel (leadName a.text)
    (fun _ _ _ => rfl) a.chain
  have hops := congrArg Precedence.Tree.ops hmap
  rw [Precedence.Tree.ops_map, Precedence.Tree.ops_map] at hops
  rw [Argument.printed, hops, ops_tree]

theorem above_reading_iff (k : Nat) (e : Expression D) :
    ((reading env e).tree exprLevel).Above exprLevel k ↔ Binds env k e := by
  cases e with
  | ident i =>
      unfold reading Binds
      cases hlookup : env.lookup i with
      | none =>
          refine iff_of_true trivial fun a ha => ?_
          cases hlookup.symm.trans ha
      | some a =>
          dsimp only
          rw [Precedence.Tree.above_iff_ops (allowed_tree exprLevel _), ops_printed]
          constructor
          · rintro h b hb
            cases hlookup.symm.trans hb
            exact h
          · intro h
            exact h a hlookup
  | _ => exact iff_of_true trivial trivial

theorem allowed_joinChains (c₁ : Chain D) (o : BinaryOperator) (c₂ : Chain D) :
    ((joinChains c₁ o c₂).tree exprLevel).Allowed exprLevel :=
  allowed_tree exprLevel _

/-- An operator whose operands bind tighter is at the root. -/
theorem tree_joinChains {o : BinaryOperator} {e₁ e₂ : Expression D}
    (h : Binds env (exprLevel o) e₁ ∧ Binds env (exprLevel o + 1) e₂) :
    (joinChains (reading env e₁) o (reading env e₂)).tree exprLevel =
      .node o ((reading env e₁).tree exprLevel) ((reading env e₂).tree exprLevel) := by
  apply Precedence.Tree.eq_of_allowed (allowed_joinChains _ o _)
  · exact ⟨(above_reading_iff _ e₁).2 h.1, (above_reading_iff _ e₂).2 h.2,
      allowed_tree exprLevel _, allowed_tree exprLevel _⟩
  · rw [ops_joinChains]
    rfl
  · rw [operands_joinChains]
    rfl

/-! ### Values -/

theorem cIdent_cIdent (i : Ident) : cIdent (cIdent i) = cIdent i := by
  by_cases hdollar : i.head? = some '$'
  · cases i with
    | nil => cases hdollar
    | cons c cs =>
        cases hdollar
        rfl
  · rw [cIdent_of_ne hdollar, cIdent_of_ne hdollar]

theorem eval_operand (m : Meaning D V) (signs : List UnaryOperator) (e : Expression D)
    (fs : List Ident) :
    m.eval (operand signs e fs) = signs.foldr m.unary (fs.foldl m.deref (m.eval e)) := by
  have hderef : ∀ e, m.eval (fs.foldl .deref e) = fs.foldl m.deref (m.eval e) := by
    induction fs with
    | nil => exact fun e => rfl
    | cons f fs ih => exact fun e => ih (.deref e f)
  rw [operand]
  induction signs with
  | nil => exact hderef e
  | cons o signs ih => exact congrArg (m.unary o) ih

/-- The name of a variable may be that of C. -/
theorem eval_lead (m : Meaning D V) (text : List Char) (p : Primary D) :
    m.eval ((lead (leadName text) p).ast exprLevel) = m.eval (p.ast exprLevel) := by
  unfold leadName
  split
  · cases p with
    | ident i => exact congrArg m.ident (cIdent_cIdent i)
    | field i f => exact congrArg (fun j => m.field (m.ident j) f) (cIdent_cIdent i)
    | call i es => exact congrArg (fun j => m.call j _) (cIdent_cIdent i)
    | index i e => exact congrArg (fun j => m.index (m.ident j) _) (cIdent_cIdent i)
    | _ => rfl
  · rw [lead_id]

theorem eval_fold (m : Meaning D V) (t : Precedence.Tree BinaryOperator (Expression D)) :
    m.eval (t.fold .binary) = (t.map m.eval).fold m.binary :=
  (Precedence.Tree.fold_map m.eval (fun _ _ _ => rfl) t).symm

/-- An argument has the same value as it is printed. -/
theorem eval_printed (m : Meaning D V) (a : Argument F) :
    m.eval (a.printed.ast exprLevel) = m.eval (a.chain.ast exprLevel) := by
  have hmap := @map_tree_graft _ _ m.eval exprLevel (leadName a.text) (fun signs p fs => by
    rw [eval_operand m, eval_operand m, eval_lead m]) a.chain
  rw [Chain.ast, Chain.ast, eval_fold m, eval_fold m, ← hmap]
  rfl

theorem eval_ident (m : Meaning D V) (i : Ident) :
    m.eval ((reading env (.ident i)).ast exprLevel) = m.bound env i := by
  unfold reading Meaning.bound
  cases env.lookup i with
  | none => exact congrArg m.ident (cIdent_cIdent i)
  | some a => exact eval_printed m a

theorem bound_of_ownName (m : Meaning D V) {i : Ident} (h : OwnName env i) :
    m.bound env i = m.ident (cIdent i) := by
  unfold Meaning.bound
  cases hlookup : env.lookup i with
  | none => rfl
  | some a =>
      obtain ⟨j, hast, hj⟩ := h a hlookup
      dsimp only
      rw [hast, ← hj]
      rfl

mutual

theorem eval_reading (m : Meaning D V) : ∀ e : Expression D, Safe env e →
    m.eval ((reading env e).ast exprLevel) = (m.environment (m.bound env)).eval e
  | .ident i, _ => eval_ident m i
  | .int _, _ => rfl
  | .float x, h => by
      have hast : (reading env (.float x)).ast exprLevel = reprint F x :=
        operand_primaryOf F exprLevel (.float x)
      rw [hast, h]
      rfl
  | .call i es, h => congrArg (m.call (cIdent i)) (evalArgs_reading m es h)
  | .unary o e, h => congrArg (m.unary o) (eval_reading m e h)
  | .binary o e₁ e₂, h => by
      obtain ⟨hbinds, h₁, h₂⟩ := h
      have hast : (reading env (.binary o e₁ e₂)).ast exprLevel = .binary o
          ((reading env e₁).ast exprLevel) ((reading env e₂).ast exprLevel) :=
        congrArg (Precedence.Tree.fold Expression.binary) (tree_joinChains hbinds)
      rw [hast]
      exact congrArg₂ (m.binary o) (eval_reading m e₁ h₁) (eval_reading m e₂ h₂)
  | .index i e, h => by
      have hbound := bound_of_ownName m h.1
      change m.index (m.ident (cIdent i)) (m.eval ((reading env e).ast exprLevel)) =
        m.index (m.bound env i) _
      rw [eval_reading m e h.2, hbound]
  | .field i f, h => congrArg (m.field · f) (bound_of_ownName m h).symm
  | .deref e f, h => congrArg (m.deref · f) (eval_reading m e h)

theorem evalArgs_reading (m : Meaning D V) : ∀ es : Expressions D, SafeArgs env es →
    (m.environment fun i => m.ident (cIdent i)).evalArgs ((readingArgs env es).ast exprLevel) =
      (m.environment (m.bound env)).evalArgs es
  | .none, _ => rfl
  | .snoc es e, h => congrArg₂ (fun vs v => vs ++ [v]) (evalArgs_reading m es h.1)
      (eval_reading m e h.2)

end

/-! ### The free meaning -/

/-- The meaning in which two values are the same only if their expressions are. -/
def free : Meaning D (Expression D) where
  ident := .ident
  int := .int
  float := .float
  call i es := .call i (es.foldl .snoc .none)
  unary := .unary
  binary := .binary
  index e e' := .call [] (.snoc (.snoc .none e) e')
  field e f := .call f (.snoc .none e)
  deref := .deref

/-- The binary operators outside of everything else. -/
def binaries : Expression D → Nat
  | .binary _ e₁ e₂ => binaries e₁ + binaries e₂ + 1
  | _ => 0

theorem foldl_snoc_inj {vs ws : List (Expression D)}
    (h : vs.foldl Expressions.snoc .none = ws.foldl Expressions.snoc .none) : vs = ws := by
  induction vs using List.reverseRecOn generalizing ws with
  | nil =>
      cases ws using List.reverseRecOn with
      | nil => rfl
      | append_singleton ws w =>
          rw [List.foldl_append] at h
          cases h
  | append_singleton vs v ih =>
      cases ws using List.reverseRecOn with
      | nil =>
          rw [List.foldl_append] at h
          cases h
      | append_singleton ws w =>
          rw [List.foldl_append, List.foldl_append] at h
          injection h with hinit hlast
          rw [ih hinit, hlast]

/-- The values of the operands of a printed operator. -/
def values (c : Chain D) : Precedence.Tree BinaryOperator (Expression D) :=
  (c.tree exprLevel).map free.eval

theorem fold_values (c : Chain D) : (values c).fold .binary = free.eval (c.ast exprLevel) :=
  (eval_fold free _).symm

theorem binaries_joinChains (c₁ : Chain D) (o : BinaryOperator) (c₂ : Chain D) :
    binaries (free.eval ((joinChains c₁ o c₂).ast exprLevel)) =
      binaries (free.eval (c₁.ast exprLevel)) + binaries (free.eval (c₂.ast exprLevel)) + 1 := by
  have hsize : ∀ c : Chain D, binaries (free.eval (c.ast exprLevel)) + 1 =
      (((values c).operands.map binaries).map (· + 1)).sum := fun c => by
    rw [← fold_values]
    exact @Precedence.Tree.size_fold _ _ Expression.binary binaries (fun _ _ _ => rfl) _
  have hoperands : (values (joinChains c₁ o c₂)).operands =
      (values c₁).operands ++ (values c₂).operands := by
    rw [values, Precedence.Tree.operands_map, operands_joinChains, List.map_append, values, values,
      Precedence.Tree.operands_map, Precedence.Tree.operands_map]
  have h := hsize (joinChains c₁ o c₂)
  rw [hoperands, List.map_append, List.map_append, List.sum_append, ← hsize, ← hsize] at h
  omega

theorem binaries_reading : ∀ e : Expression D,
    binaries (free.eval ((reading env e).ast exprLevel)) =
      binaries ((free.environment (free.bound env)).eval e)
  | .ident i => congrArg binaries (eval_ident free i)
  | .int _ => rfl
  | .float x => by
      have hast : (reading env (.float x)).ast exprLevel = reprint F x :=
        operand_primaryOf F exprLevel (.float x)
      rw [hast, reprint]
      cases F.millionths x <;> rfl
  | .call _ _ => rfl
  | .unary _ _ => rfl
  | .index _ _ => rfl
  | .field _ _ => rfl
  | .deref _ _ => rfl
  | .binary o e₁ e₂ => by
      have h := binaries_joinChains (reading env e₁) o (reading env e₂)
      rw [binaries_reading e₁, binaries_reading e₂] at h
      exact h

theorem allowed_values (c : Chain D) : (values c).Allowed exprLevel :=
  (Precedence.Tree.allowed_map _ _ _).2 (allowed_tree exprLevel c)

theorem values_joinChains (c₁ : Chain D) (o : BinaryOperator) (c₂ : Chain D) :
    (values (joinChains c₁ o c₂)).ops = (values c₂).ops ++ o :: (values c₁).ops ∧
      (values (joinChains c₁ o c₂)).operands = (values c₁).operands ++ (values c₂).operands := by
  simp only [values, Precedence.Tree.ops_map, Precedence.Tree.operands_map, ops_joinChains,
    operands_joinChains, List.map_append, and_self]

/-- What is printed for an operator has the operator and its operands outside only if no operator
next to it takes a part of them. -/
theorem joined_of_eval {o : BinaryOperator} {c₁ c₂ : Chain D} {e₁ e₂ : Expression D}
    (hsize : binaries e₁ = binaries (free.eval (c₁.ast exprLevel)))
    (h : free.eval ((joinChains c₁ o c₂).ast exprLevel) = .binary o e₁ e₂) :
    ((c₁.tree exprLevel).Above exprLevel (exprLevel o) ∧
        (c₂.tree exprLevel).Above exprLevel (exprLevel o + 1)) ∧
      free.eval (c₁.ast exprLevel) = e₁ ∧ free.eval (c₂.ast exprLevel) = e₂ := by
  rw [← fold_values] at hsize h
  obtain ⟨hops, hoperands⟩ := values_joinChains c₁ o c₂
  have hinj : ∀ (o o' : BinaryOperator) (a a' b b' : Expression D),
      Expression.binary o a b = .binary o' a' b' → o = o' ∧ a = a' ∧ b = b' := by
    rintro o o' a a' b b' heq
    injection heq with ho ha hb
    exact ⟨ho, ha, hb⟩
  have hnode := @Precedence.Tree.eq_node_of_fold _ _ Expression.binary binaries exprLevel
    (fun _ _ _ => rfl) hinj _ _ _ (allowed_values _) (allowed_values c₁) (allowed_values c₂) o hops
    hoperands _ _ hsize h
  have hallowed := allowed_values (joinChains c₁ o c₂)
  rw [hnode] at h hallowed
  obtain ⟨hleft, hright, -, -⟩ := hallowed
  injection h with _ h₁ h₂
  rw [fold_values] at h₁ h₂
  exact ⟨⟨(Precedence.Tree.above_map _ _ _ _).1 hleft, (Precedence.Tree.above_map _ _ _ _).1 hright⟩,
    h₁, h₂⟩

theorem ownName_of_bound {i : Ident} (h : .ident (cIdent i) = free.bound env i) :
    OwnName env i := by
  intro a ha
  unfold Meaning.bound at h
  rw [ha] at h
  dsimp only at h
  cases hast : a.chain.ast exprLevel with
  | ident j =>
      rw [hast] at h
      injection h with hj
      exact ⟨j, rfl, hj.symm⟩
  | _ =>
      rw [hast] at h
      cases h

mutual

theorem safe_of_eval : ∀ e : Expression D, free.eval ((reading env e).ast exprLevel) =
    (free.environment (free.bound env)).eval e → Safe env e
  | .ident _, _ => trivial
  | .int _, _ => trivial
  | .float x, h => by
      have hast : (reading env (.float x)).ast exprLevel = reprint F x :=
        operand_primaryOf F exprLevel (.float x)
      rw [hast] at h
      unfold Safe
      unfold reprint at h ⊢
      cases hprint : F.millionths x with
      | none =>
          rw [hprint] at h
          cases h
      | some m =>
          rw [hprint] at h
          exact h
  | .call i es, h => by
      injection h with _ hargs
      exact safeArgs_of_eval es (foldl_snoc_inj hargs)
  | .unary o e, h => by
      injection h with _ he
      exact safe_of_eval e he
  | .binary o e₁ e₂, h => by
      obtain ⟨⟨hleft, hright⟩, h₁, h₂⟩ := joined_of_eval (binaries_reading e₁).symm h
      exact ⟨⟨(above_reading_iff _ e₁).1 hleft, (above_reading_iff _ e₂).1 hright⟩,
        safe_of_eval e₁ h₁, safe_of_eval e₂ h₂⟩
  | .index i e, h => by
      injection h with _ hargs
      injection hargs with hbase he
      injection hbase with _ hi
      exact ⟨ownName_of_bound hi, safe_of_eval e he⟩
  | .field i f, h => by
      injection h with _ hargs
      injection hargs with _ hi
      exact ownName_of_bound hi
  | .deref e f, h => by
      injection h with he _
      exact safe_of_eval e he

theorem safeArgs_of_eval : ∀ es : Expressions D,
    (free.environment fun i => free.ident (cIdent i)).evalArgs ((readingArgs env es).ast exprLevel) =
      (free.environment (free.bound env)).evalArgs es → SafeArgs env es
  | .none, _ => trivial
  | .snoc es e, h => by
      obtain ⟨hinit, hlast⟩ := List.append_inj' h rfl
      injection hlast with hlast _
      exact ⟨safeArgs_of_eval es hinit, safe_of_eval e hlast⟩

end

/-- The expansion of an attribute whose names and arguments are read back as they are printed: it
is hygienic exactly where the operators around the parameters leave their arguments together. -/
theorem hygienic_iff (inc : Include F) (v : List Char)
    (hprintable : ∀ c, parseExpression F v = some c → Printable inc.env (c.ast exprLevel)) :
    Hygienic inc.env v ↔
      ∀ c, parseExpression F v = some c → Safe inc.env (c.ast exprLevel) := by
  cases hc : parseExpression F v with
  | none =>
      refine iff_of_true ?_ nofun
      intro V m
      rw [expandedValue, boundValue, transformValue, hc]
      rfl
  | some c =>
      have hread := parseExpression_transform (hprintable c hc)
      have hvalues : ∀ (V : Type) (m : Meaning D V), expandedValue m inc.env v =
          boundValue m inc.env v ↔ m.eval ((reading inc.env (c.ast exprLevel)).ast exprLevel) =
            (m.environment (m.bound inc.env)).eval (c.ast exprLevel) := by
        intro V m
        rw [expandedValue, boundValue, transformValue_eq hc, hc, Option.bind_some, hread]
        exact Option.some_inj
      constructor
      · rintro h c' hc'
        cases hc'
        exact safe_of_eval _ ((hvalues _ free).1 (h _ free))
      · intro h V m
        exact (hvalues V m).2 (eval_reading m _ (h c rfl))

end

/-! ### A sum in a product -/

/-- `r*2` -/
def twice : List Char := ['r', '*', '2']

/-- An include of a procedure with the parameter `r`. -/
def withRadius (a : Argument micro) : Include micro where
  params := [⟨['r'], none⟩]
  argsAssocs := [(['r'], a)]
  env := [(['r'], a)]
  env_eq := rfl

/-- `a+b` -/
def sum : Argument micro where
  text := ['a', '+', 'b']
  chain := .more (.first [] (.ident ['a']) []) .plus [] (.ident ['b']) []
  parses := by
    have hlex : exprLex micro ['a', '+', 'b'] = some [.ident ['a'], .binary .plus, .ident ['b']] :=
      exprLex_token rfl (exprLex_token rfl (exprLex_token rfl (exprLex_nil micro)))
    rw [parseExpression, hlex]
    rfl

/-- `(a+b)` -/
def sumInBrackets : Argument micro where
  text := ['(', 'a', '+', 'b', ')']
  chain := .first [] (.paren sum.chain) []
  parses := by
    have hlex : exprLex micro ['(', 'a', '+', 'b', ')'] =
        some [.lp, .ident ['a'], .binary .plus, .ident ['b'], .rp] :=
      exprLex_token rfl (exprLex_token rfl (exprLex_token rfl (exprLex_token rfl
        (exprLex_token rfl (exprLex_nil micro)))))
    rw [parseExpression, hlex]
    rfl

theorem parseExpression_twice : parseExpression micro twice =
    some (.more (.first [] (.ident ['r']) []) .mult [] (.int 2) []) := by
  have hlex : exprLex micro twice = some [.ident ['r'], .binary .mult, .int 2] :=
    exprLex_token rfl (exprLex_token rfl (exprLex_token rfl (exprLex_nil micro)))
  rw [parseExpression, hlex]
  rfl

theorem closed_sumInBrackets : Closed sumInBrackets := by
  refine ⟨.lp :: [.ident ['a'], .binary .plus, .ident ['b']] ++ [.rp], fun rest _ => ?_⟩
  have hplus : Lexes micro ['+'] [.binary .plus] ('b' :: ')' :: rest) := exprLex_cons rfl
  have hsum := Lexes.append (@lexes_ident_cons _ micro ['a'] '+' ('b' :: ')' :: rest) ⟨rfl, rfl⟩ rfl)
    (Lexes.append hplus (@lexes_ident_cons _ micro ['b'] ')' rest ⟨rfl, rfl⟩ rfl))
  exact lexes_round hsum

/-- With its brackets, the argument stays together. -/
theorem hygienic_sumInBrackets : Hygienic (withRadius sumInBrackets).env twice := by
  refine (hygienic_iff (withRadius sumInBrackets) twice ?_).2 ?_
  · intro c hc
    rw [parseExpression_twice] at hc
    cases hc
    exact ⟨closed_sumInBrackets, show 2 < 2 ^ 62 by decide⟩
  · intro c hc
    rw [parseExpression_twice] at hc
    cases hc
    refine ⟨⟨?_, trivial⟩, trivial, trivial⟩
    intro a ha
    cases ha
    exact nofun

/-- The operators of C on integers, where `a` is 1 and every other variable 2. -/
def numbers : Meaning Nat Int where
  ident i := if i = ['a'] then 1 else 2
  int := integers.int
  float := integers.float
  call := integers.call
  unary := integers.unary
  binary := integers.binary
  index _ _ := 0
  field _ _ := 0
  deref _ _ := 0

/-- The new text is `(a+b*2)`. -/
theorem sum_torn : expandedValue numbers (withRadius sum).env twice = some 5 ∧
    boundValue numbers (withRadius sum).env twice = some 6 ∧
      ¬ Hygienic (withRadius sum).env twice := by
  have htext : transformValue (withRadius sum).env twice =
      some ['(', 'a', '+', 'b', '*', '2', ')'] := by
    rw [transformValue, parseExpression_twice]
    rfl
  have hlex : exprLex micro ['(', 'a', '+', 'b', '*', '2', ')'] =
      some [.lp, .ident ['a'], .binary .plus, .ident ['b'], .binary .mult, .int 2, .rp] :=
    exprLex_token rfl (exprLex_token rfl (exprLex_token rfl (exprLex_token rfl
      (exprLex_token rfl (exprLex_token rfl (exprLex_token rfl (exprLex_nil micro)))))))
  have hexpanded : expandedValue numbers (withRadius sum).env twice = some 5 := by
    rw [expandedValue, htext, Option.bind_some, parseExpression, hlex]
    rfl
  have hbound : boundValue numbers (withRadius sum).env twice = some 6 := by
    rw [boundValue, parseExpression_twice]
    rfl
  refine ⟨hexpanded, hbound, ?_⟩
  intro h
  have hsame := h Int numbers
  rw [hexpanded, hbound] at hsame
  cases hsame

end Paparazzi.FlightPlan.Hygiene
