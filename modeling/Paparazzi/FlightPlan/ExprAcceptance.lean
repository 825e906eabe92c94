import Mathlib.Data.Fintype.Defs
import Paparazzi.FlightPlan.CMeaning
import Paparazzi.FlightPlan.ExprLexer
import Paparazzi.Library.LRParser

/-!
The strings that `parse_expression` accepts: the grammar of `expr_parser.mly`, its generated
parser and the lexer.
-/

namespace Paparazzi.FlightPlan.ExprAcceptance

open Paparazzi.FlightPlan.CMeaning (micro)
open Paparazzi.FlightPlan.ExprSyntax
open Paparazzi.FlightPlan.ExprLexer
open Paparazzi.Library.LRParser

/-! ### The grammar -/

/-- The tokens without their values. -/
inductive Terminal where
  | int | float | ident
  | binary (o : BinaryOperator)
  | not
  | comma | dot | lp | rp | lb | rb | deref
  | semicolon | colon | lc | rc | assign | decr
  deriving DecidableEq

def kind {D : Type} : Token D → Terminal
  | .int _ => .int
  | .float _ => .float
  | .ident _ => .ident
  | .binary o => .binary o
  | .not => .not
  | .comma => .comma
  | .dot => .dot
  | .lp => .lp
  | .rp => .rp
  | .lb => .lb
  | .rb => .rb
  | .deref => .deref
  | .semicolon => .semicolon
  | .colon => .colon
  | .lc => .lc
  | .rc => .rc
  | .assign => .assign
  | .decr => .decr

inductive Nonterminal where
  | expression
  | args
  | nextArgs
  deriving DecidableEq

instance : Fintype Nonterminal :=
  ⟨{.expression, .args, .nextArgs}, fun n => by cases n <;> decide⟩

abbrev Rule := ContextFreeRule Terminal Nonterminal

def token (t : Terminal) : Symbol Terminal Nonterminal := .terminal t

def expression : Symbol Terminal Nonterminal := .nonterminal .expression

def binaryRule (o : BinaryOperator) : Rule :=
  ⟨.expression, [expression, token (.binary o), expression]⟩

def identRule : Rule := ⟨.expression, [token .ident]⟩

def exprRules : List Rule :=
  [binaryRule .gt, binaryRule .geq, binaryRule .eq, binaryRule .and, binaryRule .or,
    binaryRule .plus, binaryRule .minus, binaryRule .mult, binaryRule .div, binaryRule .mod,
    ⟨.expression, [token (.binary .minus), expression]⟩,
    ⟨.expression, [token .not, expression]⟩,
    ⟨.expression, [token .int]⟩,
    ⟨.expression, [token .float]⟩,
    identRule,
    ⟨.expression, [token .ident, token .dot, token .ident]⟩,
    ⟨.expression, [expression, token .deref, token .ident]⟩,
    ⟨.expression, [token .ident, token .lp, .nonterminal .args, token .rp]⟩,
    ⟨.expression, [token .lp, expression, token .rp]⟩,
    ⟨.expression, [token .ident, token .lb, expression, token .rb]⟩,
    ⟨.args, []⟩,
    ⟨.args, [expression, .nonterminal .nextArgs]⟩,
    ⟨.nextArgs, []⟩,
    ⟨.nextArgs, [token .comma, expression, .nonterminal .nextArgs]⟩]

def exprGrammar : ContextFreeGrammar Terminal where
  NT := Nonterminal
  initial := .expression
  rules := exprRules.toFinset

theorem mem_rules {r : Rule} : r ∈ exprGrammar.rules ↔ r ∈ exprRules := List.mem_toFinset

/-! ### The lexer -/

variable {D : Type} (F : Doubles D)

/-- The rule `token`, which calls itself behind blanks and comments; at the end of the text it
gives `EOF`. -/
def nextToken : List Char → Option (Option (Token D) × List Char)
  | [] => some (none, [])
  | c :: cs =>
      match _h : ExprLexer.token F c cs with
      | some (some t, rest) => some (some t, rest)
      | some (none, rest) => nextToken rest
      | none => none
termination_by text => text.length
decreasing_by exact Nat.lt_succ_of_le (length_token_le ‹_›)

def nextTerminal (text : List Char) : Option (Option Terminal × List Char) :=
  (nextToken F text).map fun r => (r.1.map kind, r.2)

theorem exprLex_of_nextToken {text rest : List Char} {t : Option (Token D)}
    (h : nextToken F text = some (t, rest)) :
    exprLex F text = t.elim (some []) fun t => (exprLex F rest).map (t :: ·) := by
  fun_induction nextToken F text with
  | case1 =>
      cases h
      exact exprLex_nil F
  | case2 c cs t' rest' htoken =>
      cases h
      rw [exprLex]
      split <;> simp_all
  | case3 c cs rest' htoken ih =>
      rw [← ih h, exprLex]
      split <;> simp_all
  | case4 c cs htoken => cases h

/-- The tokens up to the end of the text are those of the lexer. -/
theorem exprLex_of_reads {text rest last : List Char} {ts : List Terminal}
    (h : Reads (nextTerminal F) text ts rest) (hend : nextTerminal F rest = some (none, last)) :
    ∃ tokens, exprLex F text = some tokens ∧ tokens.map kind = ts := by
  induction h with
  | nil text =>
      obtain ⟨⟨t, rest⟩, hnext, heq⟩ := Option.map_eq_some_iff.mp hend
      cases t with
      | some t => cases heq
      | none => exact ⟨[], exprLex_of_nextToken F hnext, rfl⟩
  | cons h _ ih =>
      obtain ⟨tokens, htokens, rfl⟩ := ih hend
      obtain ⟨⟨t, rest⟩, hnext, heq⟩ := Option.map_eq_some_iff.mp h
      cases t with
      | none => cases heq
      | some t =>
          cases heq
          refine ⟨t :: tokens, ?_, rfl⟩
          rw [exprLex_of_nextToken F hnext, Option.elim_some, htokens]
          rfl

/-! ### The state behind an expression -/

theorem closure_start {i : Item exprGrammar} (h : Closure (start exprGrammar) i) :
    i.2 = 0 ∧ ∀ r, i.1 = .rule r → r ∈ exprRules ∧ r.input = .expression := by
  induction h with
  | kernel h =>
      obtain rfl := Set.mem_singleton_iff.mp h
      exact ⟨rfl, nofun⟩
  | @expand p d r _ hnext hr ih =>
      obtain ⟨rfl, hrules⟩ := ih
      refine ⟨rfl, ?_⟩
      rintro r' ⟨⟩
      refine ⟨mem_rules.mp hr, ?_⟩
      cases p with
      | entry => exact (Symbol.nonterminal.inj (Option.some.inj hnext)).symm
      | rule r' =>
          obtain ⟨hmem, hinput⟩ := hrules r' rfl
          have hall : ∀ r ∈ exprRules, r.input = .expression →
              ∀ n, r.output[0]? = some (.nonterminal n) → n = .expression := by decide
          exact hall r' hmem hinput _ hnext

def behindExpression : State exprGrammar := goto (start exprGrammar) expression

/-- In the state behind an expression the expression has been read, and nothing else. -/
theorem closure_behindExpression {i : Item exprGrammar} (h : Closure behindExpression i) :
    i.2 = 1 ∧ ∀ r, i.1 = .rule r →
      r ∈ exprRules ∧ r.input = .expression ∧ r.output[0]? = some expression := by
  induction h with
  | kernel h =>
      obtain ⟨d, hd, hclosure, hnext⟩ := h
      obtain ⟨rfl, hrules⟩ := closure_start hclosure
      refine ⟨hd, ?_⟩
      intro r hr
      obtain ⟨hmem, hinput⟩ := hrules r hr
      rw [hr] at hnext
      exact ⟨hmem, hinput, hnext⟩
  | @expand p d r _ hnext hr ih =>
      obtain ⟨rfl, hrules⟩ := ih
      cases p with
      | entry => cases hnext
      | rule r' =>
          obtain ⟨hmem, hinput, hfirst⟩ := hrules r' rfl
          have hall : ∀ r ∈ exprRules, r.input = .expression → r.output[0]? = some expression →
              ∀ n, r.output[1]? ≠ some (.nonterminal n) := by decide
          exact absurd hnext (hall r' hmem hinput hfirst _)

theorem complete_behindExpression {p : Production exprGrammar}
    (h : Complete behindExpression p) : p = .entry := by
  cases p with
  | entry => rfl
  | rule r =>
      obtain ⟨hlength, hrules⟩ := closure_behindExpression h
      obtain ⟨hmem, hinput, hfirst⟩ := hrules r rfl
      have hall : ∀ r ∈ exprRules, r.input = .expression → r.output[0]? = some expression →
          r.output.length ≠ 1 := by decide
      exact absurd hlength (hall r hmem hinput hfirst)

section

variable {tables : Tables exprGrammar}
  {lookahead : State exprGrammar → Production exprGrammar → Option Terminal → Prop}

/-- Behind an expression a sign can be shifted, so no reduction there is made by default. -/
theorem defred_behindExpression (made : tables.Made exprGrammar lookahead) :
    tables.defred behindExpression ≠ some .entry := by
  intro hdefred
  have hmem : binaryRule .plus ∈ exprGrammar.rules := mem_rules.mpr (by decide)
  have hstart : Closure (start exprGrammar) (.rule (binaryRule .plus), 0) :=
    .expand (.kernel rfl) rfl hmem
  have hbehind : Closure behindExpression (.rule (binaryRule .plus), 1) :=
    .kernel ⟨0, rfl, hstart, rfl⟩
  rcases made.shift_kept hbehind rfl with hshift | ⟨p, hcomplete, hlookahead⟩
  · rw [(made.defred_complete hdefred).2] at hshift
    cases hshift
  · obtain rfl := complete_behindExpression hcomplete
    cases made.entry_lookahead hlookahead

/-- A string that is accepted is, token for token, a sentence of the grammar. -/
theorem parse_expression_whole (made : tables.Made exprGrammar lookahead) (s : List Char)
    (h : Accepts (nextTerminal F) tables (initial s)) :
    ∃ tokens, exprLex F s = some tokens ∧ tokens.map kind ∈ exprGrammar.language := by
  obtain ⟨ts, rest, last, hreads, hend, hsentence⟩ :=
    whole_of_accepts made (defred_behindExpression made) h
  obtain ⟨tokens, hlex, rfl⟩ := exprLex_of_reads F hreads hend
  exact ⟨tokens, hlex, hsentence⟩

end

/-! ### A parser -/

def behindIdent : State exprGrammar := goto (start exprGrammar) (token .ident)

theorem behindExpression_ne_behindIdent : behindExpression ≠ behindIdent := by
  intro heq
  have hentry : (Production.entry, 1) ∈ behindExpression := ⟨0, rfl, .kernel rfl, rfl⟩
  rw [heq] at hentry
  obtain ⟨d, hd, -, hnext⟩ := hentry
  cases hd
  cases hnext

theorem closure_start_rule {r : Rule} (hr : r ∈ exprRules) (hinput : r.input = .expression) :
    Closure (start exprGrammar) (.rule r, 0) := by
  refine .expand (.kernel rfl) ?_ (mem_rules.mpr hr)
  rw [hinput]
  rfl

open Classical in
/-- Tables that shift what they can, and reduce an identifier and an expression at the end. -/
noncomputable def shortTables : Tables exprGrammar where
  shift q t := t.any fun t => decide (∃ p d, Closure q (p, d) ∧ p.output[d]? = some (.terminal t))
  reduce q t :=
    if t = none then
      if q = behindIdent then some (.rule identRule)
      else if q = behindExpression then some .entry
      else none
    else none
  defred _ := none

open Classical in
theorem shift_shortTables {q : State exprGrammar} {t : Terminal} {p : Production exprGrammar}
    {d : Nat} (h : Closure q (p, d)) (hnext : p.output[d]? = some (.terminal t)) :
    shortTables.shift q (some t) = true :=
  decide_eq_true ⟨p, d, h, hnext⟩

open Classical in
theorem reduce_shortTables (q : State exprGrammar) (t : Option Terminal) :
    shortTables.reduce q t =
      if t = none then
        if q = behindIdent then some (.rule identRule)
        else if q = behindExpression then some .entry
        else none
      else none := rfl

theorem made_shortTables : shortTables.Made exprGrammar fun _ _ t => t = none where
  reduce_complete := by
    intro q t p h
    rw [reduce_shortTables] at h
    split_ifs at h with hend hident hexpression
    · cases h
      subst hident
      exact ⟨.kernel ⟨0, rfl, closure_start_rule (by decide) rfl, rfl⟩, hend⟩
    · cases h
      subst hexpression
      exact ⟨.kernel ⟨0, rfl, .kernel rfl, rfl⟩, hend⟩
  defred_complete := nofun
  shift_end := rfl
  shift_kept := fun hclosure hnext => Or.inl (shift_shortTables hclosure hnext)
  entry_lookahead := id

/-- `a` is accepted. -/
theorem accepts_a : Accepts (nextTerminal micro) shortTables (initial ['a']) := by
  have hread : nextTerminal micro ['a'] = some (some .ident, []) := by
    rw [nextTerminal, nextToken]
    rfl
  have hend : nextTerminal micro [] = some (none, []) := by
    rw [nextTerminal, nextToken]
    rfl
  have hshift : shortTables.shift (start exprGrammar) (some .ident) = true :=
    shift_shortTables (closure_start_rule (by decide : identRule ∈ exprRules) rfl) rfl
  have hident : shortTables.reduce behindIdent none = some (.rule identRule) := by
    rw [reduce_shortTables, if_pos rfl, if_pos rfl]
  have hexpression : shortTables.reduce behindExpression none = some .entry := by
    rw [reduce_shortTables, if_pos rfl, if_neg behindExpression_ne_behindIdent, if_pos rfl]
  refine .later (step_read rfl hread) (.later (step_shift rfl hshift) ?_)
  refine .later (step_read rfl hend) (.later (step_reduce rfl rfl hident) ?_)
  exact .now (step_reduce rfl rfl hexpression)

theorem parse_expression_a :
    ∃ tokens, exprLex micro ['a'] = some tokens ∧ tokens.map kind ∈ exprGrammar.language :=
  parse_expression_whole micro made_shortTables ['a'] accepts_a

end Paparazzi.FlightPlan.ExprAcceptance
