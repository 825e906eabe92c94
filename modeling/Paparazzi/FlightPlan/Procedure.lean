import Mathlib.Tactic.Tauto
import Paparazzi.FlightPlan.ExprGraft

/-!
The expansion of procedures: `fp_proc.ml`. The text of an argument takes the place of a
parameter in the tree of an attribute, which is then printed.
-/

namespace Paparazzi.FlightPlan.Procedure

open Paparazzi.Library
open Paparazzi.FlightPlan.ExprSyntax
open Paparazzi.FlightPlan.ExprParser
open Paparazzi.FlightPlan.ExprLexer
open Paparazzi.FlightPlan.CText
open Paparazzi.FlightPlan.PrintedText (reprint floatToken commaToken unaryToken primaryOf
  operand_primaryOf)
open Paparazzi.FlightPlan.CMeaning
open Paparazzi.FlightPlan.ExprGraft

variable {D V : Type}

/-! ### The code -/

/-- `subst_expression`, with the arguments as texts. -/
def substExpression (env : List (Ident × List Char)) (e : Expression D) : Expression D :=
  e.map (fun i => .ident ((env.lookup i).getD i)) .float

def transformExpression (F : Doubles D) (env : List (Ident × List Char)) (e : Expression D) :
    List Char :=
  sprint F (substExpression env e)

def transformArgs (F : Doubles D) (env : List (Ident × List Char)) (es : Expressions D) :
    List Char :=
  sprintArgs F (es.map (fun i => .ident ((env.lookup i).getD i)) .float)

/-- A text that is an expression. -/
structure Argument (F : Doubles D) where
  text : List Char
  chain : Chain D
  parses : parseExpression F text = some chain

/-- `<param>` -/
structure Param (F : Doubles D) where
  name : Ident
  defaultValue : Option (Argument F)

/-- `make_assoc` of `parse_include`, or nothing where a value is required. -/
def makeAssoc {F : Doubles D} (argsAssocs : List (Ident × Argument F)) (p : Param F) :
    Option (Ident × Argument F) :=
  match argsAssocs.lookup p.name with
  | some a => some (p.name, a)
  | none => p.defaultValue.map fun a => (p.name, a)

/-- `<include>` of a procedure, with a value for each parameter. -/
structure Include (F : Doubles D) where
  params : List (Param F)
  argsAssocs : List (Ident × Argument F)
  env : List (Ident × Argument F)
  env_eq : params.mapM (makeAssoc argsAssocs) = some env

def texts {F : Doubles D} (env : List (Ident × Argument F)) : List (Ident × List Char) :=
  env.map fun x => (x.1, x.2.text)

/-- The new value of an attribute: `transform_values`. -/
def transformValue {F : Doubles D} (env : List (Ident × Argument F)) (v : List Char) :
    Option (List Char) :=
  (parseExpression F v).map fun c => transformExpression F (texts env) (c.ast exprLevel)

/-! ### Values -/

/-- The meaning of variables, constants and operators; fields and elements are those of values. -/
structure Meaning (D V : Type) where
  ident : Ident → V
  int : Nat → V
  float : D → V
  call : Ident → List V → V
  unary : UnaryOperator → V → V
  binary : BinaryOperator → V → V → V
  index : V → V → V
  field : V → Ident → V
  deref : V → Ident → V

namespace Meaning

variable (m : Meaning D V)

def environment (value : Ident → V) : Environment D V where
  ident := value
  int := m.int
  float := m.float
  call i vs := m.call (cIdent i) vs
  unary := m.unary
  binary := m.binary
  index i v := m.index (value i) v
  field i f := m.field (value i) f
  deref := m.deref

/-- The value of an expression, where `$x` is the variable `_var_x`. -/
def eval (e : Expression D) : V :=
  (m.environment fun i => m.ident (cIdent i)).eval e

/-- The parameters are bound to the values of their arguments. -/
def bound {F : Doubles D} (env : List (Ident × Argument F)) (i : Ident) : V :=
  match env.lookup i with
  | some a => m.eval (a.chain.ast exprLevel)
  | none => m.ident (cIdent i)

end Meaning

def expandedValue {F : Doubles D} (m : Meaning D V) (env : List (Ident × Argument F))
    (v : List Char) : Option V :=
  ((transformValue env v).bind (parseExpression F)).map fun c => m.eval (c.ast exprLevel)

def boundValue {F : Doubles D} (m : Meaning D V) (env : List (Ident × Argument F))
    (v : List Char) : Option V :=
  (parseExpression F v).map fun c => (m.environment (m.bound env)).eval (c.ast exprLevel)

/-- The new text has, in every environment, the value of the old one with the parameters bound. -/
def Hygienic {F : Doubles D} (env : List (Ident × Argument F)) (v : List Char) : Prop :=
  ∀ (V : Type) (m : Meaning D V), expandedValue m env v = boundValue m env v

/-! ### What is printed -/

/-- The characters that are printed behind an expression. -/
def Behind (rest : List Char) : Prop :=
  ∀ c, rest.head? = some c →
    c ∈ [')', ']', ',', '>', '=', '&', '|', '+', '-', '*', '/', '%']

def Lexes (F : Doubles D) (text : List Char) (ts : List (Token D)) (rest : List Char) : Prop :=
  exprLex F (text ++ rest) = (exprLex F rest).map (ts ++ ·)

/-- The printed text is read by itself, whatever is printed behind it: no comment is open. -/
def Closed {F : Doubles D} (a : Argument F) : Prop :=
  ∃ ts, ∀ rest, Behind rest → Lexes F (cIdent a.text) ts rest

/-- An identifier of the lexer. -/
def IsIdent : Ident → Prop
  | [] => False
  | '$' :: i => i.head?.any isLetter ∧ i.all isLetterOrDigit
  | c :: i => isLetter c ∧ i.all isLetterOrDigit

/-- The tokens of an argument as it is printed. -/
def Argument.tokens {F : Doubles D} (a : Argument F) : List (Token D) :=
  (exprLex F (cIdent a.text)).getD []

section

variable {F : Doubles D} (env : List (Ident × Argument F))

mutual

/-- Every name is an identifier of the lexer as it is printed, the arguments are closed, and the
integers are those of the lexer. -/
def Printable : Expression D → Prop
  | .ident i =>
      match env.lookup i with
      | some a => Closed a
      | none => IsIdent (cIdent i)
  | .int n => n < 2 ^ 62
  | .float _ => True
  | .call i es => IsIdent i ∧ PrintableArgs es
  | .unary _ e => Printable e
  | .binary _ e₁ e₂ => Printable e₁ ∧ Printable e₂
  | .index i e => IsIdent i ∧ Printable e
  | .field i f => IsIdent i ∧ IsIdent f
  | .deref e f => Printable e ∧ IsIdent f

def PrintableArgs : Expressions D → Prop
  | .none => True
  | .snoc es e => PrintableArgs es ∧ Printable e

end

mutual

def exprTokens : Expression D → List (Token D)
  | .ident i =>
      match env.lookup i with
      | some a => a.tokens
      | none => [.ident (cIdent i)]
  | .int n => [.int n]
  | .float x => [floatToken F x]
  | .call i es => .ident i :: .lp :: exprTokensArgs es ++ [.rp]
  | .unary o e => unaryToken o :: .lp :: exprTokens e ++ [.rp]
  | .binary o e₁ e₂ => .lp :: exprTokens e₁ ++ .binary o :: exprTokens e₂ ++ [.rp]
  | .index i e => .ident i :: .lb :: exprTokens e ++ [.rb]
  | .field i f => [.ident i, .dot, .ident f]
  | .deref e f => .lp :: exprTokens e ++ [.rp, .deref, .ident f]

def exprTokensArgs : Expressions D → List (Token D)
  | .none => []
  | .snoc es e => exprTokensArgs es ++ commaToken es ++ exprTokens e

end

end

/-! ### Its tokens -/

theorem exprLex_cons {F : Doubles D} {c : Char} {cs rest : List Char} {t : Token D}
    (h : token F c cs = some (some t, rest)) :
    exprLex F (c :: cs) = (exprLex F rest).map (t :: ·) := by
  rw [exprLex]
  split <;> simp_all

theorem Lexes.append {F : Doubles D} {text text' rest : List Char} {ts ts' : List (Token D)}
    (h : Lexes F text ts (text' ++ rest)) (h' : Lexes F text' ts' rest) :
    Lexes F (text ++ text') (ts ++ ts') rest := by
  rw [Lexes] at h h' ⊢
  rw [List.append_assoc, h, h', Option.map_map]
  exact congrArg (Option.map · _) (funext fun us => (List.append_assoc ts ts' us).symm)

theorem lexes_token {F : Doubles D} {c : Char} {cs rest : List Char} {t : Token D}
    (h : token F c (cs ++ rest) = some (some t, rest)) : Lexes F (c :: cs) [t] rest :=
  exprLex_cons h

theorem not_isLetterOrDigit_of_behind {rest : List Char} (h : Behind rest) (c : Char)
    (hc : rest.head? = some c) : isLetterOrDigit c = false := by
  have hall : ∀ c ∈ [')', ']', ',', '>', '=', '&', '|', '+', '-', '*', '/', '%'],
      isLetterOrDigit c = false := by
    intro c hc
    fin_cases hc <;> rfl
  exact hall c (h c hc)

theorem span_append {p : Char → Bool} {ds rest : List Char} (hds : ds.all p = true)
    (hrest : ∀ c, rest.head? = some c → p c = false) :
    (ds ++ rest).takeWhile p = ds ∧ (ds ++ rest).dropWhile p = rest := by
  have hall : ∀ c ∈ ds, p c = true := List.all_eq_true.mp hds
  have htake : rest.takeWhile p = [] ∧ rest.dropWhile p = rest := by
    cases rest with
    | nil => exact ⟨rfl, rfl⟩
    | cons c cs => simp [hrest c rfl]
  rw [List.takeWhile_append_of_pos hall, List.dropWhile_append_of_pos hall, htake.1, htake.2]
  exact ⟨List.append_nil ds, rfl⟩

theorem lexes_ident (F : Doubles D) {i : Ident} {rest : List Char} (hi : IsIdent i)
    (hrest : ∀ c, rest.head? = some c → isLetterOrDigit c = false) :
    Lexes F i [.ident i] rest := by
  unfold IsIdent at hi
  split at hi
  · exact hi.elim
  · rename_i cs
    obtain ⟨hhead, hall⟩ := hi
    obtain ⟨htake, hdrop⟩ := span_append hall hrest
    have hletter : ((cs ++ rest).head?.map isLetter).getD false = true := by
      cases cs with
      | nil => cases hhead
      | cons c cs => exact hhead
    apply lexes_token
    have hname : @name D '$' (cs ++ rest) = some (.ident ('$' :: cs), rest) := by
      rw [name, if_neg (by decide), if_pos rfl, if_pos hletter, htake, hdrop]
    rw [token, if_neg (by decide), if_neg (by decide), if_pos (by decide), hname]
    rfl
  · rename_i c cs _
    obtain ⟨hletter, hall⟩ := hi
    obtain ⟨htake, hdrop⟩ := span_append hall hrest
    have hwhite : ¬(c = ' ' ∨ c = '\t' ∨ c = '\n') := by
      rintro (rfl | rfl | rfl) <;> exact absurd hletter (by decide)
    have hdigit : ¬c.isDigit = true := fun hdigit =>
      Bool.false_ne_true ((isIdStart_of_isDigit hdigit).symm.trans hletter)
    apply lexes_token
    have hname : @name D c (cs ++ rest) = some (.ident (c :: cs), rest) := by
      rw [name, if_pos hletter, htake, hdrop]
    rw [token, if_neg hwhite, if_neg hdigit, if_pos (Or.inl hletter), hname]
    rfl

theorem lexes_ident_cons (F : Doubles D) {i : Ident} {c : Char} (rest : List Char)
    (hi : IsIdent i) (hc : isLetterOrDigit c = false) : Lexes F i [.ident i] (c :: rest) := by
  apply lexes_ident F hi
  intro d hd
  cases hd
  exact hc

theorem lexes_number {F : Doubles D} {ds cs rest : List Char} {t : Token D}
    (hne : ds ≠ []) (hdigits : ds.all Char.isDigit = true)
    (hnumber : number F (ds ++ (cs ++ rest)) = some (t, rest)) :
    Lexes F (ds ++ cs) [t] rest := by
  cases ds with
  | nil => exact absurd rfl hne
  | cons d ds =>
      have hd : d.isDigit = true := List.all_eq_true.mp hdigits d List.mem_cons_self
      have hwhite : ¬(d = ' ' ∨ d = '\t' ∨ d = '\n') := by
        rintro (rfl | rfl | rfl) <;> exact absurd hd (by decide)
      apply lexes_token
      have hassoc : d :: (ds.append cs ++ rest) = d :: ds ++ (cs ++ rest) := by simp
      rw [token, if_neg hwhite, if_pos hd, hassoc, hnumber]
      rfl

theorem not_isDigit_of_behind {rest : List Char} (h : Behind rest) (c : Char)
    (hc : rest.head? = some c) : c.isDigit = false := by
  have hall : ∀ c ∈ [')', ']', ',', '>', '=', '&', '|', '+', '-', '*', '/', '%'],
      c.isDigit = false := by
    intro c hc
    fin_cases hc <;> rfl
  exact hall c (h c hc)

theorem lexes_int (F : Doubles D) {n : Nat} (hn : n < 2 ^ 62) {rest : List Char}
    (hrest : Behind rest) : Lexes F (Nat.toDigits 10 n) [.int n] rest := by
  have hdigits : (Nat.toDigits 10 n).all Char.isDigit = true :=
    List.all_eq_true.mpr (isDigit_toDigits n)
  have h := @lexes_number _ F _ [] rest (.int n) Nat.toDigits_ne_nil hdigits
  rw [List.append_nil, List.nil_append] at h
  apply h
  obtain ⟨htake, hdrop⟩ := span_append hdigits (not_isDigit_of_behind hrest)
  unfold number
  dsimp only
  rw [htake, hdrop, Nat.ofDigitChars_ten_toDigits]
  split
  · have hdot := hrest '.' rfl
    simp at hdot
  · rw [if_pos hn]

theorem lexes_float (F : Doubles D) (x : D) {rest : List Char} (hrest : Behind rest) :
    Lexes F (sprintFloat F x) [floatToken F x] rest := by
  unfold sprintFloat floatToken
  cases F.millionths x with
  | none => exact lexes_ident F ⟨rfl, rfl⟩ (not_isLetterOrDigit_of_behind hrest)
  | some m =>
      have hdigits : (Nat.toDigits 10 (m / 1000000)).all Char.isDigit = true :=
        List.all_eq_true.mpr (isDigit_toDigits _)
      apply lexes_number Nat.toDigits_ne_nil hdigits
      have hpoint : ∀ c, ('.' :: (decimalsOf m ++ rest)).head? = some c → c.isDigit = false := by
        intro c hc
        cases hc
        rfl
      obtain ⟨htake, hdrop⟩ := span_append hdigits hpoint
      obtain ⟨htake', hdrop'⟩ := span_append (List.all_eq_true.mpr (isDigit_decimalsOf m))
        (not_isDigit_of_behind hrest)
      change number F (Nat.toDigits 10 (m / 1000000) ++ '.' :: (decimalsOf m ++ rest)) = _
      unfold number
      dsimp only
      rw [htake, hdrop]
      simp only [htake', hdrop', Nat.ofDigitChars_append, Nat.ofDigitChars_ten_toDigits,
        ofDigitChars_decimalsOf]
      rfl

/-- What an operator may be printed in front of. -/
def Starts (text : List Char) : Prop :=
  ∀ c, text.head? = some c → c ≠ '>' ∧ c ≠ '=' ∧ c ≠ '*'

theorem lexes_operator (F : Doubles D) (o : BinaryOperator) {rest : List Char}
    (hrest : Starts rest) : Lexes F o.text [.binary o] rest := by
  cases rest with
  | nil => cases o <;> exact exprLex_cons rfl
  | cons c cs =>
      obtain ⟨hgt, heq, hstar⟩ := hrest c rfl
      cases o with
      | gt =>
          apply exprLex_cons
          simp [token, punctuation, isLetter, quote, heq]
      | minus =>
          apply exprLex_cons
          simp [token, punctuation, isLetter, quote, hgt]
      | div =>
          have hcomment : comment (c :: cs) = none := by
            unfold comment
            split
            · rename_i heq
              cases heq
              exact absurd rfl hstar
            · rfl
          apply exprLex_cons
          change token F '/' (c :: cs) = _
          rw [token, if_neg (by decide), if_neg (by decide), if_neg (by decide), if_pos rfl,
            hcomment]
          rfl
      | _ => exact exprLex_cons rfl

/-- A bracket or a comma. -/
theorem lexes_mark (F : Doubles D) {c : Char} {t : Token D} (rest : List Char)
    (hmark : (c, t) ∈ [('(', Token.lp), (')', .rp), ('[', .lb), (']', .rb), (',', .comma),
      ('.', .dot), ('!', .not)]) : Lexes F [c] [t] rest := by
  simp only [List.mem_cons, Prod.mk.injEq, List.not_mem_nil, or_false] at hmark
  rcases hmark with ⟨rfl, rfl⟩ | ⟨rfl, rfl⟩ | ⟨rfl, rfl⟩ | ⟨rfl, rfl⟩ | ⟨rfl, rfl⟩ | ⟨rfl, rfl⟩ |
    ⟨rfl, rfl⟩ <;> exact exprLex_cons rfl

theorem lexes_unary (F : Doubles D) (o : UnaryOperator) (rest : List Char) :
    Lexes F (o.text ++ ['(']) [unaryToken o, .lp] rest := by
  cases o with
  | minus =>
      exact Lexes.append (lexes_operator F .minus (fun c hc => by cases hc; decide))
        (lexes_mark F rest (by simp))
  | not =>
      exact @Lexes.append _ F ['!'] ['('] rest [.not] [.lp] (lexes_mark F _ (by simp))
        (lexes_mark F rest (by simp))

theorem lexes_arrow (F : Doubles D) (rest : List Char) :
    Lexes F ['-', '>'] [.deref] rest :=
  exprLex_cons rfl

/-- An argument stands in front of a closing bracket, a comma or an operator. -/
theorem lexes_argument {F : Doubles D} {a : Argument F} (ha : Closed a) {rest : List Char}
    (hrest : Behind rest) : Lexes F (cIdent a.text) a.tokens rest := by
  obtain ⟨ts, hts⟩ := ha
  have hnil : exprLex F (cIdent a.text) = some ts := by
    have h := hts [] nofun
    rw [Lexes, List.append_nil, exprLex_nil] at h
    simpa using h
  rw [Argument.tokens, hnil]
  exact hts rest hrest

theorem parseExpression_eq_none {F : Doubles D} {c : Char} {cs rest : List Char} {t : Token D}
    (htoken : token F c cs = some (some t, rest)) (hstep : stepOperand .start [] t = none) :
    parseExpression F (c :: cs) = none := by
  rw [parseExpression, exprLex_cons htoken]
  cases exprLex F rest with
  | none => rfl
  | some ts =>
      rw [Option.map_some, Option.bind_some, parse, run, step, hstep]
      rfl

theorem starts_argument {F : Doubles D} (a : Argument F) (rest : List Char) :
    Starts (cIdent a.text ++ rest) := by
  obtain ⟨text, chain, hparses⟩ := a
  cases text with
  | nil =>
      rw [parseExpression, exprLex_nil] at hparses
      cases hparses
  | cons c cs =>
      intro d hd
      by_cases hdollar : c = '$'
      · subst hdollar
        cases hd
        decide
      · have htext : cIdent (c :: cs) = c :: cs := by
          unfold cIdent
          split
          · rename_i heq
            cases heq
            exact absurd rfl hdollar
          · rfl
        rw [htext] at hd
        cases hd
        have hnone : ∀ {t : Token D} {rest : List Char}, token F c cs = some (some t, rest) →
            stepOperand .start [] t ≠ none := by
          intro t rest htoken hstep
          rw [parseExpression_eq_none htoken hstep] at hparses
          cases hparses
        refine ⟨?_, ?_, ?_⟩
        · rintro rfl
          by_cases hnext : cs.head? = some '='
          · exact @hnone (.binary .geq) cs.tail
              (by simp [token, punctuation, isLetter, quote, hnext]) rfl
          · exact @hnone (.binary .gt) cs
              (by simp [token, punctuation, isLetter, quote, hnext]) rfl
        · rintro rfl
          by_cases hnext : cs.head? = some '='
          · exact @hnone (.binary .eq) cs.tail
              (by simp [token, punctuation, isLetter, quote, hnext]) rfl
          · exact @hnone .assign cs (by simp [token, punctuation, isLetter, quote, hnext]) rfl
        · rintro rfl
          exact @hnone (.binary .mult) cs rfl rfl

theorem lookup_texts {F : Doubles D} (env : List (Ident × Argument F)) (i : Ident) :
    (texts env).lookup i = (env.lookup i).map Argument.text := by
  induction env with
  | nil => rfl
  | cons x env ih =>
      rw [texts, List.map_cons, List.lookup_cons, List.lookup_cons]
      cases i == x.1 with
      | true => rfl
      | false => exact ih

theorem behind_text (o : BinaryOperator) (rest : List Char) : Behind (o.text ++ rest) := by
  intro c hc
  cases o <;> cases hc <;> decide

theorem behind_cons {c : Char} (rest : List Char)
    (hc : c ∈ [')', ']', ',', '>', '=', '&', '|', '+', '-', '*', '/', '%']) :
    Behind (c :: rest) := by
  intro d hd
  cases hd
  exact hc

theorem starts_ident {i : Ident} (hi : IsIdent i) (rest : List Char) : Starts (i ++ rest) := by
  intro c hc
  unfold IsIdent at hi
  split at hi
  · exact hi.elim
  · cases hc
    decide
  · cases hc
    refine ⟨?_, ?_, ?_⟩ <;> rintro rfl <;> exact absurd hi.1 (by decide)

theorem starts_digits {ds : List Char} (hne : ds ≠ []) (hds : ∀ d ∈ ds, d.isDigit = true)
    (rest : List Char) : Starts (ds ++ rest) := by
  intro c hc
  cases ds with
  | nil => exact absurd rfl hne
  | cons d ds =>
      cases hc
      have hdigit := hds c List.mem_cons_self
      refine ⟨?_, ?_, ?_⟩ <;> rintro rfl <;> exact absurd hdigit (by decide)

section

variable {F : Doubles D} {env : List (Ident × Argument F)}

/-- The text of an identifier that stands alone. -/
theorem transform_ident (i : Ident) : transformExpression F (texts env) (.ident i) =
    match env.lookup i with
    | some a => cIdent a.text
    | none => cIdent i := by
  change cIdent (((texts env).lookup i).getD i) = _
  rw [lookup_texts]
  cases env.lookup i <;> rfl

theorem starts_transform {e : Expression D} (he : Printable env e) (rest : List Char) :
    Starts (transformExpression F (texts env) e ++ rest) := by
  cases e with
  | ident i =>
      rw [transform_ident]
      unfold Printable at he
      cases hlookup : env.lookup i with
      | some a => exact starts_argument a rest
      | none =>
          rw [hlookup] at he
          exact starts_ident he rest
  | int n => exact starts_digits Nat.toDigits_ne_nil (isDigit_toDigits n) rest
  | float x =>
      change Starts (sprintFloat F x ++ rest)
      unfold sprintFloat
      cases F.millionths x with
      | none => exact @starts_ident ['i', 'n', 'f'] ⟨rfl, rfl⟩ rest
      | some m =>
          dsimp only
          rw [List.append_assoc]
          exact starts_digits Nat.toDigits_ne_nil (isDigit_toDigits _) _
  | call i es =>
      change Starts (i ++ '(' :: _ ++ [')'] ++ rest)
      rw [List.append_assoc, List.append_assoc]
      exact starts_ident he.1 _
  | unary o e =>
      intro c hc
      cases o <;> cases hc <;> decide
  | binary o e₁ e₂ =>
      intro c hc
      cases hc
      decide
  | index i e =>
      change Starts (i ++ '[' :: _ ++ [']'] ++ rest)
      rw [List.append_assoc, List.append_assoc]
      exact starts_ident he.1 _
  | field i f =>
      change Starts (i ++ '.' :: f ++ rest)
      rw [List.append_assoc]
      exact starts_ident he.1 _
  | deref e f =>
      intro c hc
      cases hc
      decide

theorem lexes_round {text rest : List Char} {ts : List (Token D)}
    (h : Lexes F text ts (')' :: rest)) :
    Lexes F ('(' :: text ++ [')']) (.lp :: ts ++ [.rp]) rest := by
  have hopen : Lexes F ['('] [.lp] (text ++ [')'] ++ rest) := lexes_mark F _ (by simp)
  have hclose : Lexes F [')'] [.rp] rest := lexes_mark F rest (by simp)
  exact hopen.append (Lexes.append h hclose)

theorem lexes_square {text rest : List Char} {ts : List (Token D)}
    (h : Lexes F text ts (']' :: rest)) :
    Lexes F ('[' :: text ++ [']']) (.lb :: ts ++ [.rb]) rest := by
  have hopen : Lexes F ['['] [.lb] (text ++ [']'] ++ rest) := lexes_mark F _ (by simp)
  have hclose : Lexes F [']'] [.rb] rest := lexes_mark F rest (by simp)
  exact hopen.append (Lexes.append h hclose)

mutual

/-- The tokens of the new text. -/
theorem lexes_transform : ∀ (e : Expression D) (rest : List Char), Printable env e →
    Behind rest → Lexes F (transformExpression F (texts env) e) (exprTokens env e) rest
  | .ident i, rest, he, hrest => by
      rw [transform_ident]
      unfold exprTokens
      unfold Printable at he
      cases hlookup : env.lookup i with
      | some a =>
          rw [hlookup] at he
          exact lexes_argument he hrest
      | none =>
          rw [hlookup] at he
          exact lexes_ident F he (not_isLetterOrDigit_of_behind hrest)
  | .int n, _, he, hrest => lexes_int F he hrest
  | .float x, _, _, hrest => lexes_float F x hrest
  | .call i es, rest, he, _ => by
      have hargs := lexes_round (lexes_transformArgs es _ he.2 (behind_cons rest (by decide)))
      have hname := @lexes_ident_cons _ F i '('
        (transformArgs F (texts env) es ++ [')'] ++ rest) he.1 rfl
      have hall := Lexes.append hname hargs
      rw [exprTokens, transformExpression, substExpression, Expression.map, sprint,
        List.append_assoc]
      exact hall
  | .index i e, rest, he, _ => by
      have hindex := lexes_square (lexes_transform e _ he.2 (behind_cons rest (by decide)))
      have hname := @lexes_ident_cons _ F i '['
        (transformExpression F (texts env) e ++ [']'] ++ rest) he.1 rfl
      have hall := Lexes.append hname hindex
      rw [exprTokens, transformExpression, substExpression, Expression.map, sprint,
        List.append_assoc]
      exact hall
  | .field i f, rest, he, hrest => by
      have hname := @lexes_ident_cons _ F i '.' (f ++ rest) he.1 rfl
      have hdot : Lexes F ['.'] [.dot] (f ++ rest) := lexes_mark F _ (by simp)
      have hfield := lexes_ident F he.2 (not_isLetterOrDigit_of_behind hrest)
      exact Lexes.append hname (Lexes.append hdot hfield)
  | .unary o e, rest, he, _ => by
      have hbody := lexes_transform e (')' :: rest) he (behind_cons rest (by decide))
      have hclose : Lexes F [')'] [.rp] rest := lexes_mark F rest (by simp)
      have hall := Lexes.append (lexes_unary F o _) (Lexes.append hbody hclose)
      change Lexes F (o.text ++ '(' :: transformExpression F (texts env) e ++ [')']) _ rest
      rw [exprTokens]
      simpa using hall
  | .binary o e₁ e₂, rest, he, _ => by
      have hright := lexes_transform e₂ (')' :: rest) he.2 (behind_cons rest (by decide))
      have hoperator := lexes_operator F o (starts_transform he.2 (')' :: rest))
      have hleft := lexes_transform e₁ _ he.1
        (behind_text o (transformExpression F (texts env) e₂ ++ ')' :: rest))
      rw [← List.append_assoc] at hleft
      have hall := lexes_round (Lexes.append hleft (Lexes.append hoperator hright))
      rw [exprTokens, transformExpression, substExpression, Expression.map, sprint,
        List.append_assoc ('(' :: _)]
      exact hall
  | .deref e f, rest, he, hrest => by
      have hbody := lexes_round (lexes_transform e _ he.1
        (behind_cons ('-' :: '>' :: (f ++ rest)) (by decide)))
      have hfield := lexes_ident F he.2 (not_isLetterOrDigit_of_behind hrest)
      have hall := Lexes.append hbody (Lexes.append (lexes_arrow F (f ++ rest)) hfield)
      change Lexes F ('(' :: transformExpression F (texts env) e ++ [')', '-', '>'] ++ f) _ rest
      rw [exprTokens]
      simpa using hall

theorem lexes_transformArgs : ∀ (es : Expressions D) (rest : List Char), PrintableArgs env es →
    Behind rest → Lexes F (transformArgs F (texts env) es) (exprTokensArgs env es) rest
  | .none, rest, _, _ => by
      simp [Lexes, transformArgs, Expressions.map, sprintArgs, exprTokensArgs]
  | .snoc .none e, rest, hes, hrest => lexes_transform e rest hes.2 hrest
  | .snoc (.snoc es e) e', rest, hes, hrest => by
      have hlast := lexes_transform e' rest hes.2 hrest
      have hcomma : Lexes F [','] [.comma] (transformExpression F (texts env) e' ++ rest) :=
        lexes_mark F _ (by simp)
      have hfirst := lexes_transformArgs (.snoc es e)
        (',' :: (transformExpression F (texts env) e' ++ rest)) hes.1 (behind_cons _ (by decide))
      exact Lexes.append (Lexes.append hfirst hcomma) hlast

end

theorem exprLex_transform {e : Expression D} (he : Printable env e) :
    exprLex F (transformExpression F (texts env) e) = some (exprTokens env e) := by
  have h := lexes_transform e [] he nofun
  rw [Lexes, List.append_nil, exprLex_nil] at h
  simpa using h

/-! ### Its chain -/

/-- The name that an argument begins with, as it is printed. -/
def leadName (text : List Char) : Ident → Ident := if text.head? = some '$' then cIdent else id

/-- The chain of an argument as it is printed. -/
def Argument.printed (a : Argument F) : Chain D := graft .start (leadName a.text) a.chain

variable (env) in
mutual

/-- The chain that the parser makes of the new text. -/
def reading : Expression D → Chain D
  | .ident i =>
      match env.lookup i with
      | some a => a.printed
      | none => .first [] (.ident (cIdent i)) []
  | .int n => .first [] (.int n) []
  | .float x => .first [] (primaryOf F (.float x)) []
  | .call i es => .first [] (.call i (readingArgs es)) []
  | .unary o e => .first [o] (.paren (reading e)) []
  | .binary o e₁ e₂ => .first [] (.paren (joinChains (reading e₁) o (reading e₂))) []
  | .index i e => .first [] (.index i (reading e)) []
  | .field i f => .first [] (.field i f) []
  | .deref e f => .first [] (.paren (reading e)) [f]

def readingArgs : Expressions D → Args D
  | .none => .none
  | .snoc es e => .snoc (readingArgs es) (reading e)

end

theorem exprLex_of_dollar {cs : List Char} {ts : List (Token D)}
    (h : exprLex F ('$' :: cs) = some ts) :
    ∃ i ts', ts = .ident i :: ts' ∧
      exprLex F (cIdent ('$' :: cs)) = some (.ident (cIdent i) :: ts') := by
  by_cases hletter : (cs.head?.map isLetter).getD false = true
  · have htoken : token F '$' cs = some (some (.ident ('$' :: cs.takeWhile isLetterOrDigit)),
        cs.dropWhile isLetterOrDigit) := by
      have hname : @name D '$' cs = some (.ident ('$' :: cs.takeWhile isLetterOrDigit),
          cs.dropWhile isLetterOrDigit) := by
        rw [name, if_neg (by decide), if_pos rfl, if_pos hletter]
      rw [token, if_neg (by decide), if_neg (by decide), if_pos (by decide), hname]
      rfl
    rw [exprLex_cons htoken] at h
    obtain ⟨ts', hrest, rfl⟩ := Option.map_eq_some_iff.1 h
    refine ⟨_, ts', rfl, ?_⟩
    have htoken' : token F '_' ('v' :: 'a' :: 'r' :: '_' :: cs) =
        some (some (.ident (cIdent ('$' :: cs.takeWhile isLetterOrDigit))),
          cs.dropWhile isLetterOrDigit) := rfl
    rw [show cIdent ('$' :: cs) = '_' :: 'v' :: 'a' :: 'r' :: '_' :: cs from rfl,
      exprLex_cons htoken', hrest]
    rfl
  · have htoken : token F '$' cs = none := by
      have hname : @name D '$' cs = none := by
        rw [name, if_neg (by decide), if_pos rfl, if_neg hletter]
      rw [token, if_neg (by decide), if_neg (by decide), if_pos (by decide), hname]
      rfl
    rw [exprLex] at h
    split at h <;> simp_all

theorem cIdent_of_ne {text : List Char} (h : text.head? ≠ some '$') : cIdent text = text := by
  unfold cIdent
  split
  · exact absurd rfl h
  · rfl

theorem reads_argument (a : Argument F) (l : Level D) (frames : List (Frame D)) :
    Reads l frames a.tokens (graft l id a.printed) := by
  obtain ⟨text, chain, hparses⟩ := a
  obtain ⟨ts, hlex, hparse⟩ := Option.bind_eq_some_iff.1 hparses
  rw [Argument.printed, graft_graft_start, Argument.tokens, leadName]
  by_cases hdollar : text.head? = some '$'
  · cases text with
    | nil => cases hdollar
    | cons c cs =>
        cases hdollar
        obtain ⟨i, ts', rfl, hprinted⟩ := exprLex_of_dollar hlex
        change Reads l frames ((exprLex F (cIdent ('$' :: cs))).getD []) (graft l cIdent chain)
        rw [hprinted]
        exact reads_ident hparse
  · rw [if_neg hdollar, cIdent_of_ne hdollar, hlex]
    exact reads_graft hparse

/-- The parser behind the arguments of a call. -/
def BehindArgs (env : List (Ident × Argument F)) (i : Ident) (l : Level D)
    (frames : List (Frame D)) (s : State D) : Expressions D → Prop
  | .none => s = ⟨.start, .operand, .call i .none l :: frames⟩
  | .snoc es e => ∃ l' p fs, s = ⟨l', .after p fs, .call i (readingArgs env es) l :: frames⟩ ∧
      l'.close p fs = reading env e

theorem BehindArgs.step_rp {i : Ident} {l : Level D} {frames : List (Frame D)} {s : State D}
    {es : Expressions D} (h : BehindArgs env i l frames s es) :
    step s .rp = some ⟨l, .after (.call i (readingArgs env es)) [], frames⟩ := by
  cases es with
  | none =>
      cases h
      rfl
  | snoc es e =>
      obtain ⟨l', p, fs, rfl, hclose⟩ := h
      rw [readingArgs, ← hclose]
      rfl

mutual

/-- The parser reads what is printed for an expression, wherever it stands. -/
theorem reads_exprTokens : ∀ (e : Expression D) (l : Level D) (frames : List (Frame D)),
    Reads l frames (exprTokens env e) (graft l id (reading env e))
  | .ident i, l, frames => by
      unfold exprTokens reading
      cases env.lookup i with
      | some a => exact reads_argument a l frames
      | none => exact reads_first (by simp [run, step, stepOperand])
  | .int _, l, _ => reads_first (by simp [exprTokens, run, step, stepOperand])
  | .float x, l, _ => by
      apply reads_first
      rw [exprTokens, floatToken, primaryOf]
      cases F.millionths x <;> simp [run, step, stepOperand]
  | .field _ _, l, _ => reads_first (by simp [exprTokens, run, step, stepOperand, stepAfter])
  | .call i es, l, frames => by
      obtain ⟨s, hrun, hs⟩ := run_exprTokensArgs es i l frames
      apply reads_first
      change run ⟨.start, .operand, .call i .none l :: frames⟩ (exprTokensArgs env es ++ [.rp]) = _
      rw [run_append, hrun, List.append_nil, Option.bind_some, run, hs.step_rp]
      rfl
  | .index i e, l, frames => by
      obtain ⟨l', p, fs, hrun, hclose⟩ := reads_exprTokens e .start (.index i l :: frames)
      rw [graft_start] at hclose
      apply reads_first
      change run ⟨.start, .operand, .index i l :: frames⟩ (exprTokens env e ++ [.rb]) = _
      rw [run_append, hrun, ← hclose, List.append_nil]
      rfl
  | .unary o e, l, frames => by
      obtain ⟨l', p, fs, hrun, hclose⟩ :=
        reads_exprTokens e .start (.paren ⟨l.before, l.signs ++ [o]⟩ :: frames)
      rw [graft_start] at hclose
      apply reads_first
      have hsign : run ⟨l, .operand, frames⟩ (exprTokens env (.unary o e)) =
          run ⟨.start, .operand, .paren ⟨l.before, l.signs ++ [o]⟩ :: frames⟩
            (exprTokens env e ++ [.rp]) := by
        cases o <;> rfl
      rw [hsign, run_append, hrun, ← hclose]
      rfl
  | .binary o e₁ e₂, l, frames => by
      obtain ⟨l₁, p₁, fs₁, hrun₁, hclose₁⟩ := reads_exprTokens e₁ .start (.paren l :: frames)
      rw [graft_start] at hclose₁
      obtain ⟨l₂, p₂, fs₂, hrun₂, hclose₂⟩ :=
        reads_exprTokens e₂ ⟨some (reading env e₁, o), []⟩ (.paren l :: frames)
      apply reads_first
      change run ⟨.start, .operand, .paren l :: frames⟩
        (exprTokens env e₁ ++ .binary o :: exprTokens env e₂ ++ [.rp]) = _
      rw [List.append_assoc, run_append, hrun₁, List.cons_append]
      change (run ⟨⟨some (l₁.close p₁ fs₁, o), []⟩, .operand, .paren l :: frames⟩
        (exprTokens env e₂ ++ [.rp])) = _
      rw [hclose₁, run_append, hrun₂, joinChains, ← hclose₂, List.append_nil]
      rfl
  | .deref e f, l, frames => by
      obtain ⟨l', p, fs, hrun, hclose⟩ := reads_exprTokens e .start (.paren l :: frames)
      rw [graft_start] at hclose
      apply reads_first
      change run ⟨.start, .operand, .paren l :: frames⟩
        (exprTokens env e ++ [.rp, .deref, .ident f]) = _
      rw [run_append, hrun, ← hclose, List.append_nil]
      rfl

theorem run_exprTokensArgs : ∀ (es : Expressions D) (i : Ident) (l : Level D)
    (frames : List (Frame D)),
    ∃ s, run ⟨.start, .operand, .call i .none l :: frames⟩ (exprTokensArgs env es) = some s ∧
      BehindArgs env i l frames s es
  | .none, _, _, _ => ⟨_, rfl, rfl⟩
  | .snoc .none e, i, l, frames => by
      obtain ⟨l', p, fs, hrun, hclose⟩ := reads_exprTokens e .start (.call i .none l :: frames)
      rw [graft_start] at hclose
      exact ⟨_, hrun, l', p, fs, rfl, hclose⟩
  | .snoc (.snoc es e) e', i, l, frames => by
      obtain ⟨s, hrun, l₁, p₁, fs₁, rfl, hclose₁⟩ := run_exprTokensArgs (.snoc es e) i l frames
      obtain ⟨l', p, fs, hrun', hclose⟩ :=
        reads_exprTokens e' .start (.call i (readingArgs env (.snoc es e)) l :: frames)
      rw [graft_start] at hclose
      refine ⟨_, ?_, l', p, fs, rfl, hclose⟩
      rw [exprTokensArgs, run_append, run_append, hrun, ← hrun', readingArgs, ← hclose₁]
      rfl

end

theorem parse_exprTokens (e : Expression D) : parse (exprTokens env e) = some (reading env e) := by
  obtain ⟨l', p, fs, hrun, hclose⟩ := @reads_exprTokens _ _ env e .start []
  rw [graft_start] at hclose
  rw [parse, hrun, ← hclose]
  rfl

theorem transformValue_eq {v : List Char} {c : Chain D} (hc : parseExpression F v = some c) :
    transformValue env v = some (transformExpression F (texts env) (c.ast exprLevel)) := by
  rw [transformValue, hc]
  rfl

theorem parseExpression_transform {e : Expression D} (he : Printable env e) :
    parseExpression F (transformExpression F (texts env) e) = some (reading env e) := by
  rw [parseExpression, exprLex_transform he]
  exact parse_exprTokens e

end

end Paparazzi.FlightPlan.Procedure
