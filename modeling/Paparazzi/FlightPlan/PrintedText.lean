import Paparazzi.FlightPlan.CText

/-!
What `sprint` prints, read back by the rules of C: its tokens, and the chain that the
parser finds in them. The brackets around every binary operator leave the precedence
levels nothing to decide.
-/

namespace Paparazzi.FlightPlan.PrintedText

open Paparazzi.Library
open Paparazzi.FlightPlan.ExprSyntax
open Paparazzi.FlightPlan.ExprParser
open Paparazzi.FlightPlan.CText

variable {D : Type}

/-- The levels of C. -/
def cLevel : BinaryOperator → Nat
  | .or => 0
  | .and => 1
  | .eq => 2
  | .gt | .geq => 3
  | .plus | .minus => 4
  | .mult | .div | .mod => 5

/-- A C text read as an expression. -/
def cRead (F : Doubles D) (text : List Char) : Option (Expression D) :=
  ((cLex F text).bind parse).map (Chain.ast cLevel)

def unaryToken : UnaryOperator → Token D
  | .minus => .binary .minus
  | .not => .not

/-- An operator in front of its right operand. -/
def join : BinaryOperator → List (Token D) → List (Token D)
  | .minus, .binary .minus :: ts => .decr :: ts
  | o, ts => .binary o :: ts

def commaToken : Expressions D → List (Token D)
  | .none => []
  | .snoc _ _ => [.comma]

/-- The constant that is read back from a printed one. -/
def reprint (F : Doubles D) (x : D) : Expression D :=
  match F.millionths x with
  | some m => .float (F.ofDigits m 6)
  | none => .ident ['i', 'n', 'f']

def floatToken (F : Doubles D) (x : D) : Token D :=
  match F.millionths x with
  | some m => .float (F.ofDigits m 6)
  | none => .ident ['i', 'n', 'f']

mutual

/-- The tokens of what is printed. -/
def tokens (F : Doubles D) : Expression D → List (Token D)
  | .ident i => [.ident (cIdent i)]
  | .int n => [.int n]
  | .float x => [floatToken F x]
  | .call i es => .ident i :: .lp :: tokensArgs F es ++ [.rp]
  | .unary o e => unaryToken o :: .lp :: tokens F e ++ [.rp]
  | .binary o e₁ e₂ => .lp :: tokens F e₁ ++ join o (tokens F e₂) ++ [.rp]
  | .index i e => .ident i :: .lb :: tokens F e ++ [.rb]
  | .field i f => [.ident i, .dot, .ident f]
  | .deref e f => .lp :: tokens F e ++ [.rp, .deref, .ident f]

def tokensArgs (F : Doubles D) : Expressions D → List (Token D)
  | .none => []
  | .snoc es e => tokensArgs F es ++ commaToken es ++ tokens F e

end

/-- Every name is an identifier of C as it is printed. -/
def Named (e : Expression D) : Prop :=
  e.All (fun i => IsCName (cIdent i)) IsCName (fun _ => True) (fun _ _ => True)

def NamedArgs (es : Expressions D) : Prop :=
  es.All (fun i => IsCName (cIdent i)) IsCName (fun _ => True) (fun _ _ => True)

/-- No subtraction has a negation as its right operand. -/
def Spaced (e : Expression D) : Prop :=
  e.All (fun _ => True) (fun _ => True) (fun _ => True)
    (fun o e => o = .minus → ∀ e', e ≠ .unary .minus e')

def SpacedArgs (es : Expressions D) : Prop :=
  es.All (fun _ => True) (fun _ => True) (fun _ => True)
    (fun o e => o = .minus → ∀ e', e ≠ .unary .minus e')

/-! ### Its tokens -/

theorem ends_cons {c : Char} (rest : List Char) (hc : isIdChar c = false) (hdot : c ≠ '.') :
    Ends (c :: rest) := by
  rintro d hd
  cases hd
  exact ⟨hc, hdot⟩

theorem ends_text (o : BinaryOperator) (rest : List Char) : Ends (o.text ++ rest) := by
  cases o <;> exact ends_cons _ rfl (by decide)

theorem ends_dot_eq {f rest : List Char} (hf : IsCName f) (F : Doubles D) :
    cLex F ('.' :: (f ++ rest)) = (cLex F (f ++ rest)).map (.dot :: ·) := by
  cases f with
  | nil => exact hf.elim
  | cons c cs =>
      apply cLex_punctuator rfl rfl
      have hdigit : c.isDigit = false := by
        cases h : c.isDigit with
        | false => rfl
        | true =>
            have := isIdStart_of_isDigit h
            rw [hf.1] at this
            cases this
      simp [punctuator, hdigit]

theorem starts_cons {c : Char} (hc : c ∉ ['>', '=', '+', '/', '*', ':']) (rest : List Char) :
    Starts (c :: rest) := by
  rintro d hd
  simp only [nextIs, List.head?_cons]
  cases h : some c == some d with
  | false => rfl
  | true =>
      simp only [beq_iff_eq, Option.some.injEq] at h
      exact absurd (h ▸ hd) hc

theorem not_mem_of_isIdChar {c : Char} (h : isIdChar c = true) :
    c ∉ ['>', '=', '+', '/', '*', ':', '-', '.'] := by
  rintro hc
  fin_cases hc <;> cases h

theorem starts_of_isIdChar {c : Char} (h : isIdChar c = true) (rest : List Char) :
    Starts (c :: rest) ∧ nextIs (c :: rest) '-' = false := by
  have hmem := not_mem_of_isIdChar h
  constructor
  · apply starts_cons
    intro hc
    exact hmem (List.mem_append_left ['-', '.'] hc)
  · simp only [List.mem_cons, not_or] at hmem
    simp [nextIs, hmem]

theorem starts_name {i : Ident} (hi : IsCName i) (rest : List Char) :
    Starts (i ++ rest) ∧ nextIs (i ++ rest) '-' = false := by
  cases i with
  | nil => exact hi.elim
  | cons c cs => exact starts_of_isIdChar (isIdChar_of_isIdStart hi.1) _

theorem starts_digits (n : Nat) (rest : List Char) :
    Starts (Nat.toDigits 10 n ++ rest) ∧ nextIs (Nat.toDigits 10 n ++ rest) '-' = false := by
  have hdigits := isDigit_toDigits n
  cases hds : Nat.toDigits 10 n with
  | nil => exact absurd hds Nat.toDigits_ne_nil
  | cons c ds =>
      rw [hds] at hdigits
      exact starts_of_isIdChar (isIdChar_of_isDigit (hdigits c (by simp))) _

/-- A printed expression begins with a bracket, a prefix operator, a name or a digit. -/
theorem starts_sprint (F : Doubles D) {e : Expression D} (he : Named e) (rest : List Char) :
    Starts (sprint F e ++ rest) ∧
      (nextIs (sprint F e ++ rest) '-' = true → ∃ e', e = .unary .minus e') := by
  have hname : ∀ {i : Ident} (_ : IsCName i) (rest : List Char), Starts (i ++ rest) ∧
      (nextIs (i ++ rest) '-' = true → ∃ e', e = .unary .minus e') := by
    intro i hi rest
    refine ⟨(starts_name hi rest).1, ?_⟩
    rw [(starts_name hi rest).2]
    nofun
  cases e with
  | ident i => exact hname he rest
  | int n =>
      refine ⟨(starts_digits n rest).1, ?_⟩
      rw [sprint, (starts_digits n rest).2]
      nofun
  | float x =>
      rw [sprint, sprintFloat]
      cases F.millionths x with
      | none => exact hname (show IsCName ['i', 'n', 'f'] by decide) rest
      | some m =>
          rw [List.append_assoc]
          refine ⟨(starts_digits _ _).1, ?_⟩
          rw [(starts_digits _ _).2]
          nofun
  | call i es =>
      rw [sprint, List.append_assoc, List.append_assoc]
      exact hname he.1 _
  | index i e =>
      rw [sprint, List.append_assoc, List.append_assoc]
      exact hname he.1 _
  | field i f =>
      rw [sprint, List.append_assoc]
      exact hname he.1 _
  | binary o e₁ e₂ => exact ⟨starts_cons (by decide) _, nofun⟩
  | deref e f => exact ⟨starts_cons (by decide) _, nofun⟩
  | unary o e =>
      cases o with
      | minus => exact ⟨starts_cons (by decide) _, fun _ => ⟨e, rfl⟩⟩
      | not => exact ⟨starts_cons (by decide) _, nofun⟩

/-- A piece of text in front of `rest` has the given tokens. -/
def Lexes (F : Doubles D) (text : List Char) (ts : List (Token D)) (rest : List Char) : Prop :=
  cLex F (text ++ rest) = (cLex F rest).map (ts ++ ·)

theorem Lexes.append {F : Doubles D} {text text' rest : List Char} {ts ts' : List (Token D)}
    (h : Lexes F text ts (text' ++ rest)) (h' : Lexes F text' ts' rest) :
    Lexes F (text ++ text') (ts ++ ts') rest := by
  unfold Lexes at *
  rw [List.append_assoc, h, h', Option.map_map]
  congr 1
  funext us
  exact (List.append_assoc _ _ _).symm

theorem lexes_punctuator (F : Doubles D) {c : Char} {rest : List Char} {t : Token D}
    (hc : isIdChar c = false) (hwhite : isWhite c = false)
    (h : punctuator c rest = some (t, rest)) : Lexes F [c] [t] rest :=
  cLex_punctuator hc hwhite h

theorem lexes_arrow (F : Doubles D) (rest : List Char) :
    Lexes F ['-', '>'] [.deref] rest :=
  cLex_punctuator rfl rfl rfl

theorem lexes_unary (F : Doubles D) (o : UnaryOperator) (rest : List Char) :
    Lexes F o.text [unaryToken o] ('(' :: rest) := by
  cases o with
  | minus => exact cLex_punctuator rfl rfl rfl
  | not => exact cLex_punctuator rfl rfl rfl

theorem join_eq (F : Doubles D) {o : BinaryOperator} {e : Expression D}
    (h : o = .minus → ∀ e', e ≠ .unary .minus e') :
    join o (tokens F e) = .binary o :: tokens F e := by
  by_cases ho : o = .minus
  · subst ho
    cases e with
    | unary o e =>
        cases o with
        | minus => exact absurd rfl (h rfl e)
        | not => rfl
    | float x =>
        rw [tokens, floatToken]
        cases F.millionths x <;> rfl
    | ident | int | call | binary | index | field | deref => rfl
  · cases o <;> first | rfl | exact absurd rfl ho

/-- An operator and its right operand. -/
theorem lexes_join {F : Doubles D} {o : BinaryOperator} {e : Expression D} {rest : List Char}
    (he : Named e) (h : Lexes F (sprint F e) (tokens F e) rest) :
    Lexes F (o.text ++ sprint F e) (join o (tokens F e)) rest := by
  by_cases hneg : o = .minus ∧ ∃ e', e = .unary .minus e'
  · obtain ⟨rfl, e', rfl⟩ := hneg
    have hminus : cLex F ('-' :: ('(' :: sprint F e' ++ [')'] ++ rest)) =
        (cLex F ('(' :: sprint F e' ++ [')'] ++ rest)).map (.binary .minus :: ·) :=
      cLex_punctuator rfl rfl rfl
    have hboth : (cLex F ('(' :: sprint F e' ++ [')'] ++ rest)).map (.binary .minus :: ·) =
        ((cLex F rest).map (.lp :: tokens F e' ++ [.rp] ++ ·)).map (.binary .minus :: ·) := by
      rw [← hminus, Option.map_map]
      exact h
    have hinj : Function.Injective (fun ts : List (Token D) => .binary .minus :: ts) :=
      fun _ _ heq => (List.cons.inj heq).2
    have hrest := Option.map_injective hinj hboth
    change cLex F ('-' :: '-' :: ('(' :: sprint F e' ++ [')'] ++ rest)) = _
    rw [cLex_decr, hrest, Option.map_map]
    rfl
  · have hapart : o = .minus → ∀ e', e ≠ .unary .minus e' := fun ho e' he' => hneg ⟨ho, e', he'⟩
    obtain ⟨hstarts, hnext⟩ := starts_sprint F he rest
    have hone : Lexes F o.text [.binary o] (sprint F e ++ rest) := by
      apply cLex_binary hstarts
      intro ho
      cases hminus : nextIs (sprint F e ++ rest) '-' with
      | false => rfl
      | true =>
          obtain ⟨e', he'⟩ := hnext hminus
          exact absurd he' (hapart ho e')
    rw [join_eq F hapart]
    exact hone.append h

theorem lexes_name (F : Doubles D) {i : Ident} {rest : List Char} (hi : IsCName i)
    (hrest : Ends rest) : Lexes F i [.ident i] rest :=
  cLex_name hi fun c hc => (hrest c hc).1

/-- A piece of text between brackets. -/
theorem lexes_round {F : Doubles D} {text rest : List Char} {ts : List (Token D)}
    (h : Lexes F text ts (')' :: rest)) : Lexes F ('(' :: text ++ [')']) (.lp :: ts ++ [.rp]) rest :=
  ((lexes_punctuator F (c := '(') rfl rfl rfl).append h).append
    (lexes_punctuator F (c := ')') rfl rfl rfl)

theorem lexes_square {F : Doubles D} {text rest : List Char} {ts : List (Token D)}
    (h : Lexes F text ts (']' :: rest)) : Lexes F ('[' :: text ++ [']']) (.lb :: ts ++ [.rb]) rest :=
  ((lexes_punctuator F (c := '[') rfl rfl rfl).append h).append
    (lexes_punctuator F (c := ']') rfl rfl rfl)

mutual

/-- The tokens of a printed expression. -/
theorem lexes_sprint (F : Doubles D) : ∀ (e : Expression D) (rest : List Char), Named e →
    Ends rest → Lexes F (sprint F e) (tokens F e) rest
  | .ident _, _, he, hrest => lexes_name F he hrest
  | .int n, _, _, hrest => cLex_int F n hrest
  | .float x, _, _, hrest => by
      rw [sprint, sprintFloat, tokens, floatToken]
      cases F.millionths x with
      | some m => exact cLex_float F m hrest
      | none => exact lexes_name F (show IsCName ['i', 'n', 'f'] by decide) hrest
  | .call i es, rest, he, _ => by
      have hargs := lexes_round (lexes_sprintArgs F es _ he.2 (ends_cons rest rfl (by decide)))
      have hname := lexes_name F he.1
        (ends_cons (c := '(') (sprintArgs F es ++ [')'] ++ rest) rfl (by decide))
      have hall := hname.append hargs
      rw [sprint, List.append_assoc]
      exact hall
  | .index i e, rest, he, _ => by
      have hindex := lexes_square (lexes_sprint F e _ he.2 (ends_cons rest rfl (by decide)))
      have hname := lexes_name F he.1
        (ends_cons (c := '[') (sprint F e ++ [']'] ++ rest) rfl (by decide))
      have hall := hname.append hindex
      rw [sprint, List.append_assoc]
      exact hall
  | .field i f, rest, he, hrest => by
      have hname : Lexes F i [.ident i] ('.' :: (f ++ rest)) := by
        apply cLex_name he.1
        rintro c hc
        cases hc
        rfl
      have hdot : Lexes F ['.'] [.dot] (f ++ rest) := ends_dot_eq he.2 F
      have hall := hname.append (hdot.append (lexes_name F he.2 hrest))
      exact hall
  | .unary o e, rest, he, _ => by
      have hbody := lexes_round (lexes_sprint F e _ he (ends_cons rest rfl (by decide)))
      have hsign := lexes_unary F o (sprint F e ++ [')'] ++ rest)
      have hall := hsign.append hbody
      rw [sprint, List.append_assoc]
      exact hall
  | .binary o e₁ e₂, rest, he, _ => by
      have hright := lexes_join (o := o) he.2.2
        (lexes_sprint F e₂ _ he.2.2 (ends_cons (c := ')') rest rfl (by decide)))
      have hends : Ends (o.text ++ sprint F e₂ ++ ')' :: rest) := by
        rw [List.append_assoc]
        exact ends_text o _
      have hall := lexes_round (Lexes.append (lexes_sprint F e₁ _ he.2.1 hends) hright)
      rw [sprint, tokens, List.append_assoc ('(' :: sprint F e₁)]
      exact hall
  | .deref e f, rest, he, hrest => by
      have hbody := lexes_round (lexes_sprint F e _ he.1
        (ends_cons ('-' :: '>' :: (f ++ rest)) rfl (by decide)))
      have hall := hbody.append ((lexes_arrow F (f ++ rest)).append (lexes_name F he.2 hrest))
      rw [sprint, tokens]
      simpa using hall

theorem lexes_sprintArgs (F : Doubles D) : ∀ (es : Expressions D) (rest : List Char),
    NamedArgs es → Ends rest → Lexes F (sprintArgs F es) (tokensArgs F es) rest
  | .none, rest, _, _ => by
      simp [Lexes, sprintArgs, tokensArgs]
  | .snoc .none e, rest, hes, hrest => lexes_sprint F e rest hes.2 hrest
  | .snoc (.snoc es e) e', rest, hes, hrest => by
      have hlast := lexes_sprint F e' rest hes.2 hrest
      have hcomma : Lexes F [','] [.comma] (sprint F e' ++ rest) := lexes_punctuator F rfl rfl rfl
      have hfirst := lexes_sprintArgs F (.snoc es e) (',' :: (sprint F e' ++ rest)) hes.1
        (ends_cons _ rfl (by decide))
      exact Lexes.append (Lexes.append hfirst hcomma) hlast

end

/-! ### Its chain -/

def signsOf : Expression D → List UnaryOperator
  | .unary o _ => [o]
  | _ => []

def fieldsOf : Expression D → List Ident
  | .deref _ f => [f]
  | _ => []

mutual

def primaryOf (F : Doubles D) : Expression D → Primary D
  | .ident i => .ident (cIdent i)
  | .int n => .int n
  | .float x =>
      match F.millionths x with
      | some m => .float (F.ofDigits m 6)
      | none => .ident ['i', 'n', 'f']
  | .call i es => .call i (argsOf F es)
  | .unary _ e => .paren (.first (signsOf e) (primaryOf F e) (fieldsOf e))
  | .binary o e₁ e₂ =>
      .paren (.more (.first (signsOf e₁) (primaryOf F e₁) (fieldsOf e₁)) o
        (signsOf e₂) (primaryOf F e₂) (fieldsOf e₂))
  | .index i e => .index i (.first (signsOf e) (primaryOf F e) (fieldsOf e))
  | .field i f => .field i f
  | .deref e _ => .paren (.first (signsOf e) (primaryOf F e) (fieldsOf e))

def argsOf (F : Doubles D) : Expressions D → Args D
  | .none => .none
  | .snoc es e => .snoc (argsOf F es) (.first (signsOf e) (primaryOf F e) (fieldsOf e))

end

/-- The parser behind the arguments that have been read. -/
def behindArgs (F : Doubles D) (i : Ident) (l : Level D) (frames : List (Frame D)) :
    Expressions D → State D
  | .none => ⟨.start, .operand, .call i .none l :: frames⟩
  | .snoc es e =>
      ⟨⟨none, signsOf e⟩, .after (primaryOf F e) (fieldsOf e), .call i (argsOf F es) l :: frames⟩

theorem step_behindArgs (F : Doubles D) (i : Ident) (l : Level D) (frames : List (Frame D))
    (es : Expressions D) :
    step (behindArgs F i l frames es) .rp =
      some ⟨l, .after (.call i (argsOf F es)) [], frames⟩ := by
  cases es <;> rfl

mutual

/-- The parser reads a printed expression as one operand. -/
theorem run_tokens (F : Doubles D) : ∀ (e : Expression D) (l : Level D)
    (frames : List (Frame D)), Spaced e →
    run ⟨l, .operand, frames⟩ (tokens F e) =
      some ⟨{ l with signs := l.signs ++ signsOf e }, .after (primaryOf F e) (fieldsOf e), frames⟩
  | .ident _, l, _, _ => by simp [tokens, run, step, stepOperand, signsOf, primaryOf, fieldsOf]
  | .int _, l, _, _ => by simp [tokens, run, step, stepOperand, signsOf, primaryOf, fieldsOf]
  | .float x, l, _, _ => by
      rw [tokens, floatToken, primaryOf]
      cases F.millionths x <;> simp [run, step, stepOperand, signsOf, fieldsOf]
  | .field _ _, l, _, _ => by
      simp [tokens, run, step, stepOperand, stepAfter, signsOf, primaryOf, fieldsOf]
  | .call i es, l, frames, he => by
      have hargs := run_tokensArgs F i l frames es he.2
      change run ⟨.start, .operand, .call i .none l :: frames⟩ (tokensArgs F es ++ [.rp]) = _
      rw [run_append, hargs]
      simp [run, step_behindArgs, signsOf, primaryOf, fieldsOf]
  | .index i e, l, frames, he => by
      have hbody := run_tokens F e .start (.index i l :: frames) he.2
      change run ⟨.start, .operand, .index i l :: frames⟩ (tokens F e ++ [.rb]) = _
      rw [run_append, hbody]
      simp [run, step, stepAfter, signsOf, primaryOf, fieldsOf, Level.start, Level.close]
  | .unary o e, l, frames, he => by
      have hbody := run_tokens F e .start (.paren { l with signs := l.signs ++ [o] } :: frames) he
      have hsign : run ⟨l, .operand, frames⟩ (tokens F (.unary o e)) =
          run ⟨.start, .operand, .paren { l with signs := l.signs ++ [o] } :: frames⟩
            (tokens F e ++ [.rp]) := by
        cases o <;> rfl
      rw [hsign, run_append, hbody]
      simp [run, step, stepAfter, signsOf, primaryOf, fieldsOf, Level.start, Level.close]
  | .binary o e₁ e₂, l, frames, he => by
      have hleft := run_tokens F e₁ .start (.paren l :: frames) he.2.1
      have hright := run_tokens F e₂
        ⟨some (.first (signsOf e₁) (primaryOf F e₁) (fieldsOf e₁), o), []⟩ (.paren l :: frames) he.2.2
      change run ⟨.start, .operand, .paren l :: frames⟩
        (tokens F e₁ ++ join o (tokens F e₂) ++ [.rp]) = _
      rw [run_append, run_append, hleft, join_eq F he.1]
      change ((run ⟨⟨some (.first (signsOf e₁) (primaryOf F e₁) (fieldsOf e₁), o), []⟩, .operand,
        .paren l :: frames⟩ (tokens F e₂)).bind fun s => run s [.rp]) = _
      rw [hright]
      simp [run, step, stepAfter, signsOf, primaryOf, fieldsOf, Level.close]
  | .deref e f, l, frames, he => by
      have hbody := run_tokens F e .start (.paren l :: frames) he.1
      change run ⟨.start, .operand, .paren l :: frames⟩
        (tokens F e ++ [.rp, .deref, .ident f]) = _
      rw [run_append, hbody]
      simp [run, step, stepAfter, signsOf, primaryOf, fieldsOf, Level.start, Level.close]

theorem run_tokensArgs (F : Doubles D) (i : Ident) (l : Level D) (frames : List (Frame D)) :
    ∀ es : Expressions D, SpacedArgs es →
    run ⟨.start, .operand, .call i .none l :: frames⟩ (tokensArgs F es) =
      some (behindArgs F i l frames es)
  | .none, _ => rfl
  | .snoc .none e, hes => run_tokens F e .start (.call i .none l :: frames) hes.2
  | .snoc (.snoc es e) e', hes => by
      have hfirst := run_tokensArgs F i l frames (.snoc es e) hes.1
      have hlast := run_tokens F e' .start (.call i (argsOf F (.snoc es e)) l :: frames) hes.2
      rw [tokensArgs, run_append, run_append, hfirst]
      exact hlast

end

mutual

/-- Whatever the levels, the expression read back is the printed one, with the C names of
its identifiers and the constants that were printed. -/
theorem operand_primaryOf (F : Doubles D) (level : BinaryOperator → Nat) :
    ∀ e : Expression D, operand (signsOf e) ((primaryOf F e).ast level) (fieldsOf e) =
      e.map (fun i => .ident (cIdent i)) (reprint F)
  | .ident _ => rfl
  | .int _ => rfl
  | .field _ _ => rfl
  | .float x => by
      rw [primaryOf, Expression.map, reprint]
      cases F.millionths x <;> rfl
  | .call i es => by
      rw [primaryOf, Primary.ast, ast_argsOf F level es]
      rfl
  | .index i e => by
      rw [primaryOf, Primary.ast, Chain.tree, operand_primaryOf F level e]
      rfl
  | .unary o e => by
      rw [primaryOf, Primary.ast, Chain.tree, operand_primaryOf F level e]
      rfl
  | .deref e f => by
      rw [primaryOf, Primary.ast, Chain.tree, operand_primaryOf F level e]
      rfl
  | .binary o e₁ e₂ => by
      rw [primaryOf, Primary.ast, Chain.tree, Chain.tree, operand_primaryOf F level e₁,
        operand_primaryOf F level e₂]
      rfl

theorem ast_argsOf (F : Doubles D) (level : BinaryOperator → Nat) :
    ∀ es : Expressions D, (argsOf F es).ast level =
      es.map (fun i => .ident (cIdent i)) (reprint F)
  | .none => rfl
  | .snoc es e => by
      rw [argsOf, Args.ast, Chain.tree, operand_primaryOf F level e, ast_argsOf F level es]
      rfl

end

theorem cLex_sprint (F : Doubles D) {e : Expression D} (he : Named e) :
    cLex F (sprint F e) = some (tokens F e) := by
  have h := lexes_sprint F e [] he nofun
  rw [Lexes, List.append_nil, cLex] at h
  simpa using h

/-- The printed text is read back if it has no decrement. -/
theorem cRead_sprint (F : Doubles D) {e : Expression D} (he : Named e) (hspaced : Spaced e) :
    cRead F (sprint F e) = some (e.map (fun i => .ident (cIdent i)) (reprint F)) := by
  have hrun := run_tokens F e .start [] hspaced
  rw [cRead, cLex_sprint F he, Option.bind_some, parse, hrun, ← operand_primaryOf F cLevel e]
  rfl

mutual

/-- A negation behind a `-` makes a decrement. -/
theorem spaced_or_decr (F : Doubles D) : ∀ e : Expression D,
    Spaced e ∨ .decr ∈ tokens F e
  | .ident _ => Or.inl trivial
  | .int _ => Or.inl trivial
  | .float _ => Or.inl trivial
  | .field _ _ => Or.inl ⟨trivial, trivial⟩
  | .call i es => by
      rcases spacedArgs_or_decr F es with h | h
      · exact Or.inl ⟨trivial, h⟩
      · exact Or.inr (by simp [tokens, h])
  | .index i e => by
      rcases spaced_or_decr F e with h | h
      · exact Or.inl ⟨trivial, h⟩
      · exact Or.inr (by simp [tokens, h])
  | .unary o e => by
      rcases spaced_or_decr F e with h | h
      · exact Or.inl h
      · exact Or.inr (by simp [tokens, h])
  | .deref e f => by
      rcases spaced_or_decr F e with h | h
      · exact Or.inl ⟨h, trivial⟩
      · exact Or.inr (by simp [tokens, h])
  | .binary o e₁ e₂ => by
      by_cases hneg : o = .minus ∧ ∃ e', e₂ = .unary .minus e'
      · obtain ⟨rfl, e', rfl⟩ := hneg
        exact Or.inr (by simp [tokens, unaryToken, join])
      · have hapart : o = .minus → ∀ e', e₂ ≠ .unary .minus e' :=
          fun ho e' he' => hneg ⟨ho, e', he'⟩
        rw [tokens, join_eq F hapart]
        rcases spaced_or_decr F e₁ with h₁ | h₁
        · rcases spaced_or_decr F e₂ with h₂ | h₂
          · exact Or.inl ⟨hapart, h₁, h₂⟩
          · exact Or.inr (by simp [h₂])
        · exact Or.inr (by simp [h₁])

theorem spacedArgs_or_decr (F : Doubles D) : ∀ es : Expressions D,
    SpacedArgs es ∨ .decr ∈ tokensArgs F es
  | .none => Or.inl trivial
  | .snoc es e => by
      rcases spacedArgs_or_decr F es with hes | hes
      · rcases spaced_or_decr F e with he | he
        · exact Or.inl ⟨hes, he⟩
        · exact Or.inr (by simp [tokensArgs, he])
      · exact Or.inr (by simp [tokensArgs, hes])

end

/-- A text with a decrement is none of these expressions. -/
theorem spaced_of_cRead {F : Doubles D} {e r : Expression D} (he : Named e)
    (h : cRead F (sprint F e) = some r) : Spaced e := by
  rcases spaced_or_decr F e with hspaced | hdecr
  · exact hspaced
  · rw [cRead, cLex_sprint F he, Option.bind_some, parse, run_decr hdecr] at h
    cases h

/-- The names of an expression that is read are identifiers of C. -/
theorem names_of_cRead {F : Doubles D} {text : List Char} {e : Expression D}
    (h : cRead F text = some e) : Expression.Names IsCName IsCName e := by
  obtain ⟨c, hc, rfl⟩ := Option.map_eq_some_iff.mp h
  obtain ⟨ts, hts, hparse⟩ := Option.bind_eq_some_iff.mp hc
  exact (names_chain cLevel IsCName IsCName c).mpr (all_parse (isCName_of_cLex hts) hparse)

end Paparazzi.FlightPlan.PrintedText
