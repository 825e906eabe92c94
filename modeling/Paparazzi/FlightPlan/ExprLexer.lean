import Paparazzi.FlightPlan.ExprParser

/-!
The tokens of a text, by the rules of `expr_lexer.mll`: the longest match, and the
first rule among matches of one length.
-/

namespace Paparazzi.FlightPlan.ExprLexer

open Paparazzi.FlightPlan.ExprSyntax
open Paparazzi.FlightPlan.ExprParser

variable {D : Type}

def isLetter (c : Char) : Bool := c.isAlpha || c == '_'

def isLetterOrDigit (c : Char) : Bool := c.isAlphanum || c == '_'

/-- The apostrophe. -/
def quote : Char := Char.ofNat 39

/-- The text behind the longest match of a comment whose `/*` has been read. The flags say
which places of the regular expression are reached: in front of `[^'*']|'*'[^'/']`, between
the two characters of its second part, and behind a star of the last `'*'*`. -/
def commentRest (body star stars : Bool) : List Char → Option (List Char)
  | [] => none
  | c :: cs =>
      match commentRest ((body && c != '*') || (star && c != '/')) (body && c == '*')
        ((body || stars) && c == '*') cs with
      | some rest => some rest
      | none => if (body || stars) && c == '/' then some cs else none

/-- `INT` and `FLOAT`. An integer above `max_int` makes `int_of_string` fail. -/
def number (F : Doubles D) (text : List Char) : Option (Token D × List Char) :=
  let whole := text.takeWhile Char.isDigit
  match text.dropWhile Char.isDigit with
  | '.' :: cs =>
      let decimals := cs.takeWhile Char.isDigit
      some (.float (F.ofDigits (Nat.ofDigitChars 10 (whole ++ decimals) 0) decimals.length),
        cs.dropWhile Char.isDigit)
  | rest =>
      let n := Nat.ofDigitChars 10 whole 0
      if n < 2 ^ 62 then some (.int n, rest) else none

/-- The rules of a single character or two. -/
def punctuation (c : Char) (cs : List Char) : Option (Token D × List Char) :=
  let next := cs.head?
  match c with
  | ',' => some (.comma, cs)
  | '.' => some (.dot, cs)
  | ';' => some (.semicolon, cs)
  | ':' => some (.colon, cs)
  | '(' => some (.lp, cs)
  | ')' => some (.rp, cs)
  | '{' => some (.lc, cs)
  | '}' => some (.rc, cs)
  | '[' => some (.lb, cs)
  | ']' => some (.rb, cs)
  | '-' => if next = some '>' then some (.deref, cs.tail) else some (.binary .minus, cs)
  | '=' => if next = some '=' then some (.binary .eq, cs.tail) else some (.assign, cs)
  | '&' => if next = some '&' then some (.binary .and, cs.tail) else none
  | '|' => if next = some '|' then some (.binary .or, cs.tail) else none
  | '>' => if next = some '=' then some (.binary .geq, cs.tail) else some (.binary .gt, cs)
  | '%' => some (.binary .mod, cs)
  | '+' => some (.binary .plus, cs)
  | '*' => some (.binary .mult, cs)
  | '/' => some (.binary .div, cs)
  | '!' => some (.not, cs)
  | _ => none

/-- The names: with a `$` in front, or any text between apostrophes. -/
def name (c : Char) (cs : List Char) : Option (Token D × List Char) :=
  if isLetter c then some (.ident (c :: cs.takeWhile isLetterOrDigit), cs.dropWhile isLetterOrDigit)
  else if c = '$' then
    if (cs.head?.map isLetter).getD false then
      some (.ident ('$' :: cs.takeWhile isLetterOrDigit), cs.dropWhile isLetterOrDigit)
    else none
  else if c = quote then
    if cs.takeWhile (· != quote) ≠ [] ∧ cs.dropWhile (· != quote) ≠ [] then
      some (.ident (cs.takeWhile (· != quote)), (cs.dropWhile (· != quote)).tail)
    else none
  else none

/-- The text behind a comment that begins with the `/` that has been read. -/
def comment (cs : List Char) : Option (List Char) :=
  match cs with
  | '*' :: cs => commentRest true false false cs
  | _ => none

/-- The first rule of `token` for a text, with the token, unless it is skipped. -/
def token (F : Doubles D) (c : Char) (cs : List Char) : Option (Option (Token D) × List Char) :=
  if c = ' ' ∨ c = '\t' ∨ c = '\n' then some (none, cs)
  else if c.isDigit then (number F (c :: cs)).map fun r => (some r.1, r.2)
  else if isLetter c ∨ c = '$' ∨ c = quote then (name c cs).map fun r => (some r.1, r.2)
  else
    match if c = '/' then comment cs else none with
    | some rest => some (none, rest)
    | none => (punctuation c cs).map fun r => (some r.1, r.2)

theorem length_commentRest_le {body star stars : Bool} {cs rest : List Char}
    (h : commentRest body star stars cs = some rest) : rest.length ≤ cs.length := by
  induction cs generalizing body star stars with
  | nil => cases h
  | cons c cs ih =>
      rw [commentRest] at h
      split at h
      · cases h
        exact Nat.le_succ_of_le (ih ‹_›)
      · split_ifs at h
        cases h
        exact Nat.le_succ _

theorem length_number_le {F : Doubles D} {c : Char} {cs rest : List Char} {t : Token D}
    (hc : c.isDigit = true) (h : number F (c :: cs) = some (t, rest)) :
    rest.length ≤ cs.length := by
  have hdrop : ((c :: cs).dropWhile Char.isDigit).length ≤ cs.length := by
    rw [List.dropWhile_cons_of_pos hc]
    exact (List.dropWhile_suffix _).length_le
  unfold number at h
  dsimp only at h
  split at h
  · rename_i ds heq
    rw [heq] at hdrop
    cases h
    have := (List.dropWhile_suffix (l := ds) Char.isDigit).length_le
    simp only [List.length_cons] at hdrop
    omega
  · split_ifs at h
    cases h
    exact hdrop

theorem length_name_le {c : Char} {cs rest : List Char} {t : Token D}
    (h : name c cs = some (t, rest)) : rest.length ≤ cs.length := by
  have hid := (List.dropWhile_suffix (l := cs) isLetterOrDigit).length_le
  have hquote := (List.dropWhile_suffix (l := cs) (· != quote)).length_le
  unfold name at h
  split_ifs at h <;> cases h
  · exact hid
  · exact hid
  · rw [List.length_tail]
    omega

theorem length_punctuation_le {c : Char} {cs rest : List Char} {t : Token D}
    (h : punctuation c cs = some (t, rest)) : rest.length ≤ cs.length := by
  have htail : cs.tail.length ≤ cs.length := by simp
  unfold punctuation at h
  dsimp only at h
  split at h <;> try split_ifs at h
  all_goals cases h
  all_goals first
    | exact le_rfl
    | exact htail

theorem length_token_le {F : Doubles D} {c : Char} {cs rest : List Char} {t : Option (Token D)}
    (h : token F c cs = some (t, rest)) : rest.length ≤ cs.length := by
  unfold token at h
  split_ifs at h with _ hdigit _ hslash
  · cases h
    exact le_rfl
  · obtain ⟨r, hr, heq⟩ := Option.map_eq_some_iff.mp h
    cases heq
    exact length_number_le hdigit hr
  · obtain ⟨r, hr, heq⟩ := Option.map_eq_some_iff.mp h
    cases heq
    exact length_name_le hr
  · split at h
    · rename_i hcomment
      cases h
      unfold comment at hcomment
      split at hcomment
      · exact Nat.le_succ_of_le (length_commentRest_le hcomment)
      · cases hcomment
    · obtain ⟨r, hr, heq⟩ := Option.map_eq_some_iff.mp h
      cases heq
      exact length_punctuation_le hr
  · obtain ⟨r, hr, heq⟩ := Option.map_eq_some_iff.mp h
    cases heq
    exact length_punctuation_le hr

/-- The tokens up to the end of the text, unless no rule matches somewhere. -/
def exprLex (F : Doubles D) : List Char → Option (List (Token D))
  | [] => some []
  | c :: cs =>
      match _h : token F c cs with
      | some (some t, rest) => (exprLex F rest).map (t :: ·)
      | some (none, rest) => exprLex F rest
      | none => none
termination_by text => text.length
decreasing_by
  · exact Nat.lt_succ_of_le (length_token_le ‹_›)
  · exact Nat.lt_succ_of_le (length_token_le ‹_›)

theorem exprLex_token {F : Doubles D} {c : Char} {cs rest : List Char} {t : Token D}
    {ts : List (Token D)} (h : token F c cs = some (some t, rest))
    (hrest : exprLex F rest = some ts) : exprLex F (c :: cs) = some (t :: ts) := by
  rw [exprLex]
  split <;> simp_all

theorem exprLex_skip {F : Doubles D} {c : Char} {cs rest : List Char} {ts : List (Token D)}
    (h : token F c cs = some (none, rest)) (hrest : exprLex F rest = some ts) :
    exprLex F (c :: cs) = some ts := by
  rw [exprLex]
  split <;> simp_all

theorem exprLex_nil (F : Doubles D) : exprLex F [] = some [] := by
  rw [exprLex]

def parseExpression (F : Doubles D) (text : List Char) : Option (Chain D) :=
  (exprLex F text).bind parse

end Paparazzi.FlightPlan.ExprLexer
