import Mathlib
import Paparazzi.FlightPlan.ExprParser

/-!
The tokens of a C text, and those of what `sprint` prints: the tokens of its pieces,
but for a `-` in front of a negation, with which it makes a decrement.
-/

namespace Paparazzi.FlightPlan.CText

open Paparazzi.FlightPlan.ExprSyntax
open Paparazzi.FlightPlan.ExprParser

variable {D : Type}

def isIdStart (c : Char) : Bool := c.isAlpha || c == '_'

def isIdChar (c : Char) : Bool := c.isAlphanum || c == '_'

/-- An identifier of C; the keywords are not told apart. -/
def IsCName : Ident → Prop
  | [] => False
  | c :: cs => isIdStart c = true ∧ ∀ d ∈ cs, isIdChar d = true

instance : (i : Ident) → Decidable (IsCName i)
  | [] => isFalse id
  | c :: cs =>
      @instDecidableAnd (isIdStart c = true) (∀ d ∈ cs, isIdChar d = true) inferInstance
        (List.decidableBAll (fun d => isIdChar d = true) cs)

def isWhite (c : Char) : Bool := c == ' ' || c == '\t' || c == '\n'

/-- The rest of a preprocessing number behind the character `last`, and the text behind it. -/
def ppNumber (last : Char) : List Char → List Char × List Char
  | [] => ([], [])
  | c :: cs =>
      if isIdChar c || c == '.' || ((c == '+' || c == '-') && ['e', 'E', 'p', 'P'].contains last)
      then (c :: (ppNumber c cs).1, (ppNumber c cs).2)
      else ([], c :: cs)

/-- The decimal constants; the octal, hexadecimal, suffixed and exponent forms, which are
never printed, are not read. -/
def constant (F : Doubles D) (text : List Char) : Option (Token D) :=
  let whole := text.takeWhile Char.isDigit
  match text.dropWhile Char.isDigit with
  | [] =>
      if whole.head? = some '0' ∧ whole.length ≠ 1 then none
      else some (.int (Nat.ofDigitChars 10 whole 0))
  | c :: decimals =>
      if c = '.' ∧ decimals.all Char.isDigit = true then
        some (.float (F.ofDigits (Nat.ofDigitChars 10 (whole ++ decimals) 0) decimals.length))
      else none

def nextIs (cs : List Char) (d : Char) : Bool := cs.head? == some d

/-- The longest punctuator; those that are not tokens of these expressions, and the
comments, are not read. -/
def punctuator (c : Char) (cs : List Char) : Option (Token D × List Char) :=
  match c with
  | '(' => some (.lp, cs)
  | ')' => some (.rp, cs)
  | '[' => some (.lb, cs)
  | ']' => some (.rb, cs)
  | '{' => some (.lc, cs)
  | '}' => some (.rc, cs)
  | ',' => some (.comma, cs)
  | ';' => some (.semicolon, cs)
  | ':' => some (.colon, cs)
  | '.' => if (cs.head?.map Char.isDigit).getD false then none else some (.dot, cs)
  | '-' =>
      if nextIs cs '>' then some (.deref, cs.tail)
      else if nextIs cs '-' then some (.decr, cs.tail)
      else if nextIs cs '=' then none
      else some (.binary .minus, cs)
  | '+' => if nextIs cs '+' || nextIs cs '=' then none else some (.binary .plus, cs)
  | '*' => if nextIs cs '=' then none else some (.binary .mult, cs)
  | '/' => if nextIs cs '=' || nextIs cs '/' || nextIs cs '*' then none else some (.binary .div, cs)
  | '%' => if nextIs cs '=' || nextIs cs ':' || nextIs cs '>' then none else some (.binary .mod, cs)
  | '!' => if nextIs cs '=' then none else some (.not, cs)
  | '=' => if nextIs cs '=' then some (.binary .eq, cs.tail) else some (.assign, cs)
  | '>' =>
      if nextIs cs '=' then some (.binary .geq, cs.tail)
      else if nextIs cs '>' then none
      else some (.binary .gt, cs)
  | '&' => if nextIs cs '&' then some (.binary .and, cs.tail) else none
  | '|' => if nextIs cs '|' then some (.binary .or, cs.tail) else none
  | _ => none

/-- The first token of a text and the text behind it. -/
def cToken (F : Doubles D) (c : Char) (cs : List Char) : Option (Token D × List Char) :=
  if isIdStart c then some (.ident (c :: cs.takeWhile isIdChar), cs.dropWhile isIdChar)
  else if c.isDigit then
    (constant F (c :: (ppNumber c cs).1)).map fun t => (t, (ppNumber c cs).2)
  else punctuator c cs

theorem length_ppNumber_le (last : Char) (cs : List Char) :
    (ppNumber last cs).2.length ≤ cs.length := by
  induction cs generalizing last with
  | nil => rfl
  | cons c cs ih =>
      rw [ppNumber]
      split_ifs
      · exact Nat.le_succ_of_le (ih c)
      · rfl

theorem length_punctuator_le {c : Char} {cs rest : List Char} {t : Token D}
    (h : punctuator c cs = some (t, rest)) : rest.length ≤ cs.length := by
  have htail : cs.tail.length ≤ cs.length := by simp
  unfold punctuator at h
  split at h <;> try split_ifs at h
  all_goals cases h
  all_goals first
    | exact le_rfl
    | exact htail

theorem length_cToken_le {F : Doubles D} {c : Char} {cs rest : List Char} {t : Token D}
    (h : cToken F c cs = some (t, rest)) : rest.length ≤ cs.length := by
  unfold cToken at h
  split_ifs at h
  · cases h
    exact (List.dropWhile_suffix _).length_le
  · obtain ⟨t', -, ht'⟩ := Option.map_eq_some_iff.mp h
    cases ht'
    exact length_ppNumber_le c cs
  · exact length_punctuator_le h

/-- The tokens of a C text. -/
def cLex (F : Doubles D) : List Char → Option (List (Token D))
  | [] => some []
  | c :: cs =>
      if isWhite c then cLex F cs
      else
        match _h : cToken F c cs with
        | some (t, rest) => (cLex F rest).map (t :: ·)
        | none => none
termination_by text => text.length
decreasing_by
  · exact Nat.lt_succ_self _
  · exact Nat.lt_succ_of_le (length_cToken_le ‹_›)

theorem cLex_cons {F : Doubles D} {c : Char} {cs rest : List Char} {t : Token D}
    (hwhite : isWhite c = false) (h : cToken F c cs = some (t, rest)) :
    cLex F (c :: cs) = (cLex F rest).map (t :: ·) := by
  rw [cLex, if_neg (by simp [hwhite])]
  split <;> simp_all

/-! ### Names -/

theorem isCName_of_cToken {F : Doubles D} {c : Char} {cs rest : List Char} {i : Ident}
    (h : cToken F c cs = some (.ident i, rest)) : IsCName i := by
  unfold cToken at h
  split_ifs at h with hstart
  · cases h
    refine ⟨hstart, ?_⟩
    intro d hd
    exact List.mem_takeWhile_imp hd
  · obtain ⟨t', ht', heq⟩ := Option.map_eq_some_iff.mp h
    obtain ⟨rfl, -⟩ := Prod.mk.inj heq
    unfold constant at ht'
    dsimp only at ht'
    split at ht' <;> split_ifs at ht' <;> cases ht'
  · unfold punctuator at h
    split at h <;> try split_ifs at h
    all_goals cases h

/-- Every name among the tokens of a C text is an identifier of C. -/
theorem isCName_of_cLex {F : Doubles D} {s : List Char} {ts : List (Token D)}
    (h : cLex F s = some ts) : ∀ i, .ident i ∈ ts → IsCName i := by
  induction hn : s.length using Nat.strongRecOn generalizing s ts with
  | ind n ih =>
      rintro i hi
      cases s with
      | nil =>
          rw [cLex] at h
          cases h
          cases hi
      | cons c cs =>
          rw [cLex] at h
          split_ifs at h
          · exact ih cs.length (by rw [← hn]; exact Nat.lt_succ_self _) h rfl i hi
          · split at h
            · rename_i t rest htoken
              obtain ⟨us, hus, rfl⟩ := Option.map_eq_some_iff.mp h
              have hlt : rest.length < n := by
                rw [← hn]
                exact Nat.lt_succ_of_le (length_cToken_le htoken)
              rcases List.mem_cons.mp hi with rfl | hi
              · exact isCName_of_cToken htoken
              · exact ih rest.length hlt hus rfl i hi
            · cases h

/-! ### The pieces of a printed text -/

/-- No identifier or number goes on with the text. -/
def Ends (rest : List Char) : Prop :=
  ∀ c, rest.head? = some c → isIdChar c = false ∧ c ≠ '.'

/-- No operator but `-` goes on with the text. -/
def Starts (rest : List Char) : Prop :=
  ∀ d ∈ ['>', '=', '+', '/', '*', ':'], nextIs rest d = false

theorem isWhite_of_isIdChar {c : Char} (h : isIdChar c = true) : isWhite c = false := by
  cases hwhite : isWhite c with
  | false => rfl
  | true =>
      simp only [isWhite, Bool.or_eq_true, beq_iff_eq] at hwhite
      rcases hwhite with (rfl | rfl) | rfl <;> cases h

theorem isIdChar_of_isIdStart {c : Char} (h : isIdStart c = true) : isIdChar c = true := by
  simp only [isIdStart, isIdChar, Char.isAlphanum, Bool.or_eq_true] at *
  tauto

theorem isIdChar_of_isDigit {c : Char} (h : c.isDigit = true) : isIdChar c = true := by
  simp [isIdChar, Char.isAlphanum, h]

theorem cLex_name {F : Doubles D} {i : Ident} {rest : List Char} (hi : IsCName i)
    (hrest : ∀ c, rest.head? = some c → isIdChar c = false) :
    cLex F (i ++ rest) = (cLex F rest).map (.ident i :: ·) := by
  cases i with
  | nil => exact hi.elim
  | cons c cs =>
      obtain ⟨hstart, hcs⟩ := hi
      have htake : rest.takeWhile isIdChar = [] := by
        cases rest with
        | nil => rfl
        | cons d ds => simp [hrest d rfl]
      have hdrop : rest.dropWhile isIdChar = rest := by
        cases rest with
        | nil => rfl
        | cons d ds => simp [hrest d rfl]
      rw [List.cons_append]
      apply cLex_cons (isWhite_of_isIdChar (isIdChar_of_isIdStart hstart))
      rw [cToken, if_pos hstart, List.takeWhile_append_of_pos hcs, htake, List.append_nil,
        List.dropWhile_append_of_pos hcs, hdrop]

theorem ppNumber_append {last : Char} {ds rest : List Char}
    (hlast : last.isDigit = true ∨ last = '.') (hds : ∀ d ∈ ds, d.isDigit = true ∨ d = '.')
    (hrest : Ends rest) : ppNumber last (ds ++ rest) = (ds, rest) := by
  induction ds generalizing last with
  | nil =>
      have hexp : ['e', 'E', 'p', 'P'].contains last = false := by
        cases h : ['e', 'E', 'p', 'P'].contains last with
        | false => rfl
        | true =>
            simp only [List.contains_eq_mem, decide_eq_true_eq] at h
            fin_cases h <;> simp at hlast
      cases rest with
      | nil => rfl
      | cons c cs =>
          obtain ⟨hc, hdot⟩ := hrest c rfl
          rw [List.nil_append, ppNumber, if_neg]
          rw [hexp]
          simp [hc, hdot]
  | cons d ds ih =>
      have hd := hds d (by simp)
      have hcond : (isIdChar d || d == '.') = true := by
        rcases hd with hd | rfl
        · simp [isIdChar_of_isDigit hd]
        · rfl
      rw [List.cons_append, ppNumber, if_pos (by simp [hcond])]
      rw [ih hd fun e he => hds e (by simp [he])]

theorem isIdStart_of_isDigit {c : Char} (h : c.isDigit = true) : isIdStart c = false := by
  cases hstart : isIdStart c with
  | false => rfl
  | true =>
      simp only [isIdStart, Char.isAlpha, Char.isUpper, Char.isLower, Char.isDigit,
        Bool.or_eq_true, Bool.and_eq_true, decide_eq_true_eq, beq_iff_eq, ge_iff_le,
        UInt32.le_iff_toNat_le] at hstart h
      rcases hstart with hletter | rfl
      · simp at hletter h
        omega
      · simp at h

/-- A constant is read up to what follows it. -/
theorem cLex_number {F : Doubles D} {c : Char} {ds rest : List Char} {t : Token D}
    (hc : c.isDigit = true) (hds : ∀ d ∈ ds, d.isDigit = true ∨ d = '.') (hrest : Ends rest)
    (ht : constant F (c :: ds) = some t) :
    cLex F (c :: ds ++ rest) = (cLex F rest).map (t :: ·) := by
  rw [List.cons_append]
  apply cLex_cons (isWhite_of_isIdChar (isIdChar_of_isDigit hc))
  rw [cToken, if_neg (by simp [isIdStart_of_isDigit hc]), if_pos hc,
    ppNumber_append (Or.inl hc) hds hrest, ht]
  rfl

/-- No decimal representation but that of zero begins with a zero. -/
theorem length_toDigits_of_zero (n : Nat) (h : (Nat.toDigits 10 n).head? = some '0') :
    (Nat.toDigits 10 n).length = 1 := by
  induction n using Nat.strongRecOn with
  | ind n ih =>
      rcases Nat.lt_or_ge n 10 with hn | hn
      · rw [Nat.toDigits_of_lt_base hn]
        rfl
      · rw [Nat.toDigits_of_base_le (by decide) hn,
          List.head?_append_of_ne_nil _ Nat.toDigits_ne_nil] at h
        have hone := ih (n / 10) (Nat.div_lt_self (by omega) (by decide)) h
        have hlt := (Nat.length_toDigits_le_iff (by decide) (by decide)).mp (Nat.le_of_eq hone)
        rw [Nat.toDigits_of_lt_base (by omega)] at h
        have hzero : ∀ m < 10, Nat.digitChar m = '0' → m = 0 := by decide
        have := hzero (n / 10) (by omega) (Option.some.inj h)
        omega

theorem isDigit_toDigits (n : Nat) : ∀ d ∈ Nat.toDigits 10 n, d.isDigit = true :=
  fun _ hd => Nat.isDigit_of_mem_toDigits (by decide) (by decide) hd

theorem cLex_int (F : Doubles D) (n : Nat) {rest : List Char} (hrest : Ends rest) :
    cLex F (Nat.toDigits 10 n ++ rest) = (cLex F rest).map (.int n :: ·) := by
  have hdigits := isDigit_toDigits n
  have hzero := length_toDigits_of_zero n
  have hvalue := Nat.ofDigitChars_ten_toDigits (n := n)
  cases hds : Nat.toDigits 10 n with
  | nil => exact absurd hds Nat.toDigits_ne_nil
  | cons c ds =>
      rw [hds] at hdigits hzero hvalue
      apply cLex_number (hdigits c (by simp)) (fun d hd => Or.inl (hdigits d (by simp [hd]))) hrest
      have hdrop : (c :: ds).dropWhile Char.isDigit = [] := List.dropWhile_eq_nil_iff.mpr hdigits
      have htake : (c :: ds).takeWhile Char.isDigit = c :: ds :=
        List.takeWhile_eq_self_iff.mpr hdigits
      simp only [constant, hdrop, htake, hvalue]
      exact if_neg fun h => h.2 (hzero h.1)

/-- The digits behind the point. -/
def decimalsOf (m : Nat) : List Char :=
  [digitAt m 100000, digitAt m 10000, digitAt m 1000, digitAt m 100, digitAt m 10, digitAt m 1]

theorem isDigit_digitAt (m w : Nat) : (digitAt m w).isDigit = true := by
  have h : ∀ k < 10, (Nat.digitChar k).isDigit = true := by decide
  exact h _ (Nat.mod_lt _ (by decide))

theorem isDigit_decimalsOf (m : Nat) : ∀ d ∈ decimalsOf m, d.isDigit = true := by
  simp [decimalsOf, isDigit_digitAt]

theorem ofDigitChars_decimalsOf (m : Nat) :
    Nat.ofDigitChars 10 (decimalsOf m) (m / 1000000) = m := by
  have h : ∀ (w : Nat) (cs : List Char) (v : Nat), Nat.ofDigitChars 10 (digitAt m w :: cs) v =
      Nat.ofDigitChars 10 cs (10 * v + m / w % 10) := fun w cs v =>
    Nat.ofDigitChars_cons_digitChar_of_lt_ten (Nat.mod_lt _ (by decide))
  simp only [decimalsOf, h, Nat.ofDigitChars_nil]
  omega

theorem cLex_float (F : Doubles D) (m : Nat) {rest : List Char} (hrest : Ends rest) :
    cLex F (Nat.toDigits 10 (m / 1000000) ++ '.' :: decimalsOf m ++ rest) =
      (cLex F rest).map (.float (F.ofDigits m 6) :: ·) := by
  have hdigits := isDigit_toDigits (m / 1000000)
  have hvalue := Nat.ofDigitChars_ten_toDigits (n := m / 1000000)
  cases hds : Nat.toDigits 10 (m / 1000000) with
  | nil => exact absurd hds Nat.toDigits_ne_nil
  | cons c ds =>
      rw [hds] at hdigits hvalue
      rw [List.cons_append]
      apply cLex_number (hdigits c (by simp)) _ hrest
      · have hdrop : (c :: (ds ++ '.' :: decimalsOf m)).dropWhile Char.isDigit =
            '.' :: decimalsOf m := by
          rw [← List.cons_append, List.dropWhile_append_of_pos hdigits]
          rfl
        have htake : (c :: (ds ++ '.' :: decimalsOf m)).takeWhile Char.isDigit = c :: ds := by
          rw [← List.cons_append, List.takeWhile_append_of_pos hdigits]
          simp
        simp only [constant, hdrop, htake]
        rw [if_pos ⟨trivial, List.all_eq_true.mpr (isDigit_decimalsOf m)⟩, Nat.ofDigitChars_append,
          hvalue, ofDigitChars_decimalsOf]
        rfl
      · intro d hd
        rcases List.mem_append.mp hd with hd | hd
        · exact Or.inl (hdigits d (by simp [hd]))
        · rcases List.mem_cons.mp hd with rfl | hd
          · exact Or.inr rfl
          · exact Or.inl (isDigit_decimalsOf m d hd)

theorem cLex_punctuator {F : Doubles D} {c : Char} {cs rest : List Char} {t : Token D}
    (hc : isIdChar c = false) (hwhite : isWhite c = false)
    (h : punctuator c cs = some (t, rest)) :
    cLex F (c :: cs) = (cLex F rest).map (t :: ·) := by
  apply cLex_cons hwhite
  have hstart : isIdStart c = false := by
    cases hstart : isIdStart c with
    | false => rfl
    | true => rw [isIdChar_of_isIdStart hstart] at hc; cases hc
  have hdigit : c.isDigit = false := by
    cases hdigit : c.isDigit with
    | false => rfl
    | true => rw [isIdChar_of_isDigit hdigit] at hc; cases hc
  rw [cToken, if_neg (by simp [hstart]), if_neg (by simp [hdigit]), h]

/-- An operator is read alone, unless a `-` follows a `-`. -/
theorem cLex_binary {F : Doubles D} {o : BinaryOperator} {rest : List Char}
    (hrest : Starts rest) (hminus : o = .minus → nextIs rest '-' = false) :
    cLex F (o.text ++ rest) = (cLex F rest).map (.binary o :: ·) := by
  cases o with
  | minus =>
      apply cLex_punctuator rfl rfl
      simp [punctuator, hrest _, hminus]
  | gt | plus | mult | div | mod =>
      apply cLex_punctuator rfl rfl
      simp [punctuator, hrest _]
  | geq | eq | and | or => exact cLex_punctuator rfl rfl rfl

theorem cLex_decr (F : Doubles D) (rest : List Char) :
    cLex F ('-' :: '-' :: rest) = (cLex F rest).map (.decr :: ·) :=
  cLex_punctuator rfl rfl rfl

end Paparazzi.FlightPlan.CText
