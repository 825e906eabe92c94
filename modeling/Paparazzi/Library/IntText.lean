import Mathlib.Data.List.Basic
import Mathlib.Tactic.NormNum

/-!
The texts of integers: decimal printing, and reading with a sign, a base and a number of bits.
-/

namespace Paparazzi.Library.IntText

abbrev Text := List Char

def ofInt (x : Int) : Text :=
  if x < 0 then '-' :: Nat.toDigits 10 x.natAbs else Nat.toDigits 10 x.natAbs

/-! ### Reading -/

def digitValue (c : Char) : Option Nat :=
  if '0' ≤ c ∧ c ≤ '9' then some (c.toNat - '0'.toNat)
  else if 'a' ≤ c ∧ c ≤ 'f' then some (c.toNat - 'a'.toNat + 10)
  else if 'A' ≤ c ∧ c ≤ 'F' then some (c.toNat - 'A'.toNat + 10)
  else none

def digitOfBase (base : Nat) (c : Char) : Option Nat :=
  (digitValue c).filter (· < base)

/-- The digits behind the first one; underscores are skipped. -/
def readDigits (base : Nat) : Nat → Text → Option Nat
  | res, [] => some res
  | res, c :: s =>
      if c = '_' then readDigits base res s
      else (digitOfBase base c).bind fun d => readDigits base (base * res + d) s

def readNumber (base : Nat) : Text → Option Nat
  | [] => none
  | c :: s => (digitOfBase base c).bind fun d => readDigits base d s

/-- The base of a number without its sign. -/
def splitBase : Text → Nat × Text
  | '0' :: 'x' :: s | '0' :: 'X' :: s => (16, s)
  | '0' :: 'o' :: s | '0' :: 'O' :: s => (8, s)
  | '0' :: 'b' :: s | '0' :: 'B' :: s => (2, s)
  | s => (10, s)

/-- A decimal number must be one of `bits` bits with its sign; others wrap. -/
def ofMagnitude (bits base : Nat) (negative : Bool) (res : Nat) : Option Int :=
  let x : Int := if negative then -res else res
  if base = 10 then if -2 ^ (bits - 1) ≤ x ∧ x < 2 ^ (bits - 1) then some x else none
  else if res < 2 ^ bits then some (x.bmod (2 ^ bits))
  else none

def splitSign : Text → Bool × Text
  | '-' :: s => (true, s)
  | s => (false, s)

def toInt (bits : Nat) (s : Text) : Option Int :=
  let (negative, s) := splitSign s
  let (base, s) := splitBase s
  (readNumber base s).bind (ofMagnitude bits base negative)

/-! ### Reading what was printed -/

theorem digitOfBase_of_isDigit {c : Char} (hc : c.isDigit = true) :
    digitOfBase 10 c = some (c.toNat - '0'.toNat) := by
  have hrange : '0' ≤ c ∧ c ≤ '9' := by
    simpa [Char.isDigit, Char.le_def] using hc
  have hle : c.toNat ≤ '9'.toNat := hrange.2
  have hnine : '9'.toNat = 57 := rfl
  have hzero : '0'.toNat = 48 := rfl
  rw [digitOfBase, digitValue, if_pos hrange, Option.filter_some, if_pos]
  rw [decide_eq_true_eq]
  omega

theorem readDigits_of_isDigit {s : Text} (hs : ∀ c ∈ s, c.isDigit = true) (res : Nat) :
    readDigits 10 res s = some (Nat.ofDigitChars 10 s res) := by
  induction s generalizing res with
  | nil => rfl
  | cons c s ih =>
      obtain ⟨hc, hs⟩ := List.forall_mem_cons.mp hs
      have hne : c ≠ '_' := by
        rintro rfl
        exact absurd hc (by decide)
      rw [readDigits, if_neg hne, digitOfBase_of_isDigit hc, Option.bind_some, ih hs]
      rfl

theorem splitBase_of_isDigit {s : Text} (hs : ∀ c ∈ s, c.isDigit = true) :
    splitBase s = (10, s) := by
  unfold splitBase
  split
  all_goals first
    | rfl
    | exact absurd (hs _ (List.mem_cons_of_mem _ List.mem_cons_self)) (by decide)

theorem readNumber_toDigits (n : Nat) : readNumber 10 (Nat.toDigits 10 n) = some n := by
  have hdigits : ∀ c ∈ Nat.toDigits 10 n, c.isDigit = true :=
    fun c hc => Nat.isDigit_of_mem_toDigits (by decide) (by decide) hc
  have hvalue := Nat.ofDigitChars_toDigits (b := 10) (n := n) (by decide) (by decide)
  cases hs : Nat.toDigits 10 n with
  | nil => exact absurd hs Nat.toDigits_ne_nil
  | cons c s =>
      rw [hs] at hdigits hvalue
      obtain ⟨hc, hrest⟩ := List.forall_mem_cons.mp hdigits
      rw [readNumber, digitOfBase_of_isDigit hc, Option.bind_some, readDigits_of_isDigit hrest]
      rw [Nat.ofDigitChars_cons] at hvalue
      simpa using hvalue

theorem isDigit_or_minus_of_mem {x : Int} {c : Char} (hc : c ∈ ofInt x) :
    c.isDigit = true ∨ c = '-' := by
  have hdigit : ∀ c ∈ Nat.toDigits 10 x.natAbs, c.isDigit = true :=
    fun c hc => Nat.isDigit_of_mem_toDigits (by decide) (by decide) hc
  unfold ofInt at hc
  split_ifs at hc
  · rcases List.mem_cons.mp hc with rfl | hc
    · exact .inr rfl
    · exact .inl (hdigit c hc)
  · exact .inl (hdigit c hc)

theorem ofInt_ne_nil (x : Int) : ofInt x ≠ [] := by
  unfold ofInt
  split_ifs
  · exact List.cons_ne_nil _ _
  · exact Nat.toDigits_ne_nil

/-- A number that fits in the bits is read as it was printed. -/
theorem toInt_ofInt {bits : Nat} {x : Int} (hle : -2 ^ (bits - 1) ≤ x) (hlt : x < 2 ^ (bits - 1)) :
    toInt bits (ofInt x) = some x := by
  have hdigits : ∀ c ∈ Nat.toDigits 10 x.natAbs, c.isDigit = true :=
    fun c hc => Nat.isDigit_of_mem_toDigits (by decide) (by decide) hc
  have hread : ∀ negative : Bool, (if negative then -(x.natAbs : Int) else x.natAbs) = x →
      ((readNumber (splitBase (Nat.toDigits 10 x.natAbs)).1
        (splitBase (Nat.toDigits 10 x.natAbs)).2).bind
          (ofMagnitude bits (splitBase (Nat.toDigits 10 x.natAbs)).1 negative)) = some x := by
    intro negative hx
    rw [splitBase_of_isDigit hdigits, readNumber_toDigits, Option.bind_some, ofMagnitude]
    simp only [hx, if_true]
    rw [if_pos ⟨hle, hlt⟩]
  by_cases hneg : x < 0
  · have hsign : splitSign (ofInt x) = (true, Nat.toDigits 10 x.natAbs) := by
      rw [ofInt, if_pos hneg]
      rfl
    rw [toInt, hsign]
    exact hread true (by simp only [if_true]; omega)
  · have hsign : splitSign (ofInt x) = (false, Nat.toDigits 10 x.natAbs) := by
      rw [ofInt, if_neg hneg]
      unfold splitSign
      split
      · rename_i s heq
        exact absurd (hdigits '-' (heq ▸ List.mem_cons_self)) (by decide)
      · rfl
    rw [toInt, hsign]
    exact hread false (by simp only [Bool.false_eq_true, if_false]; omega)

end Paparazzi.Library.IntText
