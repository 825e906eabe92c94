import Mathlib.Algebra.Order.Floor.Div
import Mathlib.Data.Rat.Floor
import Paparazzi.Library.ContinuedFraction

/-!
`define_integer` of `gen_airframe.ml`: a constant of the airframe as a quotient of two integers. The
floating-point numbers are taken without their rounding.
-/

namespace Paparazzi.Generator.AirframeInteger

open Paparazzi.Library.ContinuedFraction

/-- A number of the generator, `none` where it is infinite. -/
abbrev Exact := Option ℚ

/-- `x /. y` for numbers that are not both 0. -/
def quotient (x y : ℚ) : Exact := if y = 0 then none else some (x / y)

def inverse : Exact → Exact
  | none => some 0
  | some x => quotient 1 x

def sub (x : Exact) (a : ℤ) : Exact := x.map (· - a)

/-- Infinity is truncated to 0. -/
def truncate : Exact → ℤ
  | none => 0
  | some x => x.num.tdiv x.den

structure Define where
  name : String
  value : ℚ
  deriving DecidableEq, Repr

def print (name : String) (num den : ℤ) : List Define :=
  [⟨name ++ "_NUM", num⟩, ⟨name ++ "_DEN", den⟩]

/-- The recursion, with the number of calls that may be made. -/
def continiousFrac (name : String) (maxVal : ℤ) (v : ℚ) :
    ℕ → ℤ → Exact → ℤ × ℤ → ℤ × ℤ → ℤ → Option (List Define)
  | 0, _, _, _, _, _ => none
  | fuel + 1, a, x, (num1, num2), (den1, den2), s =>
      let x1 := inverse (sub x a)
      let a1 := truncate x1
      let num3 := a1 * num2 + num1
      let den3 := a1 * den2 + den1
      if num3 > maxVal ∨ den3 > maxVal then some (print name num2 (s * den2))
      else if quotient num3 den3 = some v then some (print name num3 (s * den3))
      else continiousFrac name maxVal v fuel a1 x1 (num2, num3) (den2, den3) s

def defineInteger (name : String) (v : ℚ) (n fuel : ℕ) : Option (List Define) :=
  let maxVal : ℤ := 2 ^ n
  let (v, s) : ℚ × ℤ := if v ≥ 0 then (v, 1) else (-v, -1)
  continiousFrac name maxVal v fuel (truncate (some v)) (some v) (1, truncate (some v)) (0, 1) s

/-- What is printed for a value that is not negative, as a quotient of natural numbers. -/
structure Approximates (v : ℚ) (n num den : ℕ) : Prop where
  den_pos : 0 < den
  num_le : num ≤ 2 ^ n
  den_le : den ≤ 2 ^ n
  abs_sub_le : |v - num / den| ≤ max 1 v / (den * 2 ^ n)
  exact : v.num ≤ 2 ^ n → v.den ≤ 2 ^ n → (num : ℚ) / den = v

theorem truncate_div (a b : ℕ) : truncate (some ((a : ℚ) / b)) = (a / b : ℕ) := by
  have hfloor : truncate (some ((a : ℚ) / b)) = ⌊(a : ℚ) / b⌋ := by
    rw [Rat.floor_def', truncate]
    exact Int.tdiv_eq_ediv_of_nonneg (Rat.num_nonneg.mpr (by positivity))
  rw [hfloor, Rat.floor_natCast_div_natCast]
  rfl

theorem approximates_exact {v : ℚ} {n num den : ℕ} (hden : 0 < den) (hnum_le : num ≤ 2 ^ n)
    (hden_le : den ≤ 2 ^ n) (heq : (num : ℚ) / den = v) : Approximates v n num den where
  den_pos := hden
  num_le := hnum_le
  den_le := hden_le
  abs_sub_le := by
    rw [heq, sub_self, abs_zero]
    positivity
  exact _ _ := heq

section

variable {n P Q p₁ p₂ q₁ q₂ a b : ℕ} (h : Convergents P Q p₁ p₂ q₁ q₂ a b)

include h

/-- The convergent in front of the first one that is too large. -/
theorem approximates_of_next_lt {v : ℚ} (hv : v.num = P ∧ v.den = Q) (hb : 0 < b)
    (hp : p₂ ≤ 2 ^ n) (hq : q₂ ≤ 2 ^ n)
    (hlarge : 2 ^ n < a / b * p₂ + p₁ ∨ 2 ^ n < a / b * q₂ + q₁) : Approximates v n p₂ q₂ := by
  have hQ : 0 < Q := hv.2 ▸ v.den_pos
  obtain ⟨hnum, hden⟩ := h.next_mul_le
  have hbP : b * 2 ^ n ≤ max P Q := by
    obtain hlarge | hlarge := hlarge
    · refine le_max_of_le_left (le_trans ?_ hnum)
      rw [Nat.mul_comm]
      exact Nat.mul_le_mul_right b hlarge.le
    · refine le_max_of_le_right (le_trans ?_ hden)
      rw [Nat.mul_comm]
      exact Nat.mul_le_mul_right b hlarge.le
  have hv' : v = (P : ℚ) / Q := by
    rw [← Rat.num_div_den v, hv.1, hv.2, Int.cast_natCast]
  have hQpos : (0 : ℚ) < Q := Nat.cast_pos.mpr hQ
  have hqpos : (0 : ℚ) < q₂ := Nat.cast_pos.mpr h.den_pos
  have hmax : max 1 v * Q = max P Q := by
    rw [hv', max_mul_of_nonneg _ _ hQpos.le, one_mul, div_mul_cancel₀ _ hQpos.ne', max_comm,
      Nat.cast_max]
  refine ⟨h.den_pos, hp, hq, ?_, fun hnum_le hden_le => ?_⟩
  · rw [hv', h.abs_sub_eq hQ, ← hv', div_le_div_iff₀ (by positivity) (by positivity)]
    calc
      (b : ℚ) * (q₂ * 2 ^ n) = (b * 2 ^ n : ℕ) * q₂ := by
        push_cast
        ring
      _ ≤ (max P Q : ℕ) * q₂ := by gcongr
      _ = max 1 v * (Q * q₂) := by
        rw [← hmax]
        ring
  · -- the value itself is as large as the next convergent
    have hP : P ≤ 2 ^ n := by exact_mod_cast hv.1 ▸ hnum_le
    have hone := Nat.le_mul_of_pos_right (a / b * p₂ + p₁) hb
    have hone' := Nat.le_mul_of_pos_right (a / b * q₂ + q₁) hb
    rw [hv.2] at hden_le
    omega

/-- The test for equality finds the last convergent. -/
theorem quotient_next_eq_iff (hb : 0 < b) :
    quotient (a / b * p₂ + p₁ : ℕ) (a / b * q₂ + q₁ : ℕ) = some ((P : ℚ) / Q) ↔ a % b = 0 := by
  have hnext := h.next hb
  have hden := Nat.cast_ne_zero (R := ℚ).mpr hnext.den_pos.ne'
  rw [quotient, if_neg hden, Option.some.injEq]
  constructor
  · intro heq
    have hQ : 0 < Q := by
      rw [h.den]
      exact Nat.add_pos_left (Nat.mul_pos (hb.trans h.lt) h.den_pos) _
    have habs := hnext.abs_sub_eq hQ
    rw [heq, sub_self, abs_zero, eq_comm, div_eq_zero_iff] at habs
    obtain hzero | hzero := habs
    · exact_mod_cast hzero
    · have hpos : (0 : ℚ) < Q * (a / b * q₂ + q₁ : ℕ) :=
        mul_pos (Nat.cast_pos.mpr hQ) (Nat.cast_pos.mpr hnext.den_pos)
      exact absurd hzero hpos.ne'
  · exact h.div_eq_of_mod_eq_zero hb

/-- One call, for a value with a fractional part: a step of Euclid's algorithm. -/
theorem continiousFrac_succ {name : String} {v : ℚ} (s : ℤ) {whole : ℤ} {x : ℚ} (fuel : ℕ)
    (hv : v.num = P ∧ v.den = Q) (hb : 0 < b) (hx : x - whole = b / a) :
    continiousFrac name (2 ^ n) v (fuel + 1) whole (some x) (p₁, p₂) (q₁, q₂) s =
      if 2 ^ n < a / b * p₂ + p₁ ∨ 2 ^ n < a / b * q₂ + q₁ then
        some (print name p₂ (s * q₂))
      else if a % b = 0 then
        some (print name (a / b * p₂ + p₁ : ℕ) (s * (a / b * q₂ + q₁ : ℕ)))
      else
        continiousFrac name (2 ^ n) v fuel (a / b : ℕ) (some ((a : ℚ) / b))
          (p₂, (a / b * p₂ + p₁ : ℕ)) (q₂, (a / b * q₂ + q₁ : ℕ)) s := by
  have hb' : (b : ℚ) ≠ 0 := Nat.cast_ne_zero.mpr hb.ne'
  have ha' : (a : ℚ) ≠ 0 := Nat.cast_ne_zero.mpr (hb.trans h.lt).ne'
  have hx1 : inverse (sub (some x) whole) = some ((a : ℚ) / b) := by
    rw [sub, Option.map_some, hx, inverse, quotient, if_neg (div_ne_zero hb' ha'), one_div_div]
  have hnum3 : ((a / b : ℕ) : ℤ) * p₂ + p₁ = (a / b * p₂ + p₁ : ℕ) := by push_cast; rfl
  have hden3 : ((a / b : ℕ) : ℤ) * q₂ + q₁ = (a / b * q₂ + q₁ : ℕ) := by push_cast; rfl
  have hv' : v = (P : ℚ) / Q := by
    rw [← Rat.num_div_den v, hv.1, hv.2, Int.cast_natCast]
  have hlarge : ∀ m : ℕ, (m : ℤ) > 2 ^ n ↔ 2 ^ n < m := fun m => by exact_mod_cast Iff.rfl
  have hequal := quotient_next_eq_iff h hb
  rw [← hv'] at hequal
  rw [continiousFrac]
  simp only [hx1, truncate_div, hnum3, hden3, hlarge, Int.cast_natCast, hequal]

end

theorem continiousFrac_eq_some (name : String) {v : ℚ} (s : ℤ) {n P Q p₁ p₂ q₁ q₂ a b : ℕ}
    {whole : ℤ} {x : ℚ} (h : Convergents P Q p₁ p₂ q₁ q₂ a b) (hv : v.num = P ∧ v.den = Q)
    (hb : 0 < b) (hx : x - whole = b / a) (hp : p₂ ≤ 2 ^ n) (hq : q₂ ≤ 2 ^ n) :
    ∃ num den : ℕ, Approximates v n num den ∧ ∀ fuel, b ≤ fuel →
      continiousFrac name (2 ^ n) v fuel whole (some x) (p₁, p₂) (q₁, q₂) s =
        some (print name num (s * den)) := by
  induction b using Nat.strong_induction_on generalizing p₁ p₂ q₁ q₂ a whole x with
  | _ b ih =>
      have hsucc : ∀ fuel, b ≤ fuel → ∃ rest, fuel = rest + 1 := fun fuel hfuel =>
        Nat.exists_eq_succ_of_ne_zero (hb.trans_le hfuel).ne'
      have hv' : v = (P : ℚ) / Q := by
        rw [← Rat.num_div_den v, hv.1, hv.2, Int.cast_natCast]
      rcases Decidable.em (2 ^ n < a / b * p₂ + p₁ ∨ 2 ^ n < a / b * q₂ + q₁) with hlarge | hsmall
      · refine ⟨p₂, q₂, approximates_of_next_lt h hv hb hp hq hlarge, fun fuel hfuel => ?_⟩
        obtain ⟨rest, rfl⟩ := hsucc fuel hfuel
        rw [continiousFrac_succ h s rest hv hb hx, if_pos hlarge]
      · have hle := hsmall
        rw [not_or, Nat.not_lt, Nat.not_lt] at hle
        rcases Nat.eq_zero_or_pos (a % b) with hmod | hmod
        · refine ⟨_, _, approximates_exact (h.next hb).den_pos hle.1 hle.2 ?_, fun fuel hfuel => ?_⟩
          · rw [hv']
            exact h.div_eq_of_mod_eq_zero hb hmod
          · obtain ⟨rest, rfl⟩ := hsucc fuel hfuel
            rw [continiousFrac_succ h s rest hv hb hx, if_neg hsmall, if_pos hmod]
        · have hfrac : (a : ℚ) / b - ((a / b : ℕ) : ℤ) = (a % b : ℕ) / b := by
            have hb' : (b : ℚ) ≠ 0 := Nat.cast_ne_zero.mpr hb.ne'
            rw [eq_div_iff hb', sub_mul, div_mul_cancel₀ _ hb', sub_eq_iff_eq_add,
              Int.cast_natCast, mul_comm]
            exact_mod_cast (Nat.mod_add_div a b).symm
          obtain ⟨num, den, happrox, hrun⟩ :=
            ih (a % b) (Nat.mod_lt a hb) (h.next hb) hmod hfrac hle.1 hle.2
          refine ⟨num, den, happrox, fun fuel hfuel => ?_⟩
          obtain ⟨rest, rfl⟩ := hsucc fuel hfuel
          rw [continiousFrac_succ h s rest hv hb hx, if_neg hsmall, if_neg hmod.ne']
          exact hrun rest (by have := Nat.mod_lt a hb; omega)

/-- The two calls for an integer: the first divides by 0, the second finds the integer. -/
theorem continiousFrac_integer (name : String) {m n : ℕ} (s : ℤ) (fuel : ℕ) (hm : m ≤ 2 ^ n) :
    continiousFrac name (2 ^ n) m (fuel + 2) m (some m) (1, m) (0, 1) s =
      some (print name m (s * 1)) := by
  have hone : ¬ (1 : ℤ) > 2 ^ n := not_lt.mpr (by exact_mod_cast Nat.one_le_two_pow)
  have hm' : ¬ (m : ℤ) > 2 ^ n := not_lt.mpr (by exact_mod_cast hm)
  have hx1 : inverse (sub (some (m : ℚ)) (m : ℤ)) = none := by
    rw [sub, Option.map_some, Int.cast_natCast, sub_self, inverse, quotient, if_pos rfl]
  rw [continiousFrac]
  simp only [hx1, truncate, zero_mul, zero_add]
  rw [if_neg (by rw [not_or]; exact ⟨hone, not_lt.mpr (by positivity)⟩),
    if_neg (by simp [quotient]), continiousFrac]
  simp [sub, inverse, truncate, quotient, hm', hone]

theorem continiousFrac_start (name : String) {v : ℚ} (s : ℤ) {n : ℕ} (hnonneg : 0 ≤ v)
    (hlt : v < 2 ^ n) :
    ∃ num den : ℕ, Approximates v n num den ∧ ∀ fuel, v.den < fuel →
      continiousFrac name (2 ^ n) v fuel (truncate (some v)) (some v)
        (1, truncate (some v)) (0, 1) s = some (print name num (s * den)) := by
  obtain ⟨P, hP⟩ := Int.eq_ofNat_of_zero_le (Rat.num_nonneg.mpr hnonneg)
  have hv : v = (P : ℚ) / v.den := by
    conv_lhs => rw [← Rat.num_div_den v, hP, Int.cast_natCast]
  have hwhole : truncate (some v) = (P / v.den : ℕ) := by
    conv_lhs => rw [hv]
    exact truncate_div P v.den
  have hdiv : P / v.den ≤ 2 ^ n := by
    rw [hv, div_lt_iff₀ (Nat.cast_pos.mpr v.den_pos)] at hlt
    exact (Nat.div_lt_of_lt_mul (by rw [Nat.mul_comm]; exact_mod_cast hlt)).le
  have hpow := Nat.one_le_two_pow (n := n)
  rcases Nat.eq_zero_or_pos (P % v.den) with hmod | hmod
  · -- an integer
    have hone : v.den = 1 := by
      have hcop := v.reduced
      rw [hP, Int.natAbs_natCast, Nat.coprime_comm] at hcop
      exact Nat.Coprime.eq_one_of_dvd hcop (Nat.dvd_of_mod_eq_zero hmod)
    rw [hone, Nat.div_one] at hdiv hwhole
    rw [hone, Nat.cast_one, div_one] at hv
    refine ⟨P, 1, approximates_exact Nat.one_pos hdiv hpow (by rw [hv, Nat.cast_one, div_one]),
      fun fuel hfuel => ?_⟩
    rw [hone] at hfuel
    obtain ⟨rest, rfl⟩ := Nat.exists_eq_add_of_le' hfuel
    rw [hwhole, hv]
    exact continiousFrac_integer name s rest hdiv
  · have hfrac : v - truncate (some v) = (P % v.den : ℕ) / v.den := by
      have hden : (v.den : ℚ) ≠ 0 := Nat.cast_ne_zero.mpr v.den_nz
      rw [hwhole, eq_div_iff hden, sub_mul, sub_eq_iff_eq_add, Int.cast_natCast, mul_comm,
        Rat.den_mul_eq_num, hP, Int.cast_natCast]
      exact_mod_cast (Nat.mod_add_div' P v.den).symm
    obtain ⟨num, den, happrox, hrun⟩ :=
      continiousFrac_eq_some name s (convergents_start P v.den_pos) ⟨hP, rfl⟩ hmod hfrac hdiv hpow
    refine ⟨num, den, happrox, fun fuel hfuel => ?_⟩
    have := hrun fuel ((Nat.mod_lt P v.den_pos).le.trans hfuel.le)
    rw [hwhole] at this ⊢
    exact this

/-- The sign is printed with the denominator. -/
def signedDen (v : ℚ) (den : ℕ) : ℤ := if v ≥ 0 then den else -den

/-- The recursion ends, with an approximation of the absolute value. -/
theorem defineInteger_eq_some (name : String) {v : ℚ} {n : ℕ} (hv : |v| < 2 ^ n) :
    ∃ num den : ℕ, Approximates |v| n num den ∧ ∀ fuel, v.den < fuel →
      defineInteger name v n fuel = some (print name num (signedDen v den)) := by
  rcases le_or_gt 0 v with hnonneg | hneg
  · rw [abs_of_nonneg hnonneg] at hv ⊢
    obtain ⟨num, den, happrox, hrun⟩ := continiousFrac_start name 1 hnonneg hv
    refine ⟨num, den, happrox, fun fuel hfuel => ?_⟩
    rw [defineInteger, if_pos hnonneg, signedDen, if_pos hnonneg]
    exact (hrun fuel hfuel).trans (by rw [one_mul])
  · rw [abs_of_neg hneg] at hv ⊢
    obtain ⟨num, den, happrox, hrun⟩ := continiousFrac_start name (-1) (neg_pos.mpr hneg).le hv
    refine ⟨num, den, happrox, fun fuel hfuel => ?_⟩
    rw [defineInteger, if_neg (not_le.mpr hneg), signedDen, if_neg (not_le.mpr hneg)]
    exact (hrun fuel (by rwa [Rat.den_neg_eq_den])).trans (by rw [neg_one_mul])

theorem div_signedDen (v : ℚ) (num den : ℕ) :
    (num : ℚ) / signedDen v den = if v ≥ 0 then (num : ℚ) / den else -((num : ℚ) / den) := by
  rw [signedDen]
  split_ifs
  · rw [Int.cast_natCast]
  · rw [Int.cast_neg, Int.cast_natCast, div_neg]

theorem abs_signedDen (v : ℚ) (den : ℕ) : |signedDen v den| = den := by
  rw [signedDen]
  split_ifs
  · exact Nat.abs_cast den
  · rw [abs_neg, Nat.abs_cast]

/-- The quotient is as far from the constant as that of the absolute values. -/
theorem abs_sub_div_signedDen (v : ℚ) (num den : ℕ) :
    |v - num / signedDen v den| = |(|v| - num / den)| := by
  rw [div_signedDen]
  split_ifs with hv
  · rw [abs_of_nonneg hv]
  · rw [abs_of_neg (not_le.mp hv), ← abs_neg, neg_sub', neg_neg]

theorem Approximates.div_signedDen_eq {v : ℚ} {n num den : ℕ} (h : Approximates |v| n num den)
    (hnum : |v.num| ≤ 2 ^ n) (hden : v.den ≤ 2 ^ n) : (num : ℚ) / signedDen v den = v := by
  have hexact := h.exact (by rwa [Rat.num_abs_eq_abs_num]) (by rwa [Rat.den_abs_eq_den])
  rw [div_signedDen, hexact]
  split_ifs with hv
  · exact abs_of_nonneg hv
  · rw [abs_of_neg (not_le.mp hv), neg_neg]

/-- For every constant below `2 ^ n`, the recursion ends, and the printed quotient has terms of at
most `2 ^ n` and the sign of the constant, and is the constant where that has such terms. -/
theorem defineInteger_approximates (name : String) (v : ℚ) (n : ℕ) (hv : |v| < 2 ^ n) :
    ∃ num den : ℤ,
      (∀ fuel, v.den < fuel →
        defineInteger name v n fuel = some [⟨name ++ "_NUM", num⟩, ⟨name ++ "_DEN", den⟩]) ∧
      den ≠ 0 ∧ (0 ≤ num ∧ num ≤ 2 ^ n) ∧ |den| ≤ 2 ^ n ∧
      ((0 ≤ v → (0 : ℚ) ≤ num / den) ∧ (v ≤ 0 → (num / den : ℚ) ≤ 0)) ∧
      |v - num / den| ≤ max 1 |v| / (|(den : ℚ)| * 2 ^ n) ∧
      (|v.num| ≤ 2 ^ n ∧ v.den ≤ 2 ^ n → (num / den : ℚ) = v) := by
  obtain ⟨num, den, happrox, hrun⟩ := defineInteger_eq_some name hv
  have habs : |((signedDen v den : ℤ) : ℚ)| = den := by
    rw [← Int.cast_abs, abs_signedDen, Int.cast_natCast]
  refine ⟨num, signedDen v den, hrun, ?_, ⟨by positivity, by exact_mod_cast happrox.num_le⟩, ?_,
    ⟨fun hnonneg => ?_, fun hle => ?_⟩, ?_, fun hterms => ?_⟩
  · rw [← abs_pos, abs_signedDen]
    exact_mod_cast happrox.den_pos
  · rw [abs_signedDen]
    exact_mod_cast happrox.den_le
  · rw [Int.cast_natCast, div_signedDen, if_pos hnonneg]
    positivity
  · rcases hle.lt_or_eq with hneg | rfl
    · rw [Int.cast_natCast, div_signedDen, if_neg (not_le.mpr hneg), neg_nonpos]
      positivity
    · rw [Int.cast_natCast]
      exact (happrox.div_signedDen_eq (by positivity) Nat.one_le_two_pow).le
  · rw [Int.cast_natCast, abs_sub_div_signedDen, habs]
    exact happrox.abs_sub_le
  · rw [Int.cast_natCast]
    exact happrox.div_signedDen_eq hterms.1 hterms.2

theorem defineInteger_approximates_reversed :
    ∃ num den : ℤ, defineInteger "SERVO_ELEVATOR_TRAVEL_DOWN" (-5 / 96) 16 97 =
        some [⟨"SERVO_ELEVATOR_TRAVEL_DOWN_NUM", num⟩, ⟨"SERVO_ELEVATOR_TRAVEL_DOWN_DEN", den⟩] ∧
      (num / den : ℚ) = -5 / 96 := by
  obtain ⟨num, den, hrun, -, -, -, -, -, hexact⟩ :=
    defineInteger_approximates "SERVO_ELEVATOR_TRAVEL_DOWN" (-5 / 96) 16 (by norm_num [abs_lt])
  exact ⟨num, den, hrun 97 (by decide +kernel), hexact ⟨by decide +kernel, by decide +kernel⟩⟩

end Paparazzi.Generator.AirframeInteger
