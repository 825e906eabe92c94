import Mathlib.Algebra.Order.Ring.Int
import Paparazzi.Library.Checked
import Paparazzi.Library.IntSqrt
import Paparazzi.Math.GeodeticInt

/-!
Vectors and the square root of `pprz_algebra.h` and `pprz_algebra_int.h`, in signed 32-bit
arithmetic that has no value where it overflows.
-/

namespace Paparazzi.Math.AlgebraInt

open Paparazzi.Library.Checked32
open Paparazzi.Library.IntSqrt
open Paparazzi.Math.GeodeticInt

structure Int32Vect2 where
  x : ℤ
  y : ℤ
  deriving DecidableEq, Repr

/-- The horizontal part of a position. -/
def vect2Of (position : EnuCoorI) : Int32Vect2 := ⟨position.x.toInt, position.y.toInt⟩

namespace Int32Vect2

def check (v : Int32Vect2) : Option Int32Vect2 := if Fits v.x ∧ Fits v.y then some v else none

theorem check_of_fits {v : Int32Vect2} (hx : Fits v.x) (hy : Fits v.y) : v.check = some v :=
  if_pos ⟨hx, hy⟩

theorem check_eq_some_iff {v w : Int32Vect2} :
    v.check = some w ↔ (Fits v.x ∧ Fits v.y) ∧ w = v := by
  rw [check, Option.ite_none_right_eq_some, Option.some.injEq, eq_comm (a := v)]

theorem check_bind_eq_some_iff {α : Type} {v : Int32Vect2} {f : Int32Vect2 → Option α} {b : α} :
    v.check.bind f = some b ↔ (Fits v.x ∧ Fits v.y) ∧ f v = some b := ite_bind_eq_some_iff

end Int32Vect2

/-! ### Vectors -/

def vect2Sum (a b : Int32Vect2) : Option Int32Vect2 := Int32Vect2.check ⟨a.x + b.x, a.y + b.y⟩

def vect2Diff (a b : Int32Vect2) : Option Int32Vect2 := Int32Vect2.check ⟨a.x - b.x, a.y - b.y⟩

def vect2Smul (v : Int32Vect2) (s : ℤ) : Option Int32Vect2 := Int32Vect2.check ⟨v.x * s, v.y * s⟩

def vect2Sdiv (v : Int32Vect2) (s : ℤ) : Option Int32Vect2 := do
  let x ← div v.x s
  let y ← div v.y s
  return ⟨x, y⟩

/-- The shift of a negative number rounds down. -/
def int32Vect2Rshift (v : Int32Vect2) (r : ℕ) : Int32Vect2 := ⟨v.x >>> r, v.y >>> r⟩

def int32Vect2Lshift (v : Int32Vect2) (l : ℕ) : Option Int32Vect2 :=
  Int32Vect2.check ⟨v.x * 2 ^ l, v.y * 2 ^ l⟩

/-- The expression `a.x * b.x + a.y * b.y`. -/
def dot (a b : Int32Vect2) : Option ℤ := do
  let p ← check (a.x * b.x)
  let q ← check (a.y * b.y)
  check (p + q)

/-- Neither the products nor their sum overflow. -/
def DotFits (v w : Int32Vect2) : Prop :=
  Fits (v.x * w.x) ∧ Fits (v.y * w.y) ∧ Fits (v.x * w.x + v.y * w.y)

theorem dot_eq_some_iff {v w : Int32Vect2} {d : ℤ} :
    dot v w = some d ↔ DotFits v w ∧ d = v.x * w.x + v.y * w.y := by
  simp only [dot, Option.bind_eq_bind, check_bind_eq_some_iff, check_eq_some_iff, DotFits,
    and_assoc]

theorem dot_of_fits {a b : Int32Vect2} (hx : Fits (a.x * b.x)) (hy : Fits (a.y * b.y))
    (h : Fits (a.x * b.x + a.y * b.y)) : dot a b = some (a.x * b.x + a.y * b.y) :=
  dot_eq_some_iff.mpr ⟨⟨hx, hy, h⟩, rfl⟩

theorem vect2Sdiv_of_fits {v : Int32Vect2} {s : ℤ} (hs : s ≠ 0) (hx : Fits (v.x.tdiv s))
    (hy : Fits (v.y.tdiv s)) : vect2Sdiv v s = some ⟨v.x.tdiv s, v.y.tdiv s⟩ := by
  rw [vect2Sdiv, div, if_neg hs, check_of_fits hx, div, if_neg hs, check_of_fits hy]
  rfl

/-! ### The square root -/

def int32SqrtMaxIter : ℕ := 40

/-- The loop of `INT32_SQRT`, with the iterations that are left. The difference of the unsigned
numbers is also large where the second is the larger one. -/
def int32SqrtLoop (input : UInt32) : ℕ → UInt32 → UInt32
  | 0, s => s
  | iter + 1, s1 =>
      let s2 := (input / s1 + s1) / 2
      if 1 < s1 - s2 then int32SqrtLoop input iter s2 else s2

def int32Sqrt (input : ℤ) : ℤ :=
  if input = 0 then 0
  else (int32SqrtLoop (UInt32.ofInt input) int32SqrtMaxIter (UInt32.ofInt input)).toNat

def int32Vect2Norm (v : Int32Vect2) : Option ℤ := (dot v v).map int32Sqrt

theorem toNat_ofInt {input : ℤ} (hpos : 0 ≤ input) (hlt : input < 2 ^ 31) :
    ((UInt32.ofInt input).toNat : ℤ) = input := by
  obtain ⟨n, rfl⟩ := Int.eq_ofNat_of_zero_le hpos
  have hn : n < 2 ^ 31 := by exact_mod_cast hlt
  rw [UInt32.ofInt, Int.toNat_emod (Int.natCast_nonneg n) (by decide)]
  change (((n % 2 ^ 32) % 2 ^ 32 : ℕ) : ℤ) = n
  rw [Nat.mod_mod, Nat.mod_eq_of_lt (by omega)]

theorem toNat_newton {input s : UInt32} (hinput : input.toNat < 2 ^ 31)
    (hle : s.toNat ≤ input.toNat) :
    ((input / s + s) / 2).toNat = newton input.toNat s.toNat := by
  have hdiv := Nat.div_le_self input.toNat s.toNat
  rw [UInt32.toNat_div, UInt32.toNat_add, UInt32.toNat_div, Nat.mod_eq_of_lt (by omega)]
  rfl

/-- The loop goes on while the approximation falls by more than 1, or grows. -/
theorem one_lt_sub_iff {s t : UInt32} (hs : s.toNat < 2 ^ 31) (ht : t.toNat < 2 ^ 31) :
    1 < s - t ↔ t.toNat + 1 < s.toNat ∨ s.toNat < t.toNat := by
  rw [UInt32.lt_iff_toNat_lt, UInt32.toNat_sub]
  change 1 < _ ↔ _
  omega

theorem int32SqrtLoop_mul_self_le {input : UInt32} (hinput : input.toNat < 2 ^ 31) {iter : ℕ}
    {s : UInt32} (hs : 0 < s.toNat) (hle : s.toNat ≤ input.toNat)
    (hsqrt : input.toNat.sqrt ≤ s.toNat)
    (hnear : s.toNat * s.toNat ≤ input.toNat + 1 ∨ s.toNat < input.toNat.sqrt + 2 ^ iter) :
    (int32SqrtLoop input iter s).toNat * (int32SqrtLoop input iter s).toNat ≤ input.toNat + 1 ∧
      input.toNat.sqrt ≤ (int32SqrtLoop input iter s).toNat := by
  induction iter generalizing s with
  | zero =>
      refine ⟨hnear.elim id fun hlt => ?_, hsqrt⟩
      have heq : s.toNat = input.toNat.sqrt := Nat.le_antisymm (Nat.le_of_lt_succ hlt) hsqrt
      rw [int32SqrtLoop, heq]
      exact (Nat.sqrt_le _).trans (Nat.le_succ _)
  | succ iter ih =>
      have hnewton := toNat_newton hinput hle
      have hsqrt' := sqrt_le_newton (n := input.toNat) hs
      have hle' := newton_le hs hle
      have hpos' := newton_pos (hs.trans_le hle) hs
      rw [int32SqrtLoop]
      rw [← hnewton] at hsqrt' hle' hpos'
      have hiff := one_lt_sub_iff (hle.trans_lt hinput) (hle'.trans_lt hinput)
      split_ifs with hgo
      · apply ih hpos' hle' hsqrt'
        rw [hnewton]
        rcases Nat.lt_or_ge (input.toNat + 1) (s.toNat * s.toNat) with hfar | hgood
        · right
          have hlt := hnear.resolve_left (Nat.not_le.mpr hfar)
          have hgt : input.toNat.sqrt < s.toNat := by
            refine Nat.lt_of_le_of_ne hsqrt fun heq => ?_
            have hself := Nat.sqrt_le input.toNat
            rw [heq] at hself
            omega
          have hgap := two_mul_newton_le hgt
          rw [Nat.pow_succ] at hlt
          omega
        · exact Or.inl (newton_mul_self_le hs hsqrt hgood)
      · refine ⟨?_, hsqrt'⟩
        rw [hiff, not_or, hnewton] at hgo
        rw [hnewton]
        exact newton_mul_self_le_of_near (Nat.not_lt.mp hgo.2) (by omega)

/-- The root is exact, or too large by 1 in front of a square. -/
theorem int32Sqrt_spec {input : ℤ} (hpos : 0 < input) (hlt : input < 2 ^ 31) :
    0 < int32Sqrt input ∧ int32Sqrt input * int32Sqrt input ≤ input + 1 ∧
      (input.toNat.sqrt : ℤ) ≤ int32Sqrt input := by
  have hinput := toNat_ofInt hpos.le hlt
  have hnat : (UInt32.ofInt input).toNat = input.toNat := by omega
  have hone : 0 < input.toNat := by omega
  obtain ⟨hsq, hsqrt⟩ := @int32SqrtLoop_mul_self_le (UInt32.ofInt input) (by omega)
    int32SqrtMaxIter (UInt32.ofInt input) (by omega) (Nat.le_refl _) (Nat.sqrt_le_self _)
    (Or.inr (by rw [int32SqrtMaxIter]; omega))
  rw [hnat] at hsq hsqrt
  rw [int32Sqrt, if_neg hpos.ne']
  refine ⟨?_, ?_, ?_⟩
  · exact_mod_cast (Nat.sqrt_pos.mpr hone).trans_le hsqrt
  · have hcast : ((input.toNat : ℤ)) = input := Int.toNat_of_nonneg hpos.le
    have hsq' := Int.ofNat_le.mpr hsq
    push_cast at hsq'
    rwa [hcast] at hsq'
  · exact_mod_cast hsqrt

end Paparazzi.Math.AlgebraInt
