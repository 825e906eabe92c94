import Mathlib.Data.Nat.Log
import Mathlib.Tactic.NormNum

/-!
Bit patterns of the two IEEE 754 formats and the conversions between them, to
nearest with ties to even. A NaN keeps the leading bits of its payload and
becomes quiet.
-/

namespace Paparazzi.Library.Ieee754

/-- The pattern with the given sign, biased exponent and mantissa fields, in a
format of `E` exponent and `M` mantissa bits. -/
def assemble (E M : Nat) (s e m : Nat) : Nat := (s * 2 ^ E + e) * 2 ^ M + m

def signField (E M : Nat) (f : Nat) : Nat := f / 2 ^ M / 2 ^ E

def exponentField (E M : Nat) (f : Nat) : Nat := f / 2 ^ M % 2 ^ E

def mantissaField (M : Nat) (f : Nat) : Nat := f % 2 ^ M

section Fields

variable {E M s e m : Nat}

theorem mantissaField_assemble (hm : m < 2 ^ M) : mantissaField M (assemble E M s e m) = m := by
  rw [mantissaField, assemble, Nat.add_comm, Nat.add_mul_mod_self_right, Nat.mod_eq_of_lt hm]

theorem assemble_div (hm : m < 2 ^ M) : assemble E M s e m / 2 ^ M = s * 2 ^ E + e := by
  rw [assemble, Nat.add_comm, Nat.add_mul_div_right _ _ (Nat.two_pow_pos M),
    Nat.div_eq_of_lt hm, Nat.zero_add]

theorem exponentField_assemble (hm : m < 2 ^ M) (he : e < 2 ^ E) :
    exponentField E M (assemble E M s e m) = e := by
  rw [exponentField, assemble_div hm, Nat.add_comm, Nat.add_mul_mod_self_right,
    Nat.mod_eq_of_lt he]

theorem signField_assemble (hm : m < 2 ^ M) (he : e < 2 ^ E) :
    signField E M (assemble E M s e m) = s := by
  rw [signField, assemble_div hm, Nat.add_comm,
    Nat.add_mul_div_right _ _ (Nat.two_pow_pos E), Nat.div_eq_of_lt he, Nat.zero_add]

theorem assemble_fields (f : Nat) :
    assemble E M (signField E M f) (exponentField E M f) (mantissaField M f) = f := by
  rw [assemble, signField, exponentField, mantissaField, Nat.mul_comm _ (2 ^ E),
    Nat.div_add_mod, Nat.mul_comm _ (2 ^ M), Nat.div_add_mod]

theorem assemble_carry (e' : Nat) :
    assemble E M s e (e' * 2 ^ M + m) = assemble E M s (e + e') m := by
  simp only [assemble, Nat.add_mul]
  omega

end Fields

/-- The quiet NaN payload with the leading bits of `m`. -/
def quiet (m : Nat) : Nat := if m < 2 ^ 22 then m + 2 ^ 22 else m

/-- `n / 2 ^ k` to nearest, ties to even. -/
def roundHalfEven (n k : Nat) : Nat :=
  let q := n / 2 ^ k
  let r := n % 2 ^ k
  if 2 * r < 2 ^ k ∨ 2 * r = 2 ^ k ∧ q % 2 = 0 then q else q + 1

theorem roundHalfEven_mul (n k : Nat) : roundHalfEven (n * 2 ^ k) k = n := by
  have hk : 0 < 2 ^ k := Nat.two_pow_pos k
  simp [roundHalfEven, Nat.mul_div_cancel n hk]

/-- `(double)f`, exact on every `float` that is not a NaN. -/
def widen (f : Nat) : Nat :=
  let s := signField 8 23 f
  let e := exponentField 8 23 f
  let m := mantissaField 23 f
  if e = 255 then assemble 11 52 s 2047 (if m = 0 then 0 else quiet m * 2 ^ 29)
  else if e ≠ 0 then assemble 11 52 s (e + 896) (m * 2 ^ 29)
  else if m = 0 then assemble 11 52 s 0 0
  else assemble 11 52 s (m.log2 + 874) (m * 2 ^ (52 - m.log2) - 2 ^ 52)

/-- `(float)d`, with overflow to infinity. A subnormal `double` is below half of
the least `float`. -/
def narrow (d : Nat) : Nat :=
  let s := signField 11 52 d
  let e := exponentField 11 52 d
  let m := mantissaField 52 d
  if e = 2047 then assemble 8 23 s 255 (if m = 0 then 0 else quiet (m / 2 ^ 29))
  else if e = 0 then assemble 8 23 s 0 0
  else
    let rounded := (e - 897) * 2 ^ 23 + roundHalfEven (2 ^ 52 + m) (29 + (897 - e))
    assemble 8 23 s 0 (min rounded (255 * 2 ^ 23))

def isFinite64 (d : Nat) : Bool := exponentField 11 52 d != 2047

def isInfinite32 (f : Nat) : Bool := exponentField 8 23 f == 255 && mantissaField 23 f == 0

def isSignalling32 (f : Nat) : Bool :=
  exponentField 8 23 f == 255 && mantissaField 23 f != 0 && decide (mantissaField 23 f < 2 ^ 22)

theorem assemble_lt {E M s e m : Nat} (hs : s < 2) (h : e * 2 ^ M + m < 2 ^ E * 2 ^ M) :
    assemble E M s e m < 2 * (2 ^ E * 2 ^ M) := by
  have hsign : s * (2 ^ E * 2 ^ M) ≤ 2 ^ E * 2 ^ M := by
    calc s * (2 ^ E * 2 ^ M) ≤ 1 * (2 ^ E * 2 ^ M) := Nat.mul_le_mul_right _ (by omega)
      _ = 2 ^ E * 2 ^ M := Nat.one_mul _
  rw [assemble, Nat.add_mul, Nat.mul_assoc]
  omega

theorem narrow_lt {d : Nat} (hd : d < 2 ^ 64) : narrow d < 2 ^ 32 := by
  have hs : signField 11 52 d < 2 := by
    rw [signField]
    omega
  have hm : mantissaField 52 d < 2 ^ 52 := Nat.mod_lt _ (Nat.two_pow_pos 52)
  rw [narrow]
  refine lt_of_lt_of_le ?_ (by norm_num : 2 * (2 ^ 8 * 2 ^ 23) ≤ 2 ^ 32)
  split_ifs with hmax hm0 he0
  · exact assemble_lt hs (by norm_num)
  · refine assemble_lt hs ?_
    unfold quiet
    split_ifs <;> omega
  · exact assemble_lt hs (by norm_num)
  · exact assemble_lt hs (by omega)

/-- The mantissa of a subnormal `float`, moved to the place of the leading bit of a double. -/
theorem normalize_bounds {m : Nat} (hm0 : m ≠ 0) (hm : m < 2 ^ 23) :
    2 ^ 52 ≤ m * 2 ^ (52 - m.log2) ∧ m * 2 ^ (52 - m.log2) < 2 * 2 ^ 52 := by
  have hlog : m.log2 < 23 := (Nat.log2_lt hm0).mpr hm
  have hlo : 2 ^ m.log2 ≤ m := Nat.log2_self_le hm0
  have hhi : m < 2 ^ (m.log2 + 1) := Nat.lt_log2_self
  have hscale : 2 ^ m.log2 * 2 ^ (52 - m.log2) = 2 ^ 52 := by
    rw [← Nat.pow_add]
    congr 1
    omega
  constructor
  · rw [← hscale]
    exact Nat.mul_le_mul_right _ hlo
  · rw [← hscale, ← Nat.mul_assoc, Nat.mul_comm 2, ← Nat.pow_succ]
    exact Nat.mul_lt_mul_of_pos_right hhi (Nat.two_pow_pos _)

theorem widen_lt {f : Nat} (hf : f < 2 ^ 32) : widen f < 2 ^ 64 := by
  have hs : signField 8 23 f < 2 := by
    rw [signField]
    omega
  have hm : mantissaField 23 f < 2 ^ 23 := Nat.mod_lt _ (Nat.two_pow_pos 23)
  have he : exponentField 8 23 f < 2 ^ 8 := Nat.mod_lt _ (Nat.two_pow_pos 8)
  rw [widen]
  refine lt_of_lt_of_le ?_ (by norm_num : 2 * (2 ^ 11 * 2 ^ 52) ≤ 2 ^ 64)
  split_ifs with hmax hm0 hnormal hz
  · exact assemble_lt hs (by norm_num)
  · refine assemble_lt hs ?_
    unfold quiet
    split_ifs <;> omega
  · exact assemble_lt hs (by omega)
  · exact assemble_lt hs (by norm_num)
  · have hlog : (mantissaField 23 f).log2 < 23 := (Nat.log2_lt hz).mpr hm
    have hbounds := normalize_bounds hz hm
    exact assemble_lt hs (by omega)

/-- The double of a `float` with the fields of a normal number. -/
theorem narrow_assemble_normal {s e m : Nat} (he0 : e ≠ 0) (he : e < 255) (hm : m < 2 ^ 23) :
    narrow (assemble 11 52 s (e + 896) (m * 2 ^ 29)) = assemble 8 23 s e m := by
  have hmant : m * 2 ^ 29 < 2 ^ 52 := by omega
  have hexp : e + 896 < 2 ^ 11 := by omega
  rw [narrow]
  simp only [mantissaField_assemble hmant, exponentField_assemble hmant hexp,
    signField_assemble hmant hexp]
  rw [if_neg (by omega), if_neg (by omega)]
  have hshift : 29 + (897 - (e + 896)) = 29 := by omega
  have hsum : 2 ^ 52 + m * 2 ^ 29 = (2 ^ 23 + m) * 2 ^ 29 := by omega
  rw [hshift, hsum, roundHalfEven_mul]
  have hround : min ((e + 896 - 897) * 2 ^ 23 + (2 ^ 23 + m)) (255 * 2 ^ 23) = e * 2 ^ 23 + m := by
    omega
  rw [hround, assemble_carry, Nat.zero_add]

/-- The double of a subnormal `float` is normal. -/
theorem narrow_assemble_subnormal {s m : Nat} (hm0 : m ≠ 0) (hm : m < 2 ^ 23) :
    narrow (assemble 11 52 s (m.log2 + 874) (m * 2 ^ (52 - m.log2) - 2 ^ 52)) =
      assemble 8 23 s 0 m := by
  have hlog : m.log2 < 23 := (Nat.log2_lt hm0).mpr hm
  obtain ⟨hlower, hupper⟩ := normalize_bounds hm0 hm
  have hmant : m * 2 ^ (52 - m.log2) - 2 ^ 52 < 2 ^ 52 := by omega
  have hexp : m.log2 + 874 < 2 ^ 11 := by omega
  rw [narrow]
  simp only [mantissaField_assemble hmant, exponentField_assemble hmant hexp,
    signField_assemble hmant hexp]
  rw [if_neg (by omega), if_neg (by omega)]
  have hshift : 29 + (897 - (m.log2 + 874)) = 52 - m.log2 := by omega
  rw [hshift, Nat.add_sub_cancel' hlower, roundHalfEven_mul]
  have hround : min ((m.log2 + 874 - 897) * 2 ^ 23 + m) (255 * 2 ^ 23) = m := by omega
  rw [hround]

/-- Every `float` that is not a signalling NaN comes back from its double. -/
theorem narrow_widen {f : Nat} (hq : isSignalling32 f = false) : narrow (widen f) = f := by
  have hm : mantissaField 23 f < 2 ^ 23 := Nat.mod_lt _ (Nat.two_pow_pos 23)
  have he : exponentField 8 23 f < 2 ^ 8 := Nat.mod_lt _ (Nat.two_pow_pos 8)
  conv_rhs => rw [← assemble_fields (E := 8) (M := 23) f]
  rw [widen]
  split_ifs with hmax hm0 hnormal hz
  · rw [hmax, hm0]
    have hzero : (0 : Nat) < 2 ^ 52 := Nat.two_pow_pos 52
    rw [narrow, exponentField_assemble hzero (by norm_num), mantissaField_assemble hzero,
      signField_assemble hzero (by norm_num), if_pos rfl, if_pos rfl]
  · have hquiet : 2 ^ 22 ≤ mantissaField 23 f := by
      simp [isSignalling32, hmax, hm0] at hq
      omega
    have hkeep : quiet (mantissaField 23 f) = mantissaField 23 f := if_neg (by omega)
    have hmant : mantissaField 23 f * 2 ^ 29 < 2 ^ 52 := by omega
    rw [hkeep, hmax, narrow, exponentField_assemble hmant (by norm_num),
      mantissaField_assemble hmant, signField_assemble hmant (by norm_num), if_pos rfl,
      if_neg (by omega), Nat.mul_div_cancel _ (Nat.two_pow_pos 29), hkeep]
  · exact narrow_assemble_normal hnormal (by omega) hm
  · have he0 : exponentField 8 23 f = 0 := by omega
    have hzero : (0 : Nat) < 2 ^ 52 := Nat.two_pow_pos 52
    rw [he0, hz, narrow, exponentField_assemble hzero (by norm_num), mantissaField_assemble hzero,
      signField_assemble hzero (by norm_num), if_neg (by norm_num), if_pos rfl]
  · have he0 : exponentField 8 23 f = 0 := by omega
    rw [he0]
    exact narrow_assemble_subnormal hz hm

end Paparazzi.Library.Ieee754
