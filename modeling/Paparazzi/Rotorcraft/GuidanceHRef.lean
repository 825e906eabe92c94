import Paparazzi.Math.TrigInt
import Paparazzi.Rotorcraft.GuidanceVRef

/-!
The horizontal reference model of the rotorcraft: on each axis a second order filter of a position
set point and a first order filter of a speed set point, with the limits of the axis taken from
the direction of the route. The formats are those of the vertical reference model.
-/

namespace Paparazzi.Rotorcraft.GuidanceHRef

open Paparazzi.Library.Checked32
open Paparazzi.Rotorcraft.GuidanceVRef

/-- `(int32_t)GH_MAX_ACCEL`, 5.66 m/s². -/
def ghMaxAccel : ℤ := 1448

/-- `(int32_t)GH_MAX_SPEED`, 5 m/s with 7 fractional bits. -/
def ghMaxSpeed : ℤ := 5 * 2 ^ 7

/-- The inverse of half a second. -/
def ghRefInvThau : ℤ := 2 * 2 ^ 16

/-- The products of an integer with the floating-point numbers `-2*GH_ZETA_OMEGA` and
`-GH_OMEGA_2`, about -2035.640338 and -175.030732, truncated. -/
structure GhProducts where
  zetaOmega : ℤ → ℤ
  omega2 : ℤ → ℤ
  zetaOmega_near (x : ℤ) : |10 ^ 6 * zetaOmega x + 2035640338 * x| ≤ 10 ^ 6 + |x|
  omega2_near (x : ℤ) : |10 ^ 6 * omega2 x + 175030732 * x| ≤ 10 ^ 6 + |x|

/-- Sine and cosine of a route angle with 14 fractional bits, rounded either way. -/
structure Route where
  cos : ℤ
  sin : ℤ
  exact : ∃ θ : ℝ, |(cos : ℝ) - 2 ^ 14 * Real.cos θ| < 1 ∧ |(sin : ℝ) - 2 ^ 14 * Real.sin θ| < 1

/-- An axis of the reference. -/
structure GhAxis where
  pos : ℤ
  speed : ℤ
  accel : ℤ
  deriving DecidableEq

structure GhRef where
  x : GhAxis
  y : GhAxis
  deriving DecidableEq

def ghSetAxis (pos speed accel : ℤ) : GhAxis where
  pos := pos * 2 ^ 18
  speed := speed >>> (2 : ℕ)
  accel := accel >>> (2 : ℕ)

def ghSetRef (pos speed accel : ℤ × ℤ) : GhRef where
  x := ghSetAxis pos.1 speed.1 accel.1
  y := ghSetAxis pos.2 speed.2 accel.2

/-- The share of a maximum for an axis. -/
def ghMaxRef (max trig : ℤ) : ℤ := (max * |trig|) >>> (14 : ℕ)

def ghMaxAccelRef (trig : ℤ) : ℤ := ghMaxRef ghMaxAccel trig

def ghMaxSpeedRef (trig : ℤ) : ℤ := ghMaxRef ghMaxSpeed trig * 2 ^ 10

def ghSaturateAccel (accel max : ℤ) : ℤ :=
  if accel ≤ -max then -max else if accel ≥ max then max else accel

/-- The saturation of an axis: the acceleration, and the speed with the acceleration adjusted. -/
def ghSaturate (s : GhAxis) (trig : ℤ) : GhAxis :=
  let accel := ghSaturateAccel s.accel (ghMaxAccelRef trig)
  if s.speed ≤ -ghMaxSpeedRef trig then
    { s with speed := -ghMaxSpeedRef trig, accel := if accel < 0 then 0 else accel }
  else if s.speed ≥ ghMaxSpeedRef trig then
    { s with speed := ghMaxSpeedRef trig, accel := if accel > 0 then 0 else accel }
  else { s with accel := accel }

/-- No value where a signed integer overflows or the position does not fit into 32 bits. -/
def ghAxisFromPosSp (g : GhProducts) (s : GhAxis) (trig posSp : ℤ) : Option GhAxis := do
  let pos ← check64 (s.pos + s.speed)
  let speed ← check (s.speed + s.accel)
  let speedPart ← check (g.zetaOmega (speed >>> (9 : ℕ)))
  let posInSp ← check (pos >>> (18 : ℕ))
  let posErr ← check (posInSp - posSp)
  let posPart ← check (g.omega2 (posErr >>> (0 : ℕ)))
  let accel ← check (speedPart >>> (10 : ℕ) + posPart >>> (7 : ℕ))
  some (ghSaturate ⟨pos, speed, accel⟩ trig)

def ghAxisFromSpeedSp (s : GhAxis) (trig speedSp : ℤ) : Option GhAxis := do
  let pos ← check64 (s.pos + s.speed)
  let speed ← check (s.speed + s.accel)
  let speedErr ← check (speed - speedSp >>> (2 : ℕ))
  let product ← check (-ghRefInvThau * (speedErr >>> (9 : ℕ)))
  some (ghSaturate ⟨pos, speed, product >>> (16 : ℕ)⟩ trig)

def ghUpdateRefFromPosSp (g : GhProducts) (s : GhRef) (r : Route) (posSp : ℤ × ℤ) :
    Option GhRef := do
  let x ← ghAxisFromPosSp g s.x r.cos posSp.1
  let y ← ghAxisFromPosSp g s.y r.sin posSp.2
  some ⟨x, y⟩

def ghUpdateRefFromSpeedSp (s : GhRef) (r : Route) (speedSp : ℤ × ℤ) : Option GhRef := do
  let x ← ghAxisFromSpeedSp s.x r.cos speedSp.1
  let y ← ghAxisFromSpeedSp s.y r.sin speedSp.2
  some ⟨x, y⟩

inductive GhEvent where
  | posSp (r : Route) (x y : Within maxPosSp)
  | speedSp (r : Route) (x y : Within maxSpeedSp)

def ghUpdate (g : GhProducts) (s : GhRef) : GhEvent → Option GhRef
  | .posSp r x y => ghUpdateRefFromPosSp g s r (x, y)
  | .speedSp r x y => ghUpdateRefFromSpeedSp s r (x, y)

/-- The position error in the resolution of the set point, after the integration. -/
def posErr (s : GhAxis) (posSp : ℤ) : ℤ := (s.pos + s.speed) >>> (18 : ℕ) - posSp

/-- The speed error in the resolution of the acceleration, after the integration. -/
def speedErr (s : GhAxis) (speedSp : ℤ) : ℤ :=
  (s.speed + s.accel - speedSp >>> (2 : ℕ)) >>> (9 : ℕ)

/-- A position error of 47.9 km at most. The condition on the acceleration holds from the first
update on. -/
def PosOk (s : GhAxis) (posSp : ℤ) : Prop :=
  |posErr s posSp| ≤ 12269180 ∧ |(s.speed + s.accel) >>> (9 : ℕ)| ≤ 1054942

/-- A speed error of 64 m/s at most, and a position that can be represented. -/
def SpeedOk (s : GhAxis) (speedSp : ℤ) : Prop :=
  -16383 ≤ speedErr s speedSp ∧ speedErr s speedSp ≤ 16384 ∧ Fits64 (s.pos + s.speed)

def GhOk (s : GhRef) : GhEvent → Prop
  | .posSp _ x y => PosOk s.x x ∧ PosOk s.y y
  | .speedSp _ x y => SpeedOk s.x x ∧ SpeedOk s.y y

instance (s : GhAxis) (posSp : ℤ) : Decidable (PosOk s posSp) :=
  inferInstanceAs (Decidable (_ ∧ _))

instance (s : GhAxis) (speedSp : ℤ) : Decidable (SpeedOk s speedSp) :=
  inferInstanceAs (Decidable (_ ∧ _ ∧ _))

instance (s : GhRef) : (e : GhEvent) → Decidable (GhOk s e)
  | .posSp _ _ _ => inferInstanceAs (Decidable (_ ∧ _))
  | .speedSp _ _ _ => inferInstanceAs (Decidable (_ ∧ _))

/-- Speed and acceleration as `ghSetRef` can leave them. -/
structure GhAxis.Held (s : GhAxis) : Prop where
  speed : |s.speed| ≤ 2 ^ 29
  accel : |s.accel| ≤ 2 ^ 29

def GhRef.Held (s : GhRef) : Prop := s.x.Held ∧ s.y.Held

/-- The lengths of speed and acceleration are within the maxima, up to rounding: one unit of
acceleration, and the 80 units that the rounded sine and cosine let the speed go over. -/
structure GhRef.Limited (s : GhRef) : Prop where
  speed : s.x.speed ^ 2 + s.y.speed ^ 2 ≤ (ghMaxSpeed * 2 ^ 10 + 80) ^ 2
  accel : s.x.accel ^ 2 + s.y.accel ^ 2 ≤ (ghMaxAccel + 1) ^ 2

/-- An axis whose speed and acceleration are within its shares. -/
structure GhAxis.Bounded (s : GhAxis) (trig : ℤ) : Prop where
  speed : |s.speed| ≤ ghMaxSpeedRef trig
  accel : |s.accel| ≤ ghMaxAccelRef trig

/-- The rounded sine and cosine are not much longer than the unit. -/
theorem Route.normSq_le (r : Route) : r.cos ^ 2 + r.sin ^ 2 ≤ (2 ^ 14 + 2) ^ 2 := by
  obtain ⟨θ, hcos, hsin⟩ := r.exact
  have hone := Real.sin_sq_add_cos_sq θ
  have near : ∀ (z x : ℝ), |x| ≤ 1 → |z - 2 ^ 14 * x| < 1 →
      z ^ 2 ≤ 2 ^ 28 * x ^ 2 + 2 ^ 15 + 1 := by
    intro z x hx hz
    obtain ⟨hx1, hx2⟩ := abs_le.mp hx
    obtain ⟨hz1, hz2⟩ := abs_lt.mp hz
    nlinarith
  have hc := near _ _ (Real.abs_cos_le_one θ) hcos
  have hs := near _ _ (Real.abs_sin_le_one θ) hsin
  have hreal : ((r.cos ^ 2 + r.sin ^ 2 : ℤ) : ℝ) ≤ (((2 ^ 14 + 2) ^ 2 : ℤ) : ℝ) := by
    push_cast
    nlinarith
  exact_mod_cast hreal

/-- Shares of a maximum along the axes are a vector of the maximum, up to rounding. -/
theorem normSq_le_of_shares {m a b limit : ℤ} (r : Route) (hm : 0 ≤ m)
    (ha : |a| * 2 ^ 14 ≤ m * |r.cos|) (hb : |b| * 2 ^ 14 ≤ m * |r.sin|)
    (hlimit : m * (2 ^ 14 + 2) ≤ limit * 2 ^ 14) : a ^ 2 + b ^ 2 ≤ limit ^ 2 := by
  have hx : (|a| * 2 ^ 14) ^ 2 ≤ (m * |r.cos|) ^ 2 := pow_le_pow_left₀ (by positivity) ha 2
  have hy : (|b| * 2 ^ 14) ^ 2 ≤ (m * |r.sin|) ^ 2 := pow_le_pow_left₀ (by positivity) hb 2
  have hl : (m * (2 ^ 14 + 2)) ^ 2 ≤ (limit * 2 ^ 14) ^ 2 :=
    pow_le_pow_left₀ (by positivity) hlimit 2
  have hr := mul_le_mul_of_nonneg_left r.normSq_le (sq_nonneg m)
  rw [mul_pow, mul_pow, sq_abs, sq_abs] at hx hy
  have hscaled : (a ^ 2 + b ^ 2) * (2 ^ 14) ^ 2 ≤ limit ^ 2 * (2 ^ 14) ^ 2 := by
    linarith
  exact le_of_mul_le_mul_right hscaled (by norm_num)

theorem ghMaxRef_nonneg {max : ℤ} (hmax : 0 ≤ max) (trig : ℤ) : 0 ≤ ghMaxRef max trig := by
  rw [ghMaxRef, Int.shiftRight_eq_div_pow]
  positivity

theorem ghMaxRef_mul_le (max trig : ℤ) : ghMaxRef max trig * 2 ^ 14 ≤ max * |trig| := by
  rw [ghMaxRef, Int.shiftRight_eq_div_pow]
  exact Int.ediv_mul_le _ (by norm_num)

theorem ghSaturateAccel_abs_le {max : ℤ} (hmax : 0 ≤ max) (accel : ℤ) :
    |ghSaturateAccel accel max| ≤ max := by
  rw [ghSaturateAccel, abs_le]
  split_ifs <;> omega

theorem bounded_ghSaturate (s : GhAxis) (trig : ℤ) : (ghSaturate s trig).Bounded trig := by
  have hspeed : 0 ≤ ghMaxSpeedRef trig :=
    mul_nonneg (ghMaxRef_nonneg (by decide) trig) (by norm_num)
  have haccel := ghSaturateAccel_abs_le (ghMaxRef_nonneg (by decide : 0 ≤ ghMaxAccel) trig) s.accel
  have hzero := (abs_nonneg _).trans haccel
  rw [ghSaturate, ghMaxAccelRef]
  generalize ghSaturateAccel s.accel (ghMaxRef ghMaxAccel trig) = accel at haccel
  split
  · refine ⟨by simp [abs_of_nonneg hspeed], ?_⟩
    change |if accel < 0 then 0 else accel| ≤ _
    split_ifs
    · rw [abs_zero]
      exact hzero
    · exact haccel
  · split
    · refine ⟨by simp [abs_of_nonneg hspeed], ?_⟩
      change |if accel > 0 then 0 else accel| ≤ _
      split_ifs
      · rw [abs_zero]
        exact hzero
      · exact haccel
    · exact ⟨abs_le.mpr ⟨(not_le.mp ‹_›).le, (not_le.mp ‹_›).le⟩, haccel⟩

@[simp] theorem ghSaturate_pos (s : GhAxis) (trig : ℤ) : (ghSaturate s trig).pos = s.pos := by
  simp only [ghSaturate]
  split_ifs <;> rfl

theorem limited_of_bounded {s : GhRef} (r : Route) (hx : s.x.Bounded r.cos)
    (hy : s.y.Bounded r.sin) : s.Limited := by
  have hcosAccel := ghMaxRef_mul_le ghMaxAccel r.cos
  have hsinAccel := ghMaxRef_mul_le ghMaxAccel r.sin
  have hcosSpeed := ghMaxRef_mul_le ghMaxSpeed r.cos
  have hsinSpeed := ghMaxRef_mul_le ghMaxSpeed r.sin
  have hxa := hx.accel
  have hya := hy.accel
  have hxs := hx.speed
  have hys := hy.speed
  simp only [ghMaxAccelRef, ghMaxSpeedRef] at *
  constructor
  · apply normSq_le_of_shares (m := ghMaxSpeed * 2 ^ 10) r (by decide) (by linarith) (by linarith)
    decide
  · apply normSq_le_of_shares (m := ghMaxAccel) r (by decide) (by linarith) (by linarith)
    decide

theorem GhRef.Limited.held {s : GhRef} (h : s.Limited) : s.Held := by
  have hspeed := h.speed
  have haccel := h.accel
  have ofSq : ∀ {a b limit : ℤ}, 0 ≤ limit → limit ≤ 2 ^ 29 → a ^ 2 + b ^ 2 ≤ limit ^ 2 →
      |a| ≤ 2 ^ 29 ∧ |b| ≤ 2 ^ 29 := by
    intro a b limit hnonneg hlimit hsq
    constructor
    · exact (abs_le_of_sq_le_sq (by nlinarith [sq_nonneg b]) hnonneg).trans hlimit
    · exact (abs_le_of_sq_le_sq (by nlinarith [sq_nonneg a]) hnonneg).trans hlimit
  obtain ⟨hxs, hys⟩ := ofSq (by decide) (by decide) hspeed
  obtain ⟨hxa, hya⟩ := ofSq (by decide) (by decide) haccel
  exact ⟨⟨hxs, hxa⟩, hys, hya⟩

theorem held_ghSetRef {pos speed accel : ℤ × ℤ} (hspeed : Fits speed.1 ∧ Fits speed.2)
    (haccel : Fits accel.1 ∧ Fits accel.2) : (ghSetRef pos speed accel).Held := by
  have held : ∀ {pos speed accel : ℤ}, Fits speed → Fits accel →
      (ghSetAxis pos speed accel).Held := by
    rintro pos speed accel ⟨hsmin, hsmax⟩ ⟨hamin, hamax⟩
    constructor
    · simp only [ghSetAxis, Int.shiftRight_eq_div_pow]
      exact abs_le.mpr (by omega)
    · simp only [ghSetAxis, Int.shiftRight_eq_div_pow]
      exact abs_le.mpr (by omega)
  exact ⟨held hspeed.1 haccel.1, held hspeed.2 haccel.2⟩

/-- An axis is integrated and saturated, whatever the set point. -/
theorem ghAxisFromPosSp_eq_some {g : GhProducts} {s s' : GhAxis} {trig posSp : ℤ}
    (h : ghAxisFromPosSp g s trig posSp = some s') :
    s'.pos = s.pos + s.speed ∧ s'.Bounded trig := by
  simp only [ghAxisFromPosSp, Option.bind_eq_bind, check_bind_eq_some_iff,
    check64_bind_eq_some_iff, Option.some.injEq] at h
  obtain ⟨-, -, -, -, -, -, -, rfl⟩ := h
  exact ⟨ghSaturate_pos _ _, bounded_ghSaturate _ _⟩

theorem ghAxisFromSpeedSp_eq_some {s s' : GhAxis} {trig speedSp : ℤ}
    (h : ghAxisFromSpeedSp s trig speedSp = some s') :
    s'.pos = s.pos + s.speed ∧ s'.Bounded trig := by
  simp only [ghAxisFromSpeedSp, Option.bind_eq_bind, check_bind_eq_some_iff,
    check64_bind_eq_some_iff, Option.some.injEq] at h
  obtain ⟨-, -, -, -, rfl⟩ := h
  exact ⟨ghSaturate_pos _ _, bounded_ghSaturate _ _⟩

theorem ghUpdate_eq_some {g : GhProducts} {s s' : GhRef} {e : GhEvent}
    (h : ghUpdate g s e = some s') :
    s'.x.pos = s.x.pos + s.x.speed ∧ s'.y.pos = s.y.pos + s.y.speed ∧ s'.Limited := by
  cases e with
  | posSp r x y =>
      obtain ⟨x', hx, hrest⟩ := Option.bind_eq_some_iff.mp h
      obtain ⟨y', hy, heq⟩ := Option.bind_eq_some_iff.mp hrest
      obtain rfl := Option.some.inj heq
      obtain ⟨hxpos, hxbounded⟩ := ghAxisFromPosSp_eq_some hx
      obtain ⟨hypos, hybounded⟩ := ghAxisFromPosSp_eq_some hy
      exact ⟨hxpos, hypos, limited_of_bounded r hxbounded hybounded⟩
  | speedSp r x y =>
      obtain ⟨x', hx, hrest⟩ := Option.bind_eq_some_iff.mp h
      obtain ⟨y', hy, heq⟩ := Option.bind_eq_some_iff.mp hrest
      obtain rfl := Option.some.inj heq
      obtain ⟨hxpos, hxbounded⟩ := ghAxisFromSpeedSp_eq_some hx
      obtain ⟨hypos, hybounded⟩ := ghAxisFromSpeedSp_eq_some hy
      exact ⟨hxpos, hypos, limited_of_bounded r hxbounded hybounded⟩

theorem GhProducts.fits_omega2_iff (g : GhProducts) {x : ℤ} :
    Fits (g.omega2 x) ↔ |x| ≤ 12269180 := by
  have hnear := abs_le.mp (g.omega2_near x)
  rw [Fits, abs_le]
  rcases le_total 0 x with hx | hx
  · rw [abs_of_nonneg hx] at hnear
    omega
  · rw [abs_of_nonpos hx] at hnear
    omega

theorem GhProducts.fits_zetaOmega_iff (g : GhProducts) {x : ℤ} :
    Fits (g.zetaOmega x) ↔ |x| ≤ 1054942 := by
  have hnear := abs_le.mp (g.zetaOmega_near x)
  rw [Fits, abs_le]
  rcases le_total 0 x with hx | hx
  · rw [abs_of_nonneg hx] at hnear
    omega
  · rw [abs_of_nonpos hx] at hnear
    omega

theorem isSome_ghAxisFromPosSp_iff {s : GhAxis} (g : GhProducts) (hs : s.Held) (trig : ℤ)
    (sp : Within maxPosSp) : (ghAxisFromPosSp g s trig sp).isSome ↔ PosOk s sp := by
  obtain ⟨sp, hsp⟩ := sp
  obtain ⟨hspMin, hspMax⟩ := abs_le.mp hsp
  obtain ⟨hspeedMin, hspeedMax⟩ := abs_le.mp hs.speed
  obtain ⟨haccelMin, haccelMax⟩ := abs_le.mp hs.accel
  simp only [maxPosSp] at hspMin hspMax
  simp only [Option.isSome_iff_exists, ghAxisFromPosSp, Option.bind_eq_bind,
    check_bind_eq_some_iff, check64_bind_eq_some_iff, Option.some.injEq, PosOk, posErr]
  have hp := g.fits_zetaOmega_iff (x := (s.speed + s.accel) >>> (9 : ℕ))
  have hq := g.fits_omega2_iff (x := ((s.pos + s.speed) >>> (18 : ℕ) - sp) >>> (0 : ℕ))
  generalize g.zetaOmega ((s.speed + s.accel) >>> (9 : ℕ)) = p at hp
  generalize g.omega2 (((s.pos + s.speed) >>> (18 : ℕ) - sp) >>> (0 : ℕ)) = q at hq
  simp only [Fits, Fits64, abs_le, Int.shiftRight_eq_div_pow] at *
  constructor
  · rintro ⟨s', hrest⟩
    omega
  · intro h
    refine ⟨_, ?_, ?_, ?_, ?_, ?_, ?_, ?_, rfl⟩ <;> omega

theorem isSome_ghAxisFromSpeedSp_iff {s : GhAxis} (hs : s.Held) (trig : ℤ)
    (sp : Within maxSpeedSp) : (ghAxisFromSpeedSp s trig sp).isSome ↔ SpeedOk s sp := by
  obtain ⟨sp, hsp⟩ := sp
  obtain ⟨hspMin, hspMax⟩ := abs_le.mp hsp
  obtain ⟨hspeedMin, hspeedMax⟩ := abs_le.mp hs.speed
  obtain ⟨haccelMin, haccelMax⟩ := abs_le.mp hs.accel
  simp only [maxSpeedSp] at hspMin hspMax
  simp only [Option.isSome_iff_exists, ghAxisFromSpeedSp, Option.bind_eq_bind,
    check_bind_eq_some_iff, check64_bind_eq_some_iff, Option.some.injEq, SpeedOk, speedErr,
    Fits, Fits64, ghRefInvThau, Int.shiftRight_eq_div_pow]
  constructor
  · rintro ⟨s', hrest⟩
    omega
  · intro h
    refine ⟨_, ?_, ?_, ?_, ?_, rfl⟩ <;> omega

/-- Both axes have a value. -/
theorem isSome_pair_iff (x y : Option GhAxis) :
    (x.bind fun x => y.bind fun y => some (GhRef.mk x y)).isSome ↔ x.isSome ∧ y.isSome := by
  cases x <;> cases y <;> simp

theorem isSome_ghUpdate_iff (g : GhProducts) (s : GhRef) (e : GhEvent) (hs : s.Held) :
    (ghUpdate g s e).isSome ↔ GhOk s e := by
  cases e with
  | posSp r x y =>
      exact (isSome_pair_iff _ _).trans (and_congr (isSome_ghAxisFromPosSp_iff g hs.1 r.cos x)
        (isSome_ghAxisFromPosSp_iff g hs.2 r.sin y))
  | speedSp r x y =>
      exact (isSome_pair_iff _ _).trans (and_congr (isSome_ghAxisFromSpeedSp_iff hs.1 r.cos x)
        (isSome_ghAxisFromSpeedSp_iff hs.2 r.sin y))

end Paparazzi.Rotorcraft.GuidanceHRef
