import Paparazzi.Library.Checked
import Paparazzi.Rotorcraft.NavRoute

/-!
The vertical reference model of the rotorcraft: a second order filter of an altitude set point,
and a first order filter of a climb set point. Altitudes have 26 fractional bits, speeds 17 and
accelerations 8; the set points have 8 and 19.
-/

namespace Paparazzi.Rotorcraft.GuidanceVRef

open Paparazzi.Library.Checked32
open Paparazzi.Rotorcraft.NavRoute (bound)

/-- -2 * 9.81 m/s², where the value is stored. -/
def gvMinZdd : ℤ := -5022

/-- 0.8 * 9.81 m/s², where the value is stored. -/
def gvMaxZdd : ℤ := 2009

def gvMinZd : ℤ := -3 * 2 ^ 17
def gvMaxZd : ℤ := 3 * 2 ^ 17

/-- `(int32_t)(-2*GV_ZETA_OMEGA)`, for 100 degrees a second and a damping of 0.85. -/
def gvMinusTwoZetaOmega : ℤ := -3038

/-- `(int32_t)(GV_OMEGA_2)`. -/
def gvOmega2 : ℤ := 389

/-- The inverse of a quarter of a second. -/
def gvRefInvThau : ℤ := 4 * 2 ^ 16

/-- Held by 64 signed bits. -/
def Fits64 (z : ℤ) : Prop := -2 ^ 63 ≤ z ∧ z < 2 ^ 63

instance (z : ℤ) : Decidable (Fits64 z) := inferInstanceAs (Decidable (_ ∧ _))

def check64 (z : ℤ) : Option ℤ := if Fits64 z then some z else none

structure GvRef where
  z : ℤ
  zd : ℤ
  zdd : ℤ
  deriving DecidableEq

def gvSetRef (alt speed accel : ℤ) : GvRef where
  z := alt * 2 ^ 18
  zd := speed >>> (2 : ℕ)
  zdd := accel >>> (2 : ℕ)

/-- The saturation of the acceleration, and of the speed with the acceleration adjusted. -/
def gvSaturate (s : GvRef) : GvRef :=
  let zdd := bound s.zdd gvMinZdd gvMaxZdd
  if s.zd ≤ gvMinZd then { s with zd := gvMinZd, zdd := if zdd < 0 then 0 else zdd }
  else if s.zd ≥ gvMaxZd then { s with zd := gvMaxZd, zdd := if zdd > 0 then 0 else zdd }
  else { s with zdd := zdd }

/-- No value where a signed integer overflows or the altitude does not fit into 32 bits. -/
def gvUpdateRefFromZSp (s : GvRef) (zSp : ℤ) : Option GvRef := do
  let z ← check64 (s.z + s.zd)
  let zd ← check (s.zd + s.zdd)
  let speedPart ← check (gvMinusTwoZetaOmega * (zd >>> (9 : ℕ)))
  let zddSpeed := speedPart >>> (10 : ℕ)
  let zInSp ← check (z >>> (18 : ℕ))
  let zErrSp ← check (zSp - zInSp)
  let posPart ← check (gvOmega2 * (zErrSp >>> (0 : ℕ)))
  let zddPos := posPart >>> (7 : ℕ)
  let zdd ← check (zddSpeed + zddPos)
  some (gvSaturate ⟨z, zd, zdd⟩)

def gvUpdateRefFromZdSp (s : GvRef) (zdSp : ℤ) : Option GvRef := do
  let z ← check64 (s.z + s.zd)
  let zd ← check (s.zd + s.zdd)
  let zdErr ← check (zd - zdSp >>> (2 : ℕ))
  let zdErrZddRes := zdErr >>> (9 : ℕ)
  let product ← check (-gvRefInvThau * zdErrZddRes)
  some (gvSaturate ⟨z, zd, product >>> (16 : ℕ)⟩)

/-- 20 km in the resolution of positions. -/
def maxPosSp : ℤ := 20000 * 2 ^ 8

/-- 100 m/s in the resolution of speeds. -/
def maxSpeedSp : ℤ := 100 * 2 ^ 19

/-- A set point within a limit. -/
abbrev Within (limit : ℤ) : Type := {sp : ℤ // |sp| ≤ limit}

inductive GvEvent where
  | zSp (sp : Within maxPosSp)
  | zdSp (sp : Within maxSpeedSp)

def gvUpdate (s : GvRef) : GvEvent → Option GvRef
  | .zSp sp => gvUpdateRefFromZSp s sp
  | .zdSp sp => gvUpdateRefFromZdSp s sp

/-- The altitude error in the resolution of the set point, after the integration. -/
def zErr (s : GvRef) (zSp : ℤ) : ℤ := zSp - (s.z + s.zd) >>> (18 : ℕ)

/-- The speed error in the resolution of the acceleration, after the integration. -/
def zdErr (s : GvRef) (zdSp : ℤ) : ℤ := (s.zd + s.zdd - zdSp >>> (2 : ℕ)) >>> (9 : ℕ)

/-- An altitude error of 21.5 km at most, or a speed error of 32 m/s at most with an altitude that
can be represented. The condition on the acceleration holds from the first update on. -/
def GvOk (s : GvRef) : GvEvent → Prop
  | .zSp sp => |zErr s sp| ≤ 5520523 ∧ |(s.zd + s.zdd) >>> (9 : ℕ)| ≤ 706874
  | .zdSp sp => -8191 ≤ zdErr s sp ∧ zdErr s sp ≤ 8192 ∧ Fits64 (s.z + s.zd)

instance (s : GvRef) : (e : GvEvent) → Decidable (GvOk s e)
  | .zSp _ => inferInstanceAs (Decidable (_ ∧ _))
  | .zdSp _ => inferInstanceAs (Decidable (_ ∧ _ ∧ _))

/-- Speed and acceleration as `gvSetRef` can leave them. -/
structure GvRef.Held (s : GvRef) : Prop where
  zd : |s.zd| ≤ 2 ^ 29
  zdd : |s.zdd| ≤ 2 ^ 29

/-- Speed and acceleration within their saturations. -/
structure GvRef.Limited (s : GvRef) : Prop where
  zd : gvMinZd ≤ s.zd ∧ s.zd ≤ gvMaxZd
  zdd : gvMinZdd ≤ s.zdd ∧ s.zdd ≤ gvMaxZdd

theorem check64_bind_eq_some_iff {α : Type} {z : ℤ} {f : ℤ → Option α} {b : α} :
    (check64 z).bind f = some b ↔ Fits64 z ∧ f z = some b := ite_bind_eq_some_iff

theorem GvRef.Limited.held {s : GvRef} (h : s.Limited) : s.Held := by
  obtain ⟨⟨hzdMin, hzdMax⟩, hzddMin, hzddMax⟩ := h
  simp only [gvMinZd, gvMaxZd, gvMinZdd, gvMaxZdd] at *
  exact ⟨abs_le.mpr (by omega), abs_le.mpr (by omega)⟩

theorem bound_zdd_mem (zdd : ℤ) :
    gvMinZdd ≤ bound zdd gvMinZdd gvMaxZdd ∧ bound zdd gvMinZdd gvMaxZdd ≤ gvMaxZdd := by
  simp only [bound, gvMinZdd, gvMaxZdd]
  omega

theorem limited_gvSaturate (s : GvRef) : (gvSaturate s).Limited := by
  have hzdd := bound_zdd_mem s.zdd
  rw [gvSaturate]
  generalize bound s.zdd gvMinZdd gvMaxZdd = zdd at hzdd
  simp only [gvMinZdd, gvMaxZdd] at hzdd
  have hzd : gvMinZd ≤ gvMaxZd := by decide
  split
  · refine ⟨⟨le_rfl, hzd⟩, ?_⟩
    simp only [gvMinZdd, gvMaxZdd]
    omega
  · split
    · refine ⟨⟨hzd, le_rfl⟩, ?_⟩
      simp only [gvMinZdd, gvMaxZdd]
      omega
    · exact ⟨⟨(not_le.mp ‹_›).le, (not_le.mp ‹_›).le⟩, hzdd⟩

@[simp] theorem gvSaturate_z (s : GvRef) : (gvSaturate s).z = s.z := by
  simp only [gvSaturate]
  split_ifs <;> rfl

theorem held_gvSetRef {alt speed accel : ℤ} (hspeed : Fits speed) (haccel : Fits accel) :
    (gvSetRef alt speed accel).Held := by
  obtain ⟨hsmin, hsmax⟩ := hspeed
  obtain ⟨hamin, hamax⟩ := haccel
  constructor
  · simp only [gvSetRef, Int.shiftRight_eq_div_pow]
    exact abs_le.mpr (by omega)
  · simp only [gvSetRef, Int.shiftRight_eq_div_pow]
    exact abs_le.mpr (by omega)

/-- An update integrates and saturates, whatever the set point. -/
theorem gvUpdateRefFromZSp_eq_some {s s' : GvRef} {zSp : ℤ}
    (h : gvUpdateRefFromZSp s zSp = some s') : s'.z = s.z + s.zd ∧ s'.Limited := by
  simp only [gvUpdateRefFromZSp, Option.bind_eq_bind, check_bind_eq_some_iff,
    check64_bind_eq_some_iff, Option.some.injEq] at h
  obtain ⟨-, -, -, -, -, -, -, rfl⟩ := h
  exact ⟨gvSaturate_z _, limited_gvSaturate _⟩

theorem gvUpdateRefFromZdSp_eq_some {s s' : GvRef} {zdSp : ℤ}
    (h : gvUpdateRefFromZdSp s zdSp = some s') : s'.z = s.z + s.zd ∧ s'.Limited := by
  simp only [gvUpdateRefFromZdSp, Option.bind_eq_bind, check_bind_eq_some_iff,
    check64_bind_eq_some_iff, Option.some.injEq] at h
  obtain ⟨-, -, -, -, rfl⟩ := h
  exact ⟨gvSaturate_z _, limited_gvSaturate _⟩

theorem gvUpdate_eq_some {s s' : GvRef} {e : GvEvent} (h : gvUpdate s e = some s') :
    s'.z = s.z + s.zd ∧ s'.Limited := by
  cases e with
  | zSp sp => exact gvUpdateRefFromZSp_eq_some h
  | zdSp sp => exact gvUpdateRefFromZdSp_eq_some h

theorem isSome_gvUpdateRefFromZSp_iff {s : GvRef} (hs : s.Held) (sp : Within maxPosSp) :
    (gvUpdateRefFromZSp s sp).isSome ↔ GvOk s (.zSp sp) := by
  obtain ⟨sp, hsp⟩ := sp
  obtain ⟨hspMin, hspMax⟩ := abs_le.mp hsp
  obtain ⟨hzdMin, hzdMax⟩ := abs_le.mp hs.zd
  obtain ⟨hzddMin, hzddMax⟩ := abs_le.mp hs.zdd
  simp only [maxPosSp] at hspMin hspMax
  simp only [Option.isSome_iff_exists, gvUpdateRefFromZSp, Option.bind_eq_bind,
    check_bind_eq_some_iff, check64_bind_eq_some_iff, Option.some.injEq, GvOk, zErr, abs_le,
    Fits, Fits64, gvMinusTwoZetaOmega, gvOmega2, Int.shiftRight_eq_div_pow]
  constructor
  · rintro ⟨s', hrest⟩
    omega
  · intro h
    refine ⟨_, ?_, ?_, ?_, ?_, ?_, ?_, ?_, rfl⟩ <;> omega

theorem isSome_gvUpdateRefFromZdSp_iff {s : GvRef} (hs : s.Held) (sp : Within maxSpeedSp) :
    (gvUpdateRefFromZdSp s sp).isSome ↔ GvOk s (.zdSp sp) := by
  obtain ⟨sp, hsp⟩ := sp
  obtain ⟨hspMin, hspMax⟩ := abs_le.mp hsp
  obtain ⟨hzdMin, hzdMax⟩ := abs_le.mp hs.zd
  obtain ⟨hzddMin, hzddMax⟩ := abs_le.mp hs.zdd
  simp only [maxSpeedSp] at hspMin hspMax
  simp only [Option.isSome_iff_exists, gvUpdateRefFromZdSp, Option.bind_eq_bind,
    check_bind_eq_some_iff, check64_bind_eq_some_iff, Option.some.injEq, GvOk, zdErr,
    Fits, Fits64, gvRefInvThau, Int.shiftRight_eq_div_pow]
  constructor
  · rintro ⟨s', hrest⟩
    omega
  · intro h
    refine ⟨_, ?_, ?_, ?_, ?_, rfl⟩ <;> omega

theorem isSome_gvUpdate_iff (s : GvRef) (e : GvEvent) (hs : s.Held) :
    (gvUpdate s e).isSome ↔ GvOk s e := by
  cases e with
  | zSp sp => exact isSome_gvUpdateRefFromZSp_iff hs sp
  | zdSp sp => exact isSome_gvUpdateRefFromZdSp_iff hs sp

end Paparazzi.Rotorcraft.GuidanceVRef
