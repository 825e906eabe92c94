import Mathlib.Tactic.IntervalCases
import Paparazzi.Library.Fallible
import Paparazzi.Rotorcraft.GuidanceV

/-!
Runs of the vertical loop: the estimate stays within its limits as they are stored, and nothing
overflows while the altitude of the reference can be compared with the measured one.
-/

namespace Paparazzi.Rotorcraft.GuidanceVRuns

open Paparazzi.Library.Checked32
open Paparazzi.Library.FallibleRun
open Paparazzi.Rotorcraft.GuidanceV
open Paparazzi.Rotorcraft.GuidanceVAdapt
open Paparazzi.Rotorcraft.GuidanceVRef

/-- After an event: the estimate within the stored limits, the covariance positive, neither divisor
0, and the command in range behind a call with the hover loop. -/
structure Right (s : VState) (e : Event) (s' : VState) : Prop where
  x : 17144 ≤ s'.adapt.x ∧ s'.adapt.x ≤ 164584488
  p : 0 < s'.adapt.p ∧ s'.adapt.p ≤ gvAdaptP0
  invM : s'.adapt.x >>> (6 : ℕ) ≠ 0
  error : ∃ d, gvAdaptError (s'.adapt.p + 13) s'.zdRef = some d ∧ d ≠ 0
  deltaT : ∀ m inFlight, e = .run m inFlight → s.runsHoverLoop →
    0 ≤ s'.deltaT ∧ s'.deltaT ≤ maxPprz

theorem right_of_step {a : Airframe} {s s' : VState} {e : Event} (hs : s.Valid)
    (h : step a s e = some s') : Right s e s' := by
  have hvalid := valid_of_step hs h
  have hx := hvalid.adapt.x
  have hp := hvalid.adapt.p
  obtain ⟨d, hd, hpos, -⟩ := exists_gvAdaptError (p := s'.adapt.p + 13)
    ⟨by omega, by rw [gvAdaptP0] at hp; omega⟩ hvalid.zdRef
  refine ⟨hx, hp, ?_, ⟨d, hd, by omega⟩, ?_⟩
  · rw [Int.shiftRight_eq_div_pow]
    omega
  · rintro m inFlight rfl hruns
    obtain ⟨t, adapt, ht, hcalled⟩ := called_of_guidanceVRun hs h
    exact hcalled.deltaT ((setReference_eq_some ht).runs ▸ hruns)

/-- In the runs of the vertical loop every event has a value, with the estimator within its stored
limits and the command in range, if and only if in every call the reference can be updated and its
altitude compared with the measured one. -/
theorem guidanceV_runs_iff (a : Airframe) (es : List Event) :
    EveryStep (step a) Right guidanceVInit es ↔ Meets (step a) StepOk guidanceVInit es := by
  apply everyStep_iff_meets (isSome_step_iff a)
  · exact fun s e s' hs h => valid_of_step hs h
  · exact fun s e s' hs h => right_of_step hs h
  · exact valid_guidanceVInit

/-! ### Down to the lower limit -/

/-- Level at the origin, with 4 m/s² downwards. -/
def sinking : Measured where
  accelZ := 4 * 2 ^ 10
  posZ := 0
  speedZ := 0
  phi := 0
  theta := 0
  posZ_mem := by decide
  speedZ_mem := by decide
  phi_mem := by decide
  theta_mem := by decide

/-- Hovering with 90 % of thrust commanded before each call. -/
def sinkingRun (n : ℕ) : List Event :=
  .modeChanged .hover sinking ::
    (List.replicate n [Event.command 8640, Event.run sinking true]).flatten

/-- What a call of such a run does to estimate and covariance. -/
def sink (xp : ℤ × ℤ) : ℤ × ℤ :=
  let k := (xp.2 + 13) * 2 ^ 12 / (xp.2 + 13 + 13107200)
  let x := xp.1 + k * (11281 - xp.1) / 2 ^ 12
  let p := xp.2 + 13 - k * (xp.2 + 13) / 2 ^ 12
  (if x > 164584488 then 164584488 else if x < 17145 then 17144 else x,
    if p > 26214 then 26214 else p)

/-- The state of such a run behind `n` calls. -/
structure Sinking (n : ℕ) (s : VState) : Prop where
  valid : s.Valid
  mode : s.mode = .hover
  ref : s.ref = ⟨0, 0, 0⟩
  zSp : s.zSp = 0
  zdRef : s.zdRef = 0
  adapt : (s.adapt.x, s.adapt.p) = sink^[n] (50331, 26214)

theorem gvAdaptRun_sinking {s : Adapt} (hs : s.Valid) :
    ∃ s', gvAdaptRun s (4 * 2 ^ 10) 8640 0 = some s' ∧ s'.Valid ∧
      (s'.x, s'.p) = sink (s.x, s.p) := by
  have hp := hs.p
  rw [gvAdaptP0] at hp
  have hshift : Fits ((s.p + 13) * 2 ^ 12) := ⟨by omega, by omega⟩
  have hsum : Fits (s.p + 13 + 13107200) := ⟨by omega, by omega⟩
  have herror : gvAdaptError (s.p + 13) 0 = some (s.p + 13 + 13107200) := by
    have heq : s.p + 13 + gvAdaptMeasNoiseHover + 0 * gvAdaptMeasNoiseOfZd =
        s.p + 13 + 13107200 := by
      rw [gvAdaptMeasNoiseHover]
      ring
    change check (s.p + 13 + gvAdaptMeasNoiseHover + 0 * gvAdaptMeasNoiseOfZd) = _
    rw [heq, check_of_fits hsum]
  have hgain : gvAdaptGain (s.p + 13) 0 =
      some ((s.p + 13) * 2 ^ 12 / (s.p + 13 + 13107200)) := by
    rw [gvAdaptGain, herror, Option.bind_eq_bind, Option.bind_some, check_of_fits hshift]
    exact div_of_nonneg (by omega) hshift (by omega)
  have hrest : |(0 : ℤ)| ≤ maxSpeed := by decide
  obtain ⟨k, hk, hkMem⟩ := exists_gvAdaptGain (p := s.p + 13) ⟨by omega, by omega⟩ hrest
  obtain rfl := Option.some.inj (hk.symm.trans hgain)
  have hmeas : gvAdaptMeasure (4 * 2 ^ 10) 8640 = some 11281 := by decide
  refine ⟨_, ?_, valid_gvAdaptStep hs hkMem 11281, ?_⟩
  · rw [gvAdaptRun, if_neg (by decide)]
    exact gvAdaptUpdate_eq hs hmeas (by decide) hgain hkMem
  · rw [gvAdaptStep, boundReal_gvAdapt]
    rfl

theorem sinking_step {a : Airframe} {n : ℕ} {s : VState} (h : Sinking n s) :
    ∃ s', [Event.command 8640, Event.run sinking true].foldlM (step a) s = some s' ∧
      Sinking (n + 1) s' := by
  have hs : VState.Valid { s with thrust := 8640 } :=
    ⟨h.valid.adapt, h.valid.zdRef, h.valid.zSumErr⟩
  obtain ⟨adapt, hrun, hvalid, hsink⟩ := gvAdaptRun_sinking h.valid.adapt
  have hadapt : adaptInFlight { s with thrust := 8640 } sinking true =
      some { s with thrust := 8640, adapt := adapt } := by
    rw [adaptInFlight, if_pos rfl]
    change (gvAdaptRun s.adapt (4 * 2 ^ 10) 8640 s.zdRef).bind _ = _
    rw [h.zdRef, hrun]
    rfl
  have hset : setReference { s with thrust := 8640 } sinking =
      some { s with thrust := 8640, ref := ⟨0, 0, 0⟩ } := by
    have hupdate : gvUpdateRefFromZSp ⟨0, 0, 0⟩ 0 = some ⟨0, 0, 0⟩ := by decide
    simp only [setReference, h.mode, h.ref, h.zSp, hupdate]
    rfl
  have hnear : Fits ((0 : ℤ) >>> (18 : ℕ)) ∧ Fits ((0 : ℤ) >>> (18 : ℕ) - 0) := by decide
  obtain ⟨u, hu, hcalled⟩ := exists_guidanceVRun (a := a) hs hadapt hvalid hset fun _ => hnear
  refine ⟨u, ?_, hcalled.valid, ?_, hcalled.ref, ?_, ?_, ?_⟩
  · change (step a { s with thrust := 8640 } (.run sinking true)).bind _ = _
    rw [step, hu]
    rfl
  · exact hcalled.mode.trans h.mode
  · exact hcalled.zSp.trans h.zSp
  · apply hcalled.zdRef
    simp [VState.runsHoverLoop, h.mode]
  · rw [hcalled.adapt, hsink, Function.iterate_succ_apply', h.adapt]

theorem sinking_start : Sinking 0 (guidanceVModeChanged guidanceVInit .hover sinking) where
  valid := valid_guidanceVModeChanged valid_guidanceVInit _ _
  mode := rfl
  ref := rfl
  zSp := rfl
  zdRef := rfl
  adapt := rfl

theorem exists_sinkingRun (a : Airframe) (n : ℕ) :
    ∃ s, (sinkingRun n).foldlM (step a) guidanceVInit = some s ∧ Sinking n s := by
  change ∃ s, (List.replicate n [Event.command 8640, Event.run sinking true]).flatten.foldlM
    (step a) (guidanceVModeChanged guidanceVInit .hover sinking) = some s ∧ Sinking n s
  induction n with
  | zero => exact ⟨_, rfl, sinking_start⟩
  | succ n ih =>
      obtain ⟨s, hs, hsinking⟩ := ih
      obtain ⟨s', hs', hnext⟩ := sinking_step (a := a) hsinking
      refine ⟨s', ?_, hnext⟩
      rw [List.replicate_succ', List.flatten_append, List.foldlM_append, hs]
      exact hs'

/-- The covariance stays large enough for a gain of 1, which moves the estimate. -/
theorem sink_mem {xp : ℤ × ℤ} (hx : 17144 ≤ xp.1 ∧ xp.1 ≤ 50331) (hp : 3200 ≤ xp.2 ∧ xp.2 ≤ 26214) :
    (17144 ≤ (sink xp).1 ∧ (sink xp).1 ≤ max 17144 (xp.1 - 1)) ∧
      3200 ≤ (sink xp).2 ∧ (sink xp).2 ≤ 26214 := by
  have hlow : 1 ≤ (xp.2 + 13) * 2 ^ 12 / (xp.2 + 13 + 13107200) := by
    apply Int.le_ediv_of_mul_le (by omega)
    omega
  have hhigh : (xp.2 + 13) * 2 ^ 12 / (xp.2 + 13 + 13107200) < 9 := by
    apply Int.ediv_lt_of_lt_mul (by omega)
    omega
  have hsmall : xp.2 ≤ 12000 → (xp.2 + 13) * 2 ^ 12 / (xp.2 + 13 + 13107200) < 4 := by
    intro hle
    apply Int.ediv_lt_of_lt_mul (by omega)
    omega
  rw [sink]
  generalize (xp.2 + 13) * 2 ^ 12 / (xp.2 + 13 + 13107200) = k at hlow hhigh hsmall
  interval_cases k <;> omega

/-- Each call takes at least one unit off the estimate. -/
theorem sink_iterate_mem (n : ℕ) :
    (17144 ≤ (sink^[n] (50331, 26214)).1 ∧
      (sink^[n] (50331, 26214)).1 ≤ max 17144 (50331 - n)) ∧
    3200 ≤ (sink^[n] (50331, 26214)).2 ∧ (sink^[n] (50331, 26214)).2 ≤ 26214 := by
  induction n with
  | zero => decide
  | succ n ih =>
      obtain ⟨⟨hxLow, hxHigh⟩, hp⟩ := ih
      rw [Function.iterate_succ_apply']
      obtain ⟨⟨hlow, hhigh⟩, hpNext⟩ := sink_mem ⟨hxLow, by omega⟩ hp
      exact ⟨⟨hlow, by omega⟩, hpNext⟩

/-! ### Away from the measured altitude -/

/-- On the ground at the origin, climbing at 3 m/s. -/
def climbing : Measured where
  accelZ := 0
  posZ := 0
  speedZ := 3 * 2 ^ 19
  phi := 0
  theta := 0
  posZ_mem := by decide
  speedZ_mem := by decide
  phi_mem := by decide
  theta_mem := by decide

/-- 20 km away. -/
def away : Measured where
  accelZ := 0
  posZ := -20000 * 2 ^ 8
  speedZ := 3 * 2 ^ 19
  phi := 0
  theta := 0
  posZ_mem := by decide
  speedZ_mem := by decide
  phi_mem := by decide
  theta_mem := by decide

/-- A reference that moves at 3 m/s all the time. -/
def driftingRun (n : ℕ) : List Event :=
  .modeChanged .climb climbing :: .setPoints 0 (3 * 2 ^ 19) ::
    List.replicate n (Event.run away false)

/-- The state of such a run behind `n` calls. -/
structure Drifting (n : ℕ) (s : VState) : Prop where
  valid : s.Valid
  mode : s.mode = .climb
  zdSp : s.zdSp = 3 * 2 ^ 19
  ref : s.ref = ⟨393216 * n, 393216, 0⟩

theorem gvUpdate_drifting {z : ℤ} (h : Fits64 (z + 393216)) :
    gvUpdateRefFromZdSp ⟨z, 393216, 0⟩ (3 * 2 ^ 19) = some ⟨z + 393216, 393216, 0⟩ := by
  have hcheck : check64 (z + 393216) = some (z + 393216) := if_pos h
  rw [gvUpdateRefFromZdSp, hcheck]
  rfl

theorem setReference_drifting {n : ℕ} {s : VState} (h : Drifting n s) (hn : n < 2 ^ 32) :
    setReference s away = some { s with ref := ⟨393216 * (n + 1 : ℕ), 393216, 0⟩ } := by
  have hfits : Fits64 (393216 * (n : ℤ) + 393216) := ⟨by omega, by omega⟩
  have hnext : 393216 * (n : ℤ) + 393216 = 393216 * (n + 1 : ℕ) := by
    push_cast
    ring
  simp only [setReference, h.mode, h.ref, h.zdSp, gvUpdate_drifting hfits, hnext]
  rfl

theorem drifting_step {a : Airframe} {n : ℕ} {s : VState} (h : Drifting n s)
    (hn : n < 1428242431) :
    ∃ s', step a s (.run away false) = some s' ∧ Drifting (n + 1) s' := by
  have hset := setReference_drifting h (by omega)
  have hnear : Fits ((393216 * (n + 1 : ℕ) : ℤ) >>> (18 : ℕ)) ∧
      Fits ((393216 * (n + 1 : ℕ) : ℤ) >>> (18 : ℕ) - -20000 * 2 ^ 8) := by
    rw [Int.shiftRight_eq_div_pow]
    exact ⟨⟨by omega, by omega⟩, by omega, by omega⟩
  have hadapt : adaptInFlight s away false = some { s with adapt := s.adapt } := rfl
  obtain ⟨u, hu, hcalled⟩ := exists_guidanceVRun (a := a) h.valid hadapt h.valid.adapt hset
    fun _ => hnear
  refine ⟨u, hu, hcalled.valid, ?_, ?_, hcalled.ref⟩
  · exact hcalled.mode.trans h.mode
  · exact hcalled.zdSp.trans h.zdSp

theorem drifting_start :
    Drifting 0 { guidanceVModeChanged guidanceVInit .climb climbing with zSp := 0
                                                                         zdSp := 3 * 2 ^ 19 } where
  valid := by
    have hvalid := valid_guidanceVModeChanged valid_guidanceVInit .climb climbing
    exact ⟨hvalid.adapt, hvalid.zdRef, hvalid.zSumErr⟩
  mode := rfl
  zdSp := rfl
  ref := rfl

theorem exists_driftingRun (a : Airframe) {n : ℕ} (hn : n < 1428242432) :
    ∃ s, (driftingRun n).foldlM (step a) guidanceVInit = some s ∧ Drifting n s := by
  change ∃ s, (List.replicate n (Event.run away false)).foldlM (step a)
    { guidanceVModeChanged guidanceVInit .climb climbing with zSp := 0, zdSp := 3 * 2 ^ 19 } =
      some s ∧ Drifting n s
  induction n with
  | zero => exact ⟨_, rfl, drifting_start⟩
  | succ n ih =>
      obtain ⟨s, hs, hdrifting⟩ := ih (by omega)
      obtain ⟨s', hs', hnext⟩ := drifting_step (a := a) hdrifting (by omega)
      refine ⟨s', ?_, hnext⟩
      rw [List.replicate_succ', List.foldlM_append, hs]
      change (step a s (.run away false)).bind _ = _
      rw [hs']
      rfl

/-- The reference can still be updated, but the altitude error overflows. -/
theorem drifting_overflow {a : Airframe} {s : VState} (h : Drifting 1428242431 s) :
    (setReference s away).isSome ∧ step a s (.run away false) = none := by
  have hset := setReference_drifting h (by norm_num)
  refine ⟨by rw [hset]; rfl, ?_⟩
  rw [Option.eq_none_iff_forall_ne_some]
  intro u hu
  obtain ⟨t, ht, hnear⟩ := (isSome_guidanceVRun_iff a h.valid away false).mp (by
    rw [show guidanceVRun a s away false = some u from hu]
    rfl)
  obtain rfl := Option.some.inj (hset.symm.trans ht)
  have hfar : (393216 * (1428242431 + 1 : ℕ) : ℤ) >>> (18 : ℕ) - -20000 * 2 ^ 8 < 2 ^ 31 :=
    (hnear (by simp [VState.runsHoverLoop, h.mode])).2.2
  revert hfar
  decide

/-- The gains of a small quadrotor, and the entry of the table of sines for level flight. -/
def quadrotor : Airframe where
  kp := 150
  kd := 80
  ki := 20
  kp_mem := by decide
  kd_mem := by decide
  ki_mem := by decide
  pprzTrigInt i := if i = 6433 then 16383 else 0
  trig_mem i _ := by
    split_ifs
    · decide
    · decide

/-- The estimate goes below the lower limit, which is stored without its fraction; and after 32
days of climbing away from the measured altitude the altitude error overflows. -/
theorem guidanceV_limits_fail :
    (∃ s, (sinkingRun 33187).foldlM (step quadrotor) guidanceVInit = some s ∧
      (s.adapt.x : ℚ) < gvAdaptMinOut) ∧
    ∃ s, (driftingRun 1428242431).foldlM (step quadrotor) guidanceVInit = some s ∧
      (setReference s away).isSome ∧ step quadrotor s (.run away false) = none := by
  constructor
  · obtain ⟨s, hs, hsinking⟩ := exists_sinkingRun quadrotor 33187
    refine ⟨s, hs, ?_⟩
    have hx := (sink_iterate_mem 33187).1
    rw [← hsinking.adapt] at hx
    have heq : s.adapt.x = 17144 := by
      obtain ⟨hlow, hhigh⟩ := hx
      norm_num at hlow hhigh
      omega
    rw [heq]
    norm_num [gvAdaptMinOut, gvAdaptMaxOut]
  · obtain ⟨s, hs, hdrifting⟩ := exists_driftingRun quadrotor (n := 1428242431) (by norm_num)
    exact ⟨s, hs, drifting_overflow hdrifting⟩

end Paparazzi.Rotorcraft.GuidanceVRuns
