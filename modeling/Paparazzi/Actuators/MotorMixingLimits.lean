import Mathlib.Algebra.Order.Ring.Abs
import Mathlib.Tactic.Ring
import Paparazzi.Actuators.MotorMixing
import Paparazzi.Library.Numerals

/-!
What holds of the motor commands after any sequence of calls: no overflow, the range, the
torques, and how fast a command rises.
-/

namespace Paparazzi.Actuators.Mixing

open Paparazzi.Library.Checked32
open Paparazzi.Library.Machine

attribute [local instance] Library.Numerals.neZero_two

/-! ### Loops over the motors -/

section

variable {n : ℕ}

theorem foldlM_update {values g : Fin n → ℤ} {body : ℤ → Fin n → Option ℤ} {l : List (Fin n)}
    (hnodup : l.Nodup) (h : ∀ j ∈ l, body (values j) j = some (g j)) :
    l.foldlM (fun values j => (body (values j) j).map (Function.update values j)) values =
      some fun j => if j ∈ l then g j else values j := by
  induction l generalizing values with
  | nil => simp
  | cons i l ih =>
      obtain ⟨hfresh, hnodup⟩ := List.nodup_cons.mp hnodup
      rw [List.foldlM_cons, h i List.mem_cons_self]
      have hrest : ∀ j ∈ l, body (Function.update values i (g i) j) j = some (g j) := by
        intro j hj
        have hne : j ≠ i := by
          rintro rfl
          exact hfresh hj
        rw [Function.update_of_ne hne]
        exact h j (List.mem_cons_of_mem _ hj)
      change l.foldlM _ (Function.update values i (g i)) = _
      rw [ih hnodup hrest]
      congr 1
      funext j
      by_cases hj : j = i
      · subst hj
        simp [hfresh]
      · simp [hj]

theorem forMotors_eq {values g : Fin n → ℤ} {body : ℤ → Fin n → Option ℤ}
    (h : ∀ j, body (values j) j = some (g j)) : forMotors values body = some g := by
  rw [forMotors, foldlM_update (List.nodup_finRange n) fun j _ => h j]
  simp

end

/-! ### The macro `Bound` -/

theorem bound_le {x min max : ℤ} (h : min ≤ max) : bound x min max ≤ max := by
  rw [bound]
  split_ifs <;> omega

theorem le_bound {x min max : ℤ} (h : min ≤ max) : min ≤ bound x min max := by
  rw [bound]
  split_ifs <;> omega

theorem bound_eq_self {x min max : ℤ} (hmin : min ≤ x) (hmax : x ≤ max) : bound x min max = x := by
  rw [bound]
  split_ifs <;> omega

/-- A bounded change does not go further than the change. -/
theorem bound_between {x min max : ℤ} (hmin : min ≤ 0) (hmax : 0 ≤ max) :
    (0 ≤ bound x min max ∧ bound x min max ≤ x) ∨ (x ≤ bound x min max ∧ bound x min max ≤ 0) := by
  rw [bound]
  split_ifs <;> omega

/-! ### Mixing -/

section

variable (a : Airframe)

/-- The command of a motor before saturation, in exact arithmetic. -/
def unsaturated (trim : Fin a.nbMotor → ℤ) (inCmd : InCmd) (i : Fin a.nbMotor) : ℤ :=
  motorMixingMinMotor +
    ((a.thrustCoef i * inCmd.thrust + a.rollCoef i * inCmd.roll + a.pitchCoef i * inCmd.pitch +
      a.yawCoef i * inCmd.yaw + trim i).tdiv a.scale *
        (motorMixingMaxMotor - motorMixingMinMotor)).tdiv maxPprz

/-- The commands are in `[-MAX_PPRZ, MAX_PPRZ]`. -/
structure InCmd.InRange (c : InCmd) : Prop where
  thrust : |c.thrust| ≤ maxPprz
  roll : |c.roll| ≤ maxPprz
  pitch : |c.pitch| ≤ maxPprz
  yaw : |c.yaw| ≤ maxPprz

variable {a}

theorem abs_product_le {coef command : ℤ} (hcoef : |coef| ≤ a.scale)
    (hcommand : |command| ≤ maxPprz) : |coef * command| ≤ maxPprz * a.scale := by
  rw [abs_mul, mul_comm]
  exact mul_le_mul hcommand hcoef (abs_nonneg _) (by decide)

theorem fits_of_abs_le_scale {z k : ℤ} (hk : k ≤ 5) (h : |z| ≤ k * (maxPprz * a.scale)) :
    Fits z := by
  have hscale := a.scale_fits
  have hnonneg : 0 ≤ maxPprz * a.scale := mul_nonneg (by decide) a.scale_pos.le
  have hle := mul_le_mul_of_nonneg_right hk hnonneg
  apply fits_of_abs_lt
  omega

theorem div_eq {x y : ℤ} (hy : y ≠ 0) (h : Fits (x.tdiv y)) : div x y = some (x.tdiv y) := by
  rw [div, if_neg hy, check_of_fits h]

theorem check_eq_of_abs_le {z k : ℤ} (hk : k ≤ 5) (h : |z| ≤ k * (maxPprz * a.scale)) :
    check z = some z :=
  check_of_fits (fits_of_abs_le_scale hk h)

/-- The second half of the mixing: the scale is taken out, the range of a motor is put in. -/
theorem scaled_eq {sum : ℤ} (hsum : |sum| ≤ 5 * (maxPprz * a.scale)) :
    (do
      let mixed ← div sum a.scale
      let scaled ← check (mixed * (motorMixingMaxMotor - motorMixingMinMotor))
      let command ← div scaled maxPprz
      check (motorMixingMinMotor + command)) =
      some (motorMixingMinMotor +
        (sum.tdiv a.scale * (motorMixingMaxMotor - motorMixingMinMotor)).tdiv maxPprz) ∧
    |motorMixingMinMotor +
      (sum.tdiv a.scale * (motorMixingMaxMotor - motorMixingMinMotor)).tdiv maxPprz| ≤
        5 * maxPprz := by
  have hmixed : |sum.tdiv a.scale| ≤ 5 * maxPprz := by
    apply abs_tdiv_le_of_le a.scale_pos
    calc |sum| ≤ 5 * (maxPprz * a.scale) := hsum
      _ = a.scale * (5 * maxPprz) := by ring
  have hscaled : |sum.tdiv a.scale * (motorMixingMaxMotor - motorMixingMinMotor)| ≤
      maxPprz * (5 * maxPprz) := by
    rw [abs_mul, mul_comm]
    exact mul_le_mul_of_nonneg_left hmixed (abs_nonneg _)
  have hcommand := abs_tdiv_le_of_le (by decide) hscaled
  have hdiv : div sum a.scale = some (sum.tdiv a.scale) := by
    apply div_eq a.scale_pos.ne' (fits_of_abs_lt (lt_of_le_of_lt hmixed (by decide)))
  have hcheck := check_of_fits (fits_of_abs_lt (lt_of_le_of_lt hscaled (by decide)))
  have hcommandFits := fits_of_abs_lt (lt_of_le_of_lt hcommand (by decide))
  have hlast := div_eq (by decide) hcommandFits
  simp only [motorMixingMinMotor, zero_add] at *
  simp only [hdiv, hcheck, hlast, check_of_fits hcommandFits, Option.bind_eq_bind,
    Option.bind_some]
  exact ⟨trivial, hcommand⟩

theorem mixCommand_eq {trim : Fin a.nbMotor → ℤ} {inCmd : InCmd} {i : Fin a.nbMotor}
    (htrim : |trim i| ≤ maxPprz * a.scale) (hcmd : inCmd.InRange) :
    mixCommand a trim inCmd i = some (unsaturated a trim inCmd i) ∧
      |unsaturated a trim inCmd i| ≤ 5 * maxPprz := by
  have hthrust := abs_product_le (a.thrustCoef_le i) hcmd.thrust
  have hroll := abs_product_le (a.rollCoef_le i) hcmd.roll
  have hpitch := abs_product_le (a.pitchCoef_le i) hcmd.pitch
  have hyaw := abs_product_le (a.yawCoef_le i) hcmd.yaw
  unfold unsaturated mixCommand
  generalize a.thrustCoef i * inCmd.thrust = thrust at *
  generalize a.rollCoef i * inCmd.roll = roll at *
  generalize a.pitchCoef i * inCmd.pitch = pitch at *
  generalize a.yawCoef i * inCmd.yaw = yaw at *
  have hsum₂ : |thrust + roll| ≤ 2 * (maxPprz * a.scale) := by
    have hadd := abs_add_le thrust roll
    omega
  have hsum₃ : |thrust + roll + pitch| ≤ 3 * (maxPprz * a.scale) := by
    have hadd := abs_add_le (thrust + roll) pitch
    omega
  have hsum₄ : |thrust + roll + pitch + yaw| ≤ 4 * (maxPprz * a.scale) := by
    have hadd := abs_add_le (thrust + roll + pitch) yaw
    omega
  have hsum₅ : |thrust + roll + pitch + yaw + trim i| ≤ 5 * (maxPprz * a.scale) := by
    have hadd := abs_add_le (thrust + roll + pitch + yaw) (trim i)
    omega
  rw [← one_mul (maxPprz * a.scale)] at hthrust hroll hpitch hyaw
  simp only [check_eq_of_abs_le (by decide) hthrust, check_eq_of_abs_le (by decide) hroll,
    check_eq_of_abs_le (by decide) hpitch, check_eq_of_abs_le (by decide) hyaw,
    check_eq_of_abs_le (by decide) hsum₂, check_eq_of_abs_le (by decide) hsum₃,
    check_eq_of_abs_le (by decide) hsum₄, check_eq_of_abs_le (by decide) hsum₅,
    Option.bind_eq_bind, Option.bind_some]
  exact scaled_eq hsum₅

/-- What the first loop leaves: the commands between `min_cmd` and `max_cmd`, which are commands
themselves unless there is no motor. -/
structure Mixed.Of (m : Mixed a.nbMotor) (u : Fin a.nbMotor → ℤ) : Prop where
  commands : m.commands = u
  minCmd_le : ∀ i, m.minCmd ≤ u i
  le_maxCmd : ∀ i, u i ≤ m.maxCmd
  minCmd : m.minCmd = int32Max ∨ ∃ i, u i = m.minCmd
  maxCmd : m.maxCmd = int32Min ∨ ∃ i, u i = m.maxCmd

/-- What the first loop does over some motors. -/
structure Mixed.Over (u : Fin a.nbMotor → ℤ) (l : List (Fin a.nbMotor))
    (m m' : Mixed a.nbMotor) : Prop where
  commands : ∀ i, m'.commands i = if i ∈ l then u i else m.commands i
  minCmd_le : m'.minCmd ≤ m.minCmd
  le_maxCmd : m.maxCmd ≤ m'.maxCmd
  between : ∀ i ∈ l, m'.minCmd ≤ u i ∧ u i ≤ m'.maxCmd
  minCmd : m'.minCmd = m.minCmd ∨ ∃ i, u i = m'.minCmd
  maxCmd : m'.maxCmd = m.maxCmd ∨ ∃ i, u i = m'.maxCmd

theorem mixMotor_over {trim : Fin a.nbMotor → ℤ} {inCmd : InCmd} {u : Fin a.nbMotor → ℤ}
    {j : Fin a.nbMotor} (hj : mixCommand a trim inCmd j = some (u j)) (m : Mixed a.nbMotor) :
    ∃ m', mixMotor a trim inCmd m j = some m' ∧ Mixed.Over u [j] m m' := by
  refine ⟨_, by rw [mixMotor, hj]; rfl, fun i => ?_, ?_, ?_, fun i hi => ?_, ?_, ?_⟩
  · by_cases hi : i = j
    · subst hi
      simp
    · simp [hi]
  · dsimp only
    split_ifs <;> omega
  · dsimp only
    split_ifs <;> omega
  · rw [List.mem_singleton.mp hi]
    dsimp only
    split_ifs <;> omega
  · dsimp only
    split_ifs
    · exact Or.inr ⟨j, rfl⟩
    · exact Or.inl rfl
  · dsimp only
    split_ifs
    · exact Or.inr ⟨j, rfl⟩
    · exact Or.inl rfl

theorem Mixed.Over.cons {u : Fin a.nbMotor → ℤ} {j : Fin a.nbMotor} {l : List (Fin a.nbMotor)}
    {m m₁ m' : Mixed a.nbMotor} (h : Over u [j] m m₁) (h' : Over u l m₁ m') :
    Over u (j :: l) m m' where
  commands i := by
    rw [h'.commands i, h.commands i]
    by_cases hi : i ∈ l
    · simp [hi]
    · simp [hi]
  minCmd_le := h'.minCmd_le.trans h.minCmd_le
  le_maxCmd := h.le_maxCmd.trans h'.le_maxCmd
  between i hi := by
    obtain rfl | hi := List.mem_cons.mp hi
    · obtain ⟨hmin, hmax⟩ := h.between i (List.mem_singleton_self i)
      exact ⟨h'.minCmd_le.trans hmin, hmax.trans h'.le_maxCmd⟩
    · exact h'.between i hi
  minCmd := by
    obtain heq | hexists := h'.minCmd
    · rw [heq]
      exact h.minCmd
    · exact Or.inr hexists
  maxCmd := by
    obtain heq | hexists := h'.maxCmd
    · rw [heq]
      exact h.maxCmd
    · exact Or.inr hexists

theorem foldlM_mixMotor {trim : Fin a.nbMotor → ℤ} {inCmd : InCmd} {u : Fin a.nbMotor → ℤ}
    (hu : ∀ i, mixCommand a trim inCmd i = some (u i)) (l : List (Fin a.nbMotor))
    (m : Mixed a.nbMotor) :
    ∃ m', l.foldlM (mixMotor a trim inCmd) m = some m' ∧ Mixed.Over u l m m' := by
  induction l generalizing m with
  | nil => exact ⟨m, rfl, by simp, le_rfl, le_rfl, by simp, Or.inl rfl, Or.inl rfl⟩
  | cons j l ih =>
      obtain ⟨m₁, hstep, hfirst⟩ := mixMotor_over (hu j) m
      obtain ⟨m', hfold, hrest⟩ := ih m₁
      refine ⟨m', ?_, hfirst.cons hrest⟩
      rw [List.foldlM_cons, hstep]
      exact hfold

theorem mixMotors_spec {s : MotorMixing a.nbMotor} {inCmd : InCmd} {u : Fin a.nbMotor → ℤ}
    (hu : ∀ i, mixCommand a s.trim inCmd i = some (u i)) :
    ∃ m, mixMotors a s inCmd = some m ∧ m.Of u := by
  obtain ⟨m, hfold, hover⟩ :=
    foldlM_mixMotor hu (List.finRange a.nbMotor) ⟨s.commands, int32Max, int32Min⟩
  refine ⟨m, hfold, funext fun i => ?_, fun i => ?_, fun i => ?_, hover.minCmd, hover.maxCmd⟩
  · rw [hover.commands i, if_pos (List.mem_finRange i)]
  · exact (hover.between i (List.mem_finRange i)).1
  · exact (hover.between i (List.mem_finRange i)).2

/-! ### Saturation -/

theorem offsetCommands_eq {n : ℕ} {offset : ℤ} {commands : Fin n → ℤ}
    (h : ∀ i, Fits (commands i + offset)) :
    offsetCommands offset commands = some fun i => commands i + offset :=
  forMotors_eq fun i => check_of_fits (h i)

/-- The commands fit into the range of a motor after an offset that is allowed. -/
structure Saturable (u : Fin a.nbMotor → ℤ) : Prop where
  span : ∀ i j, u i - u j ≤ motorMixingMaxMotor - motorMixingMinMotor
  raise : ∀ i, motorMixingMinMotor - u i ≤ a.maxSaturationOffset
  lower : ∀ i, u i - motorMixingMaxMotor ≤ a.maxSaturationOffset

theorem boundAbs_of_nonneg {x max : ℤ} (hx : 0 ≤ x) (hmax : 0 ≤ max) :
    0 ≤ boundAbs x max ∧ boundAbs x max ≤ x ∧ (x ≤ max → boundAbs x max = x) := by
  rw [boundAbs, bound]
  split_ifs <;> omega

theorem boundAbs_of_nonpos {x max : ℤ} (hx : x ≤ 0) (hmax : 0 ≤ max) :
    x ≤ boundAbs x max ∧ boundAbs x max ≤ 0 ∧ (-max ≤ x → boundAbs x max = x) := by
  rw [boundAbs, bound]
  split_ifs <;> omega

variable {m : Mixed a.nbMotor} {u : Fin a.nbMotor → ℤ}

/-- The offset upwards, which is not larger than needed. -/
theorem raise_spec (hm : m.Of u) (hu : ∀ i, |u i| ≤ 5 * maxPprz) :
    ∃ up, raiseCommands a m = some (fun i => u i + up) ∧ 0 ≤ up ∧ up ≤ 5 * maxPprz ∧
      (motorMixingMinMotor ≤ m.minCmd → up = 0) ∧
      (m.minCmd < motorMixingMinMotor → motorMixingMinMotor - m.minCmd ≤ a.maxSaturationOffset →
        up = motorMixingMinMotor - m.minCmd) := by
  have hzero : motorMixingMinMotor = 0 := rfl
  have hpprz : maxPprz = 9600 := rfl
  by_cases hlow : m.minCmd < motorMixingMinMotor
  · obtain hmax | ⟨i, hi⟩ := hm.minCmd
    · rw [hmax] at hlow
      exact absurd hlow (by decide)
    · have hmin := (abs_le.mp (hu i)).1
      obtain ⟨hpos, hle, heq⟩ :=
        boundAbs_of_nonneg (x := motorMixingMinMotor - m.minCmd) (by omega) a.maxSaturationOffset_ge
      refine ⟨_, ?_, hpos, by omega, by omega, fun _ => heq⟩
      rw [raiseCommands, if_pos hlow, check_of_fits ⟨by omega, by omega⟩, hm.commands]
      apply offsetCommands_eq
      intro j
      obtain ⟨hlo, hhi⟩ := abs_le.mp (hu j)
      exact ⟨by omega, by omega⟩
  · refine ⟨0, ?_, le_rfl, by decide, fun _ => rfl, fun h => absurd h hlow⟩
    simp [raiseCommands, hlow, hm.commands]

/-- The offset downwards. -/
theorem lower_spec (hm : m.Of u) (hu : ∀ i, |u i| ≤ 5 * maxPprz) {up : ℤ} (hup : 0 ≤ up)
    (hle : up ≤ 5 * maxPprz) :
    ∃ down, lowerCommands a m (fun i => u i + up) = some (fun i => u i + (up + down)) ∧
      (m.maxCmd ≤ motorMixingMaxMotor → down = 0) ∧
      (m.maxCmd > motorMixingMaxMotor → m.maxCmd - motorMixingMaxMotor ≤ a.maxSaturationOffset →
        down = motorMixingMaxMotor - m.maxCmd) := by
  have hrange : motorMixingMaxMotor = 9600 := rfl
  have hpprz : maxPprz = 9600 := rfl
  by_cases hhigh : m.maxCmd > motorMixingMaxMotor
  · obtain hmin | ⟨i, hi⟩ := hm.maxCmd
    · rw [hmin] at hhigh
      exact absurd hhigh (by decide)
    · have hmax := (abs_le.mp (hu i)).2
      obtain ⟨hle', hneg, heq⟩ :=
        boundAbs_of_nonpos (x := motorMixingMaxMotor - m.maxCmd) (by omega) a.maxSaturationOffset_ge
      refine ⟨_, ?_, by omega, fun _ h => heq (by omega)⟩
      simp only [← add_assoc]
      rw [lowerCommands, if_pos hhigh, check_of_fits ⟨by omega, by omega⟩]
      apply offsetCommands_eq
      intro j
      obtain ⟨hlo, hhi⟩ := abs_le.mp (hu j)
      exact ⟨by omega, by omega⟩
  · refine ⟨0, ?_, fun _ => rfl, fun h => absurd h hhigh⟩
    simp [lowerCommands, hhigh]

/-- The two offsets are one, which brings the commands into the range if one can. -/
theorem saturate_spec (hm : m.Of u) (hu : ∀ i, |u i| ≤ 5 * maxPprz) :
    ∃ offset, (raiseCommands a m).bind (lowerCommands a m) = some (fun i => u i + offset) ∧
      (Saturable u → ∀ i, motorMixingMinMotor ≤ u i + offset ∧
        u i + offset ≤ motorMixingMaxMotor) := by
  obtain ⟨up, hraise, hup, hle, hupZero, hupEq⟩ := raise_spec hm hu
  obtain ⟨down, hlower, hdownZero, hdownEq⟩ := lower_spec hm hu hup hle
  refine ⟨up + down, by rw [hraise, Option.bind_some, hlower], fun hsat i => ?_⟩
  have hzero : motorMixingMinMotor = 0 := rfl
  have hmini := hm.minCmd_le i
  have hmaxi := hm.le_maxCmd i
  by_cases hlow : m.minCmd < motorMixingMinMotor
  · obtain hmax | ⟨j, hj⟩ := hm.minCmd
    · rw [hmax] at hlow
      exact absurd hlow (by decide)
    · have hraised := hupEq hlow (by rw [← hj]; exact hsat.raise j)
      have hspan := hsat.span i j
      -- With the span of the range, the highest command does not exceed it as well.
      have hhigh : m.maxCmd ≤ motorMixingMaxMotor := by
        obtain hmin | ⟨k, hk⟩ := hm.maxCmd
        · rw [hmin]
          decide
        · have hspan' := hsat.span k j
          omega
      have hnot := hdownZero hhigh
      omega
  · have hnot := hupZero (not_lt.mp hlow)
    by_cases hhigh : m.maxCmd > motorMixingMaxMotor
    · obtain hmin | ⟨j, hj⟩ := hm.maxCmd
      · rw [hmin] at hhigh
        exact absurd hhigh (by decide)
      · have hlowered := hdownEq hhigh (by rw [← hj]; exact hsat.lower j)
        have hspan := hsat.span j i
        omega
    · have hnot' := hdownZero (not_lt.mp hhigh)
      omega

end

/-! ### A call -/

section

variable {a : Airframe}

/-- The commands after `bound_commands`, of motors that are overridden and others. -/
def clipped {n : ℕ} (overrideOn : Bool) (s : MotorMixing n) (commands : Fin n → ℤ)
    (i : Fin n) : ℤ :=
  bound (if overrideOn = true ∧ s.overrideEnabled i = true then s.overrideValue i else commands i)
    motorMixingMinMotor motorMixingMaxMotor

/-- The commands after `bound_commands_step`. -/
def limited (a : Airframe) (s : MotorMixing a.nbMotor) (commands : Fin a.nbMotor → ℤ)
    (i : Fin a.nbMotor) : ℤ :=
  match a.stepLimits with
  | none => commands i
  | some limits =>
      if s.initialized then
        s.prevCommands i + bound (commands i - s.prevCommands i) limits.maxNegativeMotorStep
          limits.maxPositiveMotorStep
      else commands i

theorem limited_of_some {s : MotorMixing a.nbMotor} {limits : StepLimits}
    (hlimits : a.stepLimits = some limits) (commands : Fin a.nbMotor → ℤ) (i : Fin a.nbMotor) :
    limited a s commands i =
      if s.initialized then
        s.prevCommands i + bound (commands i - s.prevCommands i) limits.maxNegativeMotorStep
          limits.maxPositiveMotorStep
      else commands i := by
  rw [limited, hlimits]

def InMotorRange {n : ℕ} (commands : Fin n → ℤ) : Prop :=
  ∀ i, motorMixingMinMotor ≤ commands i ∧ commands i ≤ motorMixingMaxMotor

/-- The trims are bounded, and the remembered commands were in the range. -/
structure Tracked (s : MotorMixing a.nbMotor) : Prop where
  trim : ∀ i, |s.trim i| ≤ maxPprz * a.scale
  prevCommands : s.initialized = true → InMotorRange s.prevCommands

theorem inMotorRange_clipped {n : ℕ} (overrideOn : Bool) (s : MotorMixing n)
    (commands : Fin n → ℤ) : InMotorRange (clipped overrideOn s commands) :=
  fun _ => ⟨le_bound (by decide), bound_le (by decide)⟩

/-- A limited command lies between the remembered and the new one. -/
theorem inMotorRange_limited {s : MotorMixing a.nbMotor} {commands : Fin a.nbMotor → ℤ}
    (hs : Tracked s) (h : InMotorRange commands) : InMotorRange (limited a s commands) := by
  intro i
  obtain ⟨hlo, hhi⟩ := h i
  rw [limited]
  split
  · exact ⟨hlo, hhi⟩
  · rename_i limits hlimits
    split_ifs with hinit
    · obtain ⟨hprevLo, hprevHi⟩ := hs.prevCommands hinit i
      obtain ⟨h₁, h₂⟩ | ⟨h₁, h₂⟩ :=
        bound_between (x := commands i - s.prevCommands i) limits.negative_le limits.positive_ge
      · exact ⟨by omega, by omega⟩
      · exact ⟨by omega, by omega⟩
    · exact ⟨hlo, hhi⟩

theorem boundCommands_eq {n : ℕ} (commands : Fin n → ℤ) :
    boundCommands commands =
      some fun i => bound (commands i) motorMixingMinMotor motorMixingMaxMotor :=
  forMotors_eq fun _ => rfl

theorem overrideCommands_eq {n : ℕ} (overrideOn : Bool) (s : MotorMixing n)
    (commands : Fin n → ℤ) :
    overrideCommands overrideOn s commands =
      some fun i => if overrideOn = true ∧ s.overrideEnabled i = true then s.overrideValue i
        else commands i := by
  cases overrideOn with
  | false => simp [overrideCommands]
  | true =>
      rw [overrideCommands, if_pos rfl]
      apply forMotors_eq
      intro i
      simp

theorem fits_of_inMotorRange {x y : ℤ} (hx : motorMixingMinMotor ≤ x ∧ x ≤ motorMixingMaxMotor)
    (hy : motorMixingMinMotor ≤ y ∧ y ≤ motorMixingMaxMotor) : Fits (x - y) ∧ Fits x := by
  have hzero : motorMixingMinMotor = 0 := rfl
  have hrange : motorMixingMaxMotor = 9600 := rfl
  exact ⟨⟨by omega, by omega⟩, by omega, by omega⟩

theorem boundCommandsStep_eq {s : MotorMixing a.nbMotor} (hs : Tracked s)
    (h : InMotorRange s.commands) :
    ∃ s', boundCommandsStep a s = some s' ∧ s'.commands = limited a s s.commands ∧
      s'.trim = s.trim ∧ Tracked s' ∧
      (a.stepLimits.isSome = true → s'.initialized = true ∧ s'.prevCommands = s'.commands) := by
  have hrange := inMotorRange_limited hs h
  rw [boundCommandsStep]
  cases hlimits : a.stepLimits with
  | none =>
      refine ⟨s, rfl, ?_, rfl, hs, fun h => absurd h Bool.false_ne_true⟩
      funext i
      rw [limited, hlimits]
  | some limits =>
      have hloop : limitCommands a limits s = some (limited a s s.commands) := by
        rw [limitCommands]
        split_ifs with hinit
        · apply forMotors_eq
          intro j
          have hj := hrange j
          rw [limited_of_some hlimits, if_pos hinit] at hj ⊢
          rw [check_of_fits (fits_of_inMotorRange (h j) (hs.prevCommands hinit j)).1]
          exact check_of_fits (fits_of_inMotorRange hj hj).2
        · congr 1
          funext i
          rw [limited_of_some hlimits, if_neg hinit]
      simp only [hloop, Option.bind_eq_bind, Option.bind_some]
      exact ⟨{ s with
        commands := limited a s s.commands
        initialized := true
        prevCommands := limited a s s.commands }, rfl, rfl, rfl, ⟨hs.trim, fun _ => hrange⟩,
        fun _ => ⟨rfl, rfl⟩⟩

theorem motorMixingRun_on {s : MotorMixing a.nbMotor} (hs : Tracked s) {inCmd : InCmd}
    (hcmd : inCmd.InRange) (overrideOn : Bool) :
    ∃ s' offset, motorMixingRun a true overrideOn inCmd s = some s' ∧ s'.trim = s.trim ∧
      Tracked s' ∧
      s'.commands =
        limited a s (clipped overrideOn s fun i => unsaturated a s.trim inCmd i + offset) ∧
      (a.stepLimits.isSome = true → s'.initialized = true ∧ s'.prevCommands = s'.commands) ∧
      (Saturable (unsaturated a s.trim inCmd) →
        InMotorRange fun i => unsaturated a s.trim inCmd i + offset) := by
  obtain ⟨m, hmix, hm⟩ := mixMotors_spec fun i => (mixCommand_eq (hs.trim i) hcmd).1
  obtain ⟨offset, hsaturate, hrange⟩ :=
    saturate_spec hm fun i => (mixCommand_eq (hs.trim i) hcmd).2
  obtain ⟨raised, hraise, hlower⟩ := Option.bind_eq_some_iff.mp hsaturate
  let commands := clipped overrideOn s fun i => unsaturated a s.trim inCmd i + offset
  let nbFailure :=
    if m.minCmd < motorMixingMinMotor ∧ m.maxCmd > motorMixingMaxMotor then s.nbFailure + 1
    else s.nbFailure
  obtain ⟨s', hstep, hcommands, htrim, hs', hprev⟩ :=
    boundCommandsStep_eq (s := { s with commands := commands, nbFailure := nbFailure })
      ⟨hs.trim, hs.prevCommands⟩ (inMotorRange_clipped _ _ _)
  refine ⟨s', offset, ?_, htrim, hs', hcommands, hprev, hrange⟩
  simp only [motorMixingRun, if_true, hmix, hraise, hlower, overrideCommands_eq, boundCommands_eq,
    Option.bind_eq_bind, Option.bind_some]
  exact hstep

/-- The overrides do not matter for what is tracked. -/
theorem Tracked.overridden {s : MotorMixing a.nbMotor} (hs : Tracked s) (c : Call a.nbMotor) :
    Tracked { s with overrideEnabled := c.overrideEnabled, overrideValue := c.overrideValue } :=
  ⟨hs.trim, hs.prevCommands⟩

/-- The commands that saturation and clipping leave in a call, before they are limited. -/
def IsSaturated (s : MotorMixing a.nbMotor) (c : Call a.nbMotor) (commands : Fin a.nbMotor → ℤ) :
    Prop :=
  Saturable (unsaturated a s.trim c.inCmd) →
    ∀ i j, ¬ (c.overrideOn = true ∧ c.overrideEnabled i = true) →
      ¬ (c.overrideOn = true ∧ c.overrideEnabled j = true) →
      commands i - commands j = unsaturated a s.trim c.inCmd i - unsaturated a s.trim c.inCmd j

theorem step_on {s : MotorMixing a.nbMotor} (hs : Tracked s) {c : Call a.nbMotor}
    (hon : c.motorsOn = true) (hcmd : c.inCmd.InRange) :
    ∃ s' commands, step a (some s) c = some s' ∧ s'.trim = s.trim ∧ Tracked s' ∧
      InMotorRange s'.commands ∧ IsSaturated s c commands ∧
      s'.commands = limited a s commands ∧
      (a.stepLimits.isSome = true → s'.initialized = true ∧ s'.prevCommands = s'.commands) := by
  obtain ⟨s', offset, hrun, htrim, hs', hcommands, hprev, hrange⟩ :=
    motorMixingRun_on (hs.overridden c) hcmd c.overrideOn
  refine ⟨s', _, ?_, htrim, hs', ?_, ?_, hcommands, hprev⟩
  · rw [step, hon]
    exact hrun
  · rw [hcommands]
    exact inMotorRange_limited (hs.overridden c) (inMotorRange_clipped _ _ _)
  · intro hsat i j hi hj
    obtain ⟨hilo, hihi⟩ := hrange hsat i
    obtain ⟨hjlo, hjhi⟩ := hrange hsat j
    rw [clipped, clipped, if_neg hi, if_neg hj, bound_eq_self hilo hihi, bound_eq_self hjlo hjhi]
    exact add_sub_add_right_eq_sub _ _ _

theorem step_off {s : MotorMixing a.nbMotor} {c : Call a.nbMotor} (hoff : c.motorsOn = false) :
    ∃ s', step a (some s) c = some s' ∧ s'.trim = s.trim ∧ s'.initialized = s.initialized ∧
      s'.prevCommands = s.prevCommands := by
  refine ⟨{ s with
    commands := fun _ => a.stopMotor
    overrideEnabled := c.overrideEnabled
    overrideValue := c.overrideValue }, ?_, rfl, rfl, rfl⟩
  rw [step, hoff]
  rfl

/-! ### Runs -/

theorem tracked_step {s : MotorMixing a.nbMotor} (hs : Tracked s) {c : Call a.nbMotor}
    (hcmd : c.inCmd.InRange) : ∃ s', step a (some s) c = some s' ∧ Tracked s' := by
  cases hon : c.motorsOn with
  | true =>
      obtain ⟨s', -, hstep, -, hs', -⟩ := step_on hs hon hcmd
      exact ⟨s', hstep, hs'⟩
  | false =>
      obtain ⟨s', hstep, htrim, hinit, hprev⟩ := step_off (s := s) hon
      refine ⟨s', hstep, ?_, ?_⟩
      · rw [htrim]
        exact hs.trim
      · rw [hinit, hprev]
        exact hs.prevCommands

theorem tracked_run {s : MotorMixing a.nbMotor} (hs : Tracked s) {calls : List (Call a.nbMotor)}
    (hcalls : ∀ c ∈ calls, c.inCmd.InRange) :
    ∃ s', run (step a) (some s) calls = some s' ∧ Tracked s' := by
  induction calls generalizing s with
  | nil => exact ⟨s, rfl, hs⟩
  | cons c calls ih =>
      obtain ⟨s₁, hstep, hs₁⟩ := tracked_step hs (hcalls c List.mem_cons_self)
      rw [run_cons, hstep]
      exact ih hs₁ fun c' hc' => hcalls c' (List.mem_cons_of_mem _ hc')

/-- The remembered commands stay while the motors are off. -/
theorem run_off {s : MotorMixing a.nbMotor} {off : List (Call a.nbMotor)}
    (hoff : ∀ c ∈ off, c.motorsOn = false) :
    ∃ s', run (step a) (some s) off = some s' ∧ s'.initialized = s.initialized ∧
      s'.prevCommands = s.prevCommands := by
  induction off generalizing s with
  | nil => exact ⟨s, rfl, rfl, rfl⟩
  | cons c off ih =>
      obtain ⟨s₁, hstep, -, hinit, hprev⟩ := step_off (s := s) (hoff c List.mem_cons_self)
      obtain ⟨s', hrun, hinit', hprev'⟩ :=
        ih (s := s₁) fun c' hc' => hoff c' (List.mem_cons_of_mem _ hc')
      rw [run_cons, hstep]
      exact ⟨s', hrun, hinit'.trans hinit, hprev'.trans hprev⟩

/-! ### From the initialization on -/

theorem abs_mul_le_scale {coef : ℤ} (trim : ℤ) (hcoef : |coef| ≤ a.scale) :
    |coef * trim| ≤ |trim| * a.scale := by
  rw [abs_mul, mul_comm]
  exact mul_le_mul_of_nonneg_left hcoef (abs_nonneg _)

/-- A trim of three parts, where nothing overflows. -/
theorem trim_eq {roll pitch yaw : ℤ} (h : |roll| + |pitch| + |yaw| ≤ maxPprz * a.scale) :
    (do
      let roll ← check roll
      let pitch ← check pitch
      let rollPitch ← check (roll + pitch)
      let yaw ← check yaw
      check (rollPitch + yaw)) = some (roll + pitch + yaw) ∧
    |roll + pitch + yaw| ≤ maxPprz * a.scale := by
  have hsum₂ := abs_add_le roll pitch
  have hsum₃ := abs_add_le (roll + pitch) yaw
  have hroll := abs_nonneg roll
  have hpitch := abs_nonneg pitch
  have hyaw := abs_nonneg yaw
  have hcheck {z : ℤ} (hz : |z| ≤ maxPprz * a.scale) : check z = some z :=
    check_eq_of_abs_le (k := 1) (by decide) (by rwa [one_mul])
  rw [hcheck (by omega), hcheck (by omega), hcheck (by omega)]
  simp only [Option.bind_eq_bind, Option.bind_some]
  rw [hcheck (by omega), Option.bind_some, hcheck (by omega)]
  exact ⟨rfl, by omega⟩

/-- Trims that together do not exceed a command do not overflow and are bounded. -/
theorem motorMixingInit_spec (h : |a.trimRoll| + |a.trimPitch| + |a.trimYaw| ≤ maxPprz) :
    ∃ s₀, motorMixingInit a = some s₀ ∧ ∀ i, |s₀.trim i| ≤ maxPprz * a.scale := by
  have hproduct := mul_le_mul_of_nonneg_right h a.scale_pos.le
  rw [add_mul, add_mul] at hproduct
  have htrim (i : Fin a.nbMotor) :
      |a.rollCoef i * a.trimRoll| + |a.pitchCoef i * a.trimPitch| + |a.yawCoef i * a.trimYaw| ≤
        maxPprz * a.scale := by
    have hroll := abs_mul_le_scale a.trimRoll (a.rollCoef_le i)
    have hpitch := abs_mul_le_scale a.trimPitch (a.pitchCoef_le i)
    have hyaw := abs_mul_le_scale a.trimYaw (a.yawCoef_le i)
    omega
  have hloop : (forMotors (fun _ => 0) fun _ i => do
      let roll ← check (a.rollCoef i * a.trimRoll)
      let pitch ← check (a.pitchCoef i * a.trimPitch)
      let rollPitch ← check (roll + pitch)
      let yaw ← check (a.yawCoef i * a.trimYaw)
      check (rollPitch + yaw)) =
      some fun i => a.rollCoef i * a.trimRoll + a.pitchCoef i * a.trimPitch +
        a.yawCoef i * a.trimYaw :=
    forMotors_eq fun i => (trim_eq (htrim i)).1
  refine ⟨_, Option.bind_eq_some_iff.mpr ⟨_, hloop, rfl⟩, fun i => ?_⟩
  exact (trim_eq (htrim i)).2

theorem tracked_init {s₀ : MotorMixing a.nbMotor} (hinit : motorMixingInit a = some s₀)
    (htrim : ∀ i, |s₀.trim i| ≤ maxPprz * a.scale) : Tracked s₀ := by
  obtain ⟨trim, -, hs₀⟩ := Option.bind_eq_some_iff.mp hinit
  cases hs₀
  exact ⟨htrim, fun h => absurd h Bool.false_ne_true⟩

/-- The limits leave the command of a motor as it is. -/
def Unlimited (s : MotorMixing a.nbMotor) (commands : Fin a.nbMotor → ℤ) (i : Fin a.nbMotor) :
    Prop :=
  ∀ limits, a.stepLimits = some limits → s.initialized = true →
    limits.maxNegativeMotorStep ≤ commands i - s.prevCommands i ∧
      commands i - s.prevCommands i ≤ limits.maxPositiveMotorStep

theorem limited_eq_self {s : MotorMixing a.nbMotor} {commands : Fin a.nbMotor → ℤ}
    {i : Fin a.nbMotor} (h : Unlimited s commands i) : limited a s commands i = commands i := by
  cases hlimits : a.stepLimits with
  | none => rw [limited, hlimits]
  | some limits =>
      rw [limited_of_some hlimits]
      split_ifs with hinit
      · obtain ⟨hlo, hhi⟩ := h limits hlimits hinit
        rw [bound_eq_self hlo hhi]
        exact add_sub_cancel _ _
      · rfl

/-- A motor's command does not rise faster than allowed. -/
theorem limited_le {s : MotorMixing a.nbMotor} {limits : StepLimits}
    (hlimits : a.stepLimits = some limits) (hinit : s.initialized = true)
    (commands : Fin a.nbMotor → ℤ) (i : Fin a.nbMotor) :
    limited a s commands i ≤ s.prevCommands i + limits.maxPositiveMotorStep := by
  rw [limited_of_some hlimits, if_pos hinit]
  have hle := bound_le (x := commands i - s.prevCommands i)
    (limits.negative_le.trans limits.positive_ge)
  omega

/-- After any sequence of calls, with whatever overrides, a call does not overflow; with motors on
its commands are in the range, saturation keeps the differences between motors that are not
overridden, and no command is more than the positive limit above that of the last call with motors
on. -/
theorem motor_mixing_run_limits {s₀ : MotorMixing a.nbMotor} (hinit : motorMixingInit a = some s₀)
    (htrim : ∀ i, |s₀.trim i| ≤ maxPprz * a.scale) (calls : List (Call a.nbMotor))
    (call : Call a.nbMotor) (hcalls : ∀ c ∈ calls, c.inCmd.InRange) (hcall : call.inCmd.InRange) :
    ∃ s s', run (step a) (some s₀) calls = some s ∧ step a (some s) call = some s' ∧
      (call.motorsOn = true →
        InMotorRange s'.commands ∧
        (∃ commands, IsSaturated s call commands ∧ s'.commands = limited a s commands ∧
          ∀ i, Unlimited s commands i → s'.commands i = commands i) ∧
        ∀ before on off limits, calls = before ++ on :: off → on.motorsOn = true →
          (∀ c ∈ off, c.motorsOn = false) → a.stepLimits = some limits →
          ∃ s₁, run (step a) (some s₀) (before ++ [on]) = some s₁ ∧
            ∀ i, s'.commands i ≤ s₁.commands i + limits.maxPositiveMotorStep) := by
  have hs₀ := tracked_init hinit htrim
  obtain ⟨s, hrun, hs⟩ := tracked_run hs₀ hcalls
  obtain ⟨s', hstep, -⟩ := tracked_step hs hcall
  refine ⟨s, s', hrun, hstep, fun hon => ?_⟩
  obtain ⟨s'', commands, hstep', -, -, hrange, hsaturated, hcommands, -⟩ := step_on hs hon hcall
  obtain rfl : s' = s'' := Option.some_injective _ (hstep.symm.trans hstep')
  refine ⟨hrange, ⟨commands, hsaturated, hcommands, fun i hi => ?_⟩, ?_⟩
  · rw [hcommands, limited_eq_self hi]
  · rintro before on off limits rfl hmotors hoff hlimits
    obtain ⟨sb, hbefore, hsb⟩ := tracked_run hs₀ fun c hc => hcalls c (List.mem_append_left _ hc)
    obtain ⟨s₁, -, hfirst, -, -, -, -, -, hprev⟩ :=
      step_on hsb hmotors (hcalls on (List.mem_append_right _ List.mem_cons_self))
    obtain ⟨hinit₁, hprev₁⟩ := hprev (by rw [hlimits]; rfl)
    obtain ⟨s₂, hlast, hinit₂, hprev₂⟩ := run_off (s := s₁) hoff
    obtain rfl : s = s₂ := by
      rw [run_append, hbefore, run_cons, hfirst, hlast] at hrun
      exact (Option.some_injective _ hrun).symm
    refine ⟨s₁, by rw [run_append, hbefore, run_cons, hfirst, run_nil], fun i => ?_⟩
    rw [hcommands, ← hprev₁, ← hprev₂]
    exact limited_le hlimits (hinit₂.trans hinit₁) commands i

end

/-! ### Two motors -/

/-- Two motors that thrust and roll, with or without step limits. -/
def twin (stepLimits : Option StepLimits) : Airframe where
  nbMotor := 2
  scale := 256
  rollCoef := fun i => if i = 0 then 256 else -256
  pitchCoef := fun _ => 0
  yawCoef := fun _ => 0
  thrustCoef := fun _ => 256
  trimRoll := 0
  trimPitch := 0
  trimYaw := 0
  stopMotor := -maxPprz
  maxSaturationOffset := maxPprz.tdiv 3
  stepLimits := stepLimits
  nbMotor_lt := by decide
  scale_pos := by decide
  scale_fits := by decide
  rollCoef_le := by decide
  pitchCoef_le := by decide
  yawCoef_le := by decide
  thrustCoef_le := by decide
  maxSaturationOffset_ge := by decide

def slow : StepLimits := ⟨-100, 100, by decide, by decide⟩

/-- Thrust and roll, with the motors on; an override stops the first motor. -/
def turn (overrideOn : Bool) (thrust roll : ℤ) : Call 2 where
  motorsOn := true
  overrideOn := overrideOn
  inCmd := ⟨thrust, roll, 0, 0⟩
  overrideEnabled := fun i => i = 0
  overrideValue := fun _ => 0

/-- A slow airframe that turns after a period with the motors off. -/
theorem motor_mixing_run_limits_twin :
    ∃ s s', run (step (twin (some slow))) (motorMixingInit (twin (some slow)))
        [turn false 0 0, { turn false 0 0 with motorsOn := false }] = some s ∧
      step (twin (some slow)) (some s) (turn false 4800 1000) = some s' ∧
      InMotorRange s'.commands := by
  obtain ⟨s₀, hinit, htrim⟩ := motorMixingInit_spec (a := twin (some slow)) (by decide)
  have hidle : (turn false 0 0).inCmd.InRange := ⟨by decide, by decide, by decide, by decide⟩
  have hturn : (turn false 4800 1000).inCmd.InRange :=
    ⟨by decide, by decide, by decide, by decide⟩
  obtain ⟨s, s', hrun, hstep, hall⟩ := motor_mixing_run_limits hinit htrim
    [turn false 0 0, { turn false 0 0 with motorsOn := false }] (turn false 4800 1000)
    (List.forall_mem_cons.mpr ⟨hidle, List.forall_mem_singleton.mpr hidle⟩) hturn
  rw [hinit]
  exact ⟨s, s', hrun, hstep, (hall rfl).1⟩

/-- The difference of the two commands. -/
def torque (stepLimits : Option StepLimits) (commands : Fin (twin stepLimits).nbMotor → ℤ) : ℤ :=
  commands (0 : Fin 2) - commands (1 : Fin 2)

/-- An override and the step limits change the difference of two commands that need no
saturation. -/
theorem torque_changed :
    Saturable (unsaturated (twin none) (fun _ => 0) (turn true 4800 1000).inCmd) ∧
      Saturable (unsaturated (twin (some slow)) (fun _ => 0) (turn false 4800 1000).inCmd) ∧
      torque none (unsaturated (twin none) (fun _ => 0) (turn true 4800 1000).inCmd) = 2000 ∧
      torque (some slow)
        (unsaturated (twin (some slow)) (fun _ => 0) (turn false 4800 1000).inCmd) = 2000 ∧
      (run (step (twin none)) (motorMixingInit (twin none)) [turn true 4800 1000]).map
        (fun s => torque none s.commands) = some (-3800) ∧
      (run (step (twin (some slow))) (motorMixingInit (twin (some slow)))
        [turn false 0 0, turn false 4800 1000]).map
        (fun s => torque (some slow) s.commands) = some 0 :=
  ⟨⟨by decide, by decide, by decide⟩, ⟨by decide, by decide, by decide⟩, by decide, by decide,
    by decide +kernel, by decide +kernel⟩

end Paparazzi.Actuators.Mixing
