import Mathlib
import Paparazzi.Library.Numerals

/-!
The proximity alert of the ground station, `airprox.ml`, with exact numbers: the positions are UTM
coordinates.
-/

namespace Paparazzi.Multi.Airprox

open Real

attribute [local instance] Library.Numerals.atLeastTwo_two

structure Aircraft where
  utmX : ℝ
  utmY : ℝ
  alt : ℝ
  course : ℝ
  gspeed : ℝ

inductive Level where
  | warning
  | critical
  deriving DecidableEq, Repr

noncomputable section

def distance (p q : ℝ × ℝ) : ℝ := √((p.1 - q.1) ^ 2 + (p.2 - q.2) ^ 2)

def airprox (a b : Aircraft) : Prop :=
  |a.alt - b.alt| < 10 ∧ distance (a.utmX, a.utmY) (b.utmX, b.utmY) < 100

def Aircraft.vx (a : Aircraft) : ℝ := a.gspeed * cos (π / 2 - a.course)

def Aircraft.vy (a : Aircraft) : ℝ := a.gspeed * sin (π / 2 - a.course)

/-- The second distance is between the eastings and the northings. -/
def airproxLevel (a b : Aircraft) : Level :=
  let d0 := distance (a.utmX, a.utmY) (b.utmX, b.utmY)
  let d1 := distance (a.utmX + a.vx * 0.2, b.utmX + b.vx * 0.2)
    (a.utmY + a.vy * 0.2, b.utmY + b.vy * 0.2)
  if d1 < d0 then .critical else .warning

open Classical in
def checkAirprox (a b : Aircraft) : Option Level :=
  if airprox a b then some (airproxLevel a b) else none

/-! ### What is asked -/

/-- The position in 0.2 s. -/
def Aircraft.ahead (a : Aircraft) : ℝ × ℝ := (a.utmX + a.vx * 0.2, a.utmY + a.vy * 0.2)

def RightAlert (a b : Aircraft) : Prop :=
  checkAirprox a b = checkAirprox b a ∧
    ∀ level, checkAirprox a b = some level →
      (level = .critical ↔
        distance a.ahead b.ahead < distance (a.utmX, a.utmY) (b.utmX, b.utmY))

/-- How much the square of the distance grows in 0.2 s. -/
def growth (a b : Aircraft) : ℝ :=
  (a.ahead.1 - b.ahead.1) ^ 2 + (a.ahead.2 - b.ahead.2) ^ 2 -
    ((a.utmX - b.utmX) ^ 2 + (a.utmY - b.utmY) ^ 2)

/-- The easting of each aircraft against the northing of the other. -/
def mixed (a b : Aircraft) : ℝ :=
  (a.ahead.1 - b.ahead.2) * (a.ahead.2 - b.ahead.1)

/-! ### The two distances -/

theorem distance_comm (p q : ℝ × ℝ) : distance p q = distance q p := by
  rw [distance, distance]
  congr 1
  ring

theorem distance_lt_iff (p q p' q' : ℝ × ℝ) :
    distance p q < distance p' q' ↔
      (p.1 - q.1) ^ 2 + (p.2 - q.2) ^ 2 < (p'.1 - q'.1) ^ 2 + (p'.2 - q'.2) ^ 2 :=
  sqrt_lt_sqrt_iff (by positivity)

theorem airprox_comm (a b : Aircraft) : airprox a b ↔ airprox b a := by
  rw [airprox, airprox, abs_sub_comm, distance_comm]

theorem airproxLevel_eq_critical_iff (a b : Aircraft) :
    airproxLevel a b = .critical ↔ growth a b < 2 * mixed a b := by
  have hsquares : distance (a.ahead.1, b.ahead.1) (a.ahead.2, b.ahead.2) <
      distance (a.utmX, a.utmY) (b.utmX, b.utmY) ↔ growth a b < 2 * mixed a b := by
    rw [distance_lt_iff, growth, mixed, ← sub_neg, ← sub_neg (a := _ - _)]
    constructor <;> intro h <;> linarith
  rw [← hsquares, airproxLevel]
  change (if distance (a.ahead.1, b.ahead.1) (a.ahead.2, b.ahead.2) < _ then Level.critical
    else Level.warning) = _ ↔ _
  split_ifs with h
  · exact iff_of_true rfl h
  · exact iff_of_false (by decide) h

theorem airproxLevel_comm (a b : Aircraft) : airproxLevel a b = airproxLevel b a := by
  have hcritical : airproxLevel a b = .critical ↔ airproxLevel b a = .critical := by
    rw [airproxLevel_eq_critical_iff, airproxLevel_eq_critical_iff, growth, growth, mixed, mixed]
    constructor <;> intro h <;> linarith
  cases hab : airproxLevel a b <;> cases hba : airproxLevel b a <;> simp_all

open Classical in
theorem checkAirprox_comm (a b : Aircraft) : checkAirprox a b = checkAirprox b a := by
  rw [checkAirprox, checkAirprox, airproxLevel_comm]
  exact if_congr (airprox_comm a b) rfl rfl

theorem distance_ahead_lt_iff (a b : Aircraft) :
    distance a.ahead b.ahead < distance (a.utmX, a.utmY) (b.utmX, b.utmY) ↔ growth a b < 0 := by
  rw [distance_lt_iff, growth, sub_neg]

/-- The aircraft on their northings and eastings are far apart, so that the alert stays a warning. -/
theorem airproxLevel_of_far {a b : Aircraft} (h : airprox a b)
    (hfar : 100 ≤ |a.ahead.1 - a.ahead.2|) : airproxLevel a b = .warning := by
  cases hlevel : airproxLevel a b with
  | warning => rfl
  | critical =>
      have hclose := airproxLevel_eq_critical_iff a b |>.mp hlevel
      have hd0 : (a.utmX - b.utmX) ^ 2 + (a.utmY - b.utmY) ^ 2 < 100 ^ 2 :=
        (sqrt_lt (by positivity) (by norm_num)).mp h.2
      have hd1 : 100 ^ 2 ≤ (a.ahead.1 - a.ahead.2) ^ 2 := by
        rw [← sq_abs (a.ahead.1 - a.ahead.2)]
        exact pow_le_pow_left₀ (by norm_num) hfar 2
      have hpos : 0 ≤ (b.ahead.1 - b.ahead.2) ^ 2 := sq_nonneg _
      rw [growth, mixed] at hclose
      exfalso
      linarith

/-- The alert is right if and only if there is none, or the growth of the distance is not between
zero and the product of the mixed differences. -/
theorem rightAlert_iff (a b : Aircraft) :
    RightAlert a b ↔
      (airprox a b → growth a b ∉ Set.Ico (min 0 (2 * mixed a b)) (max 0 (2 * mixed a b))) := by
  rw [RightAlert, and_iff_right (checkAirprox_comm a b), distance_ahead_lt_iff]
  constructor
  · intro h hairprox
    have hlevel := h (airproxLevel a b) (if_pos hairprox)
    rw [airproxLevel_eq_critical_iff] at hlevel
    rintro ⟨hmin, hmax⟩
    rcases min_le_iff.mp hmin with hle | hle
    · have hlt := (lt_max_iff.mp hmax).resolve_left (not_lt.mpr hle)
      exact absurd (hlevel.mp hlt) (not_lt.mpr hle)
    · have hlt := (lt_max_iff.mp hmax).resolve_right (not_lt.mpr hle)
      exact absurd (hlevel.mpr hlt) (not_lt.mpr hle)
  · intro h level hsome
    rw [checkAirprox] at hsome
    split_ifs at hsome with hairprox
    obtain rfl : airproxLevel a b = level := Option.some.inj hsome
    rw [airproxLevel_eq_critical_iff]
    have hout := h hairprox
    constructor
    · intro hlt
      by_contra hge
      exact hout ⟨min_le_of_left_le (not_lt.mp hge), lt_max_of_lt_right hlt⟩
    · intro hlt
      by_contra hge
      exact hout ⟨min_le_of_right_le (not_lt.mp hge), lt_max_of_lt_left hlt⟩

/-- Two aircraft that fly towards each other. -/
def eastbound : Aircraft where
  utmX := 500000
  utmY := 4800000
  alt := 100
  course := π / 2
  gspeed := 10

def westbound : Aircraft where
  utmX := 500050
  utmY := 4800000
  alt := 100
  course := -(π / 2)
  gspeed := 10

theorem eastbound_ahead : eastbound.ahead = (500002, 4800000) := by
  simp [Aircraft.ahead, Aircraft.vx, Aircraft.vy, eastbound]
  norm_num

theorem westbound_ahead : westbound.ahead = (500048, 4800000) := by
  have hangle : π / 2 - -(π / 2) = π := by ring
  simp [Aircraft.ahead, Aircraft.vx, Aircraft.vy, westbound, hangle]
  norm_num

/-- They get a warning only. -/
theorem warning_while_closing : ¬RightAlert eastbound westbound := by
  have hairprox : airprox eastbound westbound := by
    refine ⟨by norm_num [eastbound, westbound], ?_⟩
    rw [distance, sqrt_lt' (by norm_num)]
    norm_num [eastbound, westbound]
  have hwarning := airproxLevel_of_far hairprox (by
    rw [eastbound_ahead]
    norm_num)
  rintro ⟨-, h⟩
  have hcloser : distance eastbound.ahead westbound.ahead <
      distance (eastbound.utmX, eastbound.utmY) (westbound.utmX, westbound.utmY) := by
    rw [distance_lt_iff, eastbound_ahead, westbound_ahead]
    norm_num [eastbound, westbound]
  have hcritical := (h (airproxLevel eastbound westbound) (if_pos hairprox)).mpr hcloser
  rw [hwarning] at hcritical
  exact absurd hcritical (by decide)

end

end Paparazzi.Multi.Airprox
