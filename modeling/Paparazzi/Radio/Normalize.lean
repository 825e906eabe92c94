import Mathlib.Algebra.Order.Ring.Abs
import Mathlib.Tactic.Linarith
import Paparazzi.Library.Checked
import Paparazzi.Library.Fallible

/-!
`NormalizePpmIIR`, which `gen_radio.ml` prints for a radio: from pulse lengths to the values of the
channels.
-/

namespace Paparazzi.Radio.Normalize

open Paparazzi.Library.Checked32
open Paparazzi.Library.MapM

def maxPprz : ℤ := 9600
def minPprz : ℤ := -maxPprz
def radioFilter : ℤ := 7

/-- A `channel` element, with pulse lengths in microseconds. -/
structure Channel where
  min : ℤ
  max : ℤ
  neutral : ℤ
  averaged : Bool
  deriving DecidableEq, Repr

def ticksOfUsec (scale usec : ℤ) : Option ℤ := check (usec * scale)

/-- `RC_PPM_SIGNED_TICKS_OF_USEC` of a difference. -/
def signedTicksOfUsec (scale a b : ℤ) : Option ℤ := (check (a - b)).bind fun d => check (d * scale)

/-- The expression for a channel. The travels are constants: the compiler works out both. -/
def norm1Ppm2 (scale : ℤ) (c : Channel) (tmpRadio : ℤ) : Option ℤ :=
  if c.neutral = c.min then do
    let travel ← signedTicksOfUsec scale c.max c.min
    let scaled ← check (tmpRadio * maxPprz)
    div scaled travel
  else do
    let up ← signedTicksOfUsec scale c.max c.neutral
    let down ← signedTicksOfUsec scale c.min c.neutral
    if tmpRadio ≥ 0 then do
      let scaled ← check (tmpRadio * maxPprz)
      div scaled up
    else do
      let scaled ← check (tmpRadio * minPprz)
      div scaled down

def Channel.minValue (c : Channel) : ℤ := if c.neutral = c.min then 0 else minPprz

def bound (x min max : ℤ) : ℤ := if x > max then max else if x < min then min else x

/-- `tmp_value` for a channel. -/
def tmpValue (scale : ℤ) (c : Channel) (pulse : ℕ) : Option ℤ := do
  let ticks ← ticksOfUsec scale c.neutral
  let tmpRadio ← check (pulse - ticks)
  let value ← norm1Ppm2 scale c tmpRadio
  some (bound value c.minValue maxPprz)

/-- The cast to `pprz_t`. -/
def toInt16 (x : ℤ) : ℤ := x.bmod (2 ^ 16)

/-- The lines of the macro for one channel, with the value it had. -/
def normalizeChannel (scale : ℤ) (c : Channel) (value : ℤ) (pulse : ℕ) : Option ℤ := do
  let tmpValue ← tmpValue scale c pulse
  if c.averaged then do
    let weighted ← check (radioFilter * value)
    let sum ← check (weighted + tmpValue)
    some (toInt16 (sum.tdiv (radioFilter + 1)))
  else some (toInt16 tmpValue)

/-- The macro: the channels are at the places of the description. -/
def normalizePpmIIR (scale : ℤ) (channels : List Channel) (pulses : List ℕ) (values : List ℤ) :
    Option (List ℤ) :=
  (channels.zip (values.zip pulses)).mapM fun (c, value, pulse) =>
    normalizeChannel scale c value pulse

/-- The macro does to every channel what its own lines do. -/
theorem exists_channel_of_normalizePpmIIR {scale : ℤ} {channels : List Channel} {pulses : List ℕ}
    {values values' : List ℤ} (h : normalizePpmIIR scale channels pulses values = some values')
    {i : ℕ} {value' : ℤ} (hi : values'[i]? = some value') :
    ∃ c value pulse, channels[i]? = some c ∧ values[i]? = some value ∧ pulses[i]? = some pulse ∧
      normalizeChannel scale c value pulse = some value' := by
  obtain ⟨⟨c, value, pulse⟩, hplace, hvalue⟩ := getElem?_of_forall₂ (forall₂_of_mapM h) hi
  rw [List.getElem?_zip_eq_some, List.getElem?_zip_eq_some] at hplace
  exact ⟨c, value, pulse, hplace.1, hplace.2.1, hplace.2.2, hvalue⟩

/-! ### Clipping -/

section

variable {lo hi : ℤ}

theorem bound_mem (h : lo ≤ hi) (x : ℤ) : lo ≤ bound x lo hi ∧ bound x lo hi ≤ hi := by
  rw [bound]
  split_ifs
  · exact ⟨h, le_refl _⟩
  · exact ⟨le_refl _, h⟩
  · omega

theorem bound_mono (h : lo ≤ hi) {x y : ℤ} (hxy : x ≤ y) : bound x lo hi ≤ bound y lo hi := by
  rw [bound, bound]
  split_ifs <;> omega

theorem bound_eq_self {x : ℤ} (hlo : lo ≤ x) (hhi : x ≤ hi) : bound x lo hi = x := by
  rw [bound, if_neg (by omega), if_neg (by omega)]

theorem bound_eq_hi_iff (h : lo < hi) {x : ℤ} : bound x lo hi = hi ↔ hi ≤ x := by
  rw [bound]
  split_ifs <;> omega

theorem bound_eq_lo_iff (h : lo < hi) {x : ℤ} : bound x lo hi = lo ↔ x ≤ lo := by
  rw [bound]
  split_ifs <;> omega

end

/-! ### The two straight lines -/

/-- `MAX_PPRZ` for `up` ticks above the neutral, and as much below 0 for `down` ticks below it. -/
def slope (up down tmpRadio : ℤ) : ℤ :=
  (tmpRadio * maxPprz).tdiv (if tmpRadio ≥ 0 then up else down)

theorem slope_neg (up down tmpRadio : ℤ) :
    slope (-up) (-down) tmpRadio = -slope up down tmpRadio := by
  rw [slope, slope]
  split_ifs
  · exact Int.tdiv_neg _ _
  · exact Int.tdiv_neg _ _

theorem slope_zero (up down : ℤ) : slope up down 0 = 0 := by
  rw [slope, zero_mul, Int.zero_tdiv]

theorem maxPprz_le_tdiv_iff {a travel : ℤ} (ha : 0 ≤ a) (htravel : 0 < travel) :
    maxPprz ≤ (a * maxPprz).tdiv travel ↔ travel ≤ a := by
  rw [Int.tdiv_eq_ediv_of_nonneg (Int.mul_nonneg ha (by decide)), Int.le_ediv_iff_mul_le htravel,
    mul_comm a]
  exact mul_le_mul_iff_of_pos_left (by decide)

section

variable {up down : ℤ} (hup : 0 < up) (hdown : 0 < down)

include hup hdown

theorem slope_mono {a b : ℤ} (h : a ≤ b) : slope up down a ≤ slope up down b := by
  have hscaled : a * maxPprz ≤ b * maxPprz := Int.mul_le_mul_of_nonneg_right h (by decide)
  rw [slope, slope]
  split_ifs with ha hb hb
  · exact Int.tdiv_le_tdiv hup hscaled
  · omega
  · have hlow : (a * maxPprz).tdiv down ≤ 0 := by
      rw [← Int.zero_tdiv down]
      exact Int.tdiv_le_tdiv hdown (Int.mul_nonpos_of_nonpos_of_nonneg (by omega) (by decide))
    have hhigh : 0 ≤ (b * maxPprz).tdiv up :=
      Int.tdiv_nonneg (Int.mul_nonneg hb (by decide)) hup.le
    omega
  · exact Int.tdiv_le_tdiv hdown hscaled

theorem maxPprz_le_slope_iff {a : ℤ} : maxPprz ≤ slope up down a ↔ up ≤ a := by
  rcases le_or_gt 0 a with ha | ha
  · rw [slope, if_pos ha, maxPprz_le_tdiv_iff ha hup]
  · have hle := slope_mono hup hdown ha.le
    rw [slope_zero] at hle
    refine iff_of_false (fun h => ?_) (by omega)
    exact absurd (h.trans hle) (by decide)

theorem slope_le_minPprz_iff {a : ℤ} : slope up down a ≤ minPprz ↔ a ≤ -down := by
  rcases lt_or_ge a 0 with ha | ha
  · have hreflect : slope up down a = -((-a * maxPprz).tdiv down) := by
      rw [slope, if_neg (not_le.mpr ha), neg_mul, Int.neg_tdiv, neg_neg]
    rw [hreflect, minPprz, neg_le_neg_iff, maxPprz_le_tdiv_iff (by omega) hdown]
    omega
  · have hle := slope_mono hup hdown ha
    rw [slope_zero] at hle
    refine iff_of_false (fun h => ?_) (by omega)
    exact absurd (hle.trans h) (by decide)

end

/-! ### The value of a pulse -/

/-- The neutral lies between the ends, or at the lower one. -/
structure Channel.Described (c : Channel) : Prop where
  between : c.min < c.neutral ∧ c.neutral < c.max ∨ c.max < c.neutral ∧ c.neutral < c.min ∨
    c.neutral = c.min ∧ c.max ≠ c.min

def Channel.upTravel (scale : ℤ) (c : Channel) : ℤ := (c.max - c.neutral) * scale

def Channel.downTravel (scale : ℤ) (c : Channel) : ℤ :=
  (if c.neutral = c.min then c.max - c.min else c.neutral - c.min) * scale

def pulseValue (scale : ℤ) (c : Channel) (pulse : ℕ) : ℤ :=
  bound (slope (c.upTravel scale) (c.downTravel scale) (pulse - c.neutral * scale)) c.minValue
    maxPprz

/-- The ticks for which the macro does not leave 32 bits: `223696 * MAX_PPRZ` is the last product
that fits. -/
structure TicksFit (scale : ℤ) (c : Channel) : Prop where
  low : c.neutral * scale ≤ 223696
  high : 65535 - c.neutral * scale ≤ 223696
  up : Fits ((c.max - c.neutral) * scale)
  down : Fits ((c.min - c.neutral) * scale)

section

variable {scale : ℤ} {c : Channel}

theorem fits_of_mul {x : ℤ} (hscale : 1 ≤ scale) (h : Fits (x * scale)) : Fits x := by
  obtain ⟨hlo, hhi⟩ := h
  constructor
  · nlinarith
  · nlinarith

theorem signedTicksOfUsec_bind_eq_some_iff (hscale : 1 ≤ scale) {a b t : ℤ} {f : ℤ → Option ℤ} :
    (signedTicksOfUsec scale a b).bind f = some t ↔
      Fits ((a - b) * scale) ∧ f ((a - b) * scale) = some t := by
  rw [signedTicksOfUsec, Option.bind_assoc, check_bind_eq_some_iff, check_bind_eq_some_iff]
  exact ⟨fun h => h.2, fun h => ⟨fits_of_mul hscale h.1, h⟩⟩

theorem travel_pos (hscale : 1 ≤ scale) (hc : c.Described) (h : c.min < c.max) :
    0 < c.upTravel scale ∧ 0 < c.downTravel scale := by
  have hbetween := hc.between
  rw [Channel.upTravel, Channel.downTravel]
  constructor
  · exact Int.mul_pos (by omega) (by omega)
  · split_ifs
    · exact Int.mul_pos (by omega) (by omega)
    · exact Int.mul_pos (by omega) (by omega)

theorem travel_neg (hscale : 1 ≤ scale) (hc : c.Described) (h : c.max < c.min) :
    0 < -c.upTravel scale ∧ 0 < -c.downTravel scale := by
  have hbetween := hc.between
  rw [Channel.upTravel, Channel.downTravel, ← neg_mul, ← neg_mul]
  constructor
  · exact Int.mul_pos (by omega) (by omega)
  · split_ifs
    · exact Int.mul_pos (by omega) (by omega)
    · exact Int.mul_pos (by omega) (by omega)

theorem check_bind_div_eq_some_iff {x travel value t : ℤ} (htravel : travel ≠ 0)
    (hvalue : value = maxPprz ∨ value = minPprz) :
    ((check (x * value)).bind fun scaled => div scaled travel) = some t ↔
      |x| ≤ 223696 ∧ t = (x * value).tdiv travel := by
  have hfits : Fits (x * value) ↔ |x| ≤ 223696 := by
    rw [abs_le, Fits]
    obtain rfl | rfl := hvalue
    · rw [maxPprz]
      omega
    · rw [minPprz, maxPprz]
      omega
  rw [check_bind_eq_some_iff, hfits, div, if_neg htravel, check_eq_some_iff]
  refine and_congr_right fun hx => and_iff_right (fits_of_abs_lt ?_)
  have habs : |value| = 9600 := by
    obtain rfl | rfl := hvalue
    · rfl
    · rfl
  calc
    |(x * value).tdiv travel| ≤ |x * value| := abs_tdiv_le _ _
    _ = |x| * 9600 := by rw [abs_mul, habs]
    _ < 2 ^ 31 := by omega

theorem norm1Ppm2_eq_some_iff (hscale : 1 ≤ scale) (hc : c.Described) {tmpRadio t : ℤ} :
    norm1Ppm2 scale c tmpRadio = some t ↔
      (Fits ((c.max - c.neutral) * scale) ∧ Fits ((c.min - c.neutral) * scale)) ∧
        |tmpRadio| ≤ 223696 ∧ t = slope (c.upTravel scale) (c.downTravel scale) tmpRadio := by
  have hbetween := hc.between
  have hne : ∀ {d : ℤ}, d ≠ 0 → d * scale ≠ 0 := fun hd => Int.mul_ne_zero hd (by omega)
  rw [norm1Ppm2, slope, Channel.upTravel, Channel.downTravel]
  simp only [Option.bind_eq_bind]
  rcases eq_or_ne c.neutral c.min with hmin | hmin
  · have hzero : Fits ((c.min - c.min) * scale) := by
      rw [sub_self, zero_mul]
      decide
    rw [if_pos hmin, if_pos hmin, signedTicksOfUsec_bind_eq_some_iff hscale,
      check_bind_div_eq_some_iff (hne (by omega)) (Or.inl rfl), hmin, ite_self, and_iff_left hzero]
  · rw [if_neg hmin, if_neg hmin, signedTicksOfUsec_bind_eq_some_iff hscale,
      signedTicksOfUsec_bind_eq_some_iff hscale, ← and_assoc]
    refine and_congr_right fun _ => ?_
    split_ifs with hsign
    · exact check_bind_div_eq_some_iff (hne (by omega)) (Or.inl rfl)
    · rw [check_bind_div_eq_some_iff (hne (by omega)) (Or.inr rfl), minPprz, ← neg_sub c.neutral,
        mul_neg, neg_mul, Int.neg_tdiv_neg]

theorem downTravel_le_upTravel_iff (hscale : 1 ≤ scale) (hmin : c.neutral ≠ c.min) :
    -c.downTravel scale ≤ -c.upTravel scale ↔ c.min - c.neutral ≤ c.neutral - c.max := by
  rw [Channel.downTravel, Channel.upTravel, if_neg hmin, ← neg_mul, ← neg_mul, neg_sub, neg_sub]
  exact mul_le_mul_iff_of_pos_right (by omega)

theorem upTravel_le_downTravel_iff (hscale : 1 ≤ scale) (hmin : c.neutral ≠ c.min) :
    -c.upTravel scale ≤ -c.downTravel scale ↔ c.neutral - c.max ≤ c.min - c.neutral := by
  rw [Channel.downTravel, Channel.upTravel, if_neg hmin, ← neg_mul, ← neg_mul, neg_sub, neg_sub]
  exact mul_le_mul_iff_of_pos_right (by omega)

theorem tmpValue_eq_some_iff (hscale : 1 ≤ scale) (hc : c.Described) {pulse : ℕ} {t : ℤ} :
    tmpValue scale c pulse = some t ↔
      Fits (c.neutral * scale) ∧ |pulse - c.neutral * scale| ≤ 223696 ∧
        (Fits ((c.max - c.neutral) * scale) ∧ Fits ((c.min - c.neutral) * scale)) ∧
        t = pulseValue scale c pulse := by
  simp only [tmpValue, ticksOfUsec, Option.bind_eq_bind]
  rw [check_bind_eq_some_iff, check_bind_eq_some_iff, Option.bind_eq_some_iff]
  simp only [norm1Ppm2_eq_some_iff hscale hc, Option.some.injEq]
  constructor
  · rintro ⟨hticks, -, _, ⟨htravels, habs, rfl⟩, rfl⟩
    exact ⟨hticks, habs, htravels, rfl⟩
  · rintro ⟨hticks, habs, htravels, rfl⟩
    have habs' := abs_le.mp habs
    exact ⟨hticks, ⟨by omega, by omega⟩, _, ⟨htravels, habs, rfl⟩, rfl⟩

theorem tmpValue_eq_some (hscale : 1 ≤ scale) (hc : c.Described) (hfit : TicksFit scale c)
    {pulse : ℕ} (hpulse : pulse < 2 ^ 16) :
    tmpValue scale c pulse = some (pulseValue scale c pulse) := by
  obtain ⟨hlow, hhigh, hup, hdown⟩ := hfit
  refine (tmpValue_eq_some_iff hscale hc).mpr ⟨⟨by omega, by omega⟩, ?_, ⟨hup, hdown⟩, rfl⟩
  exact abs_le.mpr (by omega)

theorem ticksFit_of_isSome (hscale : 1 ≤ scale) (hc : c.Described)
    (htotal : ∀ pulse < 2 ^ 16, (tmpValue scale c pulse).isSome) : TicksFit scale c := by
  obtain ⟨t, ht⟩ := Option.isSome_iff_exists.mp (htotal 0 (by decide))
  obtain ⟨t', ht'⟩ := Option.isSome_iff_exists.mp (htotal 65535 (by decide))
  obtain ⟨-, hfirst, ⟨hup, hdown⟩, -⟩ := (tmpValue_eq_some_iff hscale hc).mp ht
  obtain ⟨-, hlast, -⟩ := (tmpValue_eq_some_iff hscale hc).mp ht'
  rw [abs_le] at hfirst hlast
  exact ⟨by omega, by omega, hup, hdown⟩

theorem Channel.minValue_lt (c : Channel) : c.minValue < maxPprz := by
  rw [Channel.minValue]
  split_ifs
  · decide
  · decide

theorem Channel.minValue_nonpos (c : Channel) : minPprz ≤ c.minValue ∧ c.minValue ≤ 0 := by
  rw [Channel.minValue]
  split_ifs
  · decide
  · decide

theorem pulseValue_mem (scale : ℤ) (c : Channel) (pulse : ℕ) :
    c.minValue ≤ pulseValue scale c pulse ∧ pulseValue scale c pulse ≤ maxPprz :=
  bound_mem c.minValue_lt.le _

theorem pulseValue_neutral {pulse : ℕ} (hpulse : (pulse : ℤ) = c.neutral * scale) :
    pulseValue scale c pulse = 0 := by
  rw [pulseValue, hpulse, sub_self, slope_zero]
  exact bound_eq_self c.minValue_nonpos.2 (by decide)

/-- The minimum is the neutral, or the travel below it away. -/
theorem sub_neutral_of_min {x : ℤ} (hx : x = c.min * scale) (hmin : c.neutral ≠ c.min) :
    x - c.neutral * scale = -c.downTravel scale := by
  rw [hx, Channel.downTravel, if_neg hmin, ← sub_mul, ← neg_mul, neg_sub]

theorem sub_neutral_of_max {x : ℤ} (hx : x = c.max * scale) :
    x - c.neutral * scale = c.upTravel scale := by
  rw [hx, Channel.upTravel, sub_mul]

theorem pulseValue_of_reversed (scale : ℤ) (c : Channel) (pulse : ℕ) :
    pulseValue scale c pulse =
      bound (-slope (-c.upTravel scale) (-c.downTravel scale) (pulse - c.neutral * scale))
        c.minValue maxPprz := by
  rw [← slope_neg, neg_neg, neg_neg, pulseValue]

section

variable (hscale : 1 ≤ scale) (hc : c.Described) {pulse pulse' : ℕ}

include hscale hc

theorem pulseValue_mono (h : c.min < c.max) (hle : pulse ≤ pulse') :
    pulseValue scale c pulse ≤ pulseValue scale c pulse' := by
  obtain ⟨hup, hdown⟩ := travel_pos hscale hc h
  exact bound_mono c.minValue_lt.le (slope_mono hup hdown (by omega))

theorem pulseValue_max (h : c.min < c.max) (hpulse : (pulse : ℤ) = c.max * scale) :
    pulseValue scale c pulse = maxPprz := by
  obtain ⟨hup, hdown⟩ := travel_pos hscale hc h
  rw [pulseValue, sub_neutral_of_max hpulse, bound_eq_hi_iff c.minValue_lt,
    maxPprz_le_slope_iff hup hdown]

theorem pulseValue_min (h : c.min < c.max) (hpulse : (pulse : ℤ) = c.min * scale) :
    pulseValue scale c pulse = c.minValue := by
  obtain ⟨hup, hdown⟩ := travel_pos hscale hc h
  rcases eq_or_ne c.neutral c.min with hmin | hmin
  · rw [pulseValue_neutral (by rw [hpulse, hmin]), Channel.minValue, if_pos hmin]
  · rw [pulseValue, sub_neutral_of_min hpulse hmin, bound_eq_lo_iff c.minValue_lt, Channel.minValue,
      if_neg hmin, slope_le_minPprz_iff hup hdown]

theorem pulseValue_anti (h : c.max < c.min) (hle : pulse ≤ pulse') :
    pulseValue scale c pulse' ≤ pulseValue scale c pulse := by
  obtain ⟨hup, hdown⟩ := travel_neg hscale hc h
  rw [pulseValue_of_reversed, pulseValue_of_reversed]
  exact bound_mono c.minValue_lt.le (neg_le_neg (slope_mono hup hdown (by omega)))

/-- The maximum of a reversed channel is measured with the travel to the minimum. -/
theorem pulseValue_max_iff (h : c.max < c.min) (hpulse : (pulse : ℤ) = c.max * scale) :
    pulseValue scale c pulse = maxPprz ↔ -c.downTravel scale ≤ -c.upTravel scale := by
  obtain ⟨hup, hdown⟩ := travel_neg hscale hc h
  rw [pulseValue_of_reversed, sub_neutral_of_max hpulse, bound_eq_hi_iff c.minValue_lt, le_neg,
    ← minPprz, slope_le_minPprz_iff hup hdown, neg_neg, neg_le_neg_iff]

theorem pulseValue_min_iff (h : c.max < c.min) (hmin : c.neutral ≠ c.min)
    (hpulse : (pulse : ℤ) = c.min * scale) :
    pulseValue scale c pulse = c.minValue ↔ -c.upTravel scale ≤ -c.downTravel scale := by
  obtain ⟨hup, hdown⟩ := travel_neg hscale hc h
  rw [pulseValue_of_reversed, sub_neutral_of_min hpulse hmin, bound_eq_lo_iff c.minValue_lt,
    Channel.minValue, if_neg hmin, minPprz, neg_le_neg_iff, maxPprz_le_slope_iff hup hdown]

end

/-! ### The filter -/

theorem filter_near (v t : ℤ) :
    |8 * ((radioFilter * v + t).tdiv (radioFilter + 1)) - (7 * v + t)| < 8 :=
  abs_mul_tdiv_sub_lt (by decide)

theorem filter_mem {lo hi v t : ℤ} (hv : lo ≤ v ∧ v ≤ hi) (ht : lo ≤ t ∧ t ≤ hi) :
    lo ≤ (radioFilter * v + t).tdiv (radioFilter + 1) ∧
      (radioFilter * v + t).tdiv (radioFilter + 1) ≤ hi := by
  have hnear := abs_lt.mp (filter_near v t)
  omega

/-- More than `RADIO_FILTER` away, the filter comes nearer; from there on it stays as near. -/
theorem abs_filter_sub_le (v t : ℤ) :
    |(radioFilter * v + t).tdiv (radioFilter + 1) - t| ≤ max radioFilter (|v - t| - 1) := by
  have hnear := abs_lt.mp (filter_near v t)
  rw [radioFilter] at *
  rcases abs_cases (v - t) with ⟨habs, hsign⟩ | ⟨habs, hsign⟩
  · rw [habs, abs_le]
    omega
  · rw [habs, abs_le]
    omega

/-! ### The channel -/

/-- What is asked of a channel, for every pulse of 16 bits. -/
structure Normalizes (scale : ℤ) (c : Channel) : Prop where
  total : ∀ value pulse, minPprz ≤ value ∧ value ≤ maxPprz → pulse < 2 ^ 16 →
    (normalizeChannel scale c value pulse).isSome
  direct : c.averaged = false → ∀ value pulse v, pulse < 2 ^ 16 →
    normalizeChannel scale c value pulse = some v →
      (c.minValue ≤ v ∧ v ≤ maxPprz) ∧ ((pulse : ℤ) = c.neutral * scale → v = 0) ∧
        ((pulse : ℤ) = c.max * scale → v = maxPprz) ∧
        ((pulse : ℤ) = c.min * scale → v = c.minValue)
  monotone : c.averaged = false → ∀ value pulse v value' pulse' v', pulse ≤ pulse' →
    pulse' < 2 ^ 16 → normalizeChannel scale c value pulse = some v →
      normalizeChannel scale c value' pulse' = some v' →
        (c.min < c.max → v ≤ v') ∧ (c.max < c.min → v' ≤ v)
  range : c.averaged = true → ∀ pulses : List ℕ, (∀ pulse ∈ pulses, pulse < 2 ^ 16) →
    ∃ v, pulses.foldlM (normalizeChannel scale c) 0 = some v ∧ c.minValue ≤ v ∧ v ≤ maxPprz
  settles : c.averaged = true → ∀ (pulses : List ℕ) (pulse : ℕ), (∀ p ∈ pulses, p < 2 ^ 16) →
    pulse < 2 ^ 16 → ∃ n t, normalizeChannel scale { c with averaged := false } 0 pulse = some t ∧
      ∀ k, n ≤ k → ∃ v,
        (pulses ++ List.replicate k pulse).foldlM (normalizeChannel scale c) 0 = some v ∧
          |v - t| ≤ radioFilter

/-- A reversed channel in which no end that is a pulse of 16 bits has the shorter half. -/
def Balanced (scale : ℤ) (c : Channel) : Prop :=
  (0 ≤ c.max * scale ∧ c.max * scale < 2 ^ 16 → c.min - c.neutral ≤ c.neutral - c.max) ∧
    (0 ≤ c.min * scale ∧ c.min * scale < 2 ^ 16 → c.neutral - c.max ≤ c.min - c.neutral)

theorem toInt16_eq_self {lo x : ℤ} (hlo : minPprz ≤ lo) (hx : lo ≤ x ∧ x ≤ maxPprz) :
    toInt16 x = x := by
  rw [minPprz, maxPprz] at hlo
  rw [maxPprz] at hx
  exact Int.bmod_eq_of_le (by omega) (by omega)

section

variable (hscale : 1 ≤ scale) (hc : c.Described) (hfit : TicksFit scale c) {pulse : ℕ}
  (hpulse : pulse < 2 ^ 16)

include hscale hc hfit hpulse

theorem normalizeChannel_direct (havg : c.averaged = false) (value : ℤ) :
    normalizeChannel scale c value pulse = some (pulseValue scale c pulse) := by
  rw [normalizeChannel, tmpValue_eq_some hscale hc hfit hpulse, Option.bind_eq_bind,
    Option.bind_some, havg, if_neg Bool.false_ne_true,
    toInt16_eq_self c.minValue_nonpos.1 (pulseValue_mem scale c pulse)]

theorem normalizeChannel_averaged (havg : c.averaged = true) {value : ℤ}
    (hvalue : minPprz ≤ value ∧ value ≤ maxPprz) :
    normalizeChannel scale c value pulse =
      some ((radioFilter * value + pulseValue scale c pulse).tdiv (radioFilter + 1)) := by
  have hmem := pulseValue_mem scale c pulse
  have hmin := c.minValue_nonpos.1
  have hout := filter_mem hvalue ⟨hmin.trans hmem.1, hmem.2⟩
  rw [minPprz, maxPprz] at *
  rw [normalizeChannel, tmpValue_eq_some hscale hc hfit hpulse, Option.bind_eq_bind,
    Option.bind_some, if_pos havg, check_of_fits, Option.bind_some, check_of_fits,
    Option.bind_some, toInt16_eq_self (show minPprz ≤ -9600 by decide) hout]
  · rw [radioFilter]
    exact ⟨by omega, by omega⟩
  · rw [radioFilter]
    exact ⟨by omega, by omega⟩

/-- Frames of one pulse bring an averaged channel nearer, up to `RADIO_FILTER`. -/
theorem exists_foldlM_replicate (havg : c.averaged = true) (k : ℕ) {value : ℤ}
    (hvalue : minPprz ≤ value ∧ value ≤ maxPprz) :
    ∃ v, (List.replicate k pulse).foldlM (normalizeChannel scale c) value = some v ∧
      |v - pulseValue scale c pulse| ≤
        max radioFilter (|value - pulseValue scale c pulse| - k) := by
  induction k generalizing value with
  | zero => exact ⟨value, rfl, by simp⟩
  | succ k ih =>
      have hmem := pulseValue_mem scale c pulse
      have hout := filter_mem hvalue ⟨c.minValue_nonpos.1.trans hmem.1, hmem.2⟩
      obtain ⟨v, hrun, hnear⟩ := ih hout
      have hstep := abs_filter_sub_le value (pulseValue scale c pulse)
      refine ⟨v, ?_, ?_⟩
      · rw [List.replicate_succ, List.foldlM_cons,
          normalizeChannel_averaged hscale hc hfit hpulse havg hvalue]
        exact hrun
      · push_cast
        omega

end

theorem exists_foldlM (hscale : 1 ≤ scale) (hc : c.Described) (hfit : TicksFit scale c)
    (havg : c.averaged = true) {pulses : List ℕ} (hpulses : ∀ pulse ∈ pulses, pulse < 2 ^ 16)
    {value : ℤ} (hvalue : c.minValue ≤ value ∧ value ≤ maxPprz) :
    ∃ v, pulses.foldlM (normalizeChannel scale c) value = some v ∧
      c.minValue ≤ v ∧ v ≤ maxPprz := by
  induction pulses generalizing value with
  | nil => exact ⟨value, rfl, hvalue⟩
  | cons pulse pulses ih =>
      obtain ⟨hpulse, hpulses⟩ := List.forall_mem_cons.mp hpulses
      rw [List.foldlM_cons, normalizeChannel_averaged hscale hc hfit hpulse havg
        ⟨c.minValue_nonpos.1.trans hvalue.1, hvalue.2⟩]
      exact ih hpulses (filter_mem hvalue (pulseValue_mem scale c pulse))

/-- Where the ticks fit, a channel is normalised but for the ends of a reversed one. -/
theorem normalizes_of_ticksFit (hscale : 1 ≤ scale) (hc : c.Described) (hfit : TicksFit scale c)
    (hends : c.averaged = true ∨ c.neutral = c.min ∨ c.min < c.max ∨ Balanced scale c) :
    Normalizes scale c where
  total value pulse hvalue hpulse := by
    cases havg : c.averaged with
    | false => rw [normalizeChannel_direct hscale hc hfit hpulse havg, Option.isSome_some]
    | true => rw [normalizeChannel_averaged hscale hc hfit hpulse havg hvalue, Option.isSome_some]
  direct havg value pulse v hpulse hv := by
    rw [normalizeChannel_direct hscale hc hfit hpulse havg] at hv
    obtain rfl := Option.some.inj hv
    refine ⟨pulseValue_mem scale c pulse, pulseValue_neutral, ?_⟩
    have hbetween := hc.between
    rcases lt_or_ge c.min c.max with hup | hdown
    · exact ⟨pulseValue_max hscale hc hup, pulseValue_min hscale hc hup⟩
    · have hlt : c.max < c.min := by omega
      rcases eq_or_ne c.neutral c.min with hmin | hmin
      · refine ⟨fun hmax => ?_, fun hpulse => ?_⟩
        · rw [pulseValue_max_iff hscale hc hlt hmax, Channel.downTravel, if_pos hmin,
            Channel.upTravel, hmin]
        · rw [pulseValue_neutral (by rw [hpulse, hmin]), Channel.minValue, if_pos hmin]
      · obtain ⟨hmax, hmin'⟩ : Balanced scale c := by
          obtain havg' | hmin' | hlt' | hbalanced := hends
          · exact absurd (havg.symm.trans havg') Bool.false_ne_true
          · exact absurd hmin' hmin
          · omega
          · exact hbalanced
        refine ⟨fun heq => ?_, fun heq => ?_⟩
        · rw [pulseValue_max_iff hscale hc hlt heq, downTravel_le_upTravel_iff hscale hmin]
          exact hmax (by omega)
        · rw [pulseValue_min_iff hscale hc hlt hmin heq, upTravel_le_downTravel_iff hscale hmin]
          exact hmin' (by omega)
  monotone havg value pulse v value' pulse' v' hle hpulse hv hv' := by
    rw [normalizeChannel_direct hscale hc hfit (by omega) havg] at hv
    rw [normalizeChannel_direct hscale hc hfit hpulse havg] at hv'
    obtain rfl := Option.some.inj hv
    obtain rfl := Option.some.inj hv'
    exact ⟨fun h => pulseValue_mono hscale hc h hle, fun h => pulseValue_anti hscale hc h hle⟩
  range havg pulses hpulses :=
    exists_foldlM hscale hc hfit havg hpulses ⟨c.minValue_nonpos.2, by decide⟩
  settles havg pulses pulse hpulses hpulse := by
    obtain ⟨value, hrun, hvalue⟩ :=
      exists_foldlM hscale hc hfit havg hpulses ⟨c.minValue_nonpos.2, by decide⟩
    refine ⟨(value - pulseValue scale c pulse).natAbs, pulseValue scale c pulse, ?_, fun k hk => ?_⟩
    · exact normalizeChannel_direct (c := { c with averaged := false }) hscale ⟨hc.between⟩
        ⟨hfit.low, hfit.high, hfit.up, hfit.down⟩ hpulse rfl 0
    · obtain ⟨v, hrest, hnear⟩ := exists_foldlM_replicate hscale hc hfit hpulse havg k
        ⟨c.minValue_nonpos.1.trans hvalue.1, hvalue.2⟩
      refine ⟨v, ?_, ?_⟩
      · rw [List.foldlM_append, hrun]
        exact hrest
      · rw [Int.abs_eq_natAbs (value - pulseValue scale c pulse), radioFilter] at hnear
        rw [radioFilter]
        omega

theorem balanced_of_normalizes (hscale : 1 ≤ scale) (hc : c.Described) (h : Normalizes scale c)
    (hfit : TicksFit scale c) (havg : c.averaged = false) (hmin : c.neutral ≠ c.min)
    (hlt : c.max < c.min) : Balanced scale c := by
  constructor
  · rintro ⟨hnonneg, hpulse⟩
    obtain ⟨pulse, heq⟩ := Int.eq_ofNat_of_zero_le hnonneg
    have hvalue := normalizeChannel_direct hscale hc hfit (by omega : pulse < 2 ^ 16) havg 0
    rw [← downTravel_le_upTravel_iff hscale hmin, ← pulseValue_max_iff hscale hc hlt heq.symm]
    exact (h.direct havg 0 pulse _ (by omega) hvalue).2.2.1 heq.symm
  · rintro ⟨hnonneg, hpulse⟩
    obtain ⟨pulse, heq⟩ := Int.eq_ofNat_of_zero_le hnonneg
    have hvalue := normalizeChannel_direct hscale hc hfit (by omega : pulse < 2 ^ 16) havg 0
    rw [← upTravel_le_downTravel_iff hscale hmin, ← pulseValue_min_iff hscale hc hlt hmin heq.symm]
    exact (h.direct havg 0 pulse _ (by omega) hvalue).2.2.2 heq.symm

theorem ticksFit_of_normalizes (hscale : 1 ≤ scale) (hc : c.Described) (h : Normalizes scale c) :
    TicksFit scale c := by
  refine ticksFit_of_isSome hscale hc fun pulse hpulse => ?_
  obtain ⟨v, hv⟩ := Option.isSome_iff_exists.mp (h.total 0 pulse (by decide) hpulse)
  obtain ⟨t, ht, -⟩ := Option.bind_eq_some_iff.mp hv
  rw [ht, Option.isSome_some]

/-- Exactly when a channel is normalised: the products fit in 32 bits, and a reversed channel has
equal halves as far as its ends are pulses. -/
theorem normalizes_iff (hscale : 1 ≤ scale) (hc : c.Described) :
    Normalizes scale c ↔ TicksFit scale c ∧
      (c.averaged = true ∨ c.neutral = c.min ∨ c.min < c.max ∨ Balanced scale c) := by
  refine ⟨fun h => ?_, fun h => normalizes_of_ticksFit hscale hc h.1 h.2⟩
  have hfit := ticksFit_of_normalizes hscale hc h
  refine ⟨hfit, ?_⟩
  cases havg : c.averaged with
  | true => exact Or.inl rfl
  | false =>
      rcases eq_or_ne c.neutral c.min with hmin | hmin
      · exact Or.inr (Or.inl hmin)
      · rcases lt_or_ge c.min c.max with hlt | hle
        · exact Or.inr (Or.inr (Or.inl hlt))
        · have hbetween := hc.between
          exact Or.inr (Or.inr (Or.inr
            (balanced_of_normalizes hscale hc h hfit havg hmin (by omega))))

end

/-- A stick with the servo's usual travel, at 6 ticks for a microsecond. -/
theorem normalizes_iff_stick :
    Normalizes 6 ⟨1100, 1900, 1500, false⟩ ↔ TicksFit 6 ⟨1100, 1900, 1500, false⟩ ∧
      ((false : Bool) = true ∨ (1500 : ℤ) = 1100 ∨ (1100 : ℤ) < 1900 ∨
        Balanced 6 ⟨1100, 1900, 1500, false⟩) :=
  normalizes_iff (by decide) ⟨Or.inl (by decide)⟩

/-- The pitch stick of `mc24.xml`. -/
def pitch : Channel := ⟨1900, 1096, 1500, false⟩

/-- The stick at its minimum does not give the least value. -/
theorem not_normalizes_pitch :
    pitch.Described ∧ normalizeChannel 6 pitch 0 (1900 * 6) = some (-9504) ∧
      ¬ Normalizes 6 pitch := by
  have hvalue : normalizeChannel 6 pitch 0 (1900 * 6) = some (-9504) := by decide
  refine ⟨⟨Or.inr (Or.inl (by decide))⟩, hvalue, fun h => ?_⟩
  have hmin := (h.direct rfl 0 (1900 * 6) (-9504) (by decide) hvalue).2.2.2 rfl
  exact absurd hmin (by decide)

end Paparazzi.Radio.Normalize
