import Mathlib.Data.List.Infix
import Mathlib.Data.Rat.Lemmas
import Paparazzi.Generator.AirframeInteger
import Paparazzi.Library.Checked
import Paparazzi.Library.Fallible

/-!
The servos of an airframe: the macros that `gen_airframe.ml` prints for them, and the command laws
that are run with these macros.
-/

namespace Paparazzi.Generator.CommandLaws

open Paparazzi.Generator.AirframeInteger
open Paparazzi.Library.Checked32
open Paparazzi.Library.MapM

/-! ### The generator -/

def maxPprz : ℚ := 9600

structure Servo where
  name : String
  no : ℤ
  min : ℚ
  neutral : ℚ
  max : ℚ

/-- The lines for one servo; `define_integer` may make `fuel` calls. -/
def parseServo (fuel : ℕ) (c : Servo) : Option (List Define) := do
  let name := "SERVO_" ++ c.name
  let travelUp := (c.max - c.neutral) / maxPprz
  let travelDown := (c.neutral - c.min) / maxPprz
  let up ← defineInteger (name ++ "_TRAVEL_UP") travelUp 16 fuel
  let down ← defineInteger (name ++ "_TRAVEL_DOWN") travelDown 16 fuel
  some ([⟨name, c.no⟩, ⟨name ++ "_NEUTRAL", c.neutral⟩, ⟨name ++ "_TRAVEL_UP", travelUp⟩] ++ up ++
    ⟨name ++ "_TRAVEL_DOWN", travelDown⟩ :: down ++
    [⟨name ++ "_MAX", Max.max c.min c.max⟩, ⟨name ++ "_MIN", Min.min c.min c.max⟩])

/-- The sections `servos`, each with its driver, in the order of the document. -/
def parseServos (fuel : ℕ) (sections : List (String × List Servo)) : Option (List Define) :=
  ((sections.flatMap Prod.snd).mapM (parseServo fuel)).map List.flatten

/-- The entries that the sections leave in the table `servos_drivers`. -/
def servosDrivers (sections : List (String × List Servo)) : List (String × String) :=
  sections.flatMap fun (driver, servos) => servos.map fun c => (c.name, driver)

/-- The places of the servos in `actuators`, in the order in which the table is folded. -/
def printActuatorsIdx (order : List (String × String)) : List Define :=
  order.zipIdx.map (fun entry => ⟨"SERVO_" ++ entry.1.1 ++ "_IDX", entry.2⟩) ++
    [⟨"ACTUATORS_NB", order.length⟩]

/-- The generated lines up to the command laws. -/
def header (fuel : ℕ) (sections : List (String × List Servo)) (order : List (String × String)) :
    Option (List Define) :=
  (parseServos fuel sections).map (· ++ printActuatorsIdx order)

/-! ### The generated code -/

/-- The last definition of a macro counts. -/
def expand (defines : List Define) (name : String) : Option ℚ :=
  (defines.reverse.find? fun d => d.name = name).map Define.value

/-- A macro in an expression of integers. -/
def intMacro (defines : List Define) (name : String) : Option ℤ :=
  (expand defines name).bind fun q => if q.den = 1 then some q.num else none

def chop (x min max : ℤ) : ℤ := if x < min then min else if x > max then max else x

/-- Assignment to an `int16_t`. -/
def toInt16 (x : ℤ) : ℤ := x.bmod (2 ^ 16)

/-- The macro `Set_%s_Servo`, without the call of the driver, which only reads `actuators`. -/
def setServo (defines : List Define) (s : String) (v : ℤ) (actuators : List ℤ) :
    Option (List ℤ) := do
  let idx ← intMacro defines ("SERVO_" ++ s ++ "_IDX")
  let min ← intMacro defines ("SERVO_" ++ s ++ "_MIN")
  let max ← intMacro defines ("SERVO_" ++ s ++ "_MAX")
  if 0 ≤ idx ∧ idx < actuators.length then
    some (actuators.set idx.toNat (toInt16 (chop v min max)))
  else none

/-- The code of a law `set`, for what its expression comes to. -/
def executeSet (defines : List Define) (servo : String) (value : ℤ) (actuators : List ℤ) :
    Option (List ℤ) := do
  let upNum ← intMacro defines ("SERVO_" ++ servo ++ "_TRAVEL_UP_NUM")
  let upDen ← intMacro defines ("SERVO_" ++ servo ++ "_TRAVEL_UP_DEN")
  let downNum ← intMacro defines ("SERVO_" ++ servo ++ "_TRAVEL_DOWN_NUM")
  let downDen ← intMacro defines ("SERVO_" ++ servo ++ "_TRAVEL_DOWN_DEN")
  let neutral ← intMacro defines ("SERVO_" ++ servo ++ "_NEUTRAL")
  let commandValue ← check value
  let commandValue ← check (commandValue * if commandValue > 0 then upNum else downNum)
  let commandValue ← div commandValue (if commandValue > 0 then upDen else downDen)
  let servoValue ← check (neutral + commandValue)
  setServo defines servo servoValue actuators

/-! ### What the law comes to -/

/-- A servo with integers for its ends `lo` and `hi` and its neutral `mid`. -/
structure Servo.Integral (c : Servo) (lo mid hi : ℤ) : Prop where
  min_eq : c.min = lo
  neutral_eq : c.neutral = mid
  max_eq : c.max = hi
  between : lo ≤ mid ∧ mid ≤ hi ∨ hi ≤ mid ∧ mid ≤ lo
  lo_mem : 0 ≤ lo ∧ lo ≤ 30000
  hi_mem : 0 ≤ hi ∧ hi ≤ 30000

/-- The straight lines from the neutral to the two ends, truncated. -/
def lawOffset (lo mid hi u : ℤ) : ℤ := (u * if u > 0 then hi - mid else mid - lo).tdiv 9600

def lawValue (lo mid hi u : ℤ) : ℤ := mid + lawOffset lo mid hi u

section

variable {lo mid hi : ℤ}

theorem lawOffset_reverse (u : ℤ) : lawOffset (-lo) (-mid) (-hi) u = -lawOffset lo mid hi u := by
  rw [lawOffset, lawOffset, ← Int.neg_tdiv, ← mul_neg]
  split_ifs
  · rw [neg_sub, sub_neg_eq_add, neg_add_eq_sub]
  · rw [neg_sub, sub_neg_eq_add, neg_add_eq_sub]

theorem lawValue_reverse (u : ℤ) : lawValue (-lo) (-mid) (-hi) u = -lawValue lo mid hi u := by
  rw [lawValue, lawValue, lawOffset_reverse, neg_add]

theorem lawValue_zero : lawValue lo mid hi 0 = mid := by
  rw [lawValue, lawOffset, zero_mul, Int.zero_tdiv, add_zero]

theorem lawValue_maxPprz : lawValue lo mid hi 9600 = hi := by
  rw [lawValue, lawOffset, if_pos (by decide), Int.mul_tdiv_cancel_left _ (by decide),
    add_sub_cancel]

theorem lawValue_minPprz : lawValue lo mid hi (-9600) = lo := by
  rw [lawValue, lawOffset, if_neg (by decide), neg_mul, Int.neg_tdiv,
    Int.mul_tdiv_cancel_left _ (by decide), neg_sub, add_sub_cancel]

theorem lawOffset_mono (hlo : lo ≤ mid) (hhi : mid ≤ hi) {u u' : ℤ} (h : u ≤ u') :
    lawOffset lo mid hi u ≤ lawOffset lo mid hi u' := by
  refine Int.tdiv_le_tdiv (by decide) ?_
  split_ifs with hu hu' hu'
  · exact Int.mul_le_mul_of_nonneg_right h (by omega)
  · omega
  · calc
      u * (mid - lo) ≤ 0 := Int.mul_nonpos_of_nonpos_of_nonneg (by omega) (by omega)
      _ ≤ u' * (hi - mid) := Int.mul_nonneg (by omega) (by omega)
  · exact Int.mul_le_mul_of_nonneg_right h (by omega)

theorem lawValue_mono (hlo : lo ≤ mid) (hhi : mid ≤ hi) {u u' : ℤ} (h : u ≤ u') :
    lawValue lo mid hi u ≤ lawValue lo mid hi u' :=
  Int.add_le_add_left (lawOffset_mono hlo hhi h) mid

theorem lawValue_anti (hlo : mid ≤ lo) (hhi : hi ≤ mid) {u u' : ℤ} (h : u ≤ u') :
    lawValue lo mid hi u' ≤ lawValue lo mid hi u := by
  have hmono := lawValue_mono (neg_le_neg hlo) (neg_le_neg hhi) h
  rwa [lawValue_reverse, lawValue_reverse, neg_le_neg_iff] at hmono

theorem lawValue_mem (hbetween : lo ≤ mid ∧ mid ≤ hi ∨ hi ≤ mid ∧ mid ≤ lo) {u : ℤ}
    (hu : -9600 ≤ u ∧ u ≤ 9600) :
    min lo hi ≤ lawValue lo mid hi u ∧ lawValue lo mid hi u ≤ max lo hi := by
  obtain ⟨hlo, hhi⟩ | ⟨hhi, hlo⟩ := hbetween
  · have hmin := lawValue_mono hlo hhi hu.1
    have hmax := lawValue_mono hlo hhi hu.2
    rw [lawValue_minPprz] at hmin
    rw [lawValue_maxPprz] at hmax
    exact ⟨min_le_of_left_le hmin, le_max_of_le_right hmax⟩
  · have hmax := lawValue_anti hlo hhi hu.1
    have hmin := lawValue_anti hlo hhi hu.2
    rw [lawValue_minPprz] at hmax
    rw [lawValue_maxPprz] at hmin
    exact ⟨min_le_of_right_le hmin, le_max_of_le_left hmax⟩

end

/-- The printed terms of a travel of `t` for `MAX_PPRZ`. -/
structure TravelTerms (t num den : ℤ) : Prop where
  mul_eq : num * 9600 = t * den
  den_ne : den ≠ 0
  nonneg : 0 ≤ num
  le : num ≤ 2 ^ 16

theorem TravelTerms.tdiv_eq {t num den : ℤ} (h : TravelTerms t num den) (u : ℤ) :
    (u * num).tdiv den = (u * t).tdiv 9600 := by
  have hcross : 9600 * (u * num) = den * (u * t) := by
    calc
      9600 * (u * num) = u * (num * 9600) := by ring
      _ = den * (u * t) := by
        rw [h.mul_eq]
        ring
  rw [← Int.mul_tdiv_mul_of_pos (u * num) den (show (0 : ℤ) < 9600 by decide), hcross]
  rcases lt_or_gt_of_ne h.den_ne with hneg | hpos
  · calc
      (den * (u * t)).tdiv (9600 * den) = (-(den * (u * t))).tdiv (-(9600 * den)) :=
        (Int.neg_tdiv_neg _ _).symm
      _ = (-den * (u * t)).tdiv (-den * 9600) := by rw [neg_mul, neg_mul, mul_comm 9600]
      _ = (u * t).tdiv 9600 := Int.mul_tdiv_mul_of_pos _ _ (neg_pos.mpr hneg)
  · rw [mul_comm 9600, Int.mul_tdiv_mul_of_pos _ _ hpos]

theorem TravelTerms.abs_mul_lt {t num den u : ℤ} (h : TravelTerms t num den)
    (hu : -9600 ≤ u ∧ u ≤ 9600) : |u * num| < 2 ^ 31 := by
  rw [abs_mul, abs_of_nonneg h.nonneg]
  calc
    |u| * num ≤ 9600 * 2 ^ 16 := mul_le_mul (abs_le.mpr hu) h.le h.nonneg (by decide)
    _ < 2 ^ 31 := by decide

/-- The two tests of a law choose the terms of one travel, or the product is 0. -/
theorem tdiv_eq_lawOffset {lo mid hi upNum upDen downNum downDen : ℤ}
    (hup : TravelTerms (hi - mid) upNum upDen) (hdown : TravelTerms (mid - lo) downNum downDen)
    (u : ℤ) :
    (u * if u > 0 then upNum else downNum).tdiv
        (if (u * if u > 0 then upNum else downNum) > 0 then upDen else downDen) =
      lawOffset lo mid hi u := by
  rw [lawOffset]
  rcases lt_or_ge 0 u with hu | hu
  · simp only [if_pos hu]
    rw [← hup.tdiv_eq]
    split_ifs with hproduct
    · rfl
    · have hzero : u * upNum = 0 :=
        le_antisymm (not_lt.mp hproduct) (Int.mul_nonneg hu.le hup.nonneg)
      rw [hzero, Int.zero_tdiv, Int.zero_tdiv]
  · have hproduct := Int.mul_nonpos_of_nonpos_of_nonneg hu hdown.nonneg
    simp only [if_neg (not_lt.mpr hu), if_neg (not_lt.mpr hproduct)]
    exact hdown.tdiv_eq u

/-- Travels within the range of the servos are printed without an error. -/
theorem defineInteger_travel (name : String) {t : ℤ} (ht : |t| ≤ 30000) {v : ℚ}
    (hv : v = (t : ℚ) / maxPprz) :
    ∃ num den : ℤ, TravelTerms t num den ∧ ∀ fuel, 9600 < fuel →
      defineInteger name v 16 fuel = some [⟨name ++ "_NUM", num⟩, ⟨name ++ "_DEN", den⟩] := by
  have hdivInt : v = Rat.divInt t 9600 := by
    rw [hv, Rat.divInt_eq_div, maxPprz]
    norm_num
  have hden : v.den ≤ 9600 := by
    refine Nat.le_of_dvd (by decide) ?_
    rw [hdivInt]
    exact_mod_cast Rat.den_dvd t 9600
  have habs : |v| ≤ 30000 := by
    rw [hv, abs_div, maxPprz, div_le_iff₀ (by norm_num)]
    have ht' : |(t : ℚ)| ≤ 30000 := by exact_mod_cast ht
    exact ht'.trans (by norm_num)
  have hnum : |v.num| ≤ 2 ^ 16 := by
    have hdvd : v.num ∣ t := hdivInt ▸ Rat.num_dvd t (by decide)
    rcases eq_or_ne t 0 with rfl | hne
    · rw [hv, Int.cast_zero, zero_div]
      decide
    · have hle := Int.le_of_dvd (abs_pos.mpr hne) ((abs_dvd_abs _ _).mpr hdvd)
      omega
  obtain ⟨num, den, happrox, hrun⟩ :=
    defineInteger_eq_some name (v := v) (n := 16) (habs.trans_lt (by norm_num))
  have hden_ne : signedDen v den ≠ 0 := by
    rw [← abs_pos, abs_signedDen]
    exact_mod_cast happrox.den_pos
  refine ⟨num, signedDen v den, ⟨?_, hden_ne, by positivity, by exact_mod_cast happrox.num_le⟩,
    fun fuel hfuel => hrun fuel (by omega)⟩
  have hdiv := (happrox.div_signedDen_eq hnum (by omega)).trans hv
  rw [maxPprz, div_eq_div_iff (Int.cast_ne_zero.mpr hden_ne) (by norm_num)] at hdiv
  exact_mod_cast hdiv

/-! ### The macros -/

section

variable {defines later : List Define} {name : String}

theorem expand_append :
    expand (defines ++ later) name = (expand later name).or (expand defines name) := by
  rw [expand, List.reverse_append, List.find?_append, Option.map_or]
  rfl

theorem expand_eq_none (h : ∀ d ∈ defines, d.name ≠ name) : expand defines name = none := by
  rw [expand, Option.map_eq_none_iff, List.find?_eq_none]
  intro d hd
  rw [decide_eq_true_eq]
  exact h d (List.mem_reverse.mp hd)

theorem expand_append_of_ne (h : ∀ d ∈ later, d.name ≠ name) :
    expand (defines ++ later) name = expand defines name := by
  rw [expand_append, expand_eq_none h, Option.none_or]

theorem expand_append_of_eq_some {q : ℚ} (h : expand later name = some q) :
    expand (defines ++ later) name = some q := by
  rw [expand_append, h, Option.some_or]

theorem intMacro_of_expand {z : ℤ} (h : expand defines name = some (z : ℚ)) :
    intMacro defines name = some z := by
  rw [intMacro, h, Option.bind_some, if_pos (Rat.den_intCast z), Rat.num_intCast]

theorem expand_of_mem {d : Define} (hd : d ∈ defines)
    (honce : ∀ d' ∈ defines, d'.name = d.name → d' = d) :
    expand defines d.name = some d.value := by
  have hsome : (defines.reverse.find? fun d' => d'.name = d.name) = some d := by
    obtain ⟨d', hd'⟩ := Option.isSome_iff_exists.mp
      ((List.find?_isSome (p := fun d' => decide (d'.name = d.name))).mpr
        ⟨d, List.mem_reverse.mpr hd, decide_eq_true rfl⟩)
    have hname := List.find?_some hd'
    rw [hd', honce d' (List.mem_reverse.mp (List.mem_of_find?_eq_some hd'))
      (of_decide_eq_true hname)]
  rw [expand, hsome, Option.map_some]

end

/-- The ends of the names of the macros of a servo. -/
def servoSuffixes : List String :=
  ["", "_NEUTRAL", "_TRAVEL_UP", "_TRAVEL_UP_NUM", "_TRAVEL_UP_DEN", "_TRAVEL_DOWN",
    "_TRAVEL_DOWN_NUM", "_TRAVEL_DOWN_DEN", "_MAX", "_MIN"]

def lawSuffixes : List String :=
  ["_NEUTRAL", "_TRAVEL_UP_NUM", "_TRAVEL_UP_DEN", "_TRAVEL_DOWN_NUM", "_TRAVEL_DOWN_DEN", "_MAX",
    "_MIN"]

theorem not_suffix {a b : String} (ha : a ∈ lawSuffixes) (hb : b ∈ "_IDX" :: servoSuffixes.tail)
    (hne : a ≠ b) : ¬ a.toList <:+ b.toList ∧ ¬ b.toList <:+ a.toList := by
  have hall : ∀ a ∈ lawSuffixes, ∀ b ∈ "_IDX" :: servoSuffixes.tail, a ≠ b →
      ¬ a.toList <:+ b.toList ∧ ¬ b.toList <:+ a.toList := by decide +kernel
  exact hall a ha b hb hne

/-- The macros of two servos have different names, but for a servo with the name of a macro. -/
theorem append_ne_append {s t a b : String} (ha : a ∈ lawSuffixes)
    (hb : b ∈ "_IDX" :: servoSuffixes) (hne : a ≠ b ∨ s ≠ t) (hclash : b = "" → t ≠ s ++ a) :
    "SERVO_" ++ t ++ b ≠ "SERVO_" ++ s ++ a := by
  intro hservo
  have heq : s ++ a = t ++ b := by
    rw [String.append_assoc, String.append_assoc] at hservo
    exact ((String.append_right_inj "SERVO_").mp hservo).symm
  rcases eq_or_ne b "" with rfl | hempty
  · rw [String.append_empty] at heq
    exact hclash rfl heq.symm
  · rcases eq_or_ne a b with rfl | hab
    · exact (hne.resolve_left (not_not.mpr rfl)) ((String.append_left_inj a).mp heq)
    · have hb' : b ∈ "_IDX" :: servoSuffixes.tail := by
        rcases List.mem_cons.mp hb with rfl | hb
        · exact List.mem_cons_self
        · exact List.mem_cons_of_mem _ ((List.mem_cons.mp hb).resolve_left hempty)
      have hlist := congrArg String.toList heq
      rw [String.toList_append, String.toList_append] at hlist
      obtain ⟨hnot, hnot'⟩ := not_suffix ha hb' hab
      rcases List.suffix_or_suffix_of_suffix (List.suffix_append s.toList a.toList)
        (hlist ▸ List.suffix_append t.toList b.toList) with hsuffix | hsuffix
      · exact hnot hsuffix
      · exact hnot' hsuffix

structure ServoMacros where
  upNum : ℤ
  upDen : ℤ
  downNum : ℤ
  downDen : ℤ

/-- The lines of a servo, with the ends of their names. -/
def servoEntries (c : Servo) (m : ServoMacros) : List (String × ℚ) :=
  [("", c.no), ("_NEUTRAL", c.neutral), ("_TRAVEL_UP", (c.max - c.neutral) / maxPprz),
    ("_TRAVEL_UP_NUM", m.upNum), ("_TRAVEL_UP_DEN", m.upDen),
    ("_TRAVEL_DOWN", (c.neutral - c.min) / maxPprz), ("_TRAVEL_DOWN_NUM", m.downNum),
    ("_TRAVEL_DOWN_DEN", m.downDen), ("_MAX", max c.min c.max), ("_MIN", min c.min c.max)]

def servoLines (c : Servo) (m : ServoMacros) : List Define :=
  (servoEntries c m).map fun (suffix, value) => ⟨"SERVO_" ++ c.name ++ suffix, value⟩

theorem parseServo_eq_some {c : Servo} {lo mid hi : ℤ} (hc : c.Integral lo mid hi) :
    ∃ m : ServoMacros, TravelTerms (hi - mid) m.upNum m.upDen ∧
      TravelTerms (mid - lo) m.downNum m.downDen ∧ ∀ fuel, 9600 < fuel →
        parseServo fuel c = some (servoLines c m) := by
  have hlo := hc.lo_mem
  have hhi := hc.hi_mem
  have hbetween := hc.between
  obtain ⟨upNum, upDen, hup, hupRun⟩ := defineInteger_travel ("SERVO_" ++ c.name ++ "_TRAVEL_UP")
    (t := hi - mid) (abs_le.mpr (by omega)) (v := (c.max - c.neutral) / maxPprz)
    (by rw [hc.max_eq, hc.neutral_eq, Int.cast_sub])
  obtain ⟨downNum, downDen, hdown, hdownRun⟩ :=
    defineInteger_travel ("SERVO_" ++ c.name ++ "_TRAVEL_DOWN") (t := mid - lo)
      (abs_le.mpr (by omega)) (v := (c.neutral - c.min) / maxPprz)
      (by rw [hc.neutral_eq, hc.min_eq, Int.cast_sub])
  refine ⟨⟨upNum, upDen, downNum, downDen⟩, hup, hdown, fun fuel hfuel => ?_⟩
  have happend : ∀ a b ab : String, a ++ b = ab →
      "SERVO_" ++ c.name ++ a ++ b = "SERVO_" ++ c.name ++ ab := by
    rintro a b _ rfl
    exact String.append_assoc
  simp only [parseServo, hupRun fuel hfuel, hdownRun fuel hfuel, servoLines, servoEntries,
    List.map_cons, List.map_nil, String.append_empty]
  rw [happend _ _ "_TRAVEL_UP_NUM" (by decide), happend _ _ "_TRAVEL_UP_DEN" (by decide),
    happend _ _ "_TRAVEL_DOWN_NUM" (by decide), happend _ _ "_TRAVEL_DOWN_DEN" (by decide)]
  rfl

theorem exists_suffix_of_mem_servoLines {c : Servo} {m : ServoMacros} {d : Define}
    (hd : d ∈ servoLines c m) :
    ∃ entry ∈ servoEntries c m, entry.1 ∈ servoSuffixes ∧
      d = ⟨"SERVO_" ++ c.name ++ entry.1, entry.2⟩ := by
  obtain ⟨entry, hentry, rfl⟩ := List.mem_map.mp hd
  exact ⟨entry, hentry, List.mem_map_of_mem (f := Prod.fst) hentry, rfl⟩

theorem expand_servoLines {c : Servo} {m : ServoMacros} {entry : String × ℚ}
    (hentry : entry ∈ servoEntries c m) :
    expand (servoLines c m) ("SERVO_" ++ c.name ++ entry.1) = some entry.2 := by
  have honce : ∀ entry' ∈ servoEntries c m, entry'.1 = entry.1 → entry' = entry := by
    have hnodup : ((servoEntries c m).map Prod.fst).Nodup := by
      change servoSuffixes.Nodup
      decide
    exact fun entry' hentry' heq => List.inj_on_of_nodup_map hnodup hentry' hentry heq
  refine expand_of_mem (d := ⟨"SERVO_" ++ c.name ++ entry.1, entry.2⟩)
    (List.mem_map_of_mem hentry) fun d hd hname => ?_
  obtain ⟨entry', hentry', -, rfl⟩ := exists_suffix_of_mem_servoLines hd
  rw [honce entry' hentry' ((String.append_right_inj _).mp hname)]

theorem actuatorsNb_ne (s a : String) : "ACTUATORS_NB" ≠ "SERVO_" ++ s ++ a := by
  intro heq
  have hlist := congrArg (fun t : String => t.toList.head?) heq
  rw [String.append_assoc] at hlist
  simp [String.toList_append] at hlist

/-! ### The laws -/

/-- Servos with names and numbers of their own, and with a neutral between their ends. -/
structure Suitable (sections : List (String × List Servo)) : Prop where
  names : ((sections.flatMap Prod.snd).map Servo.name).Nodup
  numbers : ((sections.flatMap Prod.snd).map Servo.no).Nodup
  integral : ∀ c ∈ sections.flatMap Prod.snd, ∃ lo mid hi, c.Integral lo mid hi

section

variable {sections : List (String × List Servo)} {order : List (String × String)}
  {before after : List Servo} {c : Servo} {fuel : ℕ}

theorem servosDrivers_names :
    (servosDrivers sections).map Prod.fst = (sections.flatMap Prod.snd).map Servo.name := by
  rw [servosDrivers, List.map_flatMap, List.map_flatMap]
  simp only [List.map_map]
  rfl

theorem exists_slot (hsections : Suitable sections) (horder : order.Perm (servosDrivers sections))
    (hc : c ∈ sections.flatMap Prod.snd) :
    ∃ slot, order[slot]?.map Prod.fst = some c.name ∧ slot < order.length ∧
      ∀ defines, expand (defines ++ printActuatorsIdx order) ("SERVO_" ++ c.name ++ "_IDX") =
        some (slot : ℚ) := by
  have hnames : (order.map Prod.fst).Nodup := by
    rw [(horder.map Prod.fst).nodup_iff, servosDrivers_names]
    exact hsections.names
  have hmem : c.name ∈ order.map Prod.fst := by
    rw [(horder.map Prod.fst).mem_iff, servosDrivers_names]
    exact List.mem_map_of_mem hc
  obtain ⟨slot, hslot⟩ := List.mem_iff_getElem?.mp hmem
  rw [List.getElem?_map] at hslot
  refine ⟨slot, hslot, ?_, fun defines => expand_append_of_eq_some ?_⟩
  · obtain ⟨entry, hentry, -⟩ := Option.map_eq_some_iff.mp hslot
    exact (List.getElem?_eq_some_iff.mp hentry).1
  · obtain ⟨entry, hentry, hname⟩ := Option.map_eq_some_iff.mp hslot
    refine expand_of_mem (d := ⟨"SERVO_" ++ c.name ++ "_IDX", slot⟩) ?_ fun d hd heq => ?_
    · refine List.mem_append_left _ (List.mem_map.mpr ⟨(entry, slot), ?_, by rw [← hname]⟩)
      rwa [List.mk_mem_zipIdx_iff_getElem?]
    · rcases List.mem_append.mp hd with hd | hd
      · obtain ⟨⟨entry', slot'⟩, hmem', rfl⟩ := List.mem_map.mp hd
        rw [List.mk_mem_zipIdx_iff_getElem?] at hmem'
        have hsame : entry'.1 = entry.1 := by
          rw [hname]
          exact (String.append_right_inj _).mp ((String.append_left_inj _).mp heq)
        have hslot' : slot' = slot := by
          refine (List.getElem?_inj ?_ hnames).mp ?_
          · rw [List.length_map]
            exact (List.getElem?_eq_some_iff.mp hmem').1
          · rw [List.getElem?_map, List.getElem?_map, hmem', hentry, Option.map_some,
              Option.map_some, hsame]
        simp only [hslot', hsame, hname]
      · rw [List.mem_singleton.mp hd] at heq
        exact absurd heq (actuatorsNb_ne _ _)

theorem exists_header (hsections : Suitable sections) (hfuel : 9600 < fuel)
    (hsplit : sections.flatMap Prod.snd = before ++ c :: after)
    (hclash : ∀ d ∈ after, ∀ suffix ∈ lawSuffixes, d.name ≠ c.name ++ suffix)
    {lo mid hi : ℤ} (hc : c.Integral lo mid hi) (order : List (String × String)) :
    ∃ (defines : List Define) (m : ServoMacros),
      header fuel sections order = some (defines ++ printActuatorsIdx order) ∧
      TravelTerms (hi - mid) m.upNum m.upDen ∧ TravelTerms (mid - lo) m.downNum m.downDen ∧
      ∀ entry ∈ servoEntries c m, entry.1 ∈ lawSuffixes →
        expand (defines ++ printActuatorsIdx order) ("SERVO_" ++ c.name ++ entry.1) =
          some entry.2 := by
  have hlines : ∀ t ∈ sections.flatMap Prod.snd,
      ∃ m, parseServo fuel t = some (servoLines t m) := fun t ht => by
    obtain ⟨lo', mid', hi', ht⟩ := hsections.integral t ht
    obtain ⟨m, -, -, hparse⟩ := parseServo_eq_some ht
    exact ⟨m, hparse fuel hfuel⟩
  obtain ⟨m, hup, hdown, hparse⟩ := parseServo_eq_some hc
  have hparse := hparse fuel hfuel
  have hmapM := mapM_eq_map (f := parseServo fuel) (g := fun t => (parseServo fuel t).getD [])
    fun t ht => by
      obtain ⟨m', hm'⟩ := hlines t ht
      rw [hm', Option.getD_some]
  rw [hsplit, List.map_append, List.map_cons, hparse, Option.getD_some] at hmapM
  have hnames := hsections.names
  rw [hsplit, List.map_append, List.map_cons] at hnames
  refine ⟨_, m, by rw [header, parseServos, hsplit, hmapM, Option.map_some, Option.map_some],
    hup, hdown, fun entry hentry hlaw => ?_⟩
  rw [List.flatten_append, List.flatten_cons, ← List.append_assoc, List.append_assoc,
    expand_append_of_ne]
  · exact expand_append_of_eq_some (expand_servoLines hentry)
  · intro d hd
    rcases List.mem_append.mp hd with hd | hd
    · obtain ⟨lines, hlines', hd⟩ := List.mem_flatten.mp hd
      obtain ⟨t, ht, rfl⟩ := List.mem_map.mp hlines'
      obtain ⟨m', hm'⟩ := hlines t (by rw [hsplit]; exact List.mem_append_right _ (.tail _ ht))
      rw [hm', Option.getD_some] at hd
      obtain ⟨entry', -, hsuffix, rfl⟩ := exists_suffix_of_mem_servoLines hd
      have hne : c.name ≠ t.name := fun heq => by
        have hafter := (List.nodup_cons.mp (List.nodup_append.mp hnames).2.1).1
        exact hafter (heq ▸ List.mem_map_of_mem ht)
      exact append_ne_append hlaw (.tail _ hsuffix) (Or.inr hne) fun _ =>
        hclash t ht entry.1 hlaw
    · rcases List.mem_append.mp hd with hd | hd
      · obtain ⟨⟨entry', slot⟩, -, rfl⟩ := List.mem_map.mp hd
        refine append_ne_append hlaw List.mem_cons_self (Or.inl ?_) fun h => absurd h (by decide)
        intro heq
        rw [heq] at hlaw
        revert hlaw
        decide
      · rw [List.mem_singleton.mp hd]
        exact actuatorsNb_ne _ _

theorem executeSet_eq_some {defines : List Define} {m : ServoMacros} {lo mid hi : ℤ} {slot : ℕ}
    (hc : c.Integral lo mid hi) (hup : TravelTerms (hi - mid) m.upNum m.upDen)
    (hdown : TravelTerms (mid - lo) m.downNum m.downDen)
    (hmacros : ∀ entry ∈ servoEntries c m, entry.1 ∈ lawSuffixes →
      expand defines ("SERVO_" ++ c.name ++ entry.1) = some entry.2)
    (hidx : expand defines ("SERVO_" ++ c.name ++ "_IDX") = some (slot : ℚ)) {u : ℤ}
    (hu : -9600 ≤ u ∧ u ≤ 9600) {actuators : List ℤ} (hslot : slot < actuators.length) :
    executeSet defines c.name u actuators =
      some (actuators.set slot (lawValue lo mid hi u)) := by
  obtain ⟨hmin, hmax⟩ := lawValue_mem hc.between hu
  have hlo := hc.lo_mem
  have hhi := hc.hi_mem
  have hmacro : ∀ (suffix : String) (z : ℤ), (suffix, (z : ℚ)) ∈ servoEntries c m →
      suffix ∈ lawSuffixes → intMacro defines ("SERVO_" ++ c.name ++ suffix) = some z :=
    fun suffix z hentry hlaw => intMacro_of_expand (hmacros _ hentry hlaw)
  have hupNum := hmacro "_TRAVEL_UP_NUM" m.upNum (by simp [servoEntries]) (by decide)
  have hupDen := hmacro "_TRAVEL_UP_DEN" m.upDen (by simp [servoEntries]) (by decide)
  have hdownNum := hmacro "_TRAVEL_DOWN_NUM" m.downNum (by simp [servoEntries]) (by decide)
  have hdownDen := hmacro "_TRAVEL_DOWN_DEN" m.downDen (by simp [servoEntries]) (by decide)
  have hneutral := hmacro "_NEUTRAL" mid (by simp [servoEntries, hc.neutral_eq]) (by decide)
  have hMin := hmacro "_MIN" (min lo hi) (by simp [servoEntries, hc.min_eq, hc.max_eq]) (by decide)
  have hMax := hmacro "_MAX" (max lo hi) (by simp [servoEntries, hc.min_eq, hc.max_eq]) (by decide)
  have hIdx : intMacro defines ("SERVO_" ++ c.name ++ "_IDX") = some (slot : ℤ) :=
    intMacro_of_expand (by rw [hidx, Int.cast_natCast])
  have hnumFits : Fits (u * if u > 0 then m.upNum else m.downNum) := by
    split_ifs
    · exact fits_of_abs_lt (hup.abs_mul_lt hu)
    · exact fits_of_abs_lt (hdown.abs_mul_lt hu)
  have hdiv : ∀ p, p = (u * if u > 0 then m.upNum else m.downNum) →
      div p (if p > 0 then m.upDen else m.downDen) = some (lawOffset lo mid hi u) := by
    intro p hp
    have hden : (if p > 0 then m.upDen else m.downDen) ≠ 0 := by
      split_ifs
      · exact hup.den_ne
      · exact hdown.den_ne
    rw [div, if_neg hden, hp, tdiv_eq_lawOffset hup hdown]
    refine check_of_fits ?_
    rw [lawValue] at hmin hmax
    have hmid := hc.between
    exact ⟨by omega, by omega⟩
  have hvalue : chop (lawValue lo mid hi u) (min lo hi) (max lo hi) = lawValue lo mid hi u := by
    rw [chop, if_neg (not_lt.mpr hmin), if_neg (not_lt.mpr hmax)]
  have hint16 : toInt16 (lawValue lo mid hi u) = lawValue lo mid hi u :=
    Int.bmod_eq_of_le (by omega) (by omega)
  simp only [executeSet, setServo, hupNum, hupDen, hdownNum, hdownDen, hneutral, hMin, hMax, hIdx,
    Option.bind_eq_bind, Option.bind_some]
  rw [check_of_fits (fits_of_abs_lt (by rw [abs_lt]; omega)), Option.bind_some,
    check_of_fits hnumFits, Option.bind_some, hdiv _ rfl, Option.bind_some, check_of_fits,
    Option.bind_some, if_pos (by omega), Int.toNat_natCast]
  · exact congrArg (fun v => some (actuators.set slot v)) (by rw [← lawValue, hvalue, hint16])
  · rw [lawValue] at hmin hmax
    exact ⟨by omega, by omega⟩

end

/-- The laws of a servo that none behind it clashes with: no step is undefined, the values stay
between the ends, and they follow the command from one end over the neutral to the other. -/
theorem executeSet_law {fuel : ℕ} (hfuel : 9600 < fuel) {sections : List (String × List Servo)}
    (hsections : Suitable sections) {order : List (String × String)}
    (horder : order.Perm (servosDrivers sections)) {before after : List Servo} {c : Servo}
    (hsplit : sections.flatMap Prod.snd = before ++ c :: after)
    (hclash : ∀ d ∈ after, ∀ suffix ∈ lawSuffixes, d.name ≠ c.name ++ suffix)
    {lo mid hi : ℤ} (hc : c.Integral lo mid hi) :
    ∃ (defines : List Define) (slot : ℕ) (value : ℤ → ℤ),
      header fuel sections order = some defines ∧
      intMacro defines ("SERVO_" ++ c.name ++ "_MIN") = some (min lo hi) ∧
      intMacro defines ("SERVO_" ++ c.name ++ "_MAX") = some (max lo hi) ∧
      order[slot]?.map Prod.fst = some c.name ∧
      (∀ u, -9600 ≤ u ∧ u ≤ 9600 → ∀ actuators : List ℤ, actuators.length = order.length →
        executeSet defines c.name u actuators = some (actuators.set slot (value u)) ∧
        min lo hi ≤ value u ∧ value u ≤ max lo hi) ∧
      value 0 = mid ∧ value 9600 = hi ∧ value (-9600) = lo ∧
      ∀ u u', -9600 ≤ u → u ≤ u' → u' ≤ 9600 →
        (lo ≤ hi → value u ≤ value u') ∧ (hi ≤ lo → value u' ≤ value u) := by
  obtain ⟨defines, m, hheader, hup, hdown, hmacros⟩ :=
    exists_header hsections hfuel hsplit hclash hc order
  obtain ⟨slot, hname, hlt, hidx⟩ := exists_slot hsections horder (c := c)
    (by rw [hsplit]; exact List.mem_append_right _ List.mem_cons_self)
  refine ⟨_, slot, lawValue lo mid hi, hheader, intMacro_of_expand ?_, intMacro_of_expand ?_, hname,
    fun u hu actuators hlength => ⟨?_, lawValue_mem hc.between hu⟩, lawValue_zero, lawValue_maxPprz,
    lawValue_minPprz, fun u u' _ hle _ => ⟨fun hends => ?_, fun hends => ?_⟩⟩
  · rw [hmacros ("_MIN", min c.min c.max) (by simp [servoEntries]) (by simp [lawSuffixes]),
      hc.min_eq, hc.max_eq, Int.cast_min]
  · rw [hmacros ("_MAX", max c.min c.max) (by simp [servoEntries]) (by simp [lawSuffixes]),
      hc.min_eq, hc.max_eq, Int.cast_max]
  · exact executeSet_eq_some hc hup hdown hmacros (hidx defines) hu (by omega)
  · have hbetween := hc.between
    exact lawValue_mono (by omega) (by omega) hle
  · have hbetween := hc.between
    exact lawValue_anti (by omega) (by omega) hle

def twoServos : List (String × List Servo) :=
  [("Ppm", [⟨"MOTOR", 0, 1000, 1000, 2000⟩]), ("Asctec", [⟨"ELEVATOR", 1, 1900, 1450, 1100⟩])]

theorem executeSet_law_twoServos :
    ∃ (defines : List Define) (slot : ℕ) (value : ℤ → ℤ),
      header 9601 twoServos [("ELEVATOR", "Asctec"), ("MOTOR", "Ppm")] = some defines ∧
      value 0 = 1450 ∧ value 9600 = 1100 ∧
      executeSet defines "ELEVATOR" 9600 [0, 0] = some ([0, 0].set slot (value 9600)) := by
  have hmotor : Servo.Integral ⟨"MOTOR", 0, 1000, 1000, 2000⟩ 1000 1000 2000 :=
    ⟨by norm_num, by norm_num, by norm_num, by decide, by decide, by decide⟩
  have helevator : Servo.Integral ⟨"ELEVATOR", 1, 1900, 1450, 1100⟩ 1900 1450 1100 :=
    ⟨by norm_num, by norm_num, by norm_num, by decide, by decide, by decide⟩
  have hsuitable : Suitable twoServos := by
    refine ⟨by decide, by decide, fun c hc => ?_⟩
    rcases List.mem_cons.mp hc with rfl | hc
    · exact ⟨_, _, _, hmotor⟩
    · rw [List.mem_singleton.mp hc]
      exact ⟨_, _, _, helevator⟩
  obtain ⟨defines, slot, value, hheader, -, -, -, hrun, hzero, hmax, -⟩ :=
    executeSet_law (show 9600 < 9601 by decide) hsuitable
      (List.Perm.swap ("MOTOR", "Ppm") ("ELEVATOR", "Asctec") [])
      (show twoServos.flatMap Prod.snd = [⟨"MOTOR", 0, 1000, 1000, 2000⟩] ++
        ⟨"ELEVATOR", 1, 1900, 1450, 1100⟩ :: [] from rfl) (by simp) helevator
  exact ⟨defines, slot, value, hheader, hzero, hmax, (hrun 9600 (by decide) [0, 0] rfl).1⟩

/-- The name of the second servo is that of a macro of the first. -/
def clashingServos : List (String × List Servo) :=
  [("Ppm", [⟨"A", 0, 1000, 1500, 2000⟩, ⟨"A_MAX", 1, 1000, 1500, 2000⟩])]

/-- The number of the second servo takes the place of the upper end of the first. -/
theorem executeSet_clash :
    Suitable clashingServos ∧
      (header 9601 clashingServos (servosDrivers clashingServos)).bind
        (fun defines => executeSet defines "A" 9600 [0, 0]) = some [1, 0] := by
  refine ⟨⟨by decide, by decide, fun c hc => ⟨1000, 1500, 2000, ?_⟩⟩, by decide +kernel⟩
  rcases List.mem_cons.mp hc with rfl | hc
  · exact ⟨by norm_num, by norm_num, by norm_num, by decide, by decide, by decide⟩
  · rw [List.mem_singleton.mp hc]
    exact ⟨by norm_num, by norm_num, by norm_num, by decide, by decide, by decide⟩

end Paparazzi.Generator.CommandLaws
