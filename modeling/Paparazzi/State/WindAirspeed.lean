import Paparazzi.Library.Machine
import Paparazzi.State.Domains
import Paparazzi.State.SpeedCoherence

/-!
The wind, the airspeed and the two angles of the air flow, over runs of their setters,
getters and validity tests. The tests clear the bits they ask for, and one conversion
fills one component only; all else keeps the values set last.
-/

namespace Paparazzi.State.WindAirspeed

open Paparazzi.Library.Machine
open Paparazzi.Math.Velocity
open Paparazzi.State.Interface
open Paparazzi.State.Domains

inductive Quantity where
  | windspeed | airspeed | angleOfAttack | sideslip
  deriving DecidableEq, Repr

/-- The bits of `wind_air_status` that belong to a quantity. -/
def Quantity.bits : Quantity → List ℕ
  | .windspeed => [windspeedI, windspeedF]
  | .airspeed => [airspeedI, airspeedF]
  | .angleOfAttack => [aoaF]
  | .sideslip => [sideslipF]

inductive Call where
  | setHorizontalWindspeedI (v : Vect2)
  | setAirspeedI (a : ℚ)
  | setHorizontalWindspeedF (v : Vect2)
  | setAirspeedF (a : ℚ)
  | setAngleOfAttackF (a : ℚ)
  | setSideslipF (a : ℚ)
  | getHorizontalWindspeedI
  | getAirspeedI
  | getHorizontalWindspeedF
  | getAirspeedF
  | getAngleOfAttackF
  | getSideslipF
  | isValid (q : Quantity)
  deriving DecidableEq

/-- The test of a quantity. -/
def isValid : Quantity → VehicleState → VehicleState × StatusWord
  | .windspeed => stateIsWindspeedValid
  | .airspeed => stateIsAirspeedValid
  | .angleOfAttack => stateIsAngleOfAttackValid
  | .sideslip => stateIsSideslipValid

def exec (s : VehicleState) : Call → VehicleState
  | .setHorizontalWindspeedI v => stateSetHorizontalWindspeedI v s
  | .setAirspeedI a => stateSetAirspeedI a s
  | .setHorizontalWindspeedF v => stateSetHorizontalWindspeedF v s
  | .setAirspeedF a => stateSetAirspeedF a s
  | .setAngleOfAttackF a => stateSetAngleOfAttackF a s
  | .setSideslipF a => stateSetSideslipF a s
  | .getHorizontalWindspeedI => (stateGetHorizontalWindspeedI s).1
  | .getAirspeedI => (stateGetAirspeedI s).1
  | .getHorizontalWindspeedF => (stateGetHorizontalWindspeedF s).1
  | .getAirspeedF => (stateGetAirspeedF s).1
  | .getAngleOfAttackF => (stateGetAngleOfAttackF s).1
  | .getSideslipF => (stateGetSideslipF s).1
  | .isValid q => (isValid q s).1

/-- A status word of eight bits as a truth value of C. -/
def isTrue (w : StatusWord) : Bool := (List.range 8).any w

/-! ### What the calls are for -/

/-- The values set last since `stateInit`, in the floating-point units. -/
structure Spec where
  windspeed : Option Vect2
  airspeed : Option ℚ
  angleOfAttack : Option ℚ
  sideslip : Option ℚ

def specInit : Spec := ⟨none, none, none, none⟩

def Spec.isSet (a : Spec) : Quantity → Bool
  | .windspeed => a.windspeed.isSome
  | .airspeed => a.airspeed.isSome
  | .angleOfAttack => a.angleOfAttack.isSome
  | .sideslip => a.sideslip.isSome

def windFloatOfBfp (v : Vect2) : Vect2 := ⟨speedFloatOfBfp v.x, speedFloatOfBfp v.y⟩

def windBfpOfReal (v : Vect2) : Vect2 := ⟨speedBfpOfReal v.x, speedBfpOfReal v.y⟩

def specStep (a : Spec) : Call → Spec
  | .setHorizontalWindspeedI v => { a with windspeed := some (windFloatOfBfp v) }
  | .setAirspeedI x => { a with airspeed := some (speedFloatOfBfp x) }
  | .setHorizontalWindspeedF v => { a with windspeed := some v }
  | .setAirspeedF x => { a with airspeed := some x }
  | .setAngleOfAttackF x => { a with angleOfAttack := some x }
  | .setSideslipF x => { a with sideslip := some x }
  | _ => a

/-- What is asked of a call: a test tells whether its quantity was set and changes nothing,
a getter returns the value set last. -/
def Conforms (a : Spec) (s : VehicleState) : Call → Prop
  | .isValid q => isTrue (isValid q s).2 = a.isSet q ∧ (isValid q s).1 = s
  | .getHorizontalWindspeedI =>
      ∀ v, a.windspeed = some v → (stateGetHorizontalWindspeedI s).2 = windBfpOfReal v
  | .getHorizontalWindspeedF =>
      ∀ v, a.windspeed = some v → (stateGetHorizontalWindspeedF s).2 = v
  | .getAirspeedI => ∀ x, a.airspeed = some x → (stateGetAirspeedI s).2 = speedBfpOfReal x
  | .getAirspeedF => ∀ x, a.airspeed = some x → (stateGetAirspeedF s).2 = x
  | .getAngleOfAttackF => ∀ x, a.angleOfAttack = some x → (stateGetAngleOfAttackF s).2 = x
  | .getSideslipF => ∀ x, a.sideslip = some x → (stateGetSideslipF s).2 = x
  | _ => True

/-- The states in which a call does what is asked of it: a test, while nothing is set; the
floating-point wind, where it need not be converted or comes out right by chance. -/
def Ok (s : VehicleState) : Call → Prop
  | .isValid _ => isTrue s.windAir.windAirStatus = false
  | .getHorizontalWindspeedF =>
      s.windAir.windAirStatus windspeedF = true ∨ s.windAir.windAirStatus windspeedI = false ∨
        (s.windAir.hWindspeedI.x = s.windAir.hWindspeedI.y ∧
          s.windAir.hWindspeedF.y = speedFloatOfBfp s.windAir.hWindspeedI.y)
  | _ => True

/-! ### The cached values -/

@[simp] theorem speedBfpOfReal_speedFloatOfBfp (a : ℚ) : speedBfpOfReal (speedFloatOfBfp a) = a := by
  unfold speedBfpOfReal speedFloatOfBfp
  ring

@[simp] theorem speedFloatOfBfp_speedBfpOfReal (a : ℚ) : speedFloatOfBfp (speedBfpOfReal a) = a := by
  unfold speedBfpOfReal speedFloatOfBfp
  ring

/-- A quantity that was set, with its two representations and their bits. -/
structure Kept {α β : Type} (bfp : α → β) (last : α) (setI setF : Bool) (i : β) (f : α) : Prop where
  set : setI = true ∨ setF = true
  int : setI = true → i = bfp last
  float : setF = true → f = last

/-- The valid representations hold the values set last. -/
structure Coherent (a : Spec) (s : VehicleState) : Prop where
  windspeed : ∀ v, a.windspeed = some v →
    Kept windBfpOfReal v (s.windAir.windAirStatus windspeedI) (s.windAir.windAirStatus windspeedF)
      s.windAir.hWindspeedI s.windAir.hWindspeedF
  no_windspeed : a.windspeed = none → s.windAir.windAirStatus windspeedI = false
  airspeed : ∀ x, a.airspeed = some x →
    Kept speedBfpOfReal x (s.windAir.windAirStatus airspeedI) (s.windAir.windAirStatus airspeedF)
      s.windAir.airspeedI s.windAir.airspeedF
  angleOfAttack : ∀ x, a.angleOfAttack = some x →
    s.windAir.windAirStatus aoaF = true ∧ s.windAir.angleOfAttackF = x
  sideslip : ∀ x, a.sideslip = some x →
    s.windAir.windAirStatus sideslipF = true ∧ s.windAir.sideslipF = x

namespace Kept

variable {α β : Type} {bfp : α → β} {last : α} {setI setF : Bool} {i : β} {f : α}

theorem ofInt (hi : i = bfp last) : Kept bfp last true false i f :=
  ⟨Or.inl rfl, fun _ => hi, nofun⟩

theorem ofFloat (i : β) : Kept bfp last false true i last :=
  ⟨Or.inr rfl, nofun, fun _ => rfl⟩

/-- Where the integer is not valid, the float is. -/
theorem float_of_not_int (h : Kept bfp last setI setF i f) (hI : setI = false) :
    setF = true ∧ f = last := by
  rcases h.set with hset | hset
  · rw [hI] at hset
    cases hset
  · exact ⟨hset, h.float hset⟩

theorem int_of_not_float (h : Kept bfp last setI setF i f) (hF : setF = false) :
    setI = true ∧ i = bfp last := by
  rcases h.set with hset | hset
  · exact ⟨hset, h.int hset⟩
  · rw [hF] at hset
    cases hset

end Kept

theorem coherent_init (s : VehicleState) : Coherent specInit (stateInit s) :=
  ⟨nofun, fun _ => rfl, nofun, nofun, nofun⟩

section

variable {a : Spec} {s : VehicleState}

theorem Coherent.bit_of_isSet (h : Coherent a s) {q : Quantity} (hq : a.isSet q = true) :
    ∃ n ∈ q.bits, s.windAir.windAirStatus n = true := by
  cases q with
  | windspeed =>
      obtain ⟨v, hv⟩ := Option.isSome_iff_exists.mp hq
      rcases (h.windspeed v hv).set with hset | hset
      · exact ⟨windspeedI, by simp [Quantity.bits], hset⟩
      · exact ⟨windspeedF, by simp [Quantity.bits], hset⟩
  | airspeed =>
      obtain ⟨x, hx⟩ := Option.isSome_iff_exists.mp hq
      rcases (h.airspeed x hx).set with hset | hset
      · exact ⟨airspeedI, by simp [Quantity.bits], hset⟩
      · exact ⟨airspeedF, by simp [Quantity.bits], hset⟩
  | angleOfAttack =>
      obtain ⟨x, hx⟩ := Option.isSome_iff_exists.mp hq
      exact ⟨aoaF, by simp [Quantity.bits], (h.angleOfAttack x hx).1⟩
  | sideslip =>
      obtain ⟨x, hx⟩ := Option.isSome_iff_exists.mp hq
      exact ⟨sideslipF, by simp [Quantity.bits], (h.sideslip x hx).1⟩

/-! ### The tests -/

theorem isValid_eq (q : Quantity) (s : VehicleState) : isValid q s = maskWindAirStatus q.bits s := by
  cases q <;> rfl

theorem isTrue_eq_false_iff (w : StatusWord) : isTrue w = false ↔ ∀ n < 8, w n = false := by
  simp [isTrue]

theorem lt_of_mem_bits {q : Quantity} {n : ℕ} (hn : n ∈ q.bits) : n < 8 := by
  cases q <;> simp only [Quantity.bits, List.mem_cons, List.not_mem_nil, or_false] at hn
  · rcases hn with rfl | rfl <;> decide
  · rcases hn with rfl | rfl <;> decide
  · subst hn
    decide
  · subst hn
    decide

theorem windAirStatus_mask (bits : List ℕ) (s : VehicleState) (n : ℕ) :
    (maskWindAirStatus bits s).2 n = (decide (n ∉ bits) && s.windAir.windAirStatus n) := by
  unfold maskWindAirStatus
  dsimp only
  induction bits generalizing s with
  | nil => simp
  | cons b bits ih =>
      rw [List.foldl_cons, ih]
      by_cases hn : n = b <;> simp [clearWindAirBit, StatusWord.clearBit, hn]

theorem clearWindAirBit_of_clear {n : ℕ} (hn : s.windAir.windAirStatus n = false) :
    clearWindAirBit s n = s := by
  have hstatus : s.windAir.windAirStatus.clearBit n = s.windAir.windAirStatus := by
    funext n'
    rw [StatusWord.clearBit]
    split_ifs with heq
    · rw [heq, hn]
    · rfl
  rw [clearWindAirBit, hstatus]

/-- Masking bits changes nothing exactly if none of them is set. -/
theorem maskWindAirStatus_eq_iff (bits : List ℕ) :
    (maskWindAirStatus bits s).1 = s ↔ ∀ n ∈ bits, s.windAir.windAirStatus n = false := by
  constructor
  · intro h n hn
    have hmask := windAirStatus_mask bits s n
    change (maskWindAirStatus bits s).1.windAir.windAirStatus n = _ at hmask
    simpa [h, hn] using hmask
  · intro h
    unfold maskWindAirStatus
    dsimp only
    induction bits with
    | nil => rfl
    | cons b bits ih =>
        rw [List.foldl_cons, clearWindAirBit_of_clear (h b (by simp))]
        exact ih fun n hn => h n (by simp [hn])

/-- A test is right exactly while no bit of the word is set. -/
theorem conforms_isValid_iff (h : Coherent a s) (q : Quantity) :
    Conforms a s (.isValid q) ↔ Ok s (.isValid q) := by
  simp only [Conforms, Ok, isValid_eq]
  have hword : (maskWindAirStatus q.bits s).1 = s →
      (maskWindAirStatus q.bits s).2 = s.windAir.windAirStatus := by
    intro heq
    exact congrArg (fun s : VehicleState => s.windAir.windAirStatus) heq
  have hunset : (∀ n ∈ q.bits, s.windAir.windAirStatus n = false) → a.isSet q = false := by
    intro hclear
    cases hq : a.isSet q with
    | false => rfl
    | true =>
        obtain ⟨n, hn, hset⟩ := h.bit_of_isSet hq
        rw [hclear n hn] at hset
        cases hset
  constructor
  · rintro ⟨hresult, heq⟩
    rw [hword heq, hunset ((maskWindAirStatus_eq_iff q.bits).mp heq)] at hresult
    exact hresult
  · intro hfalse
    have hclear : ∀ n ∈ q.bits, s.windAir.windAirStatus n = false := fun n hn =>
      (isTrue_eq_false_iff _).mp hfalse n (lt_of_mem_bits hn)
    have heq := (maskWindAirStatus_eq_iff q.bits).mpr hclear
    refine ⟨?_, heq⟩
    rw [hword heq, hunset hclear]
    exact hfalse

/-! ### The getters -/

theorem conforms_getHorizontalWindspeedI (h : Coherent a s) :
    Conforms a s .getHorizontalWindspeedI := by
  rintro v hv
  have hkept := h.windspeed v hv
  simp only [stateGetHorizontalWindspeedI, stateCalcHorizontalWindspeedI]
  split_ifs with hI hF
  · exact hkept.int hI
  · have hfloat := (hkept.float_of_not_int (by simpa using hI)).2
    simp [VehicleState.setRateBit, windBfpOfReal, hfloat]
  · exact absurd (hkept.float_of_not_int (by simpa using hI)).1 hF

theorem conforms_getHorizontalWindspeedF_iff (h : Coherent a s) :
    Conforms a s .getHorizontalWindspeedF ↔ Ok s .getHorizontalWindspeedF := by
  simp only [Conforms, Ok, stateGetHorizontalWindspeedF, stateCalcHorizontalWindspeedF]
  cases hlast : a.windspeed with
  | none => exact iff_of_true nofun (Or.inr (Or.inl (h.no_windspeed hlast)))
  | some v =>
      have hkept := h.windspeed v hlast
      split_ifs with hF hI
      · refine iff_of_true ?_ (Or.inl hF)
        rintro v' hv'
        cases hv'
        exact hkept.float hF
      · have hint := hkept.int hI
        have hx : v.x = speedFloatOfBfp s.windAir.hWindspeedI.x := by
          rw [hint, windBfpOfReal, speedFloatOfBfp_speedBfpOfReal]
        have hy : v.y = speedFloatOfBfp s.windAir.hWindspeedI.y := by
          rw [hint, windBfpOfReal, speedFloatOfBfp_speedBfpOfReal]
        have hinj : speedFloatOfBfp s.windAir.hWindspeedI.y = speedFloatOfBfp s.windAir.hWindspeedI.x ↔
            s.windAir.hWindspeedI.x = s.windAir.hWindspeedI.y := by
          constructor
          · intro heq
            have hbfp := congrArg speedBfpOfReal heq
            simpa using hbfp.symm
          · intro heq
            rw [heq]
        simp only [Option.some.injEq, forall_eq', VehicleState.setRateBit, hF, hI]
        rw [← hinj, ← hx, ← hy]
        obtain ⟨x, y⟩ := v
        simp
      · exact absurd (hkept.int_of_not_float (by simpa using hF)).1 hI

theorem conforms_getAirspeedI (h : Coherent a s) : Conforms a s .getAirspeedI := by
  rintro x hx
  have hkept := h.airspeed x hx
  simp only [stateGetAirspeedI, stateCalcAirspeedI]
  split_ifs with hI hF
  · exact hkept.int hI
  · exact congrArg speedBfpOfReal (hkept.float_of_not_int (by simpa using hI)).2
  · exact absurd (hkept.float_of_not_int (by simpa using hI)).1 hF

theorem conforms_getAirspeedF (h : Coherent a s) : Conforms a s .getAirspeedF := by
  rintro x hx
  have hkept := h.airspeed x hx
  simp only [stateGetAirspeedF, stateCalcAirspeedF]
  split_ifs with hF hI
  · exact hkept.float hF
  · have hint := (hkept.int_of_not_float (by simpa using hF)).2
    simp [setWindAirBit, hint]
  · exact absurd (hkept.int_of_not_float (by simpa using hF)).1 hI

theorem conforms_iff_ok (h : Coherent a s) (c : Call) : Conforms a s c ↔ Ok s c := by
  cases c with
  | isValid q => exact conforms_isValid_iff h q
  | getHorizontalWindspeedI => exact iff_of_true (conforms_getHorizontalWindspeedI h) trivial
  | getHorizontalWindspeedF => exact conforms_getHorizontalWindspeedF_iff h
  | getAirspeedI => exact iff_of_true (conforms_getAirspeedI h) trivial
  | getAirspeedF => exact iff_of_true (conforms_getAirspeedF h) trivial
  | getAngleOfAttackF => exact iff_of_true (fun x hx => (h.angleOfAttack x hx).2) trivial
  | getSideslipF => exact iff_of_true (fun x hx => (h.sideslip x hx).2) trivial
  | setHorizontalWindspeedI | setAirspeedI | setHorizontalWindspeedF | setAirspeedF
  | setAngleOfAttackF | setSideslipF => exact Iff.rfl

/-! ### One call -/

theorem coherent_getHorizontalWindspeedI (h : Coherent a s) :
    Coherent a (stateGetHorizontalWindspeedI s).1 := by
  simp only [stateGetHorizontalWindspeedI, stateCalcHorizontalWindspeedI]
  split_ifs with hI hF
  · exact h
  · refine { h with windspeed := ?_ }
    rintro v hv
    have hkept := h.windspeed v hv
    exact ⟨hkept.set, fun hset => absurd hset hI, hkept.float⟩
  · exact { h with }

theorem coherent_getHorizontalWindspeedF (h : Coherent a s) :
    Coherent a (stateGetHorizontalWindspeedF s).1 := by
  simp only [stateGetHorizontalWindspeedF, stateCalcHorizontalWindspeedF]
  split_ifs with hF hI
  · exact h
  · refine { h with windspeed := ?_ }
    rintro v hv
    have hkept := h.windspeed v hv
    exact ⟨hkept.set, hkept.int, fun hset => absurd hset hF⟩
  · exact { h with }

theorem coherent_getAirspeedI (h : Coherent a s) : Coherent a (stateGetAirspeedI s).1 := by
  simp only [stateGetAirspeedI, stateCalcAirspeedI]
  split_ifs with hI hF
  · exact h
  · refine { h with airspeed := ?_ }
    rintro x hx
    have hfloat := (h.airspeed x hx).float_of_not_int (by simpa using hI)
    exact ⟨Or.inl rfl, fun _ => congrArg speedBfpOfReal hfloat.2, fun _ => hfloat.2⟩
  · refine { h with airspeed := ?_ }
    rintro x hx
    exact absurd ((h.airspeed x hx).float_of_not_int (by simpa using hI)).1 hF

theorem coherent_getAirspeedF (h : Coherent a s) : Coherent a (stateGetAirspeedF s).1 := by
  simp only [stateGetAirspeedF, stateCalcAirspeedF]
  split_ifs with hF hI
  · exact h
  · refine { h with airspeed := ?_ }
    rintro x hx
    have hint := (h.airspeed x hx).int_of_not_float (by simpa using hF)
    refine ⟨Or.inr rfl, fun _ => hint.2, fun _ => ?_⟩
    change speedFloatOfBfp s.windAir.airspeedI = x
    rw [hint.2, speedFloatOfBfp_speedBfpOfReal]
  · refine { h with airspeed := ?_ }
    rintro x hx
    exact absurd ((h.airspeed x hx).int_of_not_float (by simpa using hF)).1 hI

/-- A call keeps the values coherent unless it is a test that clears a bit. -/
theorem coherent_step (h : Coherent a s) {c : Call} (hok : Ok s c) :
    Coherent (specStep a c) (exec s c) := by
  cases c with
  | setHorizontalWindspeedI v =>
      refine { h with windspeed := ?_, no_windspeed := nofun }
      rintro v' hv'
      cases hv'
      apply Kept.ofInt
      change v = windBfpOfReal (windFloatOfBfp v)
      simp [windBfpOfReal, windFloatOfBfp]
  | setHorizontalWindspeedF v =>
      refine { h with windspeed := ?_, no_windspeed := nofun }
      rintro v' hv'
      cases hv'
      exact Kept.ofFloat _
  | setAirspeedI x =>
      refine { h with airspeed := ?_ }
      rintro x' hx'
      cases hx'
      apply Kept.ofInt
      exact (speedBfpOfReal_speedFloatOfBfp x).symm
  | setAirspeedF x =>
      refine { h with airspeed := ?_ }
      rintro x' hx'
      cases hx'
      exact Kept.ofFloat _
  | setAngleOfAttackF x =>
      refine { h with angleOfAttack := ?_ }
      rintro x' hx'
      cases hx'
      exact ⟨rfl, rfl⟩
  | setSideslipF x =>
      refine { h with sideslip := ?_ }
      rintro x' hx'
      cases hx'
      exact ⟨rfl, rfl⟩
  | getHorizontalWindspeedI => exact coherent_getHorizontalWindspeedI h
  | getHorizontalWindspeedF => exact coherent_getHorizontalWindspeedF h
  | getAirspeedI => exact coherent_getAirspeedI h
  | getAirspeedF => exact coherent_getAirspeedF h
  | getAngleOfAttackF | getSideslipF => exact h
  | isValid q =>
      have hconforms := (conforms_isValid_iff h q).mpr hok
      change Coherent a (isValid q s).1
      rw [hconforms.2]
      exact h

end

/-- A call, with the record of the values set. -/
def step (p : Spec × VehicleState) (c : Call) : Spec × VehicleState := (specStep p.1 c, exec p.2 c)

/-- Every call of a run from `stateInit` does what is asked of it exactly if no test is called
while a bit of the status word is set, and the floating-point wind is read only where it is
valid, the integer one is not, or the conversion comes out right by chance. -/
theorem calls_conform_iff (s : VehicleState) (calls : List Call) :
    RunOk step (fun p c => Conforms p.1 p.2 c) (specInit, stateInit s) calls ↔
      RunOk exec Ok (stateInit s) calls := by
  rw [← @runOk_comp _ _ _ step _ Ok Prod.snd (fun _ _ => rfl) (specInit, stateInit s)]
  symm
  apply runOk_congr_of_inv (fun p : Spec × VehicleState => Coherent p.1 p.2)
  · rintro p c h hok
    exact coherent_step h hok
  · rintro p c h
    exact (conforms_iff_ok h c).symm
  · exact coherent_init s

/-- An airspeed that was set is reported missing by its test, and the wind set as ⟨3, 4⟩ in
the fixed-point format comes back as ⟨4, 0⟩. -/
theorem airspeed_denied_and_wind_mixed :
    ¬ RunOk step (fun p c => Conforms p.1 p.2 c) (specInit, stateInit SpeedCoherence.zeroState)
        [.setAirspeedF 10, .isValid .airspeed] ∧
    ¬ RunOk step (fun p c => Conforms p.1 p.2 c) (specInit, stateInit SpeedCoherence.zeroState)
        [.setHorizontalWindspeedI ⟨3 * 2 ^ 19, 4 * 2 ^ 19⟩, .getHorizontalWindspeedF] := by
  constructor
  · rintro ⟨-, ⟨hresult, -⟩, -⟩
    cases hresult
  · rintro ⟨-, hvalue, -⟩
    have hread := hvalue _ rfl
    have hy := congrArg Vect2.y hread
    change (0 : ℚ) = speedFloatOfBfp (4 * 2 ^ 19) at hy
    norm_num [speedFloatOfBfp] at hy

end Paparazzi.State.WindAirspeed
