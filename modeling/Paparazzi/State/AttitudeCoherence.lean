import Mathlib
import Paparazzi.Library.Machine
import Paparazzi.Library.Numerals
import Paparazzi.State.Domains

/-!
Coherence of the attitude cache. Attitudes have one value in each of the six
representations, and the conversions take the value of an attitude to its value; then
every valid representation is that of the attitude set last.
-/

namespace Paparazzi.State.AttitudeCoherence

open Paparazzi.Library.Machine
open Paparazzi.State.Interface
open Paparazzi.State.Domains

attribute [local instance] Library.Numerals.neZero_three Library.Numerals.neZero_nine

/-- Conversions that are exact: attitudes `A`, their values in the six representations,
and between these values the conversions. -/
structure ExactMaths (A : Type) extends OrientationMaths where
  quatI : A → Quat
  eulersI : A → Eulers
  rmatI : A → RMat
  quatF : A → Quat
  eulersF : A → Eulers
  rmatF : A → RMat
  quatBfpOfReal_eq : ∀ a, quatBfpOfReal (quatF a) = quatI a
  quatFloatOfBfp_eq : ∀ a, quatFloatOfBfp (quatI a) = quatF a
  eulersBfpOfReal_eq : ∀ a, eulersBfpOfReal (eulersF a) = eulersI a
  eulersFloatOfBfp_eq : ∀ a, eulersFloatOfBfp (eulersI a) = eulersF a
  rmatBfpOfReal_eq : ∀ a, rmatBfpOfReal (rmatF a) = rmatI a
  rmatFloatOfBfp_eq : ∀ a, rmatFloatOfBfp (rmatI a) = rmatF a
  int32QuatOfRmat_eq : ∀ a, int32QuatOfRmat (rmatI a) = quatI a
  int32QuatOfEulers_eq : ∀ a, int32QuatOfEulers (eulersI a) = quatI a
  int32RmatOfQuat_eq : ∀ a, int32RmatOfQuat (quatI a) = rmatI a
  int32RmatOfEulers_eq : ∀ a, int32RmatOfEulers (eulersI a) = rmatI a
  int32EulersOfRmat_eq : ∀ a, int32EulersOfRmat (rmatI a) = eulersI a
  int32EulersOfQuat_eq : ∀ a, int32EulersOfQuat (quatI a) = eulersI a
  floatQuatOfRmat_eq : ∀ a, floatQuatOfRmat (rmatF a) = quatF a
  floatQuatOfEulers_eq : ∀ a, floatQuatOfEulers (eulersF a) = quatF a
  floatRmatOfQuat_eq : ∀ a, floatRmatOfQuat (quatF a) = rmatF a
  floatRmatOfEulers_eq : ∀ a, floatRmatOfEulers (eulersF a) = rmatF a
  floatEulersOfRmat_eq : ∀ a, floatEulersOfRmat (rmatF a) = eulersF a
  floatEulersOfQuat_eq : ∀ a, floatEulersOfQuat (quatF a) = eulersF a

/-- The level attitude and the half turn about the axis of the fuselage. -/
def halfTurns : ExactMaths Bool where
  quatI b := if b then ![0, 2 ^ 15, 0, 0] else ![2 ^ 15, 0, 0, 0]
  eulersI b := if b then ![12867, 0, 0] else 0
  rmatI b := 2 ^ 14 * if b then ![1, 0, 0, 0, -1, 0, 0, 0, -1] else ![1, 0, 0, 0, 1, 0, 0, 0, 1]
  quatF b := if b then ![0, 1, 0, 0] else ![1, 0, 0, 0]
  eulersF b := if b then ![12867 / 2 ^ 12, 0, 0] else 0
  rmatF b := if b then ![1, 0, 0, 0, -1, 0, 0, 0, -1] else ![1, 0, 0, 0, 1, 0, 0, 0, 1]
  quatBfpOfReal q := 2 ^ 15 * q
  quatFloatOfBfp q := q / 2 ^ 15
  eulersBfpOfReal e := 2 ^ 12 * e
  eulersFloatOfBfp e := e / 2 ^ 12
  rmatBfpOfReal m := 2 ^ 14 * m
  rmatFloatOfBfp m := m / 2 ^ 14
  int32QuatOfRmat m := if m 4 < 0 then ![0, 2 ^ 15, 0, 0] else ![2 ^ 15, 0, 0, 0]
  int32QuatOfEulers e := if 0 < e 0 then ![0, 2 ^ 15, 0, 0] else ![2 ^ 15, 0, 0, 0]
  int32RmatOfQuat q :=
    2 ^ 14 * if 0 < q 1 then ![1, 0, 0, 0, -1, 0, 0, 0, -1] else ![1, 0, 0, 0, 1, 0, 0, 0, 1]
  int32RmatOfEulers e :=
    2 ^ 14 * if 0 < e 0 then ![1, 0, 0, 0, -1, 0, 0, 0, -1] else ![1, 0, 0, 0, 1, 0, 0, 0, 1]
  int32EulersOfRmat m := if m 4 < 0 then ![12867, 0, 0] else 0
  int32EulersOfQuat q := if 0 < q 1 then ![12867, 0, 0] else 0
  floatQuatOfRmat m := if m 4 < 0 then ![0, 1, 0, 0] else ![1, 0, 0, 0]
  floatQuatOfEulers e := if 0 < e 0 then ![0, 1, 0, 0] else ![1, 0, 0, 0]
  floatRmatOfQuat q :=
    if 0 < q 1 then ![1, 0, 0, 0, -1, 0, 0, 0, -1] else ![1, 0, 0, 0, 1, 0, 0, 0, 1]
  floatRmatOfEulers e :=
    if 0 < e 0 then ![1, 0, 0, 0, -1, 0, 0, 0, -1] else ![1, 0, 0, 0, 1, 0, 0, 0, 1]
  floatEulersOfRmat m := if m 4 < 0 then ![12867 / 2 ^ 12, 0, 0] else 0
  floatEulersOfQuat q := if 0 < q 1 then ![12867 / 2 ^ 12, 0, 0] else 0
  quatBfpOfReal_eq b := by ext i; cases b <;> fin_cases i <;> norm_num
  quatFloatOfBfp_eq b := by ext i; cases b <;> fin_cases i <;> norm_num
  eulersBfpOfReal_eq b := by ext i; cases b <;> fin_cases i <;> norm_num
  eulersFloatOfBfp_eq b := by ext i; cases b <;> fin_cases i <;> norm_num
  rmatBfpOfReal_eq b := by cases b <;> rfl
  rmatFloatOfBfp_eq b := by ext i; cases b <;> fin_cases i <;> norm_num
  int32QuatOfRmat_eq b := by cases b <;> simp
  int32QuatOfEulers_eq b := by cases b <;> norm_num
  int32RmatOfQuat_eq b := by cases b <;> norm_num
  int32RmatOfEulers_eq b := by cases b <;> norm_num
  int32EulersOfRmat_eq b := by cases b <;> simp
  int32EulersOfQuat_eq b := by cases b <;> norm_num
  floatQuatOfRmat_eq b := by cases b <;> simp
  floatQuatOfEulers_eq b := by cases b <;> norm_num
  floatRmatOfQuat_eq b := by cases b <;> norm_num
  floatRmatOfEulers_eq b := by cases b <;> norm_num
  floatEulersOfRmat_eq b := by cases b <;> simp
  floatEulersOfQuat_eq b := by cases b <;> norm_num

/-! ### Values and fields -/

def rep : Orientation → OrRep
  | .quatI _ => .quatI
  | .eulerI _ => .eulerI
  | .rmatI _ => .rmatI
  | .quatF _ => .quatF
  | .eulerF _ => .eulerF
  | .rmatF _ => .rmatF

/-- The stored value of a representation. -/
def coord (o : OrientationReps) : OrRep → Orientation
  | .quatI => .quatI o.quatI
  | .eulerI => .eulerI o.eulersI
  | .rmatI => .rmatI o.rmatI
  | .quatF => .quatF o.quatF
  | .eulerF => .eulerF o.eulersF
  | .rmatF => .rmatF o.rmatF

def put (o : OrientationReps) : Orientation → OrientationReps
  | .quatI q => { o with quatI := q }
  | .eulerI e => { o with eulersI := e }
  | .rmatI m => { o with rmatI := m }
  | .quatF q => { o with quatF := q }
  | .eulerF e => { o with eulersF := e }
  | .rmatF m => { o with rmatF := m }

@[simp] theorem coord_put_self (o : OrientationReps) (x : Orientation) :
    coord (put o x) (rep x) = x := by
  cases x <;> rfl

theorem coord_put_of_ne (o : OrientationReps) (x : Orientation) {r : OrRep} (h : r ≠ rep x) :
    coord (put o x) r = coord o r := by
  cases x <;> cases r <;> first | rfl | exact absurd rfl h

@[simp] theorem status_put (o : OrientationReps) (x : Orientation) :
    (put o x).status = o.status := by
  cases x <;> rfl

@[simp] theorem coord_setBit (o : OrientationReps) (r r' : OrRep) :
    coord (o.setBit r) r' = coord o r' := by
  cases r' <;> rfl

theorem orientationSet_eq (x : Orientation) (o : OrientationReps) :
    orientationSet x o = (put o x).onlyBit (rep x) := by
  cases x <;> rfl

theorem snd_orientationGet (om : OrientationMaths) (r : OrRep) (o : OrientationReps) :
    (orientationGet om r o).2 = coord (orientationGet om r o).1 r := by
  cases r <;> rfl

theorem fst_orientationGet (om : OrientationMaths) (r : OrRep) (o : OrientationReps) :
    (orientationGet om r o).1 = if o.status r then o else orientationCalc om r o := by
  cases r <;> rfl

section

variable {A : Type} (E : ExactMaths A)

/-- The value of an attitude in a representation. -/
def ExactMaths.value (a : A) : OrRep → Orientation
  | .quatI => .quatI (E.quatI a)
  | .eulerI => .eulerI (E.eulersI a)
  | .rmatI => .rmatI (E.rmatI a)
  | .quatF => .quatF (E.quatF a)
  | .eulerF => .eulerF (E.eulersF a)
  | .rmatF => .rmatF (E.rmatF a)

/-! ### Coherence -/

/-- Some representation is valid, and those that are have the value of the attitude. -/
structure Coherent (a : A) (o : OrientationReps) : Prop where
  valid : ∃ r, o.status r = true
  coord : ∀ r, o.status r = true → coord o r = E.value a r

namespace Coherent

variable {E} {a : A} {o : OrientationReps}

theorem quatI (h : Coherent E a o) (hr : o.status .quatI = true) : o.quatI = E.quatI a := by
  injection h.coord .quatI hr

theorem eulersI (h : Coherent E a o) (hr : o.status .eulerI = true) : o.eulersI = E.eulersI a := by
  injection h.coord .eulerI hr

theorem rmatI (h : Coherent E a o) (hr : o.status .rmatI = true) : o.rmatI = E.rmatI a := by
  injection h.coord .rmatI hr

theorem quatF (h : Coherent E a o) (hr : o.status .quatF = true) : o.quatF = E.quatF a := by
  injection h.coord .quatF hr

theorem eulersF (h : Coherent E a o) (hr : o.status .eulerF = true) : o.eulersF = E.eulersF a := by
  injection h.coord .eulerF hr

theorem rmatF (h : Coherent E a o) (hr : o.status .rmatF = true) : o.rmatF = E.rmatF a := by
  injection h.coord .rmatF hr

/-- The value of the attitude is stored and its bit set. -/
theorem store (h : Coherent E a o) {r : OrRep} {x : Orientation} (hx : x = E.value a r)
    (hr : rep x = r) : Coherent E a ((put o x).setBit r) := by
  subst hr
  refine ⟨⟨rep x, by simp [OrientationReps.setBit]⟩, ?_⟩
  intro r hset
  rw [coord_setBit]
  by_cases heq : r = rep x
  · rw [heq, coord_put_self]
    exact hx
  · rw [coord_put_of_ne o x heq]
    simp only [OrientationReps.setBit, if_neg heq, status_put] at hset
    exact h.coord r hset

theorem storeQuatI (h : Coherent E a o) {q : Quat} (hq : q = E.quatI a) :
    Coherent E a ({ o with quatI := q }.setBit .quatI) :=
  h.store (x := .quatI q) (congrArg Orientation.quatI hq) rfl

theorem storeEulersI (h : Coherent E a o) {e : Eulers} (he : e = E.eulersI a) :
    Coherent E a ({ o with eulersI := e }.setBit .eulerI) :=
  h.store (x := .eulerI e) (congrArg Orientation.eulerI he) rfl

theorem storeRMatI (h : Coherent E a o) {m : RMat} (hm : m = E.rmatI a) :
    Coherent E a ({ o with rmatI := m }.setBit .rmatI) :=
  h.store (x := .rmatI m) (congrArg Orientation.rmatI hm) rfl

theorem storeQuatF (h : Coherent E a o) {q : Quat} (hq : q = E.quatF a) :
    Coherent E a ({ o with quatF := q }.setBit .quatF) :=
  h.store (x := .quatF q) (congrArg Orientation.quatF hq) rfl

theorem storeEulersF (h : Coherent E a o) {e : Eulers} (he : e = E.eulersF a) :
    Coherent E a ({ o with eulersF := e }.setBit .eulerF) :=
  h.store (x := .eulerF e) (congrArg Orientation.eulerF he) rfl

theorem storeRMatF (h : Coherent E a o) {m : RMat} (hm : m = E.rmatF a) :
    Coherent E a ({ o with rmatF := m }.setBit .rmatF) :=
  h.store (x := .rmatF m) (congrArg Orientation.rmatF hm) rfl

theorem calcQuatI (h : Coherent E a o) :
    Coherent E a (orientationCalcQuatI E.toOrientationMaths o) := by
  unfold orientationCalcQuatI
  split_ifs with hvalid h1 h2 h3 h4 h5
  · exact h
  · exact h.storeQuatI ((congrArg E.quatBfpOfReal (h.quatF h1)).trans (E.quatBfpOfReal_eq a))
  · exact h.storeQuatI ((congrArg E.int32QuatOfRmat (h.rmatI h2)).trans (E.int32QuatOfRmat_eq a))
  · exact h.storeQuatI
      ((congrArg E.int32QuatOfEulers (h.eulersI h3)).trans (E.int32QuatOfEulers_eq a))
  · have hrmat := (congrArg E.rmatBfpOfReal (h.rmatF h4)).trans (E.rmatBfpOfReal_eq a)
    exact (h.storeRMatI hrmat).storeQuatI
      ((congrArg E.int32QuatOfRmat hrmat).trans (E.int32QuatOfRmat_eq a))
  · have heulers := (congrArg E.eulersBfpOfReal (h.eulersF h5)).trans (E.eulersBfpOfReal_eq a)
    exact (h.storeEulersI heulers).storeQuatI
      ((congrArg E.int32QuatOfEulers heulers).trans (E.int32QuatOfEulers_eq a))
  · obtain ⟨r, hr⟩ := h.valid
    cases r <;> contradiction

theorem calcRMatI (h : Coherent E a o) :
    Coherent E a (orientationCalcRMatI E.toOrientationMaths o) := by
  unfold orientationCalcRMatI
  split_ifs with hvalid h1 h2 h3 h4 h5
  · exact h
  · exact h.storeRMatI ((congrArg E.rmatBfpOfReal (h.rmatF h1)).trans (E.rmatBfpOfReal_eq a))
  · exact h.storeRMatI ((congrArg E.int32RmatOfQuat (h.quatI h2)).trans (E.int32RmatOfQuat_eq a))
  · exact h.storeRMatI
      ((congrArg E.int32RmatOfEulers (h.eulersI h3)).trans (E.int32RmatOfEulers_eq a))
  · have hquat := (congrArg E.quatBfpOfReal (h.quatF h4)).trans (E.quatBfpOfReal_eq a)
    exact (h.storeQuatI hquat).storeRMatI
      ((congrArg E.int32RmatOfQuat hquat).trans (E.int32RmatOfQuat_eq a))
  · have heulers := (congrArg E.eulersBfpOfReal (h.eulersF h5)).trans (E.eulersBfpOfReal_eq a)
    exact (h.storeEulersI heulers).storeRMatI
      ((congrArg E.int32RmatOfEulers heulers).trans (E.int32RmatOfEulers_eq a))
  · obtain ⟨r, hr⟩ := h.valid
    cases r <;> contradiction

theorem calcEulersI (h : Coherent E a o) :
    Coherent E a (orientationCalcEulersI E.toOrientationMaths o) := by
  unfold orientationCalcEulersI
  split_ifs with hvalid h1 h2 h3 h4 h5
  · exact h
  · exact h.storeEulersI
      ((congrArg E.eulersBfpOfReal (h.eulersF h1)).trans (E.eulersBfpOfReal_eq a))
  · exact h.storeEulersI
      ((congrArg E.int32EulersOfRmat (h.rmatI h2)).trans (E.int32EulersOfRmat_eq a))
  · exact h.storeEulersI
      ((congrArg E.int32EulersOfQuat (h.quatI h3)).trans (E.int32EulersOfQuat_eq a))
  · have hrmat := (congrArg E.rmatBfpOfReal (h.rmatF h4)).trans (E.rmatBfpOfReal_eq a)
    exact (h.storeRMatI hrmat).storeEulersI
      ((congrArg E.int32EulersOfRmat hrmat).trans (E.int32EulersOfRmat_eq a))
  · have hquat := (congrArg E.quatBfpOfReal (h.quatF h5)).trans (E.quatBfpOfReal_eq a)
    exact (h.storeQuatI hquat).storeEulersI
      ((congrArg E.int32EulersOfQuat hquat).trans (E.int32EulersOfQuat_eq a))
  · obtain ⟨r, hr⟩ := h.valid
    cases r <;> contradiction

theorem calcQuatF (h : Coherent E a o) :
    Coherent E a (orientationCalcQuatF E.toOrientationMaths o) := by
  unfold orientationCalcQuatF
  split_ifs with hvalid h1 h2 h3 h4 h5
  · exact h
  · exact h.storeQuatF ((congrArg E.quatFloatOfBfp (h.quatI h1)).trans (E.quatFloatOfBfp_eq a))
  · exact h.storeQuatF ((congrArg E.floatQuatOfRmat (h.rmatF h2)).trans (E.floatQuatOfRmat_eq a))
  · exact h.storeQuatF
      ((congrArg E.floatQuatOfEulers (h.eulersF h3)).trans (E.floatQuatOfEulers_eq a))
  · have hrmat := (congrArg E.rmatFloatOfBfp (h.rmatI h4)).trans (E.rmatFloatOfBfp_eq a)
    exact (h.storeRMatF hrmat).storeQuatF
      ((congrArg E.floatQuatOfRmat hrmat).trans (E.floatQuatOfRmat_eq a))
  · have heulers := (congrArg E.eulersFloatOfBfp (h.eulersI h5)).trans (E.eulersFloatOfBfp_eq a)
    exact (h.storeEulersF heulers).storeQuatF
      ((congrArg E.floatQuatOfEulers heulers).trans (E.floatQuatOfEulers_eq a))
  · obtain ⟨r, hr⟩ := h.valid
    cases r <;> contradiction

theorem calcRMatF (h : Coherent E a o) :
    Coherent E a (orientationCalcRMatF E.toOrientationMaths o) := by
  unfold orientationCalcRMatF
  split_ifs with hvalid h1 h2 h3 h4 h5
  · exact h
  · exact h.storeRMatF ((congrArg E.rmatFloatOfBfp (h.rmatI h1)).trans (E.rmatFloatOfBfp_eq a))
  · exact h.storeRMatF ((congrArg E.floatRmatOfQuat (h.quatF h2)).trans (E.floatRmatOfQuat_eq a))
  · exact h.storeRMatF
      ((congrArg E.floatRmatOfEulers (h.eulersF h3)).trans (E.floatRmatOfEulers_eq a))
  · have hquat := (congrArg E.quatFloatOfBfp (h.quatI h4)).trans (E.quatFloatOfBfp_eq a)
    exact (h.storeQuatF hquat).storeRMatF
      ((congrArg E.floatRmatOfQuat hquat).trans (E.floatRmatOfQuat_eq a))
  · have heulers := (congrArg E.eulersFloatOfBfp (h.eulersI h5)).trans (E.eulersFloatOfBfp_eq a)
    exact (h.storeEulersF heulers).storeRMatF
      ((congrArg E.floatRmatOfEulers heulers).trans (E.floatRmatOfEulers_eq a))
  · obtain ⟨r, hr⟩ := h.valid
    cases r <;> contradiction

theorem calcEulersF (h : Coherent E a o) :
    Coherent E a (orientationCalcEulersF E.toOrientationMaths o) := by
  unfold orientationCalcEulersF
  split_ifs with hvalid h1 h2 h3 h4 h5
  · exact h
  · exact h.storeEulersF
      ((congrArg E.eulersFloatOfBfp (h.eulersI h1)).trans (E.eulersFloatOfBfp_eq a))
  · exact h.storeEulersF
      ((congrArg E.floatEulersOfRmat (h.rmatF h2)).trans (E.floatEulersOfRmat_eq a))
  · exact h.storeEulersF
      ((congrArg E.floatEulersOfQuat (h.quatF h3)).trans (E.floatEulersOfQuat_eq a))
  · have hrmat := (congrArg E.rmatFloatOfBfp (h.rmatI h4)).trans (E.rmatFloatOfBfp_eq a)
    exact (h.storeRMatF hrmat).storeEulersF
      ((congrArg E.floatEulersOfRmat hrmat).trans (E.floatEulersOfRmat_eq a))
  · have hquat := (congrArg E.quatFloatOfBfp (h.quatI h5)).trans (E.quatFloatOfBfp_eq a)
    exact (h.storeQuatF hquat).storeEulersF
      ((congrArg E.floatEulersOfQuat hquat).trans (E.floatEulersOfQuat_eq a))
  · obtain ⟨r, hr⟩ := h.valid
    cases r <;> contradiction

theorem orientationCalc (h : Coherent E a o) (r : OrRep) :
    Coherent E a (Domains.orientationCalc E.toOrientationMaths r o) := by
  cases r with
  | quatI => exact h.calcQuatI
  | eulerI => exact h.calcEulersI
  | rmatI => exact h.calcRMatI
  | quatF => exact h.calcQuatF
  | eulerF => exact h.calcEulersF
  | rmatF => exact h.calcRMatF

theorem get (h : Coherent E a o) (r : OrRep) :
    Coherent E a (orientationGet E.toOrientationMaths r o).1 := by
  rw [fst_orientationGet]
  split_ifs
  · exact h
  · exact h.orientationCalc r

end Coherent

/-- A conversion sets the bit of its representation, whatever it finds. -/
theorem status_orientationCalc (om : OrientationMaths) (r : OrRep) (o : OrientationReps) :
    (orientationCalc om r o).status r = true := by
  have hmarked (o' : OrientationReps) :
      (if o.status r = true then o else o'.setBit r).status r = true := by
    split_ifs with hvalid
    · exact hvalid
    · simp [OrientationReps.setBit]
  cases r <;> exact hmarked _

/-- A getter returns the value of the attitude. -/
theorem get_value {a : A} {o : OrientationReps} (h : Coherent E a o) (r : OrRep) :
    (orientationGet E.toOrientationMaths r o).2 = E.value a r := by
  rw [snd_orientationGet]
  apply (h.get r).coord
  rw [fst_orientationGet]
  split_ifs with hr
  · exact hr
  · exact status_orientationCalc _ r o

theorem coherent_set (a : A) (r : OrRep) (o : OrientationReps) :
    Coherent E a (orientationSet (E.value a r) o) := by
  have hrep : rep (E.value a r) = r := by
    cases r <;> rfl
  rw [orientationSet_eq, hrep]
  refine ⟨⟨r, by simp [OrientationReps.onlyBit]⟩, ?_⟩
  intro r' hr'
  obtain rfl : r' = r := by simpa [OrientationReps.onlyBit] using hr'
  change coord (put o (E.value a r')) r' = _
  have hself := coord_put_self o (E.value a r')
  rwa [hrep] at hself

/-- After a setter no representation is valid but the one that was set. -/
theorem status_orientationSet (x : Orientation) (o : OrientationReps) (r : OrRep) :
    (orientationSet x o).status r = true ↔ r = rep x := by
  rw [orientationSet_eq]
  simp [OrientationReps.onlyBit]

/-! ### Runs -/

/-- A setter is called with the value of an attitude in one of the representations. -/
inductive Call (A : Type) where
  | set (a : A) (r : OrRep)
  | get (r : OrRep)

def exec (o : OrientationReps) : Call A → OrientationReps
  | .set a r => orientationSet (E.value a r) o
  | .get r => (orientationGet E.toOrientationMaths r o).1

/-- The attitude set last. -/
def lastSet (a : A) : Call A → A
  | .set a _ => a
  | .get _ => a

theorem coherent_exec {a : A} {o : OrientationReps} (h : Coherent E a o) (c : Call A) :
    Coherent E (lastSet a c) (exec E o c) := by
  cases c with
  | set a r => exact coherent_set E a r o
  | get r => exact h.get r

theorem coherent_run {a : A} {o : OrientationReps} (h : Coherent E a o) (calls : List (Call A)) :
    Coherent E (run lastSet a calls) (run (exec E) o calls) := by
  induction calls generalizing a o with
  | nil => exact h
  | cons c calls ih => exact ih (coherent_exec E h c)

/-- After a first setter and any further calls, every valid representation is that of the
attitude set last, every getter returns it, and a setter leaves its own representation valid
only. -/
theorem attitude_coherent (o : OrientationReps) (a : A) (r : OrRep) (calls : List (Call A)) :
    (∀ r', (run (exec E) o (.set a r :: calls)).status r' = true →
      coord (run (exec E) o (.set a r :: calls)) r' = E.value (run lastSet a calls) r') ∧
    (∀ r', (orientationGet E.toOrientationMaths r' (run (exec E) o (.set a r :: calls))).2 =
      E.value (run lastSet a calls) r') ∧
    (∀ x r', (orientationSet x (run (exec E) o (.set a r :: calls))).status r' = true ↔
      r' = rep x) := by
  have hrun := coherent_run E (coherent_set E a r o) calls
  exact ⟨hrun.coord, get_value E hrun, fun x r' => status_orientationSet x _ r'⟩

end

end Paparazzi.State.AttitudeCoherence
