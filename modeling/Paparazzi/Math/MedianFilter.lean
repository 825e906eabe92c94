import Mathlib.Data.List.GetD
import Mathlib.Data.List.Induction
import Mathlib.Data.List.Sort
import Paparazzi.Library.Machine

/-!
The median filter of `median_filter.h`: a ring of five values, sorted in place by insertion.
-/

namespace Paparazzi.Math.MedianFilter

open Paparazzi.Library.Machine

def medianDatasize : ℕ := 5

structure MedianFilterInt where
  data : List ℤ
  sortData : List ℤ
  dataIndex : ℕ
  length_data : data.length = medianDatasize
  length_sortData : sortData.length = medianDatasize
  dataIndex_lt : dataIndex < medianDatasize

def initMedianFilter : MedianFilterInt where
  data := List.replicate medianDatasize 0
  sortData := List.replicate medianDatasize 0
  dataIndex := 0
  length_data := List.length_replicate
  length_sortData := List.length_replicate
  dataIndex_lt := by decide

/-! ### The sort -/

/-- The inner loop from `j = n - 1` on and the write behind it, with the places of the array that
they read and write. -/
def shift (temp : ℤ) : ℕ → List ℤ → List ℤ × List ℤ
  | 0, a =>
      -- `a[-1]` is read before `j >= 0` ends the loop, whatever is there
      (a.set 0 temp, [-1, 0])
  | j + 1, a =>
      if temp < a.getD j 0 then
        let (sorted, places) := shift temp j (a.set (j + 1) (a.getD j 0))
        (sorted, (j : ℤ) :: (j + 1 : ℤ) :: places)
      else (a.set (j + 1) temp, [(j : ℤ), (j + 1 : ℤ)])

/-- The outer loop for `i = 1, …, k`. -/
def insertionSort : ℕ → List ℤ → List ℤ × List ℤ
  | 0, a => (a, [])
  | k + 1, a =>
      let (a', places) := insertionSort k a
      let (a'', places') := shift (a'.getD (k + 1) 0) (k + 1) a'
      (a'', places ++ ((k + 1 : ℕ) : ℤ) :: places')

theorem length_shift (temp : ℤ) (n : ℕ) (a : List ℤ) : (shift temp n a).1.length = a.length := by
  induction n generalizing a with
  | zero => exact List.length_set
  | succ j ih =>
      rw [shift]
      split_ifs
      · rw [ih, List.length_set]
      · exact List.length_set

theorem length_insertionSort (k : ℕ) (a : List ℤ) :
    (insertionSort k a).1.length = a.length := by
  induction k with
  | zero => rfl
  | succ k ih => rw [insertionSort, length_shift, ih]

/-! ### The filter -/

def writeData (f : MedianFilterInt) (newData : ℤ) : List ℤ := f.data.set f.dataIndex newData

def sortPlaces (f : MedianFilterInt) (newData : ℤ) : List ℤ :=
  (insertionSort (medianDatasize - 1) (writeData f newData)).2

def updateMedianFilter (f : MedianFilterInt) (newData : ℤ) : MedianFilterInt where
  data := writeData f newData
  sortData := (insertionSort (medianDatasize - 1) (writeData f newData)).1
  dataIndex := if f.dataIndex < medianDatasize - 1 then f.dataIndex + 1 else 0
  length_data := by rw [writeData, List.length_set, f.length_data]
  length_sortData := by rw [length_insertionSort, writeData, List.length_set, f.length_data]
  dataIndex_lt := by
    split_ifs with h
    · exact Nat.add_lt_of_lt_sub h
    · decide

def getMedianFilter (f : MedianFilterInt) : ℤ := f.sortData.getD (medianDatasize / 2) 0

inductive Call where
  | update (newData : ℤ)
  | get
  deriving DecidableEq, Repr

def step (f : MedianFilterInt) : Call → MedianFilterInt
  | .update newData => updateMedianFilter f newData
  | .get => f

def returned (f : MedianFilterInt) : Call → ℤ
  | .update newData => getMedianFilter (updateMedianFilter f newData)
  | .get => getMedianFilter f

/-- Where the sort of a call reads and writes. -/
def places (f : MedianFilterInt) : Call → List ℤ
  | .update newData => sortPlaces f newData
  | .get => []

/-! ### What is asked -/

def samples (calls : List Call) : List ℤ :=
  calls.filterMap fun c =>
    match c with
    | .update newData => some newData
    | .get => none

/-- The last five inputs, the earlier ones counting as 0. -/
def lastFive (inputs : List ℤ) : List ℤ :=
  (List.replicate medianDatasize 0 ++ inputs).drop inputs.length

def median (values : List ℤ) : ℤ :=
  (values.insertionSort (· ≤ ·)).getD (values.length / 2) 0

/-- Every call returns the median of the last five inputs, and sorts within the array. -/
def Right (calls : List Call) : Prop :=
  ∀ earlier c, earlier ++ [c] <+: calls →
    let f := run step initMedianFilter earlier
    returned f c = median (lastFive (samples (earlier ++ [c]))) ∧
      ∀ i ∈ places f c, 0 ≤ i ∧ i < medianDatasize

/-- The input that begins the round of the last one: it stands in the first place of the ring. -/
def roundStart (inputs : List ℤ) : ℤ :=
  inputs.getD ((inputs.length - 1) / medianDatasize * medianDatasize) 0

/-- At every update the input that has begun the round is among the smallest. -/
def StartsSmallest (calls : List Call) : Prop :=
  ∀ earlier newData, earlier ++ [.update newData] <+: calls →
    ∀ d ∈ lastFive (samples earlier ++ [newData]), roundStart (samples earlier ++ [newData]) ≤ d

/-! ### The loops sort -/

theorem getD_before (before after : List ℤ) (x hole : ℤ) :
    (before ++ [x] ++ hole :: after).getD before.length 0 = x := by simp

theorem set_hole (before after : List ℤ) (x hole y : ℤ) :
    (before ++ [x] ++ hole :: after).set (before.length + 1) y = before ++ [x] ++ y :: after := by
  simp

/-- The loop inserts from the right into what stands before the hole. -/
theorem shift_eq (temp hole : ℤ) (before after : List ℤ) :
    (shift temp before.length (before ++ hole :: after)).1 =
      (before.reverse.orderedInsert (· ≥ ·) temp).reverse ++ after := by
  induction before using List.reverseRecOn generalizing hole after with
  | nil => rfl
  | append_singleton before x ih =>
      rw [List.length_append, List.length_singleton, shift, getD_before, set_hole,
        set_hole, List.reverse_append,
        List.reverse_singleton, List.singleton_append, List.orderedInsert]
      split_ifs with hlt hge hge
      · exact absurd hlt (not_lt.mpr hge)
      · rw [List.append_assoc, List.singleton_append]
        dsimp only
        rw [ih, List.reverse_cons, List.append_assoc]
        rfl
      · simp
      · exact absurd (not_lt.mp hlt) hge

/-- It reads before the array if and only if everything there is greater. -/
theorem shift_places (temp hole : ℤ) (before after : List ℤ) {n : ℕ} (hn : before.length < n) :
    (∀ i ∈ (shift temp before.length (before ++ hole :: after)).2, 0 ≤ i ∧ i < n) ↔
      ∃ y ∈ before, y ≤ temp := by
  induction before using List.reverseRecOn generalizing hole after with
  | nil => simp [shift]
  | append_singleton before x ih =>
      rw [List.length_append, List.length_singleton] at hn
      rw [List.length_append, List.length_singleton, shift, getD_before, set_hole,
        set_hole]
      split_ifs with hlt
      · rw [List.append_assoc, List.singleton_append]
        dsimp only
        rw [List.forall_mem_cons, List.forall_mem_cons, ih x (x :: after) (Nat.lt_of_succ_lt hn)]
        have hnot : ¬x ≤ temp := not_le.mpr hlt
        constructor
        · rintro ⟨-, -, y, hy, hle⟩
          exact ⟨y, List.mem_append_left _ hy, hle⟩
        · rintro ⟨y, hy, hle⟩
          refine ⟨by omega, by omega, y, ?_, hle⟩
          rcases List.mem_append.mp hy with hy | hy
          · exact hy
          · exact absurd (List.mem_singleton.mp hy ▸ hle) hnot
      · refine iff_of_true ?_ ⟨x, by simp, not_lt.mp hlt⟩
        rw [List.forall_mem_cons, List.forall_mem_singleton]
        omega

/-- The places in front of `d[k]`, when they have been sorted. -/
def sortedBefore (d : List ℤ) (k : ℕ) : List ℤ :=
  ((d.take k).reverse.insertionSort (· ≥ ·)).reverse

theorem length_sortedBefore {d : List ℤ} {k : ℕ} (hk : k ≤ d.length) :
    (sortedBefore d k).length = k := by
  rw [sortedBefore, List.length_reverse, List.length_insertionSort, List.length_reverse,
    List.length_take, min_eq_left hk]

theorem mem_sortedBefore {d : List ℤ} {k : ℕ} {y : ℤ} : y ∈ sortedBefore d k ↔ y ∈ d.take k := by
  rw [sortedBefore, List.mem_reverse, List.mem_insertionSort, List.mem_reverse]

theorem sortedBefore_succ {d : List ℤ} {k : ℕ} (hk : k < d.length) :
    sortedBefore d (k + 1) =
      ((sortedBefore d k).reverse.orderedInsert (· ≥ ·) d[k]).reverse := by
  have htake : (d.take (k + 1)).reverse = d[k] :: (d.take k).reverse := by
    rw [List.take_succ_eq_append_getElem hk, List.reverse_append]
    rfl
  rw [sortedBefore, sortedBefore, htake, List.insertionSort_cons, List.reverse_reverse]

/-- The value that is inserted stands behind those that have been sorted. -/
theorem getD_sortedBefore {d : List ℤ} {k : ℕ} (hk : k < d.length) :
    (sortedBefore d k ++ d.drop k).getD k 0 = d[k] := by
  have hlength := length_sortedBefore hk.le
  rw [List.drop_eq_getElem_cons hk, List.getD_append_right _ _ _ _ hlength.le, hlength,
    Nat.sub_self, List.getD_cons_zero]

/-- The first places hold their own values in order, the others are as before. -/
theorem insertionSort_eq {k : ℕ} {d : List ℤ} (hk : k < d.length) :
    (insertionSort k d).1 = sortedBefore d (k + 1) ++ d.drop (k + 1) := by
  induction k with
  | zero =>
      cases d with
      | nil => cases hk
      | cons x d => rfl
  | succ k ih =>
      have hshift := shift_eq d[k + 1] d[k + 1] (sortedBefore d (k + 1)) (d.drop (k + 2))
      rw [length_sortedBefore hk.le, ← List.drop_eq_getElem_cons hk, ← sortedBefore_succ hk]
        at hshift
      rw [insertionSort]
      dsimp only
      rw [ih (Nat.lt_of_succ_lt hk), getD_sortedBefore hk, hshift]

theorem insertionSort_places {k : ℕ} {d : List ℤ} (hk : k < d.length) :
    (∀ i ∈ (insertionSort k d).2, 0 ≤ i ∧ i < d.length) ↔
      ∀ i < k, ∃ y ∈ d.take (i + 1), y ≤ d.getD (i + 1) 0 := by
  induction k with
  | zero => simp [insertionSort]
  | succ k ih =>
      have hlength := length_sortedBefore hk.le
      have hshift := shift_places d[k + 1] d[k + 1] (sortedBefore d (k + 1)) (d.drop (k + 2))
        (hlength.trans_lt hk)
      rw [hlength, ← List.drop_eq_getElem_cons hk] at hshift
      simp only [mem_sortedBefore] at hshift
      rw [insertionSort]
      dsimp only
      rw [List.forall_mem_append, ih (Nat.lt_of_succ_lt hk),
        insertionSort_eq (Nat.lt_of_succ_lt hk), getD_sortedBefore hk, List.forall_mem_cons,
        hshift, Nat.forall_lt_succ_right, List.getD_eq_getElem _ _ hk]
      exact and_congr_right fun _ => and_iff_right ⟨by omega, by omega⟩

/-- Each value has one before it that is not greater if and only if the first one is among the
smallest. -/
theorem forall_exists_le_iff {d : List ℤ} {k : ℕ} (hk : d.length = k + 1) :
    (∀ i < k, ∃ y ∈ d.take (i + 1), y ≤ d.getD (i + 1) 0) ↔ ∀ y ∈ d, d.getD 0 0 ≤ y := by
  constructor
  · intro h
    have hall : ∀ i < d.length, d.getD 0 0 ≤ d.getD i 0 := by
      intro i
      induction i using Nat.strong_induction_on with
      | _ i ih =>
        intro hi
        cases i with
        | zero => exact le_rfl
        | succ i =>
            obtain ⟨y, hy, hle⟩ := h i (by omega)
            obtain ⟨j, hj, rfl⟩ := List.mem_take_iff_getElem.mp hy
            have hlt : j < d.length := by omega
            have := ih j (by omega) hlt
            rw [List.getD_eq_getElem _ _ hlt] at this
            exact this.trans hle
    intro y hy
    obtain ⟨i, hi, rfl⟩ := List.mem_iff_getElem.mp hy
    have := hall i hi
    rwa [List.getD_eq_getElem _ _ hi] at this
  · intro h i hi
    have hlt : i + 1 < d.length := by omega
    refine ⟨d.getD 0 0, ?_, h _ ?_⟩
    · rw [List.getD_eq_getElem _ _ (by omega)]
      exact List.mem_take_iff_getElem.mpr ⟨0, by omega, rfl⟩
    · rw [List.getD_eq_getElem _ _ hlt]
      exact List.getElem_mem hlt

theorem insertionSort_eq_insertionSort {k : ℕ} {d : List ℤ} (hk : d.length = k + 1) :
    (insertionSort k d).1 = d.insertionSort (· ≤ ·) := by
  rw [insertionSort_eq (by omega), sortedBefore, ← hk, List.take_length, List.drop_length,
    List.append_nil]
  refine List.Perm.eq_of_pairwise' (r := (· ≤ ·)) ?_ (List.pairwise_insertionSort _ _) ?_
  · exact List.pairwise_reverse.mpr (List.pairwise_insertionSort (· ≥ ·) _)
  · have hdown : (d.reverse.insertionSort (· ≥ ·)).reverse.Perm d :=
      (List.reverse_perm _).trans ((List.perm_insertionSort _ _).trans (List.reverse_perm _))
    exact hdown.trans (List.perm_insertionSort _ _).symm

theorem median_of_perm {values values' : List ℤ} (h : values.Perm values') :
    median values = median values' := by
  have hsort : values.insertionSort (· ≤ ·) = values'.insertionSort (· ≤ ·) := by
    refine List.Perm.eq_of_pairwise' (r := (· ≤ ·)) (List.pairwise_insertionSort _ _)
      (List.pairwise_insertionSort _ _) ?_
    exact (List.perm_insertionSort _ _).trans (h.trans (List.perm_insertionSort _ _).symm)
  rw [median, median, hsort, h.length_eq]

/-! ### The ring -/

theorem lastFive_concat (inputs : List ℤ) (x : ℤ) :
    lastFive (inputs ++ [x]) = (lastFive inputs).tail ++ [x] := by
  rw [lastFive, lastFive, List.tail_drop, ← List.append_assoc, List.length_append,
    List.length_singleton, List.drop_append_of_le_length (by simp [medianDatasize])]

/-- The ring, from its oldest value on. -/
def MedianFilterInt.oldestFirst (f : MedianFilterInt) : List ℤ :=
  f.data.drop f.dataIndex ++ f.data.take f.dataIndex

theorem oldestFirst_perm (f : MedianFilterInt) : f.oldestFirst.Perm f.data := by
  have hperm : f.oldestFirst.Perm (f.data.take f.dataIndex ++ f.data.drop f.dataIndex) :=
    List.perm_append_comm
  rwa [List.take_append_drop] at hperm

structure Holds (f : MedianFilterInt) (inputs : List ℤ) : Prop where
  dataIndex_eq : f.dataIndex = inputs.length % medianDatasize
  oldestFirst_eq : f.oldestFirst = lastFive inputs
  get_eq : getMedianFilter f = median (lastFive inputs)

theorem holds_init : Holds initMedianFilter [] := ⟨rfl, rfl, by decide⟩

theorem oldestFirst_update (f : MedianFilterInt) (x : ℤ) :
    (updateMedianFilter f x).oldestFirst = f.oldestFirst.tail ++ [x] := by
  have hlength := f.length_data
  have hlt : f.dataIndex < f.data.length := hlength ▸ f.dataIndex_lt
  have hset : writeData f x = f.data.take f.dataIndex ++ x :: f.data.drop (f.dataIndex + 1) := by
    rw [writeData, List.set_eq_take_append_cons_drop, if_pos hlt]
  have htail : f.oldestFirst.tail = f.data.drop (f.dataIndex + 1) ++ f.data.take f.dataIndex := by
    rw [MedianFilterInt.oldestFirst, List.drop_eq_getElem_cons hlt]
    rfl
  have htake : (f.data.take f.dataIndex).length = f.dataIndex := by
    rw [List.length_take, min_eq_left hlt.le]
  rw [MedianFilterInt.oldestFirst, updateMedianFilter, htail]
  dsimp only
  rw [hset]
  split_ifs with hwrap
  · rw [List.drop_append, List.take_append, htake, List.drop_of_length_le (by omega),
      List.take_of_length_le (by omega)]
    simp
  · have hlast : f.data.drop (f.dataIndex + 1) = [] := by
      apply List.drop_of_length_le
      have := f.dataIndex_lt
      omega
    rw [hlast]
    simp

theorem Holds.update {f : MedianFilterInt} {inputs : List ℤ} (h : Holds f inputs) (x : ℤ) :
    Holds (updateMedianFilter f x) (inputs ++ [x]) := by
  have hring : (updateMedianFilter f x).oldestFirst = lastFive (inputs ++ [x]) := by
    rw [oldestFirst_update, h.oldestFirst_eq, lastFive_concat]
  refine ⟨?_, hring, ?_⟩
  · have hindex := h.dataIndex_eq
    rw [List.length_append, List.length_singleton, updateMedianFilter]
    dsimp only
    split_ifs with hwrap <;> simp only [medianDatasize] at * <;> omega
  · have hlength : (writeData f x).length = medianDatasize := (updateMedianFilter f x).length_data
    rw [getMedianFilter, updateMedianFilter]
    dsimp only
    have hsort : (insertionSort (medianDatasize - 1) (writeData f x)).1 =
        (writeData f x).insertionSort (· ≤ ·) := insertionSort_eq_insertionSort hlength
    rw [hsort, ← hring]
    rw [median_of_perm (oldestFirst_perm _), median]
    exact congrArg (fun n => List.getD _ (n / 2) 0) hlength.symm

theorem getD_oldestFirst (f : MedianFilterInt) :
    f.oldestFirst.getD ((medianDatasize - f.dataIndex) % medianDatasize) 0 = f.data.getD 0 0 := by
  have hlength := f.length_data
  have hlt := f.dataIndex_lt
  rw [MedianFilterInt.oldestFirst]
  rcases Nat.eq_zero_or_pos f.dataIndex with hzero | hpos
  · rw [hzero, List.drop_zero, List.take_zero, List.append_nil]
    rfl
  · have hdrop : (f.data.drop f.dataIndex).length = medianDatasize - f.dataIndex := by
      rw [List.length_drop, hlength]
    rw [Nat.mod_eq_of_lt (by omega), List.getD_append_right _ _ _ _ hdrop.le, hdrop, Nat.sub_self,
      List.getD_eq_getElem?_getD, List.getD_eq_getElem?_getD, List.getElem?_take_of_lt hpos]

theorem getD_lastFive {inputs : List ℤ} {i : ℕ} (hi : medianDatasize ≤ inputs.length + i) :
    (lastFive inputs).getD i 0 = inputs.getD (inputs.length + i - medianDatasize) 0 := by
  rw [lastFive, List.getD_eq_getElem?_getD, List.getElem?_drop, ← List.getD_eq_getElem?_getD,
    List.getD_append_right _ _ _ _ (by simpa using hi), List.length_replicate]

/-- The first place holds the input that has begun the round. -/
theorem Holds.roundStart_eq {f : MedianFilterInt} {inputs : List ℤ} (h : Holds f inputs) (x : ℤ) :
    (writeData f x).getD 0 0 = roundStart (inputs ++ [x]) := by
  have hupdate := h.update x
  have hplace := getD_oldestFirst (updateMedianFilter f x)
  rw [hupdate.oldestFirst_eq, hupdate.dataIndex_eq] at hplace
  have hpos : 0 < (inputs ++ [x]).length := by simp
  generalize inputs ++ [x] = inputs' at *
  refine hplace.symm.trans ?_
  rw [getD_lastFive (by simp only [medianDatasize]; omega), roundStart]
  congr 1
  simp only [medianDatasize]
  omega

/-! ### Runs -/

theorem samples_concat_update (calls : List Call) (x : ℤ) :
    samples (calls ++ [.update x]) = samples calls ++ [x] :=
  List.filterMap_append

theorem samples_concat_get (calls : List Call) : samples (calls ++ [.get]) = samples calls := by
  rw [samples, List.filterMap_append]
  exact List.append_nil _

theorem holds_run (calls : List Call) :
    Holds (run step initMedianFilter calls) (samples calls) := by
  induction calls using List.reverseRecOn with
  | nil => exact holds_init
  | append_singleton calls c ih =>
      rw [run_append]
      cases c with
      | update x =>
          rw [samples_concat_update]
          exact ih.update x
      | get =>
          rw [samples_concat_get]
          exact ih

theorem returned_eq (calls : List Call) (c : Call) :
    returned (run step initMedianFilter calls) c = median (lastFive (samples (calls ++ [c]))) := by
  cases c with
  | update x =>
      rw [samples_concat_update]
      exact ((holds_run calls).update x).get_eq
  | get =>
      rw [samples_concat_get]
      exact (holds_run calls).get_eq

/-- The sort of an update stays in the array if and only if the input that has begun the round is
among the smallest. -/
theorem sortPlaces_iff (calls : List Call) (x : ℤ) :
    (∀ i ∈ sortPlaces (run step initMedianFilter calls) x, 0 ≤ i ∧ i < medianDatasize) ↔
      ∀ d ∈ lastFive (samples calls ++ [x]), roundStart (samples calls ++ [x]) ≤ d := by
  have h := holds_run calls
  generalize run step initMedianFilter calls = f at *
  have hlength : (writeData f x).length = medianDatasize := (updateMedianFilter f x).length_data
  have hplaces := insertionSort_places (k := medianDatasize - 1) (d := writeData f x)
    (by rw [hlength]; decide)
  rw [hlength] at hplaces
  have hmem (d : ℤ) : d ∈ writeData f x ↔ d ∈ lastFive (samples calls ++ [x]) := by
    rw [← (h.update x).oldestFirst_eq]
    exact (oldestFirst_perm (updateMedianFilter f x)).mem_iff.symm
  refine hplaces.trans ((forall_exists_le_iff hlength).trans ?_)
  simp only [h.roundStart_eq x, hmem]

/-- In every run each call returns the median of the last five inputs; the sort stays in its array
if and only if at every update the input that has begun the round is among the smallest. -/
theorem right_iff_startsSmallest (calls : List Call) : Right calls ↔ StartsSmallest calls := by
  constructor
  · intro h earlier x hbefore
    exact (sortPlaces_iff earlier x).mp (h earlier (.update x) hbefore).2
  · intro h earlier c hbefore
    refine ⟨returned_eq earlier c, ?_⟩
    cases c with
    | update x => exact (sortPlaces_iff earlier x).mpr (h earlier x hbefore)
    | get => exact fun i hi => nomatch hi

/-- The first update with a positive value reads before the array. -/
theorem not_right_positive : ¬Right [.update 5] := by
  intro h
  have hplaces := (h [] (.update 5) (List.prefix_refl _)).2
  revert hplaces
  decide

end Paparazzi.Math.MedianFilter
