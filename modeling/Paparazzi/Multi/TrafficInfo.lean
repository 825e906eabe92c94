import Mathlib.Algebra.Order.Ring.Rat
import Mathlib.Data.List.Induction
import Mathlib.Logic.Function.Basic
import Paparazzi.Library.Machine

/-!
The traffic table of `traffic_info`: ids are mapped to slots by `the_acs_id`, and the slots
hold what was reported last of an aircraft.
-/

namespace Paparazzi.Multi.TrafficInfo

open Paparazzi.Library.Machine

def nbAcs : Nat := 24

structure AcInfo where
  acId : UInt8
  east : ℚ
  north : ℚ
  course : ℚ
  alt : ℚ
  gspeed : ℚ
  climb : ℚ
  itow : UInt32
  deriving DecidableEq

/-- The arguments of `SetAcInfo` behind the id, with the reference of the navigation at the
time of the call. -/
structure Report where
  utmX : ℚ
  utmY : ℚ
  course : ℚ
  alt : ℚ
  gspeed : ℚ
  climb : ℚ
  itow : UInt32
  navUtmEast0 : ℚ
  navUtmNorth0 : ℚ

/-- The entry that a report leaves for an aircraft. -/
def Report.toAcInfo (r : Report) (id : UInt8) : AcInfo where
  acId := id
  east := r.utmX - r.navUtmEast0
  north := r.utmY - r.navUtmNorth0
  course := r.course
  alt := r.alt
  gspeed := r.gspeed
  climb := r.climb
  itow := r.itow

structure TrafficState where
  acsIdx : Nat
  theAcsId : UInt8 → Nat
  theAcs : Nat → AcInfo

/-- The memory before `traffic_info_init`. -/
def zeroed : TrafficState where
  acsIdx := 0
  theAcsId := fun _ => 0
  theAcs := fun _ =>
    { acId := 0, east := 0, north := 0, course := 0, alt := 0, gspeed := 0, climb := 0, itow := 0 }

/-- Slot 0 is that of the ground station, slot 1 that of this aircraft. -/
def trafficInfoInit (acId : UInt8) (s : TrafficState) : TrafficState where
  acsIdx := 2
  theAcsId := Function.update (Function.update s.theAcsId 0 0) acId 1
  theAcs := Function.update s.theAcs 1 { s.theAcs 1 with acId := acId }

def getAcInfo (id : UInt8) (s : TrafficState) : AcInfo := s.theAcs (s.theAcsId id)

/-- An aircraft without a slot is given the next one. -/
def giveSlot (id : UInt8) (s : TrafficState) : TrafficState :=
  if id > 0 ∧ s.theAcsId id = 0 then
    { acsIdx := s.acsIdx + 1
      theAcsId := Function.update s.theAcsId id s.acsIdx
      theAcs := Function.update s.theAcs s.acsIdx { s.theAcs s.acsIdx with acId := id } }
  else s

def setAcInfo (id : UInt8) (r : Report) (s : TrafficState) : TrafficState :=
  if s.acsIdx < nbAcs then
    let s := giveSlot id s
    { s with
      theAcs :=
        Function.update s.theAcs (s.theAcsId id)
          { r.toAcInfo id with acId := (s.theAcs (s.theAcsId id)).acId } }
  else s

def step (s : TrafficState) (call : UInt8 × Report) : TrafficState := setAcInfo call.1 call.2 s

def start (acId : UInt8) : TrafficState := trafficInfoInit acId zeroed

/-! ### The invariant of the table -/

structure TableOk (acId : UInt8) (s : TrafficState) : Prop where
  two_le : 2 ≤ s.acsIdx
  le_nbAcs : s.acsIdx ≤ nbAcs
  slot_lt : ∀ id, s.theAcsId id < s.acsIdx
  own : s.theAcsId acId = 1
  injective : ∀ id id', s.theAcsId id ≠ 0 → s.theAcsId id = s.theAcsId id' → id = id'
  acId_eq : ∀ id, s.theAcsId id ≠ 0 → (getAcInfo id s).acId = id

section

variable {acId : UInt8} {s : TrafficState}

theorem tableOk_start (acId : UInt8) : TableOk acId (start acId) := by
  have hslot : ∀ id, (start acId).theAcsId id = if id = acId then 1 else 0 := by
    intro id
    by_cases h : id = acId
    · simp [start, trafficInfoInit, h]
    · simp [start, trafficInfoInit, zeroed, h]
  refine ⟨le_rfl, show 2 ≤ nbAcs by decide, ?_, by simp [hslot], ?_, ?_⟩
  · intro id
    rw [hslot]
    split_ifs
    · exact Nat.one_lt_two
    · exact Nat.two_pos
  · intro id id' hne heq
    simp only [hslot, ne_eq, ite_eq_right_iff, one_ne_zero, imp_false, not_not] at hne heq
    rw [if_pos hne] at heq
    by_contra hid
    rw [if_neg fun h => hid (hne.trans h.symm)] at heq
    cases heq
  · intro id hne
    simp only [hslot, ne_eq, ite_eq_right_iff, one_ne_zero, imp_false, not_not] at hne
    simp [getAcInfo, start, trafficInfoInit, hne]

theorem TableOk.ne_acId (h : TableOk acId s) {id : UInt8} (hid : s.theAcsId id = 0) : id ≠ acId := by
  rintro rfl
  rw [h.own] at hid
  cases hid

theorem tableOk_giveSlot (h : TableOk acId s) (hlt : s.acsIdx < nbAcs) (id : UInt8) :
    TableOk acId (giveSlot id s) := by
  unfold giveSlot
  split_ifs with hnew
  · have hslot : ∀ id', id' ≠ id →
        Function.update s.theAcsId id s.acsIdx id' = s.theAcsId id' := fun id' hne =>
      Function.update_of_ne hne _ _
    have hfresh : ∀ id', s.theAcsId id' ≠ s.acsIdx := fun id' => (h.slot_lt id').ne
    refine ⟨h.two_le.trans (Nat.le_succ _), hlt, ?_, ?_, ?_, ?_⟩
    · intro id'
      by_cases hid : id' = id
      · simp [hid]
      · simpa [hslot id' hid] using (h.slot_lt id').trans (Nat.lt_succ_self _)
    · exact (hslot acId (h.ne_acId hnew.2).symm).trans h.own
    · intro id₁ id₂ hne heq
      by_cases h₁ : id₁ = id
      · by_cases h₂ : id₂ = id
        · rw [h₁, h₂]
        · simp only [h₁, Function.update_self, hslot id₂ h₂] at heq
          exact absurd heq.symm (hfresh id₂)
      · by_cases h₂ : id₂ = id
        · simp only [h₂, Function.update_self, hslot id₁ h₁] at heq
          exact absurd heq (hfresh id₁)
        · simp only [hslot id₁ h₁, hslot id₂ h₂] at hne heq
          exact h.injective id₁ id₂ hne heq
    · intro id' hne
      by_cases hid : id' = id
      · simp [getAcInfo, hid]
      · simp only [hslot id' hid] at hne
        simp only [getAcInfo, hslot id' hid, Function.update_of_ne (hfresh id')]
        exact h.acId_eq id' hne
  · exact h

/-- What a call leaves in the table while it is not full. -/
theorem setAcInfo_of_lt {r : Report} {id : UInt8} (hlt : s.acsIdx < nbAcs) :
    setAcInfo id r s =
      { giveSlot id s with
        theAcs :=
          Function.update (giveSlot id s).theAcs ((giveSlot id s).theAcsId id)
            { r.toAcInfo id with acId := (getAcInfo id (giveSlot id s)).acId } } := by
  unfold setAcInfo
  rw [if_pos hlt]
  rfl

theorem setAcInfo_full {r : Report} {id : UInt8} (hfull : ¬s.acsIdx < nbAcs) :
    setAcInfo id r s = s := by
  unfold setAcInfo
  rw [if_neg hfull]

theorem tableOk_setAcInfo (h : TableOk acId s) (id : UInt8) (r : Report) :
    TableOk acId (setAcInfo id r s) := by
  by_cases hlt : s.acsIdx < nbAcs
  · have hgiven := tableOk_giveSlot h hlt id
    rw [setAcInfo_of_lt hlt]
    refine { hgiven with acId_eq := ?_ }
    intro id' hne
    by_cases hslot : (giveSlot id s).theAcsId id' = (giveSlot id s).theAcsId id
    · have hid := hgiven.injective id' id hne hslot
      subst hid
      simp only [getAcInfo, Function.update_self]
      exact hgiven.acId_eq id' hne
    · simp only [getAcInfo, Function.update_of_ne hslot]
      exact hgiven.acId_eq id' hne
  · rw [setAcInfo_full hlt]
    exact h

theorem tableOk_run (acId : UInt8) (es : List (UInt8 × Report)) :
    TableOk acId (run step (start acId) es) :=
  run_history (fun _ => TableOk acId) (fun _ _ e h => tableOk_setAcInfo h e.1 e.2)
    (tableOk_start acId) es

/-! ### Admitted aircraft and their reports -/

/-- An aircraft other than the ground station is reported while the table has room. -/
def Admitted (acId : UInt8) (es : List (UInt8 × Report)) (id : UInt8) : Prop :=
  ∃ es₁ r es₂, es = es₁ ++ (id, r) :: es₂ ∧ id > 0 ∧ (run step (start acId) es₁).acsIdx < nbAcs

/-- The ids that have a slot: this aircraft and the admitted ones. -/
def Known (acId : UInt8) (es : List (UInt8 × Report)) (id : UInt8) : Prop :=
  id = acId ∨ Admitted acId es id

/-- The report of an aircraft that came last. -/
def latest (id : UInt8) (es : List (UInt8 × Report)) : Option Report :=
  ((es.filter fun e => e.1 = id).getLast?).map Prod.snd

theorem latest_concat (id : UInt8) (es : List (UInt8 × Report)) (e : UInt8 × Report) :
    latest id (es ++ [e]) = if e.1 = id then some e.2 else latest id es := by
  unfold latest
  by_cases h : e.1 = id
  · simp [List.filter_append, h]
  · simp [List.filter_append, h]

theorem admitted_concat (acId : UInt8) (es : List (UInt8 × Report)) (e : UInt8 × Report)
    (id : UInt8) :
    Admitted acId (es ++ [e]) id ↔
      Admitted acId es id ∨ e.1 = id ∧ id > 0 ∧ (run step (start acId) es).acsIdx < nbAcs := by
  constructor
  · rintro ⟨es₁, r, es₂, heq, hpos, hlt⟩
    rcases List.eq_nil_or_concat es₂ with rfl | ⟨es₂, e', rfl⟩
    · obtain ⟨rfl, he⟩ := List.append_inj' heq rfl
      obtain rfl : e = (id, r) := List.singleton_inj.1 he
      exact Or.inr ⟨rfl, hpos, hlt⟩
    · rw [List.concat_eq_append, ← List.cons_append, ← List.append_assoc] at heq
      obtain ⟨rfl, -⟩ := List.append_inj' heq rfl
      exact Or.inl ⟨es₁, r, es₂, rfl, hpos, hlt⟩
  · rintro (⟨es₁, r, es₂, rfl, hpos, hlt⟩ | ⟨rfl, hpos, hlt⟩)
    · exact ⟨es₁, r, es₂ ++ [e], by simp, hpos, hlt⟩
    · exact ⟨es, e.2, [], rfl, hpos, hlt⟩

theorem slot_giveSlot_ne_zero (htwo : 2 ≤ s.acsIdx) (id id' : UInt8) :
    (giveSlot id s).theAcsId id' ≠ 0 ↔ s.theAcsId id' ≠ 0 ∨ id = id' ∧ id' > 0 := by
  unfold giveSlot
  by_cases hid : id = id'
  · subst hid
    split_ifs with hnew
    · simpa [hnew.1] using (Nat.two_pos.trans_le htwo).ne'
    · by_cases hslot : s.theAcsId id = 0
      · simpa [hslot] using hnew
      · simp [hslot]
  · split_ifs with hnew
    · simp [Function.update_of_ne (Ne.symm hid), hid]
    · simp [hid]

@[simp] theorem theAcsId_setAcInfo (id : UInt8) (r : Report) :
    (setAcInfo id r s).theAcsId =
      if s.acsIdx < nbAcs then (giveSlot id s).theAcsId else s.theAcsId := by
  unfold setAcInfo
  split_ifs <;> rfl

/-- The aircraft with a slot are the known ones. -/
theorem slot_ne_zero_iff (acId : UInt8) (es : List (UInt8 × Report)) (id : UInt8) :
    (run step (start acId) es).theAcsId id ≠ 0 ↔ Known acId es id := by
  induction es using List.reverseRecOn with
  | nil =>
      have hnone : ¬Admitted acId [] id := by
        rintro ⟨es₁, r, es₂, heq, -⟩
        simp at heq
      rw [Known, or_iff_left hnone, run_nil]
      constructor
      · intro hne
        by_contra hid
        simp [start, trafficInfoInit, zeroed, hid] at hne
      · rintro rfl
        simp [start, trafficInfoInit]
  | append_singleton es e ih =>
      have htwo := (tableOk_run acId es).two_le
      rw [run_append, run_cons, run_nil, step, theAcsId_setAcInfo, Known, admitted_concat,
        ← or_assoc, ← Known, ← ih]
      split_ifs with hlt
      · rw [slot_giveSlot_ne_zero htwo]
        simp [hlt]
      · simp [hlt]

/-- The call is not lost: the table has room or the aircraft has no slot anyway. -/
def CallOk (s : TrafficState) (call : UInt8 × Report) : Prop :=
  s.acsIdx < nbAcs ∨ s.theAcsId call.1 = 0

/-- A call while the table has room leaves its report. -/
theorem getAcInfo_setAcInfo_self (h : TableOk acId s) {id : UInt8} {r : Report}
    (hlt : s.acsIdx < nbAcs) (hslot : (setAcInfo id r s).theAcsId id ≠ 0) :
    getAcInfo id (setAcInfo id r s) = r.toAcInfo id := by
  rw [theAcsId_setAcInfo, if_pos hlt] at hslot
  rw [setAcInfo_of_lt hlt]
  simp only [getAcInfo, Function.update_self]
  rw [show ((giveSlot id s).theAcs ((giveSlot id s).theAcsId id)).acId = id from
    (tableOk_giveSlot h hlt id).acId_eq id hslot]
  rfl

/-- A call leaves the entries of the other aircraft. -/
theorem getAcInfo_setAcInfo_of_ne (h : TableOk acId s) {id id' : UInt8} {r : Report}
    (hne : id ≠ id') (hslot : s.theAcsId id' ≠ 0) :
    getAcInfo id' (setAcInfo id r s) = getAcInfo id' s := by
  by_cases hlt : s.acsIdx < nbAcs
  · have hgiven := tableOk_giveSlot h hlt id
    have hsame : getAcInfo id' (giveSlot id s) = getAcInfo id' s ∧
        (giveSlot id s).theAcsId id' = s.theAcsId id' := by
      unfold giveSlot
      split_ifs
      · simp [getAcInfo, Function.update_of_ne hne.symm, (h.slot_lt id').ne]
      · exact ⟨rfl, rfl⟩
    have hdistinct : (giveSlot id s).theAcsId id' ≠ (giveSlot id s).theAcsId id := by
      intro heq
      rw [← hsame.2] at hslot
      exact hne (hgiven.injective id' id hslot heq).symm
    rw [setAcInfo_of_lt hlt, ← hsame.1]
    simp only [getAcInfo, Function.update_of_ne hdistinct]
  · rw [setAcInfo_full hlt]

/-- In a run whose calls are not lost, the entry of a known aircraft is its latest report. -/
theorem getAcInfo_run {es : List (UInt8 × Report)} (hok : RunOk step CallOk (start acId) es)
    {id : UInt8} {r : Report} (hknown : Known acId es id) (hlatest : latest id es = some r) :
    getAcInfo id (run step (start acId) es) = r.toAcInfo id := by
  induction es using List.reverseRecOn generalizing r with
  | nil => simp [latest] at hlatest
  | append_singleton es e ih =>
      obtain ⟨hok, hlast, -⟩ := runOk_append.1 hok
      have htable := tableOk_run acId es
      rw [← slot_ne_zero_iff] at hknown
      rw [run_append, run_cons, run_nil, step] at hknown ⊢
      rw [latest_concat] at hlatest
      split_ifs at hlatest with hid
      · subst hid
        cases hlatest
        rcases hlast with hlt | hslot
        · exact getAcInfo_setAcInfo_self htable hlt hknown
        · by_cases hlt : (run step (start acId) es).acsIdx < nbAcs
          · exact getAcInfo_setAcInfo_self htable hlt hknown
          · rw [setAcInfo_full hlt] at hknown
            exact absurd hslot hknown
      · have hslot : (run step (start acId) es).theAcsId id ≠ 0 := by
          rw [theAcsId_setAcInfo] at hknown
          split_ifs at hknown
          · rcases (slot_giveSlot_ne_zero htable.two_le e.1 id).1 hknown with hslot | ⟨heq, -⟩
            · exact hslot
            · exact absurd heq hid
          · exact hknown
        rw [getAcInfo_setAcInfo_of_ne htable hid hslot]
        exact ih hok ((slot_ne_zero_iff acId es id).1 hslot) hlatest

end

/-- In every run from `traffic_info_init` the index stays within the table, the known aircraft
have slots of their own, from 2 on but for this aircraft, and the entries bear their ids; and
where no call for a known aircraft finds the table full, the entries are the latest reports.
A call that finds it full is lost. -/
theorem traffic_table (acId : UInt8) (es : List (UInt8 × Report)) (s : TrafficState)
    (hs : s = run step (start acId) es) :
    s.acsIdx ≤ nbAcs ∧
    (∀ id, Known acId es id → s.theAcsId id ≠ 0 ∧ s.theAcsId id < nbAcs ∧
      (id ≠ acId → s.theAcsId id ≠ 1) ∧ (s.theAcs (s.theAcsId id)).acId = id) ∧
    (∀ id id', Known acId es id → Known acId es id' → s.theAcsId id = s.theAcsId id' → id = id') ∧
    (RunOk step CallOk (start acId) es →
      ∀ id r, Known acId es id → latest id es = some r → getAcInfo id s = r.toAcInfo id) ∧
    (s.acsIdx = nbAcs → ∀ call, step s call = s) := by
  subst hs
  have htable := tableOk_run acId es
  refine ⟨htable.le_nbAcs, ?_, ?_, fun hok id r => getAcInfo_run hok, ?_⟩
  · intro id hknown
    have hslot := (slot_ne_zero_iff acId es id).2 hknown
    refine ⟨hslot, (htable.slot_lt id).trans_le htable.le_nbAcs, ?_, htable.acId_eq id hslot⟩
    intro hne hone
    exact hne (htable.injective id acId hslot (hone.trans htable.own.symm))
  · intro id id' hknown _ heq
    exact htable.injective id id' ((slot_ne_zero_iff acId es id).2 hknown) heq
  · intro hfull call
    exact setAcInfo_full (by simp [hfull])

/-! ### A full table -/

def reportAt (alt : ℚ) : Report :=
  { utmX := 0, utmY := 0, course := 0, alt := alt, gspeed := 0, climb := 0, itow := 0,
    navUtmEast0 := 0, navUtmNorth0 := 0 }

/-- Aircraft 1 hears of the 22 aircraft 2 to 23. -/
def fillTable : List (UInt8 × Report) :=
  (List.range' 2 22).map fun n => (UInt8.ofNat n, reportAt 100)

/-- The table takes the reports of two other aircraft. -/
theorem traffic_table_of_two :
    getAcInfo 2 (run step (start 1) [(2, reportAt 100), (3, reportAt 50), (2, reportAt 120)]) =
      (reportAt 120).toAcInfo 2 := by
  refine (traffic_table 1 [(2, reportAt 100), (3, reportAt 50), (2, reportAt 120)] _ rfl).2.2.2.1
    ?_ 2 (reportAt 120) ?_ rfl
  · exact ⟨Or.inl (by decide +kernel), Or.inl (by decide +kernel), Or.inl (by decide +kernel),
      trivial⟩
  · exact Or.inr ⟨[], reportAt 100, _, rfl, by decide, by decide⟩

/-- With 22 other aircraft the table is full and the next report of the first one is lost. -/
theorem report_lost_in_full_table :
    latest 2 (fillTable ++ [(2, reportAt 200)]) = some (reportAt 200) ∧
      Known 1 (fillTable ++ [(2, reportAt 200)]) 2 ∧
      (getAcInfo 2 (run step (start 1) (fillTable ++ [(2, reportAt 200)]))).alt = 100 ∧
      ((reportAt 200).toAcInfo 2).alt = 200 := by
  refine ⟨rfl, Or.inr ⟨[], reportAt 100, _, rfl, by decide, by decide⟩, by decide +kernel, rfl⟩

end Paparazzi.Multi.TrafficInfo
