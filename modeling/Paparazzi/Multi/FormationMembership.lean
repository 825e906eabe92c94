import Mathlib.Tactic.SplitIfs
import Paparazzi.Library.Imperative
import Paparazzi.Multi.Formation

/-!
Membership in a formation: which slots take part, and what the control law depends on.
-/

namespace Paparazzi.Multi.FormationMembership

open Paparazzi.Library.Machine
open Paparazzi.Library.EntryLoop
open Paparazzi.Multi.TrafficInfo hiding step
open Paparazzi.Multi.Formation

/-- The slot takes part in the formation. -/
def InFormation (status : SlotStatus) : Prop := status = active ∨ status = lost

instance (status : SlotStatus) : Decidable (InFormation status) := inferInstanceAs (Decidable (_ ∨ _))

theorem InFormation.ne_unset {status : SlotStatus} (h : InFormation status) : status ≠ unset := by
  rcases h with rfl | rfl <;> decide

/-- The aircraft has the slot. Slot 0 is that of the ground station, and what the map holds for
an unknown aircraft. -/
def HasSlot (s : FormationState) (id : UInt8) (i : Nat) : Prop :=
  s.traffic.theAcsId id = i ∧ (i = 0 → id = 0)

/-! ### What a call should do -/

/-- The event puts an aircraft in the slot, or is a message about the aircraft in the slot. -/
def Joins (s : FormationState) (i : Nat) : FormationEvent → Prop
  | .addSlot id _ _ _ => HasSlot s id i
  | .status acId _ _ => HasSlot s acId i
  | .slot acId _ _ _ _ => HasSlot s acId i
  | _ => False

/-- Other slots and another traffic table, that agree on everything but the data of the aircraft
that are not in the formation. -/
structure Agrees (s : FormationState) (formation : Nat → Slot) (traffic : TrafficState) : Prop where
  status : ∀ i, (formation i).status = (s.formation i).status
  slot : ∀ i, InFormation (s.formation i).status → formation i = s.formation i
  theAcsId : traffic.theAcsId = s.traffic.theAcsId
  acsIdx : traffic.acsIdx = s.traffic.acsIdx
  acId : ∀ i, (traffic.theAcs i).acId = (s.traffic.theAcs i).acId
  info : ∀ id, InFormation (s.formation (s.traffic.theAcsId id)).status →
    getAcInfo id traffic = getAcInfo id s.traffic

/-- The values that the control law computes. -/
def values (s : FormationState) : ℚ × ℚ × ℚ × ℚ × ℚ :=
  (s.formE, s.formN, s.formA, s.formSpeed, s.cruiseThrottle)

/-- A call leaves the members of the formation as they should be: a slot is only filled by a call
or a message about its aircraft, and the control law depends on the members alone, and not on
what the array `form` held before. -/
structure Conforms (cfg : FormConfig) (s : FormationState) (e : FormationEvent) : Prop where
  joins : ∀ i, (s.formation i).status = unset → ((step cfg s e).formation i).status ≠ unset →
    Joins s i e
  depends : ∀ env, e = .flight env → ∀ formation traffic stack, Agrees s formation traffic →
    values (formationFlight cfg { s with formation := formation, traffic := traffic }
        { env with stack := stack }).1 =
      values (formationFlight cfg s env).1
  computed : ∀ env, e = .flight env → ∀ i ∈ (formationFlight cfg s env).2,
    i < nbAcs ∧ (s.formation i).status ≠ unset

/-! ### Where it does -/

/-- The control law runs only with every slot but that of this aircraft in the formation, and no
message puts an unknown aircraft in slot 0. -/
def StepOk (cfg : FormConfig) (s : FormationState) : FormationEvent → Prop
  | .flight _ =>
      isReady cfg s →
        (∀ i < nbAcs, (s.traffic.theAcs i).acId ≠ cfg.acId → InFormation (s.formation i).status) ∧
          InFormation (s.formation (s.traffic.theAcsId s.leaderId)).status
  | .status acId leader status =>
      s.traffic.theAcsId acId = 0 ∧ acId ≠ 0 ∧ leader = s.leaderId ∧ status ≠ unset →
        (s.formation 0).status ≠ unset
  | _ => True

instance (cfg : FormConfig) (s : FormationState) : (e : FormationEvent) → Decidable (StepOk cfg s e)
  | .flight _ => by unfold StepOk; infer_instance
  | .status _ _ _ => by unfold StepOk; infer_instance
  | .init | .addSlot _ _ _ _ | .start | .stop | .slot _ _ _ _ _ | .acInfo _ _ | .other _ _ _ =>
      isTrue trivial

/-! ### The traffic table -/

section

variable {cfg : FormConfig} {s : FormationState}

/-- The invariant of the table; slot 0 has no aircraft. -/
structure TrafficOk (acId : UInt8) (traffic : TrafficState) : Prop where
  table : TableOk acId traffic
  ground : (traffic.theAcs 0).acId = 0

theorem setAcInfo_acId {traffic : TrafficState} {id : UInt8} {r : Report} {i : Nat}
    (h : i ≠ traffic.acsIdx) :
    ((setAcInfo id r traffic).theAcs i).acId = (traffic.theAcs i).acId := by
  have hgive : ((giveSlot id traffic).theAcs i).acId = (traffic.theAcs i).acId := by
    unfold giveSlot
    split_ifs
    · exact congrArg AcInfo.acId (Function.update_of_ne h _ _)
    · rfl
  by_cases hlt : traffic.acsIdx < nbAcs
  · rw [setAcInfo_of_lt hlt, ← hgive]
    by_cases hi : i = (giveSlot id traffic).theAcsId id
    · simp only [hi, Function.update_self, getAcInfo]
    · simp only [Function.update_of_ne hi]
  · rw [setAcInfo_full hlt]

theorem TrafficOk.setAcInfo {acId : UInt8} {traffic : TrafficState} (h : TrafficOk acId traffic)
    (id : UInt8) (r : Report) : TrafficOk acId (setAcInfo id r traffic) := by
  refine ⟨tableOk_setAcInfo h.table id r, ?_⟩
  have hne : (0 : Nat) ≠ traffic.acsIdx := (Nat.two_pos.trans_le h.table.two_le).ne
  rw [setAcInfo_acId hne, h.ground]

theorem trafficOk_start {acId : UInt8} : TrafficOk acId (start acId) := by
  refine ⟨tableOk_start acId, ?_⟩
  simp [start, trafficInfoInit, zeroed]

/-- A report about this aircraft gives no slot. -/
theorem giveSlot_own {acId : UInt8} {traffic : TrafficState} (h : TrafficOk acId traffic) :
    giveSlot acId traffic = traffic := by
  unfold giveSlot
  rw [if_neg]
  rintro ⟨-, hslot⟩
  rw [h.table.own] at hslot
  cases hslot

theorem trafficOk_step (h : TrafficOk cfg.acId s.traffic) (e : FormationEvent) :
    TrafficOk cfg.acId (step cfg s e).traffic := by
  cases e with
  | addSlot id slotE slotN slotA =>
      rw [step, addSlot]
      split_ifs
      · exact h
      · exact h
  | flight env =>
      rw [step, formationFlight]
      dsimp only
      split_ifs
      · exact h.setAcInfo _ _
      · exact h.setAcInfo _ _
  | status acId leader status =>
      rw [step, parseFormationStatus]
      split_ifs
      · exact h
      · exact h
      · exact h
  | slot acId mode slotEast slotNorth slotAlt =>
      rw [step, parseFormationSlot]
      split_ifs
      · exact h
      · exact h
  | acInfo id report => exact h.setAcInfo id report
  | _ => exact h

/-! ### What the loop does to the statuses -/

/-- The status that a turn of the loop leaves. -/
def statusAfter (cfg : FormConfig) (s : FormationState) (env : Env) (i : Nat) (status : SlotStatus) :
    SlotStatus :=
  if (s.traffic.theAcs i).acId = cfg.acId then status
  else if deltaT env (getAcInfo (s.traffic.theAcs i).acId s.traffic) > cfg.params.formCarrot then lost
  else active

theorem turn_formation (s : FormationState) (env : Env) (form : Nat → FormPos) (l : Loop) (i : Nat) :
    (turn cfg s env form l i).formation =
      setStatus (statusAfter cfg s env i (l.formation i).status) i l.formation := by
  unfold turn statusAfter
  by_cases hown : (s.traffic.theAcs i).acId = cfg.acId
  · rw [if_pos hown, if_pos hown]
    exact (Function.update_eq_self i l.formation).symm
  · rw [if_neg hown, if_neg hown]
    dsimp only
    split_ifs <;> rfl

def slotStatus (l : Loop) (i : Nat) : SlotStatus := (l.formation i).status

theorem slotStatus_turn_self (env : Env) (form : Nat → FormPos) (l : Loop) (i : Nat) :
    slotStatus (turn cfg s env form l i) i = statusAfter cfg s env i (slotStatus l i) := by
  simp [slotStatus, turn_formation, setStatus]

theorem slotStatus_turn_of_ne (env : Env) (form : Nat → FormPos) (l : Loop) (i j : Nat)
    (hne : j ≠ i) : slotStatus (turn cfg s env form l i) j = slotStatus l j := by
  simp [slotStatus, turn_formation, setStatus, Function.update_of_ne hne]

theorem status_loops {env : Env} {form : Nat → FormPos} {i : Nat} (hi : i < nbAcs) :
    ((loops cfg s env form).formation i).status = statusAfter cfg s env i (s.formation i).status :=
  foldl_of_mem (slotStatus_turn_self env form) (slotStatus_turn_of_ne env form) List.nodup_range
    (List.mem_range.2 hi) _

theorem status_loops_of_le {env : Env} {form : Nat → FormPos} {i : Nat} (hi : nbAcs ≤ i) :
    ((loops cfg s env form).formation i).status = (s.formation i).status :=
  foldl_of_not_mem (slotStatus_turn_of_ne env form)
    (fun hmem => absurd (List.mem_range.1 hmem) (Nat.not_lt.2 hi)) _

/-! ### The call before the loops -/

theorem theAcsId_beforeLoops (h : TrafficOk cfg.acId s.traffic) (env : Env) :
    (beforeLoops cfg s env).traffic.theAcsId = s.traffic.theAcsId := by
  unfold beforeLoops
  simp only [theAcsId_setAcInfo, giveSlot_own h, ite_self]

theorem acId_beforeLoops (h : TrafficOk cfg.acId s.traffic) (env : Env) (i : Nat) :
    ((beforeLoops cfg s env).traffic.theAcs i).acId = (s.traffic.theAcs i).acId := by
  unfold beforeLoops
  dsimp only
  by_cases hlt : s.traffic.acsIdx < nbAcs
  · rw [setAcInfo_of_lt hlt, giveSlot_own h]
    by_cases hi : i = s.traffic.theAcsId cfg.acId
    · simp [hi, getAcInfo]
    · simp only [Function.update_of_ne hi]
  · rw [setAcInfo_full hlt]

theorem isReady_beforeLoops (h : TrafficOk cfg.acId s.traffic) (env : Env) :
    isReady cfg (beforeLoops cfg s env) ↔ isReady cfg s := by
  unfold isReady
  rw [theAcsId_beforeLoops h]
  rfl

/-- The loops of a call. -/
def callLoops (cfg : FormConfig) (s : FormationState) (env : Env) : Loop :=
  let env' := atSlot cfg s env
  let s := beforeLoops cfg s env
  loops cfg s env' (computeForm s env' (frame cfg s).1 (frame cfg s).2)

/-- The slots after a call. -/
theorem formation_formationFlight (env : Env) :
    (formationFlight cfg s env).1.formation =
      if isReady cfg (beforeLoops cfg s env) then (callLoops cfg s env).formation
      else s.formation := by
  rw [formationFlight]
  dsimp only
  split_ifs <;> rfl

/-- A call fills no slot that is not in the formation already. -/
theorem flight_keeps_unset (h : TrafficOk cfg.acId s.traffic) {env : Env}
    (hok : StepOk cfg s (.flight env)) {i : Nat} (hunset : (s.formation i).status = unset) :
    ((formationFlight cfg s env).1.formation i).status = unset := by
  rw [formation_formationFlight]
  split_ifs with hready
  · rw [callLoops]
    by_cases hi : i < nbAcs
    · have hown : (s.traffic.theAcs i).acId = cfg.acId := by
        by_contra hne
        exact (((hok ((isReady_beforeLoops h env).1 hready)).1 i hi hne).ne_unset) hunset
      rw [status_loops hi, statusAfter, acId_beforeLoops h, if_pos hown]
      exact hunset
    · rw [status_loops_of_le (Nat.not_lt.1 hi)]
      exact hunset
  · exact hunset

/-! ### Which slots are filled -/

theorem status_changeAll {old new : SlotStatus} {formation : Nat → Slot} {i : Nat} :
    (changeAll old new formation i).status =
      if i < nbAcs ∧ (formation i).status = old then new else (formation i).status := by
  unfold changeAll
  split_ifs <;> rfl

theorem status_updateSlot (id : UInt8) (se sn sa : ℚ) (i : Nat) :
    ((updateSlot id se sn sa s).formation i).status = (s.formation i).status := by
  unfold updateSlot
  by_cases hi : i = s.traffic.theAcsId id
  · simp [hi]
  · simp [Function.update_of_ne hi]

theorem status_updateFormationStatus (id : UInt8) (status : SlotStatus) (i : Nat) :
    ((updateFormationStatus id status s).formation i).status =
      if i = s.traffic.theAcsId id then status else (s.formation i).status := by
  unfold updateFormationStatus setStatus
  by_cases hi : i = s.traffic.theAcsId id
  · simp [hi]
  · simp [hi]

theorem joins_step (h : TrafficOk cfg.acId s.traffic) {e : FormationEvent} (hok : StepOk cfg s e)
    {i : Nat} (hunset : (s.formation i).status = unset)
    (hset : ((step cfg s e).formation i).status ≠ unset) : Joins s i e := by
  have hown : s.traffic.theAcsId cfg.acId ≠ 0 := by
    rw [h.table.own]
    exact one_ne_zero
  cases e with
  | init =>
      refine absurd ?_ hset
      simp only [step, formationInit]
      split_ifs
      · rfl
      · exact hunset
  | addSlot id slotE slotN slotA =>
      rw [step, addSlot] at hset
      split_ifs at hset with hknown
      · exact absurd hunset hset
      · rw [status_updateSlot, status_updateFormationStatus] at hset
        split_ifs at hset with hi
        · refine ⟨hi.symm, fun hzero => absurd ⟨?_, hi.symm.trans hzero⟩ hknown⟩
          rintro rfl
          exact hown (hi.symm.trans hzero)
        · exact absurd hunset hset
  | start =>
      refine absurd ?_ hset
      rw [step, startFormation, status_changeAll, hunset]
      exact if_neg fun hidle => absurd hidle.2 (by decide)
  | stop =>
      refine absurd ?_ hset
      rw [step, stopFormation, status_changeAll, hunset]
      exact if_neg fun hactive => absurd hactive.2 (by decide)
  | flight env => exact absurd (flight_keeps_unset h hok hunset) hset
  | status acId leader status =>
      rw [step, parseFormationStatus] at hset
      split_ifs at hset with hid hleader
      · exact absurd hunset hset
      · rw [status_updateFormationStatus] at hset
        split_ifs at hset with hi
        · refine ⟨hi.symm, fun hzero => ?_⟩
          by_contra hne
          subst hzero
          exact hok ⟨hi.symm, hne, hleader, hset⟩ hunset
        · exact absurd hunset hset
      · rw [status_updateFormationStatus] at hset
        split_ifs at hset with hi
        · exact absurd rfl hset
        · exact absurd hunset hset
  | slot acId mode slotEast slotNorth slotAlt =>
      refine absurd ?_ hset
      rw [step, parseFormationSlot]
      split_ifs
      · exact (status_updateSlot _ _ _ _ i).trans hunset
      · exact (status_updateSlot _ _ _ _ i).trans hunset
  | acInfo id report => exact absurd hunset hset
  | other params cruiseThrottle navAltitude => exact absurd hunset hset

/-! ### Which slots the control law reads -/

theorem mem_reads_foldl {env : Env} {form : Nat → FormPos} {j : Nat} (is : List Nat) (l : Loop)
    (hj : j ∈ (is.foldl (turn cfg s env form) l).reads) :
    j ∈ l.reads ∨ j = s.traffic.theAcsId cfg.acId ∨
      j ∈ is ∧ (s.traffic.theAcs j).acId ≠ cfg.acId := by
  induction is generalizing l with
  | nil => exact Or.inl hj
  | cons i is ih =>
      rcases ih _ hj with hmem | hown | ⟨hmem, hne⟩
      · by_cases hi : (s.traffic.theAcs i).acId = cfg.acId
        · rw [turn, if_pos hi] at hmem
          exact Or.inl hmem
        · rw [turn, if_neg hi] at hmem
          dsimp only at hmem
          split_ifs at hmem
          · exact Or.inl hmem
          · simp only [List.mem_append, List.mem_cons, List.not_mem_nil, or_false] at hmem
            rcases hmem with hmem | rfl | hown
            · exact Or.inl hmem
            · exact Or.inr (Or.inr ⟨List.mem_cons_self, hi⟩)
            · exact Or.inr (Or.inl hown)
          · exact Or.inl hmem
      · exact Or.inr (Or.inl hown)
      · exact Or.inr (Or.inr ⟨List.mem_cons_of_mem i hmem, hne⟩)

/-- Every slot that is read is in the formation. -/
theorem computed_flight (h : TrafficOk cfg.acId s.traffic) {env : Env}
    (hok : StepOk cfg s (.flight env)) {j : Nat} (hj : j ∈ (formationFlight cfg s env).2) :
    j < nbAcs ∧ (s.formation j).status ≠ unset := by
  have hslot : ∀ id, s.traffic.theAcsId id < nbAcs :=
    fun id => (h.table.slot_lt id).trans_le h.table.le_nbAcs
  rw [formationFlight] at hj
  dsimp only at hj
  by_cases hready : isReady cfg (beforeLoops cfg s env)
  · rw [if_pos hready] at hj
    have hready' := (isReady_beforeLoops h env).1 hready
    obtain ⟨hmembers, hleader⟩ := hok hready'
    have hown : (s.formation (s.traffic.theAcsId cfg.acId)).status ≠ unset := by
      rw [hready'.1]
      decide
    have hreads : j ∈ (callLoops cfg s env).reads ∨ j = s.traffic.theAcsId s.leaderId ∨
        j = s.traffic.theAcsId cfg.acId := by
      simp only [commands, theAcsId_beforeLoops h] at hj
      split_ifs at hj
      · rw [List.mem_append, List.mem_cons, List.mem_singleton] at hj
        exact hj
      · exact Or.inl hj
    rcases hreads with hmem | rfl | rfl
    · rcases mem_reads_foldl _ _ hmem with hnil | rfl | ⟨hlt, hne⟩
      · exact absurd hnil List.not_mem_nil
      · rw [theAcsId_beforeLoops h]
        exact ⟨hslot _, hown⟩
      · rw [acId_beforeLoops h] at hne
        exact ⟨List.mem_range.1 hlt, (hmembers j (List.mem_range.1 hlt) hne).ne_unset⟩
    · exact ⟨hslot _, hleader.ne_unset⟩
    · exact ⟨hslot _, hown⟩
  · rw [if_neg hready] at hj
    exact absurd hj List.not_mem_nil

/-! ### What the control law depends on -/

variable {formation : Nat → Slot} {traffic : TrafficState}

/-- The state with other data of the aircraft that are not in the formation. -/
abbrev other (s : FormationState) (formation : Nat → Slot) (traffic : TrafficState) :
    FormationState :=
  { s with formation := formation, traffic := traffic }

/-- A report about this aircraft leaves tables that agree in agreement. -/
theorem Agrees.setAcInfo (h : Agrees s formation traffic) (hs : TrafficOk cfg.acId s.traffic)
    (ht : TrafficOk cfg.acId traffic) (r : Report) :
    Agrees { s with traffic := setAcInfo cfg.acId r s.traffic } formation
      (setAcInfo cfg.acId r traffic) := by
  have hids : ∀ traffic : TrafficState, TrafficOk cfg.acId traffic →
      (TrafficInfo.setAcInfo cfg.acId r traffic).theAcsId = traffic.theAcsId := by
    intro traffic h
    rw [theAcsId_setAcInfo, giveSlot_own h, ite_self]
  by_cases hlt : s.traffic.acsIdx < nbAcs
  · have hlt' : traffic.acsIdx < nbAcs := h.acsIdx ▸ hlt
    have hs' : TrafficInfo.setAcInfo cfg.acId r s.traffic = _ := setAcInfo_of_lt hlt
    have ht' : TrafficInfo.setAcInfo cfg.acId r traffic = _ := setAcInfo_of_lt hlt'
    rw [giveSlot_own hs] at hs'
    rw [giveSlot_own ht] at ht'
    have hown : (getAcInfo cfg.acId traffic).acId = (getAcInfo cfg.acId s.traffic).acId := by
      rw [getAcInfo, getAcInfo, h.theAcsId, h.acId]
    refine ⟨h.status, h.slot, ?_, ?_, ?_, ?_⟩
    · rw [hids _ hs, hids _ ht, h.theAcsId]
    · rw [hs', ht']
      exact h.acsIdx
    · intro i
      rw [hs', ht', h.theAcsId, hown]
      by_cases hi : i = s.traffic.theAcsId cfg.acId
      · simp [hi]
      · simpa [Function.update_of_ne hi] using h.acId i
    · intro id hid
      dsimp only at hid
      rw [hids _ hs] at hid
      rw [hs', ht', hown]
      change Function.update traffic.theAcs (traffic.theAcsId cfg.acId) _ (traffic.theAcsId id) =
        Function.update s.traffic.theAcs (s.traffic.theAcsId cfg.acId) _ (s.traffic.theAcsId id)
      rw [h.theAcsId]
      by_cases hi : s.traffic.theAcsId id = s.traffic.theAcsId cfg.acId
      · rw [hi, Function.update_self, Function.update_self]
      · rw [Function.update_of_ne hi, Function.update_of_ne hi]
        have hinfo := h.info id hid
        rwa [getAcInfo, getAcInfo, h.theAcsId] at hinfo
  · have hlt' : ¬traffic.acsIdx < nbAcs := h.acsIdx ▸ hlt
    rw [setAcInfo_full hlt, setAcInfo_full hlt']
    exact h

/-- The sums of two loops are the same, and so are the altitudes of the slots of the formation. -/
structure LoopsAgree (s : FormationState) (l l' : Loop) : Prop where
  formE : l'.formE = l.formE
  formN : l'.formN = l.formN
  formA : l'.formA = l.formA
  formSpeed : l'.formSpeed = l.formSpeed
  nb : l'.nb = l.nb
  alt : ∀ i, InFormation (s.formation i).status → (l'.formation i).alt = (l.formation i).alt

theorem alt_setStatus (status : SlotStatus) (i j : Nat) (formation : Nat → Slot) :
    (setStatus status i formation j).alt = (formation j).alt := by
  rw [setStatus]
  by_cases hj : j = i
  · subst hj
    simp
  · rw [Function.update_of_ne hj]

theorem deltaT_stack (env : Env) (stack : Nat → FormPos) (ac : AcInfo) :
    deltaT { env with stack := stack } ac = deltaT env ac := rfl

theorem turn_agree {env : Env} {stack : Nat → FormPos} {form form' : Nat → FormPos} {l l' : Loop}
    {i : Nat} (hi : i < nbAcs) (h : Agrees s formation traffic)
    (hform : ∀ i < nbAcs, InFormation (s.formation i).status → form' i = form i)
    (hlt : s.traffic.theAcsId cfg.acId < nbAcs)
    (hown : InFormation (s.formation (s.traffic.theAcsId cfg.acId)).status)
    (hslot : (s.traffic.theAcs i).acId ≠ cfg.acId → InFormation (s.formation i).status ∧
      InFormation (s.formation (s.traffic.theAcsId (s.traffic.theAcs i).acId)).status)
    (hl : LoopsAgree s l l') :
    LoopsAgree s (turn cfg s env form l i)
      (turn cfg (other s formation traffic) { env with stack := stack } form' l' i) := by
  unfold turn
  dsimp only
  rw [h.acId, h.theAcsId]
  by_cases hid : (s.traffic.theAcs i).acId = cfg.acId
  · rw [if_pos hid, if_pos hid]
    exact hl
  · obtain ⟨hmember, hmember'⟩ := hslot hid
    rw [if_neg hid, if_neg hid, h.info _ hmember', hform i hi hmember, hform _ hlt hown,
      deltaT_stack env stack]
    have halt : ∀ status, ∀ j, InFormation (s.formation j).status →
        (setStatus status i l'.formation j).alt = (setStatus status i l.formation j).alt := by
      intro status j hj
      rw [alt_setStatus, alt_setStatus, hl.alt j hj]
    split_ifs
    · exact ⟨hl.formE, hl.formN, hl.formA, hl.formSpeed, hl.nb, halt lost⟩
    · refine ⟨?_, ?_, ?_, ?_, ?_, halt active⟩
      · simp only [hl.formE]
      · simp only [hl.formN]
      · simp only [hl.formA, halt active i hmember, halt active _ hown]
      · simp only [hl.formSpeed]
      · simp only [hl.nb]
    · exact ⟨hl.formE, hl.formN, hl.formA, hl.formSpeed, hl.nb, halt active⟩

theorem loops_agree {env : Env} {stack : Nat → FormPos} {form form' : Nat → FormPos}
    (h : Agrees s formation traffic)
    (hform : ∀ i < nbAcs, InFormation (s.formation i).status → form' i = form i)
    (hlt : s.traffic.theAcsId cfg.acId < nbAcs)
    (hown : InFormation (s.formation (s.traffic.theAcsId cfg.acId)).status)
    (hslot : ∀ i < nbAcs, (s.traffic.theAcs i).acId ≠ cfg.acId →
      InFormation (s.formation i).status ∧
        InFormation (s.formation (s.traffic.theAcsId (s.traffic.theAcs i).acId)).status) :
    LoopsAgree s (loops cfg s env form)
      (loops cfg (other s formation traffic) { env with stack := stack } form') := by
  have hfold : ∀ (is : List Nat) (l l' : Loop), (∀ i ∈ is, i < nbAcs) → LoopsAgree s l l' →
      LoopsAgree s (is.foldl (turn cfg s env form) l)
        (is.foldl (turn cfg (other s formation traffic) { env with stack := stack } form') l') := by
    intro is
    induction is with
    | nil => exact fun _ _ _ hl => hl
    | cons i is ih =>
        intro l l' his hl
        exact ih _ _ (fun j hj => his j (List.mem_cons_of_mem i hj))
          (turn_agree (his i List.mem_cons_self) h hform hlt hown
            (hslot i (his i List.mem_cons_self)) hl)
  refine hfold _ _ _ (fun i hi => List.mem_range.1 hi) ⟨rfl, rfl, rfl, rfl, rfl, ?_⟩
  intro i hi
  exact congrArg Slot.alt (h.slot i hi)

theorem values_commands {env : Env} {stack : Nat → FormPos} {form form' : Nat → FormPos}
    {l l' : Loop} (h : LoopsAgree s l l') :
    values (commands cfg (other s formation traffic) { env with stack := stack } form' l').1 =
      values (commands cfg s env form l).1 := by
  simp only [values, commands, h.formE, h.formN, h.formA, h.formSpeed, h.nb]

theorem atSlot_other {env : Env} {stack : Nat → FormPos} (h : Agrees s formation traffic)
    (hown : InFormation (s.formation (s.traffic.theAcsId cfg.acId)).status) :
    atSlot cfg (other s formation traffic) { env with stack := stack } =
      { atSlot cfg s env with stack := stack } := by
  unfold atSlot
  dsimp only
  rw [h.theAcsId, h.slot _ hown]
  split_ifs <;> rfl

theorem trafficOk_of_agrees (h : Agrees s formation traffic) (hs : TrafficOk cfg.acId s.traffic) :
    TrafficOk cfg.acId traffic := by
  have hinfo : ∀ id, (getAcInfo id traffic).acId = (getAcInfo id s.traffic).acId := by
    intro id
    rw [getAcInfo, getAcInfo, h.theAcsId, h.acId]
  refine ⟨⟨?_, ?_, ?_, ?_, ?_, ?_⟩, ?_⟩
  · exact h.acsIdx ▸ hs.table.two_le
  · exact h.acsIdx ▸ hs.table.le_nbAcs
  · rw [h.theAcsId, h.acsIdx]
    exact hs.table.slot_lt
  · rw [h.theAcsId]
    exact hs.table.own
  · rw [h.theAcsId]
    exact hs.table.injective
  · rw [h.theAcsId]
    exact fun id hid => (hinfo id).trans (hs.table.acId_eq id hid)
  · rw [h.acId, hs.ground]

theorem isReady_other (h : Agrees s formation traffic) :
    isReady cfg (other s formation traffic) ↔ isReady cfg s := by
  simp only [isReady, h.theAcsId, h.status]

theorem beforeLoops_other {env : Env} {stack : Nat → FormPos} (h : Agrees s formation traffic)
    (hown : InFormation (s.formation (s.traffic.theAcsId cfg.acId)).status) :
    beforeLoops cfg (other s formation traffic) { env with stack := stack } =
      other (beforeLoops cfg s env) formation
        (TrafficInfo.setAcInfo cfg.acId (ownReport (atSlot cfg s env)) traffic) := by
  rw [beforeLoops, atSlot_other h hown]
  rfl

theorem Agrees.beforeLoops (h : Agrees s formation traffic) (hs : TrafficOk cfg.acId s.traffic)
    (env : Env) :
    Agrees (Formation.beforeLoops cfg s env) formation
      (TrafficInfo.setAcInfo cfg.acId (ownReport (atSlot cfg s env)) traffic) := by
  have hset := h.setAcInfo hs (trafficOk_of_agrees h hs) (ownReport (atSlot cfg s env))
  exact ⟨hset.status, hset.slot, hset.theAcsId, hset.acsIdx, hset.acId, hset.info⟩

theorem frame_other (h : Agrees s formation traffic)
    (hleader : InFormation (s.formation (s.traffic.theAcsId s.leaderId)).status) :
    frame cfg (other s formation traffic) = frame cfg s := by
  have hinfo := h.info s.leaderId hleader
  simp only [frame, hinfo]

theorem computeForm_agree {env : Env} {stack : Nat → FormPos} (h : Agrees s formation traffic)
    {cr sr : ℚ} {i : Nat} (hlt : i < nbAcs) (hi : InFormation (s.formation i).status) :
    computeForm (other s formation traffic) { env with stack := stack } cr sr i =
      computeForm s env cr sr i := by
  have hcomputed : i < nbAcs ∧ (s.formation i).status ≠ unset := ⟨hlt, hi.ne_unset⟩
  simp only [computeForm, h.slot i hi, if_pos hcomputed]

/-- The entry of the aircraft in a slot is that of the slot, or of slot 0. -/
theorem theAcsId_acId_ne (hid : cfg.acId ≠ 0) (hs : TrafficOk cfg.acId s.traffic) {i : Nat}
    (hne : (s.traffic.theAcs i).acId ≠ cfg.acId) :
    (s.traffic.theAcs (s.traffic.theAcsId (s.traffic.theAcs i).acId)).acId ≠ cfg.acId := by
  by_cases hzero : s.traffic.theAcsId (s.traffic.theAcs i).acId = 0
  · rw [hzero, hs.ground]
    exact hid.symm
  · have hentry := hs.table.acId_eq _ hzero
    rw [getAcInfo] at hentry
    rwa [hentry]

/-- The control law depends on the members of the formation alone. -/
theorem depends_flight (hid : cfg.acId ≠ 0) (hs : TrafficOk cfg.acId s.traffic) {env : Env}
    (hok : StepOk cfg s (.flight env)) (stack : Nat → FormPos) (h : Agrees s formation traffic) :
    values (formationFlight cfg (other s formation traffic) { env with stack := stack }).1 =
      values (formationFlight cfg s env).1 := by
  have ht : TrafficOk cfg.acId (other s formation traffic).traffic := trafficOk_of_agrees h hs
  have hready_iff : isReady cfg (beforeLoops cfg (other s formation traffic)
      { env with stack := stack }) ↔ isReady cfg (beforeLoops cfg s env) := by
    rw [isReady_beforeLoops ht, isReady_beforeLoops hs, isReady_other h]
  rw [formationFlight, formationFlight]
  dsimp only
  by_cases hready : isReady cfg (beforeLoops cfg s env)
  · have hready' := (isReady_beforeLoops hs env).1 hready
    obtain ⟨hmembers, hleader⟩ := hok hready'
    have hown : InFormation (s.formation (s.traffic.theAcsId cfg.acId)).status :=
      Or.inl hready'.1
    have hids := theAcsId_beforeLoops hs env
    have hlt : ∀ id, s.traffic.theAcsId id < nbAcs := fun id =>
      (hs.table.slot_lt id).trans_le hs.table.le_nbAcs
    have hagree := h.beforeLoops hs env
    rw [if_pos hready, if_pos (hready_iff.2 hready), atSlot_other h hown,
      beforeLoops_other h hown, frame_other hagree (by rw [hids]; exact hleader)]
    apply values_commands
    apply loops_agree hagree
    · exact fun i hlt hi => computeForm_agree hagree hlt hi
    · rw [hids]
      exact hlt _
    · rw [hids]
      exact hown
    · intro i hi hne
      rw [acId_beforeLoops hs] at hne ⊢
      rw [hids]
      exact ⟨hmembers i hi hne, hmembers _ (hlt _) (theAcsId_acId_ne hid hs hne)⟩
  · rw [if_neg hready, if_neg (mt hready_iff.1 hready)]
    rfl

/-! ### Slots that are set idle -/

/-- The slot, and that of this aircraft, are not active. -/
structure Stopped (cfg : FormConfig) (i : Nat) (s : FormationState) : Prop where
  traffic : TrafficOk cfg.acId s.traffic
  own : (s.formation 1).status ≠ active
  slot : (s.formation i).status ≠ active

/-- The event is neither a call of `start_formation` nor a status message about the slot. -/
def NotResumed (i : Nat) (s : FormationState) (e : FormationEvent) : Prop :=
  e ≠ .start ∧ ∀ acId leader status, e = .status acId leader status → s.traffic.theAcsId acId ≠ i

theorem status_step_of_stopped {i : Nat} (h : Stopped cfg i s) {e : FormationEvent}
    (hresumed : NotResumed i s e) {j : Nat} (hj : j = 1 ∨ j = i) (hlt : j < nbAcs) :
    ((step cfg s e).formation j).status ≠ active := by
  have hslot : (s.formation j).status ≠ active := by
    rcases hj with rfl | rfl
    · exact h.own
    · exact h.slot
  cases e with
  | init =>
      simp only [step, formationInit, if_pos hlt]
      decide
  | addSlot id slotE slotN slotA =>
      rw [step, addSlot]
      split_ifs
      · exact hslot
      · rw [status_updateSlot, status_updateFormationStatus]
        split_ifs
        · decide
        · exact hslot
  | start => exact absurd rfl hresumed.1
  | stop =>
      rw [step, stopFormation, status_changeAll]
      split_ifs
      · decide
      · exact hslot
  | flight env =>
      have hnot : ¬isReady cfg (beforeLoops cfg s env) := by
        rw [isReady_beforeLoops h.traffic, isReady, h.traffic.table.own]
        exact fun hready => h.own hready.1
      rw [step, formation_formationFlight, if_neg hnot]
      exact hslot
  | status acId leader status =>
      rw [step, parseFormationStatus]
      split_ifs with hid hleader
      · exact hslot
      · rw [status_updateFormationStatus, if_neg]
        · exact hslot
        · rintro rfl
          rcases hj with hone | heq
          · have hne : s.traffic.theAcsId acId ≠ 0 := by
              rw [hone]
              exact one_ne_zero
            exact hid (h.traffic.table.injective acId cfg.acId hne
              (hone.trans h.traffic.table.own.symm))
          · exact hresumed.2 acId leader status rfl heq
      · rw [status_updateFormationStatus]
        split_ifs
        · decide
        · exact hslot
  | slot acId mode slotEast slotNorth slotAlt =>
      rw [step, parseFormationSlot]
      split_ifs
      · exact fun hactive => hslot ((status_updateSlot _ _ _ _ j).symm.trans hactive)
      · exact fun hactive => hslot ((status_updateSlot _ _ _ _ j).symm.trans hactive)
  | acInfo id report => exact hslot
  | other params cruiseThrottle navAltitude => exact hslot

theorem stopped_step {i : Nat} (hi : i < nbAcs) (h : Stopped cfg i s) {e : FormationEvent}
    (hresumed : NotResumed i s e) : Stopped cfg i (step cfg s e) where
  traffic := trafficOk_step h.traffic e
  own := status_step_of_stopped h hresumed (Or.inl rfl) (by decide)
  slot := status_step_of_stopped h hresumed (Or.inr rfl) hi

theorem stopped_stop (h : TrafficOk cfg.acId s.traffic) {i : Nat} (hi : i < nbAcs) :
    Stopped cfg i (step cfg s .stop) := by
  have hidle : ∀ j < nbAcs, ((step cfg s .stop).formation j).status ≠ active := by
    intro j hj
    rw [step, stopFormation, status_changeAll]
    split_ifs with hactive
    · decide
    · exact fun heq => hactive ⟨hj, heq⟩
  exact ⟨h, hidle 1 (by decide), hidle i hi⟩

end

/-! ### Runs -/

theorem trafficOk_run {cfg : FormConfig} {s : FormationState} (h : TrafficOk cfg.acId s.traffic)
    (es : List FormationEvent) : TrafficOk cfg.acId (run (step cfg) s es).traffic :=
  run_history (fun _ (s : FormationState) => TrafficOk cfg.acId s.traffic)
    (fun _ _ e h => trafficOk_step h e) h es

/-- In every run whose calls of the control law are made with all slots in the formation, and in
which no message fills slot 0 for an unknown aircraft, the slots are filled as they should be and
the control law depends on the members alone. In every run a slot that has been stopped is only
resumed by `start_formation` or by a status message. -/
theorem formation_membership (cfg : FormConfig) (hid : cfg.acId ≠ 0) (s : FormationState)
    (hs : s.traffic = start cfg.acId) (es : List FormationEvent) :
    (RunOk (step cfg) (StepOk cfg) s es → RunOk (step cfg) (Conforms cfg) s es) ∧
      ∀ i < nbAcs, ∀ es',
        RunOk (step cfg) (NotResumed i) (step cfg (run (step cfg) s es) .stop) es' →
          ((run (step cfg) (step cfg (run (step cfg) s es) .stop) es').formation i).status ≠
            active := by
  have hstart : TrafficOk cfg.acId s.traffic := hs ▸ trafficOk_start
  constructor
  · intro hok
    clear hs
    induction es generalizing s with
    | nil => exact trivial
    | cons e es ih =>
        obtain ⟨hstep, hrest⟩ := hok
        refine ⟨⟨fun i => joins_step hstart hstep, ?_, ?_⟩, ih _ (trafficOk_step hstart e) hrest⟩
        · rintro env rfl formation traffic stack hagree
          exact depends_flight hid hstart hstep stack hagree
        · rintro env rfl i hi
          exact computed_flight hstart hstep hi
  · intro i hi es' hresumed
    have hstopped := run_invariant (Stopped cfg i) (fun _ _ h hok => stopped_step hi h hok)
      (stopped_stop (trafficOk_run hstart es) hi) hresumed
    exact hstopped.slot

/-! ### Fixed runs -/

/-- Aircraft 1. -/
def formConfig : FormConfig where
  acId := 1
  params :=
    { formCarrot := 2, coefFormPos := 1, coefFormSpeed := 0, coefFormCourse := 0, coefFormAlt := 0,
      formProx := 20 }
  nominalCruiseThrottle := 1 / 2
  minCruiseThrottle := 0
  maxCruiseThrottle := 1
  groundAlt := 0
  securityHeight := 10
  nominalAirspeed := 10
  sinf := fun _ => 0
  cosf := fun _ => 1

/-- The memory of the formation before any call. -/
def noFormation : FormationState where
  formation := fun _ => { status := unset, east := 0, north := 0, alt := 0 }
  leaderId := 0
  params := formConfig.params
  formMode := formModeGlobal
  oldCruise := 0
  oldAlt := 0
  formE := 0
  formN := 0
  formA := 0
  formSpeed := 0
  formSpeedE := 0
  formSpeedN := 0
  cruiseThrottle := 0
  navAltitude := 0
  flightAltitude := 0
  desiredX := 0
  desiredY := 0
  traffic := start 1

def reportAt100 : Report where
  utmX := 0
  utmY := 50
  course := 0
  alt := 100
  gspeed := 10
  climb := 0
  itow := 0
  navUtmEast0 := 0
  navUtmNorth0 := 0

/-- A call at the altitude of the others, with `garbage` in the array `form`. -/
def envAt100 (garbage : ℚ) : Env where
  x := 0
  y := 0
  z := 100
  horizontalSpeedNorm := 10
  horizontalSpeedDir := 0
  speedUp := 0
  tow := 0
  groundAlt := 0
  navUtmEast0 := 0
  navUtmNorth0 := 0
  stack := fun _ => { east := garbage, north := 0, alt := 0 }

/-- All slots are filled: 22 aircraft and the ground station are in the formation, led by the ground
station, when aircraft 1 joins it. -/
def fullFormation : List FormationEvent :=
  (List.range' 2 22).map (fun n => .acInfo (UInt8.ofNat n) reportAt100) ++
    .status 0 0 lost :: (List.range' 2 22).map (fun n => .status (UInt8.ofNat n) 0 lost) ++
      [.addSlot 1 0 0 0, .start, .flight (envAt100 0)]

theorem full_formation_conforms :
    RunOk (step formConfig) (Conforms formConfig) noFormation fullFormation :=
  (formation_membership formConfig (by decide) noFormation rfl fullFormation).1 (by decide +kernel)

/-- Aircraft 1 leads itself and has heard of aircraft 2, which is in no formation. -/
def beforeFlight : FormationState :=
  run (step formConfig) noFormation [.acInfo 2 reportAt100, .addSlot 1 0 0 0, .status 1 1 idle, .start]

/-- The call makes aircraft 2 a member and uses what the array `form` happens to hold for it. -/
theorem stranger_joins :
    (beforeFlight.formation 2).status = unset ∧
      ((step formConfig beforeFlight (.flight (envAt100 0))).formation 2).status = active ∧
      2 ∈ (formationFlight formConfig beforeFlight (envAt100 0)).2 ∧
      (formationFlight formConfig beforeFlight (envAt100 0)).1.formE = 0 ∧
      (formationFlight formConfig beforeFlight (envAt100 7)).1.formE = -7 := by
  decide +kernel

end Paparazzi.Multi.FormationMembership
