import Mathlib.Tactic.SplitIfs
import Paparazzi.Multi.TcasMonitoring

/-!
Two aircraft that resolve a conflict with each other, with messages between them that can be late
or lost.
-/

namespace Paparazzi.Multi.TcasCoordination

open Paparazzi.Library.Machine
open Paparazzi.Library.EntryLoop
open Paparazzi.Multi.TrafficInfo hiding step
open Paparazzi.Multi.Tcas hiding step
open Paparazzi.Multi.TcasMonitoring

/-! ### The pair and the network -/

inductive Side where
  | a | b
  deriving DecidableEq, Repr

def Side.other : Side → Side
  | .a => .b
  | .b => .a

@[simp] theorem other_ne (side : Side) : side.other ≠ side := by
  cases side <;> decide

/-- Two aircraft with different ids. -/
structure PairConfig where
  cfg : Side → TcasConfig
  distinct : (cfg .a).acId ≠ (cfg .b).acId

def PairConfig.acId (pc : PairConfig) (side : Side) : UInt8 := (pc.cfg side).acId

/-- The state of each aircraft and the resolves on the way to it. -/
structure Pair where
  party : Side → TcasState
  inFlight : Side → List TcasResolve

inductive NetEvent where
  | deliver (side : Side) (k : Nat) (traffic : TrafficState)
  | lose (side : Side) (k : Nat)

/-- One second: each aircraft runs its task once, with messages arriving or getting lost before
and in between. -/
structure Round where
  before : List NetEvent
  first : Side
  env : Side → Env
  between : List NetEvent

section

variable (pc : PairConfig)

/-- The resolves that are sent about an aircraft, and passed on to it. -/
def resolvesFor (acId : UInt8) (sent : List (Nat × Downlink)) : List TcasResolve :=
  sent.filterMap fun message =>
    match message.2 with
    | .tcasRa id resolve => if id = acId then some resolve else none
    | _ => none

def runSide (env : Env) (side : Side) (p : Pair) : Pair :=
  let (s, sent) := tcasPeriodicTask1Hz (pc.cfg side) (p.party side) env
  { party := Function.update p.party side s
    inFlight :=
      Function.update p.inFlight side.other
        (p.inFlight side.other ++ resolvesFor (pc.acId side.other) sent) }

def netStep (p : Pair) : NetEvent → Pair
  | .deliver side k traffic =>
      match (p.inFlight side)[k]? with
      | some resolve =>
          { party :=
              Function.update p.party side
                (parseTcasResolve (pc.cfg side) (pc.acId side) (pc.acId side.other) resolve traffic
                  (p.party side))
            inFlight := Function.update p.inFlight side ((p.inFlight side).eraseIdx k) }
      | none => p
  | .lose side k =>
      { p with inFlight := Function.update p.inFlight side ((p.inFlight side).eraseIdx k) }

/-- The pair when the first aircraft runs its task. -/
def atFirst (p : Pair) (r : Round) : Pair := run (netStep pc) p r.before

/-- The pair when the second aircraft runs its task. -/
def atSecond (p : Pair) (r : Round) : Pair :=
  run (netStep pc) (runSide pc (r.env r.first) r.first (atFirst pc p r)) r.between

def roundStep (p : Pair) (r : Round) : Pair :=
  runSide pc (r.env r.first.other) r.first.other (atSecond pc p r)

/-! ### Coordination -/

/-- Each aircraft holds, in its traffic table, the altitude and the climb rate of the other. -/
def Truthful (r : Round) : Prop :=
  ∀ side : Side,
    let ac := getAcInfo (pc.acId side.other) (r.env side).traffic
    TableOk (pc.acId side) (r.env side).traffic ∧ ac.alt = (r.env side.other).z ∧
      ac.climb = (r.env side.other).speedUp

/-- The aircraft is in RA against the other one. -/
def InRa (side : Side) (env : Env) (s : TcasState) : Prop :=
  s.status = .ra ∧ s.acRa = pc.acId side.other ∧
    (s.acsStatus (env.traffic.theAcsId (pc.acId side.other))).status = .ra

def Opposite (r r' : TcasResolve) : Prop :=
  (r = .climb ∧ r' = .descend) ∨ (r = .descend ∧ r' = .climb)

/-- After the round both are in RA against each other, with data that are right. -/
def InConflict (p : Pair) (r : Round) : Prop :=
  Truthful pc r ∧ ∀ side, InRa pc side (r.env side) ((roundStep pc p r).party side)

def Coordinated (p : Pair) (r : Round) : Prop :=
  InConflict pc p r →
    Opposite ((roundStep pc p r).party .a).resolve ((roundStep pc p r).party .b).resolve

/-- The direction test of the aircraft. -/
def direction (side : Side) (env : Env) (s : TcasState) : TcasResolve :=
  tcasTestDirection (pc.cfg side) s.alim env (pc.acId side.other)

/-- The lowest id is to descend: either the resolve that the aircraft has stored is its own
direction, or its direction is that of the rule. -/
def FollowsRule (side : Side) (env : Env) (s : TcasState) : Prop :=
  (s.acsStatus (env.traffic.theAcsId (pc.acId side.other))).resolve = direction pc side env s ∨
    direction pc side env s = lowestDescends (pc.cfg side) (pc.acId side.other)

instance (side : Side) (env : Env) (s : TcasState) : Decidable (FollowsRule pc side env s) :=
  inferInstanceAs (Decidable (_ ∨ _))

/-- Both aircraft follow the rule, or none does. -/
def RoundOk (p : Pair) (r : Round) : Prop :=
  InConflict pc p r →
    (FollowsRule pc r.first (r.env r.first) ((atFirst pc p r).party r.first) ↔
      FollowsRule pc r.first.other (r.env r.first.other) ((atSecond pc p r).party r.first.other))

end

/-! ### One task -/

section

variable {cfg : TcasConfig} {s : TcasState} {env : Env} {id : UInt8}

theorem tcasTestDirection_cases (alim : ℚ) :
    tcasTestDirection cfg alim env id = .climb ∨ tcasTestDirection cfg alim env id = .descend := by
  unfold tcasTestDirection
  dsimp only
  split_ifs <;> simp

/-- The reversal of the resolve for an aircraft that is levelling off is never reached. -/
theorem resolveConflict_fst {climb : ℚ} {dir acResolve : TcasResolve}
    (hdir : dir = .climb ∨ dir = .descend) :
    (resolveConflict cfg id climb dir acResolve).1 =
      if acResolve = dir then lowestDescends cfg id else dir := by
  unfold resolveConflict
  cases acResolve with
  | none =>
      rcases hdir with rfl | rfl
      · simp
      · simp
  | level => simp
  | climb => simp
  | descend => simp

/-- An alarm that goes on keeps the stored resolve. -/
theorem monitorConflict_resolve {t : ℚ} {inside : Bool} {acId : UInt8} {a : TcasAcStatus}
    (h : (monitorConflict cfg s t inside acId a).1.status = .ra) :
    (monitorConflict cfg s t inside acId a).1.resolve = a.resolve := by
  unfold monitorConflict at h ⊢
  cases hstatus : a.status with
  | ra =>
      simp only [hstatus] at h ⊢
      split_ifs at h ⊢
      · rfl
  | ta =>
      simp only [hstatus] at h ⊢
      split_ifs at h ⊢
      · rfl
      · simp [hstatus] at h
  | noAlarm =>
      simp only
      split_ifs <;> rfl

theorem monitorAll_resolve {i : Nat} (h : ((monitorAll cfg s env).acsStatus i).status = .ra) :
    ((monitorAll cfg s env).acsStatus i).resolve = (s.acsStatus i).resolve := by
  by_cases hi : i ∈ slots
  · have hentry : (monitorAll cfg s env).acsStatus i = (monitorSlot cfg s env i (s.acsStatus i)).1 :=
      congrArg Prod.fst (entry_monitorAll hi)
    rw [hentry] at h ⊢
    unfold monitorSlot at h ⊢
    split_ifs at h ⊢
    · rfl
    · rfl
    · exact monitorConflict_resolve h
  · have hentry : (monitorAll cfg s env).acsStatus i = s.acsStatus i :=
      congrArg Prod.fst (entry_monitorAll_of_not_mem hi)
    rw [hentry]

theorem periodic_of_low (hlow : isLow cfg env) {i : Nat} (hi : i < nbAcs) :
    ((tcasPeriodicTask1Hz cfg s env).1.acsStatus i).status = .noAlarm := by
  unfold tcasPeriodicTask1Hz
  rw [if_pos hlow]
  simp [hi]

/-- The current conflict of a call above the security height: none, or one that is resolved. -/
theorem periodic_conflict (hlow : ¬isLow cfg env) :
    (tcasPeriodicTask1Hz cfg s env).1.status ≠ .ra ∨
      ∃ id, (tcasPeriodicTask1Hz cfg s env).1.acRa = id ∧
        ((monitorAll cfg s env).acsStatus (env.traffic.theAcsId id)).status = .ra ∧
        (tcasPeriodicTask1Hz cfg s env).1.resolve =
          (resolveConflict cfg id (getAcInfo id env.traffic).climb
            (tcasTestDirection cfg s.alim env id)
            ((monitorAll cfg s env).acsStatus (env.traffic.theAcsId id)).resolve).1 := by
  unfold tcasPeriodicTask1Hz
  rw [if_neg hlow]
  dsimp only
  generalize conflictWith cfg s env (monitorAll cfg s env) = id
  by_cases hra : ((monitorAll cfg s env).acsStatus (env.traffic.theAcsId id)).status = .ra
  · rw [if_pos hra]
    exact Or.inr ⟨id, rfl, hra, rfl⟩
  · rw [if_neg hra]
    exact Or.inl hra

/-- What an aircraft resolves that ends up in RA against another one. -/
theorem periodic_resolve (hid : env.traffic.theAcsId id < nbAcs)
    (hstatus : (tcasPeriodicTask1Hz cfg s env).1.status = .ra)
    (hacRa : (tcasPeriodicTask1Hz cfg s env).1.acRa = id)
    (hslot : ((tcasPeriodicTask1Hz cfg s env).1.acsStatus (env.traffic.theAcsId id)).status = .ra) :
    (tcasPeriodicTask1Hz cfg s env).1.resolve =
      if (s.acsStatus (env.traffic.theAcsId id)).resolve = tcasTestDirection cfg s.alim env id then
        lowestDescends cfg id
      else tcasTestDirection cfg s.alim env id := by
  by_cases hlow : isLow cfg env
  · rw [periodic_of_low hlow hid] at hslot
    cases hslot
  · obtain hnone | ⟨id', hid', hra, hresolve⟩ := @periodic_conflict cfg s env hlow
    · exact absurd hstatus hnone
    · obtain rfl : id' = id := hid'.symm.trans hacRa
      rw [hresolve, resolveConflict_fst (tcasTestDirection_cases s.alim), monitorAll_resolve hra]

end

/-! ### One round -/

section

variable {pc : PairConfig} {p : Pair} {r : Round}

/-- What messages do not change. -/
structure SameResolution (s s' : TcasState) : Prop where
  status : s'.status = s.status
  acRa : s'.acRa = s.acRa
  resolve : s'.resolve = s.resolve
  slot : ∀ i, (s'.acsStatus i).status = (s.acsStatus i).status

theorem sameResolution_refl (s : TcasState) : SameResolution s s := ⟨rfl, rfl, rfl, fun _ => rfl⟩

theorem sameResolution_parse {cfg : TcasConfig} {acId acIdConflict : UInt8} {resolve : TcasResolve}
    {traffic : TrafficState} {s : TcasState} :
    SameResolution s (parseTcasResolve cfg acId acIdConflict resolve traffic s) := by
  unfold parseTcasResolve
  split_ifs
  · refine ⟨rfl, rfl, rfl, fun i => ?_⟩
    by_cases hi : i = traffic.theAcsId acIdConflict
    · simp [hi]
    · simp [Function.update_of_ne hi]
  · exact sameResolution_refl s

theorem SameResolution.trans {s s' s'' : TcasState} (h : SameResolution s s')
    (h' : SameResolution s' s'') : SameResolution s s'' where
  status := h'.status.trans h.status
  acRa := h'.acRa.trans h.acRa
  resolve := h'.resolve.trans h.resolve
  slot i := (h'.slot i).trans (h.slot i)

theorem sameResolution_netStep (side : Side) (e : NetEvent) :
    SameResolution (p.party side) ((netStep pc p e).party side) := by
  cases e with
  | deliver side' k traffic =>
      rw [netStep]
      cases (p.inFlight side')[k]? with
      | none => exact sameResolution_refl _
      | some resolve =>
          by_cases hside : side = side'
          · subst hside
            simpa using sameResolution_parse
          · simpa [Function.update_of_ne hside] using sameResolution_refl _
  | lose side' k => exact sameResolution_refl _

theorem sameResolution_run (side : Side) (es : List NetEvent) :
    SameResolution (p.party side) ((run (netStep pc) p es).party side) :=
  run_history (fun _ (q : Pair) => SameResolution (p.party side) (q.party side))
    (fun _ _ e h => h.trans (sameResolution_netStep side e)) (sameResolution_refl _) es

theorem runSide_self (env : Env) (side : Side) :
    (runSide pc env side p).party side = (tcasPeriodicTask1Hz (pc.cfg side) (p.party side) env).1 := by
  simp [runSide]

theorem runSide_of_ne {env : Env} {side side' : Side} (h : side' ≠ side) :
    (runSide pc env side p).party side' = p.party side' := by
  simp [runSide, Function.update_of_ne h]

/-- What a side resolves that is in RA against the other. -/
theorem resolve_runSide {side : Side} {env : Env} {s' : TcasState}
    (htable : TableOk (pc.acId side) env.traffic)
    (hsame : SameResolution ((runSide pc env side p).party side) s') (hra : InRa pc side env s') :
    s'.resolve =
      if FollowsRule pc side env (p.party side) then
        lowestDescends (pc.cfg side) (pc.acId side.other)
      else direction pc side env (p.party side) := by
  rw [runSide_self] at hsame
  have hresolve := periodic_resolve ((htable.slot_lt _).trans_le htable.le_nbAcs)
    (hsame.status.symm.trans hra.1) (hsame.acRa.symm.trans hra.2.1)
    ((hsame.slot _).symm.trans hra.2.2)
  rw [hsame.resolve, hresolve]
  change (if _ = direction pc side env (p.party side) then _
    else direction pc side env (p.party side)) = _
  by_cases hstored : ((p.party side).acsStatus (env.traffic.theAcsId (pc.acId side.other))).resolve =
      direction pc side env (p.party side)
  · rw [if_pos hstored, if_pos (show FollowsRule pc side env (p.party side) from Or.inl hstored)]
  · rw [if_neg hstored]
    by_cases hrule : FollowsRule pc side env (p.party side)
    · rw [if_pos hrule]
      exact hrule.resolve_left hstored
    · rw [if_neg hrule]

theorem opposite_comm {r r' : TcasResolve} : Opposite r r' ↔ Opposite r' r := by
  unfold Opposite
  rw [and_comm, @and_comm (r = .descend), or_comm]

/-- The rule gives opposite resolves. -/
theorem lowestDescends_opposite (pc : PairConfig) (side : Side) :
    Opposite (lowestDescends (pc.cfg side) (pc.acId side.other))
      (lowestDescends (pc.cfg side.other) (pc.acId side)) := by
  have hne : (pc.cfg side).acId ≠ (pc.cfg side.other).acId := by
    cases side with
    | a => exact pc.distinct
    | b => exact pc.distinct.symm
  unfold lowestDescends PairConfig.acId
  by_cases hlt : (pc.cfg side).acId < (pc.cfg side.other).acId
  · rw [if_pos hlt, if_neg (UInt8.lt_asymm hlt)]
    exact Or.inr ⟨rfl, rfl⟩
  · have hgt : (pc.cfg side.other).acId < (pc.cfg side).acId :=
      UInt8.lt_of_le_of_ne (UInt8.not_lt.1 hlt) hne.symm
    rw [if_neg hlt, if_pos hgt]
    exact Or.inl ⟨rfl, rfl⟩

/-- Two aircraft that each follow the rule, or do the opposite of it. -/
theorem opposite_iff {cfg cfg' : TcasConfig} {id id' : UInt8} {dir dir' : TcasResolve}
    {rule rule' : Prop} [Decidable rule] [Decidable rule']
    (hlowest : Opposite (lowestDescends cfg id) (lowestDescends cfg' id'))
    (hdir : dir = .climb ∨ dir = .descend) (hdir' : dir' = .climb ∨ dir' = .descend)
    (hrule : dir = lowestDescends cfg id → rule) (hrule' : dir' = lowestDescends cfg' id' → rule') :
    Opposite (if rule then lowestDescends cfg id else dir)
        (if rule' then lowestDescends cfg' id' else dir') ↔ (rule ↔ rule') := by
  by_cases h : rule
  · by_cases h' : rule'
    · simpa [h, h'] using hlowest
    · have hne : dir' ≠ lowestDescends cfg' id' := mt hrule' h'
      rw [if_pos h, if_neg h']
      refine iff_of_false ?_ (by simp [h, h'])
      rcases hlowest with ⟨h₁, h₂⟩ | ⟨h₁, h₂⟩ <;> rcases hdir' with rfl | rfl <;>
        simp_all [Opposite]
  · have hne : dir ≠ lowestDescends cfg id := mt hrule h
    by_cases h' : rule'
    · rw [if_neg h, if_pos h']
      refine iff_of_false ?_ (by simp [h, h'])
      rcases hlowest with ⟨h₁, h₂⟩ | ⟨h₁, h₂⟩ <;> rcases hdir with rfl | rfl <;>
        simp_all [Opposite]
    · have hne' : dir' ≠ lowestDescends cfg' id' := mt hrule' h'
      rw [if_neg h, if_neg h']
      refine iff_of_true ?_ (by simp [h, h'])
      rcases hlowest with ⟨h₁, h₂⟩ | ⟨h₁, h₂⟩ <;> rcases hdir with rfl | rfl <;>
        rcases hdir' with rfl | rfl <;> simp_all [Opposite]

theorem opposite_sides (pc : PairConfig) (p : Pair) (r : Round) :
    Opposite ((roundStep pc p r).party .a).resolve ((roundStep pc p r).party .b).resolve ↔
      Opposite ((roundStep pc p r).party r.first).resolve
        ((roundStep pc p r).party r.first.other).resolve := by
  cases r.first with
  | a => exact Iff.rfl
  | b => exact opposite_comm

/-- A round is coordinated exactly where both aircraft follow the rule or none does. -/
theorem coordinated_iff : Coordinated pc p r ↔ RoundOk pc p r := by
  refine forall_congr' fun hconflict => ?_
  obtain ⟨htruth, hra⟩ := hconflict
  have hfirst : ((roundStep pc p r).party r.first).resolve =
      if FollowsRule pc r.first (r.env r.first) ((atFirst pc p r).party r.first) then
        lowestDescends (pc.cfg r.first) (pc.acId r.first.other)
      else direction pc r.first (r.env r.first) ((atFirst pc p r).party r.first) := by
    have hsame : SameResolution
        ((runSide pc (r.env r.first) r.first (atFirst pc p r)).party r.first)
        ((roundStep pc p r).party r.first) := by
      rw [roundStep, runSide_of_ne (other_ne r.first).symm]
      exact sameResolution_run r.first r.between
    exact resolve_runSide (htruth r.first).1 hsame (hra r.first)
  have hsecond : ((roundStep pc p r).party r.first.other).resolve =
      if FollowsRule pc r.first.other (r.env r.first.other)
          ((atSecond pc p r).party r.first.other) then
        lowestDescends (pc.cfg r.first.other) (pc.acId r.first.other.other)
      else
        direction pc r.first.other (r.env r.first.other) ((atSecond pc p r).party r.first.other) :=
    resolve_runSide (htruth r.first.other).1 (sameResolution_refl _) (hra r.first.other)
  have hlowest := lowestDescends_opposite pc r.first
  rw [show pc.acId r.first = pc.acId r.first.other.other by cases r.first <;> rfl] at hlowest
  rw [opposite_sides, hfirst, hsecond]
  exact opposite_iff hlowest (tcasTestDirection_cases _) (tcasTestDirection_cases _) Or.inr Or.inr

end

/-! ### Runs -/

/-- The pair after `tcas_init`. -/
def initialPair (pc : PairConfig) : Pair where
  party := fun side => tcasInit (pc.cfg side)
  inFlight := fun _ => []

/-- In every run, the rounds are coordinated exactly where in each of them both aircraft follow
the rule of the lowest id or none does. -/
theorem tcas_coordination (pc : PairConfig) (rounds : List Round) :
    RunOk (roundStep pc) (Coordinated pc) (initialPair pc) rounds ↔
      RunOk (roundStep pc) (RoundOk pc) (initialPair pc) rounds :=
  runOk_congr (fun _ _ => coordinated_iff) _ _

/-! ### Two aircraft that cross their altitudes -/

/-- Aircraft 1 and 2. -/
def crossing : PairConfig where
  cfg side :=
    match side with
    | .a => carrotConfig
    | .b => { carrotConfig with acId := 2 }
  distinct := by decide

/-- An aircraft at `x` and `z` that hears of another one. -/
def envOf (acId other : UInt8) (x z speed x' z' speed' : ℚ) : Env where
  x := x
  y := 0
  z := z
  horizontalSpeedNorm := speed
  horizontalSpeedDir := 0
  speedUp := 0
  tow := 0
  traffic :=
    setAcInfo other
      { utmX := x', utmY := 0, course := 0, alt := z', gspeed := speed', climb := 0, itow := 0,
        navUtmEast0 := 0, navUtmNorth0 := 0 } (start acId)

/-- Aircraft 1 flies towards aircraft 2, which stands still 20 metres ahead. -/
def envsAt (za zb : ℚ) (side : Side) : Env :=
  match side with
  | .a => envOf 1 2 0 za 10 20 zb 0
  | .b => envOf 2 1 20 zb 0 0 za 10

/-- The first resolve of aircraft 1 is lost and that of aircraft 2 is late. -/
def lastRound : Round where
  before := [.lose .b 0, .deliver .a 0 (envsAt 120 100 .a).traffic]
  first := .a
  env := envsAt 120 100
  between := []

/-- Aircraft 1 is 20 metres lower than aircraft 2, then 20 metres higher. -/
def crossingRounds : List Round :=
  [{ before := [], first := .a, env := envsAt 100 120, between := [] }, lastRound]

/-- The pair after the first round. -/
def afterFirstRound : Pair := run (roundStep crossing) (initialPair crossing) crossingRounds.dropLast

theorem inConflict_lastRound : InConflict crossing afterFirstRound lastRound := by
  constructor
  · intro side
    cases side with
    | a => exact ⟨tableOk_setAcInfo (tableOk_start 1) 2 _, by decide +kernel⟩
    | b => exact ⟨tableOk_setAcInfo (tableOk_start 2) 1 _, by decide +kernel⟩
  · intro side
    unfold InRa
    cases side with
    | a => decide +kernel
    | b => decide +kernel

/-- In the second round both are in RA with data that are right, and both descend. -/
theorem both_descend :
    InConflict crossing afterFirstRound lastRound ∧
      ((roundStep crossing afterFirstRound lastRound).party .a).resolve = .descend ∧
      ((roundStep crossing afterFirstRound lastRound).party .b).resolve = .descend :=
  ⟨inConflict_lastRound, by decide +kernel⟩

end Paparazzi.Multi.TcasCoordination
