import Paparazzi.QuadSwarm.GroundStation

/-!
One quad and its two links. Packets to a quad are numbered by the command they
belong to, and the states of a quad by the command it has stored; both orders hold
on every link, so that an old packet cannot meet a quad that waits for a new one.
-/

namespace Paparazzi.QuadSwarm.LinkInvariant

open Paparazzi.Library Paparazzi.Library.FifoLink
open Paparazzi.Math.GeodeticInt
open Paparazzi.Rotorcraft.Arming
open Paparazzi.Rotorcraft.Navigation
open Paparazzi.QuadSwarm.Airborne Paparazzi.QuadSwarm.GroundStation

/-! ### The phases of an agent in NAV -/

/-- The states no target or 0xfd leads out of. -/
def dead : SwarmPhase → Bool
  | .landHere | .landed | .killed => true
  | _ => false

/-- How far a quad has come with the target it has stored. -/
def rank : SwarmPhase → Nat
  | .execCmd => 1
  | .waitCmdTakeoff | .reportState | .landHere | .landed => 2
  | _ => 0

/-- What the periodic task does to the state. -/
inductive Advances : SwarmPhase → SwarmPhase → Prop
  | same (p : SwarmPhase) : Advances p p
  | landHere (p : SwarmPhase) : Advances p .landHere
  | landed (p : SwarmPhase) : Advances p .landed
  | negotiate : Advances .init .negotiateRef
  | startEngine : Advances .waitCmd .waitCmdStartEngine
  | takeoff : Advances .waitCmdStartEngine .waitCmdTakeoff
  | reached : Advances .execCmd .reportState

namespace Advances

variable {p q : SwarmPhase}

theorem rank_le (h : Advances p q) : rank p ≤ rank q := by
  cases h with
  | same => exact Nat.le_refl _
  | landHere | landed => cases p <;> decide
  | _ => decide

theorem dead_of_dead (h : Advances p q) (hp : dead p = true) : dead q = true := by
  cases h <;> first | exact hp | rfl

/-- A state that waits for 0xfd is kept or given up. -/
theorem waitExecAck_iff (h : Advances p q) (hq : dead q = false) :
    q = .waitExecAck ↔ p = .waitExecAck := by
  cases h <;> first | exact Iff.rfl | decide | cases hq

end Advances

theorem followBlock_advances (a : Agent) :
    Advances a.quadSwarmState (followBlock a).quadSwarmState := by
  unfold followBlock
  split_ifs
  · exact .landHere _
  · exact .landed _
  · exact .same _

theorem nextPhase_advances (a : Agent) : Advances a.quadSwarmState (nextPhase a) := by
  unfold nextPhase
  cases a.quadSwarmState <;> dsimp only <;> first | exact .same _ | skip
  case init =>
    split_ifs
    · exact .negotiate
    · exact .same _
  case waitCmd =>
    split_ifs
    · exact .startEngine
    · exact .same _
  case waitCmdStartEngine =>
    split_ifs
    · exact .takeoff
    · exact .same _
  case execCmd => exact .reached

/-- The periodic task of an initialised agent in NAV: what it leaves alone, and the
one report, sent between the two changes of the state. -/
theorem quadSwarmPeriodic_nav (cfg : AgentConfig) {a : Agent}
    (hinit : a.quadSwarmInitilized = true) (hnav : a.autopilot.autopilotMode = apModeNav) :
    (quadSwarmPeriodic cfg a).1.quadSwarmInitilized = true ∧
    (quadSwarmPeriodic cfg a).1.autopilot = a.autopilot ∧
    (quadSwarmPeriodic cfg a).1.quadSwarmTarget = a.quadSwarmTarget ∧
    ∃ r, (quadSwarmPeriodic cfg a).2.filterMap Downlink.report? = [r] ∧ r.acId = cfg.acId ∧
      Advances a.quadSwarmState r.state ∧
      Advances r.state (quadSwarmPeriodic cfg a).1.quadSwarmState := by
  have hfollow : (followBlock a).quadSwarmInitilized = true ∧
      (followBlock a).autopilot = a.autopilot ∧
      (followBlock a).quadSwarmTarget = a.quadSwarmTarget := by
    unfold followBlock
    split_ifs <;> exact ⟨hinit, rfl, rfl⟩
  simp only [quadSwarmPeriodic, hinit, hnav, Bool.not_true, Bool.false_eq_true, if_false, ne_eq,
    not_true_eq_false, List.nil_append]
  refine ⟨hfollow.1, hfollow.2.1, hfollow.2.2, _, rfl, rfl, ?_, ?_⟩
  · exact followBlock_advances a
  · exact nextPhase_advances (followBlock a)

/-! ### Serial numbers -/

section

variable {n : Nat}

/-- The order in which the packets of a link were sent: the targets of a command,
then the 0xfd sent after it. -/
def Packet.serial : Packet n → Nat
  | .target t _ => 2 * t.command
  | .exec command => 2 * command + 1

def mark (stored : Nat) (phase : SwarmPhase) : Nat := 3 * stored + rank phase

def Quad.mark (q : Quad n) : Nat := LinkInvariant.mark q.storedCommand q.agent.quadSwarmState

def UpReport.mark (r : UpReport) : Nat := LinkInvariant.mark r.stored r.report.state

def Quad.stateMark (q : Quad n) : Nat := LinkInvariant.mark q.stateStored q.state

/-- The least serial number that may still be on its way to a quad. -/
def lowest (phase : SwarmPhase) (stored : Nat) : Nat :=
  if phase = .waitExecAck then 2 * stored else 2 * stored + 1

/-- The invariant of one quad with its links, when packets up to `highest` have
been sent and the running command is `command`. -/
structure QuadInv (highest command : Nat) (target : Fin (n + 1) → Target n) (i : Fin (n + 1))
    (q : Quad n) : Prop where
  init : q.agent.quadSwarmInitilized = true
  nav : q.agent.autopilot.autopilotMode = apModeNav
  down_inOrder : InOrder Packet.serial q.down
  down_le : ∀ p ∈ q.down, Packet.serial p ≤ highest
  lowest_le : dead q.agent.quadSwarmState = false →
    lowest q.agent.quadSwarmState q.storedCommand ≤ highest
  down_new : dead q.agent.quadSwarmState = false →
    ∀ p ∈ q.down, lowest q.agent.quadSwarmState q.storedCommand ≤ Packet.serial p
  down_begun : ∀ t b, Packet.target t b ∈ q.down → 3 * t.command ≤ Quad.mark q + 1
  down_target : ∀ t b, Packet.target t b ∈ q.down →
    (t.command = command → t = target t.quad) ∧ (t.quad = i ∨ b = true ∧ i = leader)
  stored_own : ∀ t, q.stored = some t → t.quad = i ∧ t.pos = q.agent.quadSwarmTarget
  stored_target : ∀ t, q.stored = some t →
    t.command ≤ command ∧ (t.command = command → t = target i)
  executed_own : ∀ t, q.executed = some t → t.quad = i
  up_inOrder : InOrder UpReport.mark q.up
  up_mark : ∀ r ∈ q.up, Quad.stateMark q ≤ UpReport.mark r ∧ UpReport.mark r ≤ Quad.mark q
  state_le : Quad.stateMark q ≤ Quad.mark q
  up_acId : ∀ r ∈ q.up, r.report.acId = acIdOf i

/-- A later state of a quad. -/
structure Later (q q' : Quad n) : Prop where
  dead : dead q.agent.quadSwarmState = true → dead q'.agent.quadSwarmState = true
  stored : q.storedCommand ≤ q'.storedCommand
  state : Quad.stateMark q ≤ Quad.stateMark q'

/-! ### One quad -/

section

variable {highest command : Nat} {target : Fin (n + 1) → Target n} {i : Fin (n + 1)} {q : Quad n}
  {cfg : AgentConfig}

theorem Later.mark_le {q q' : Quad n} (hstored : q.storedCommand = q'.storedCommand)
    (hrank : rank q.agent.quadSwarmState ≤ rank q'.agent.quadSwarmState) :
    Quad.mark q ≤ Quad.mark q' := by
  simp only [Quad.mark, mark, hstored]
  omega

theorem lowest_of_advances {p p' : SwarmPhase} {stored : Nat} (h : Advances p p')
    (hp : dead p' = false) : lowest p' stored = lowest p stored := by
  simp only [lowest, h.waitExecAck_iff hp]

theorem dead_eq_false_of_advances {p p' : SwarmPhase} (h : Advances p p') (hp : dead p' = false) :
    dead p = false := by
  by_contra hdead
  rw [h.dead_of_dead (by simpa using hdead)] at hp
  cases hp

/-- Losing packets, or receiving some twice, preserves the invariant. -/
theorem QuadInv.down {down : List (Packet n)} (h : QuadInv highest command target i q)
    (horder : InOrder Packet.serial down) (hsub : ∀ p ∈ down, p ∈ q.down) :
    QuadInv highest command target i { q with down := down } :=
  { h with
    down_inOrder := horder
    down_le := fun p hp => h.down_le p (hsub p hp)
    down_new := fun hdead p hp => h.down_new hdead p (hsub p hp)
    down_begun := fun t b hp => h.down_begun t b (hsub _ hp)
    down_target := fun t b hp => h.down_target t b (hsub _ hp) }

theorem QuadInv.up {up : List UpReport} (h : QuadInv highest command target i q)
    (horder : InOrder UpReport.mark up) (hsub : ∀ r ∈ up, r ∈ q.up) :
    QuadInv highest command target i { q with up := up } :=
  { h with
    up_inOrder := horder
    up_mark := fun r hr => h.up_mark r (hsub r hr)
    up_acId := fun r hr => h.up_acId r (hsub r hr) }

/-- The ground station records the oldest report. -/
theorem QuadInv.setState {r : UpReport} {rest : List UpReport}
    (h : QuadInv highest command target i q) (hup : q.up = r :: rest) :
    QuadInv highest command target i (({ q with up := rest }).setState r) ∧
      Later q (({ q with up := rest }).setState r) := by
  have hr := h.up_mark r (hup ▸ List.mem_cons_self)
  have horder := h.up_inOrder
  rw [hup] at horder
  constructor
  · exact
      { h with
        up_inOrder := horder.tail
        up_mark := by
          intro r' hr'
          refine ⟨horder.head_le r' hr', ?_⟩
          exact (h.up_mark r' (hup ▸ List.mem_cons_of_mem _ hr')).2
        state_le := hr.2
        up_acId := by
          intro r' hr'
          exact h.up_acId r' (hup ▸ List.mem_cons_of_mem _ hr') }
  · exact ⟨id, Nat.le_refl _, hr.1⟩

/-- The ground station sends the packet with the highest serial number. -/
theorem QuadInv.send {p : Packet n} (h : QuadInv highest command target i q)
    (hserial : Packet.serial p = highest)
    (htarget : ∀ t b, p = .target t b → 3 * t.command ≤ Quad.mark q + 1 ∧
      t = target t.quad ∧ (t.quad = i ∨ b = true ∧ i = leader)) :
    QuadInv highest command target i { q with down := q.down ++ [p] } :=
  { h with
    down_inOrder := by
      apply h.down_inOrder.send
      intro p' hp'
      rw [hserial]
      exact h.down_le p' hp'
    down_le := by
      intro p' hp'
      rcases List.mem_append.mp hp' with hp' | hp'
      · exact h.down_le p' hp'
      · exact Nat.le_of_eq ((congrArg Packet.serial (List.mem_singleton.mp hp')).trans hserial)
    down_new := by
      intro hdead p' hp'
      rcases List.mem_append.mp hp' with hp' | hp'
      · exact h.down_new hdead p' hp'
      · rw [List.mem_singleton.mp hp', hserial]
        exact h.lowest_le hdead
    down_begun := by
      intro t b hp'
      rcases List.mem_append.mp hp' with hp' | hp'
      · exact h.down_begun t b hp'
      · exact (htarget t b (List.mem_singleton.mp hp').symm).1
    down_target := by
      intro t b hp'
      rcases List.mem_append.mp hp' with hp' | hp'
      · exact h.down_target t b hp'
      · have ht := htarget t b (List.mem_singleton.mp hp').symm
        exact ⟨fun _ => ht.2.1, ht.2.2⟩ }

/-- The flight plan goes to another block. -/
theorem QuadInv.gotoBlock (h : QuadInv highest command target i q) (cfg : AgentConfig)
    (position : EnuCoorI) (b : UInt8) :
    QuadInv highest command target i
      { q with agent := Airborne.step cfg q.agent (.gotoBlock position b) } :=
  { h with }

/-- A periodic task sends one report, of a state between the old and the new. -/
theorem QuadInv.periodic (h : QuadInv highest command target i q) (hid : cfg.acId = acIdOf i) :
    QuadInv highest command target i (q.periodic cfg) ∧ Later q (q.periodic cfg) := by
  obtain ⟨hinit, hautopilot, htarget, r, hsent, hacId, hbefore, hafter⟩ :=
    quadSwarmPeriodic_nav cfg h.init h.nav
  have hadvance : ∀ p, dead (quadSwarmPeriodic cfg q.agent).1.quadSwarmState = false →
      lowest (quadSwarmPeriodic cfg q.agent).1.quadSwarmState p =
        lowest q.agent.quadSwarmState p := by
    intro p hdead
    rw [lowest_of_advances hafter hdead,
      lowest_of_advances hbefore (dead_eq_false_of_advances hafter hdead)]
  have halive : dead (quadSwarmPeriodic cfg q.agent).1.quadSwarmState = false →
      dead q.agent.quadSwarmState = false := fun hdead =>
    dead_eq_false_of_advances hbefore (dead_eq_false_of_advances hafter hdead)
  have hmark : Quad.mark q ≤ Quad.mark (q.periodic cfg) :=
    Later.mark_le rfl (Nat.le_trans hbefore.rank_le hafter.rank_le)
  have hnew : Quad.mark q ≤ UpReport.mark ⟨r, q.storedCommand⟩ := by
    have hrank := hbefore.rank_le
    simp only [Quad.mark, UpReport.mark, mark]
    omega
  have hnew' : UpReport.mark ⟨r, q.storedCommand⟩ ≤ Quad.mark (q.periodic cfg) := by
    have hrank := hafter.rank_le
    simp only [Quad.mark, UpReport.mark, mark]
    change 3 * q.storedCommand + rank r.state ≤
      3 * q.storedCommand + rank (quadSwarmPeriodic cfg q.agent).1.quadSwarmState
    omega
  have hup : (q.periodic cfg).up = q.up ++ [⟨r, q.storedCommand⟩] := by
    simp only [Quad.periodic, hsent, List.map_cons, List.map_nil]
  constructor
  · exact
      { h with
        init := hinit
        nav := by
          change (quadSwarmPeriodic cfg q.agent).1.autopilot.autopilotMode = apModeNav
          rw [hautopilot]
          exact h.nav
        lowest_le := by
          intro hdead
          refine le_of_eq_of_le (hadvance _ hdead) ?_
          exact h.lowest_le (halive hdead)
        down_new := by
          intro hdead p hp
          refine le_of_eq_of_le (hadvance _ hdead) ?_
          exact h.down_new (halive hdead) p hp
        down_begun := by
          intro t b hp
          have hbegun := h.down_begun t b hp
          omega
        stored_own := by
          intro t ht
          refine ⟨(h.stored_own t ht).1, (h.stored_own t ht).2.trans ?_⟩
          exact htarget.symm
        up_inOrder := by
          rw [hup]
          apply h.up_inOrder.send
          intro r' hr'
          have hr' := (h.up_mark r' hr').2
          omega
        up_mark := by
          intro r' hr'
          rw [hup] at hr'
          have hstate : Quad.stateMark (q.periodic cfg) = Quad.stateMark q := rfl
          rcases List.mem_append.mp hr' with hr' | hr'
          · have hr' := h.up_mark r' hr'
            omega
          · have hle := h.state_le
            rw [List.mem_singleton.mp hr']
            omega
        state_le := Nat.le_trans h.state_le hmark
        up_acId := by
          intro r' hr'
          rw [hup] at hr'
          rcases List.mem_append.mp hr' with hr' | hr'
          · exact h.up_acId r' hr'
          · rw [List.mem_singleton.mp hr']
            exact hacId.trans hid }
  · refine ⟨?_, Nat.le_refl _, Nat.le_refl _⟩
    intro hdead
    exact hafter.dead_of_dead (hbefore.dead_of_dead hdead)

theorem accepts_alive {p : SwarmPhase} (h : acceptsTarget p = true) :
    dead p = false ∧ p ≠ .waitExecAck := by
  cases p <;> first | decide | exact absurd h (by decide)

theorem rank_of_refused {p : SwarmPhase} (h : acceptsTarget p = false) (hp : dead p = false) :
    rank p ≤ 1 := by
  cases p <;> first | decide | exact absurd h (by decide) | exact absurd hp (by decide)

/-- A quad that does not take a target of a command has that command's already, or
takes none any more. -/
theorem QuadInv.stored_of_refused {t : Target n} {b : Bool}
    (h : QuadInv highest command target i q) (ht : Packet.target t b ∈ q.down)
    (hrefuse : acceptsTarget q.agent.quadSwarmState = false) :
    dead q.agent.quadSwarmState = true ∨ t.command ≤ q.storedCommand := by
  by_cases hdead : dead q.agent.quadSwarmState = true
  · exact Or.inl hdead
  · have hbegun := h.down_begun t b ht
    have hrank := rank_of_refused hrefuse (by simpa using hdead)
    simp only [Quad.mark, mark] at hbegun
    exact Or.inr (by omega)

/-- A target still to be taken is newer than the one stored. -/
theorem QuadInv.stored_lt_of_accepted {t : Target n} {b : Bool}
    (h : QuadInv highest command target i q) (ht : Packet.target t b ∈ q.down)
    (haccept : acceptsTarget q.agent.quadSwarmState = true) :
    q.storedCommand < t.command := by
  obtain ⟨hdead, hne⟩ := accepts_alive haccept
  have hnew := h.down_new hdead _ ht
  simp only [lowest, if_neg hne, Packet.serial] at hnew
  omega

theorem QuadInv.receive_target {t : Target n} {b : Bool} {rest : List (Packet n)}
    (h : QuadInv highest command target i q) (hdown : q.down = .target t b :: rest)
    (hid : cfg.acId = acIdOf i) (hhighest : highest ≤ 2 * command + 1)
    (hown : acceptsTarget q.agent.quadSwarmState = true → t.quad = i) :
    QuadInv highest command target i (({ q with down := rest }).receive cfg i (.target t b)) ∧
      Later q (({ q with down := rest }).receive cfg i (.target t b)) := by
  have hmem : Packet.target t b ∈ q.down := hdown ▸ List.mem_cons_self
  have hrest : ∀ p ∈ rest, p ∈ q.down := fun p hp => hdown ▸ List.mem_cons_of_mem _ hp
  have horder := h.down_inOrder
  rw [hdown] at horder
  by_cases haccept : acceptsTarget q.agent.quadSwarmState = true
  · have hquad : ({ q with down := rest }).receive cfg i (.target t b) =
        { q with
          agent := { q.agent with quadSwarmTarget := t.pos, quadSwarmState := .waitExecAck }
          down := rest
          stored := some t } := by
      simp [Quad.receive, Packet.frame, process, quadSwarmDatalink, hid, haccept]
    have hlt := h.stored_lt_of_accepted hmem haccept
    have hserial : 2 * t.command ≤ highest := h.down_le _ hmem
    have hmark : Quad.mark q ≤ 3 * t.command := by
      have hrank : rank q.agent.quadSwarmState ≤ 2 := by
        cases q.agent.quadSwarmState <;> decide
      simp only [Quad.mark, mark]
      omega
    have htarget := h.down_target t b hmem
    rw [hquad]
    constructor
    · exact
        { h with
          down_inOrder := horder.tail
          down_le := fun p hp => h.down_le p (hrest p hp)
          lowest_le := fun _ => hserial
          down_new := fun _ p hp => horder.head_le p hp
          down_begun := by
            intro t' b' hp
            have hbegun := h.down_begun t' b' (hrest _ hp)
            exact Nat.le_trans hbegun (Nat.add_le_add_right hmark 1)
          down_target := fun t' b' hp => h.down_target t' b' (hrest _ hp)
          stored_own := by
            intro t' ht'
            cases ht'
            exact ⟨hown haccept, rfl⟩
          stored_target := by
            intro t' ht'
            cases ht'
            refine ⟨by omega, fun hcommand => ?_⟩
            rw [← hown haccept]
            exact htarget.1 hcommand
          up_mark := fun r hr => ⟨(h.up_mark r hr).1, Nat.le_trans (h.up_mark r hr).2 hmark⟩
          state_le := Nat.le_trans h.state_le hmark }
    · refine ⟨fun hdead => ?_, Nat.le_of_lt hlt, Nat.le_refl _⟩
      rw [(accepts_alive haccept).1] at hdead
      cases hdead
  · have hquad : ({ q with down := rest }).receive cfg i (.target t b) = { q with down := rest } := by
      simp [Quad.receive, Packet.frame, process, quadSwarmDatalink, haccept]
    rw [hquad]
    exact ⟨h.down horder.tail hrest, ⟨id, Nat.le_refl _, Nat.le_refl _⟩⟩

theorem QuadInv.receive_exec {c : Nat} {rest : List (Packet n)}
    (h : QuadInv highest command target i q) (cfg : AgentConfig) (hdown : q.down = .exec c :: rest) :
    QuadInv highest command target i (({ q with down := rest }).receive cfg i (.exec c)) ∧
      Later q (({ q with down := rest }).receive cfg i (.exec c)) := by
  have hmem : Packet.exec c ∈ q.down := hdown ▸ List.mem_cons_self
  have hrest : ∀ p ∈ rest, p ∈ q.down := fun p hp => hdown ▸ List.mem_cons_of_mem _ hp
  have horder := h.down_inOrder
  rw [hdown] at horder
  by_cases hwait : q.agent.quadSwarmState = .waitExecAck
  · have hquad : ({ q with down := rest }).receive cfg i (.exec c) =
        { q with
          agent := quadSwarmTargetToWaypoint { q.agent with quadSwarmState := .execCmd }
          down := rest
          executed := q.stored } := by
      simp [Quad.receive, Packet.frame, process, quadSwarmAckDatalink, hwait]
    have hnew := h.down_new (by rw [hwait]; rfl) _ hmem
    simp only [lowest, hwait, if_true, Packet.serial] at hnew
    have hserial : 2 * c + 1 ≤ highest := h.down_le _ hmem
    have hmark : Quad.mark q ≤ mark q.storedCommand .execCmd := by
      simp only [Quad.mark, hwait, mark, rank]
      omega
    have hlowest : lowest .execCmd q.storedCommand ≤ 2 * c + 1 := by
      simp only [lowest, reduceCtorEq, if_false]
      omega
    rw [hquad]
    constructor
    · exact
        { h with
          down_inOrder := horder.tail
          down_le := fun p hp => h.down_le p (hrest p hp)
          lowest_le := fun _ => Nat.le_trans hlowest hserial
          down_new := fun _ p hp => Nat.le_trans hlowest (horder.head_le p hp)
          down_begun := by
            intro t b hp
            have hbegun := h.down_begun t b (hrest _ hp)
            exact Nat.le_trans hbegun (Nat.add_le_add_right hmark 1)
          down_target := fun t b hp => h.down_target t b (hrest _ hp)
          executed_own := fun t ht => (h.stored_own t ht).1
          up_mark := fun r hr => ⟨(h.up_mark r hr).1, Nat.le_trans (h.up_mark r hr).2 hmark⟩
          state_le := Nat.le_trans h.state_le hmark }
    · refine ⟨fun hdead => ?_, Nat.le_refl _, Nat.le_refl _⟩
      rw [hwait] at hdead
      cases hdead
  · have hquad : ({ q with down := rest }).receive cfg i (.exec c) = { q with down := rest } := by
      simp [Quad.receive, Packet.frame, process, quadSwarmAckDatalink, hwait]
    rw [hquad]
    exact ⟨h.down horder.tail hrest, ⟨id, Nat.le_refl _, Nat.le_refl _⟩⟩

/-- The ground station goes on: more may be sent, and targets are computed anew. -/
theorem QuadInv.proceed {highest' command' : Nat} {target' : Fin (n + 1) → Target n}
    (h : QuadInv highest command target i q) (hhighest : highest ≤ highest')
    (hcommand : command ≤ command') (htwo : 2 * command ≤ highest)
    (htarget : ∀ t : Target n, 2 * t.command ≤ highest →
      (t.command = command → t = target t.quad) → t.command = command' → t = target' t.quad) :
    QuadInv highest' command' target' i q :=
  { h with
    down_le := fun p hp => Nat.le_trans (h.down_le p hp) hhighest
    lowest_le := fun hdead => Nat.le_trans (h.lowest_le hdead) hhighest
    down_target := by
      intro t b hp
      refine ⟨htarget t (h.down_le _ hp) (h.down_target t b hp).1, (h.down_target t b hp).2⟩
    stored_target := by
      intro t ht
      have hown := (h.stored_own t ht).1
      have hstored := h.stored_target t ht
      refine ⟨Nat.le_trans hstored.1 hcommand, ?_⟩
      have hnew := htarget t (by omega) (by rw [hown]; exact hstored.2)
      rw [hown] at hnew
      exact hnew }

end

end

end Paparazzi.QuadSwarm.LinkInvariant
