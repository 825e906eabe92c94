import Mathlib
import Paparazzi.Library.Numerals
import Paparazzi.Library.Liveness
import Paparazzi.QuadSwarm.InitThread

/-!
The phase of `wait_all_quads` that waits for the execution of the command: 0xfd is sent every two
seconds, to whichever quad the loop has come to when the time has elapsed.
-/

namespace Paparazzi.QuadSwarm.ExecuteAcks

open Paparazzi.Library.Liveness
open Paparazzi.Library.RoundRobin
open Paparazzi.QuadSwarm.GroundStation (quadAt)
open Paparazzi.QuadSwarm.InitThread (IsThread quadAt_of_ge)
open Paparazzi.QuadSwarm.WaitAllQuads

attribute [local instance] Library.Numerals.neZero_two

section

variable {n : Nat}

/-- The endless run of a thread that begins with `wait_all_quads(SWARM_EXEC_CMD)`. -/
def execTrace (state : Fin (n + 1) → SwarmState) (timestamp : Fin (n + 1) → UInt64)
    (received : Fin (n + 1) → Nat) (rest : List SwarmState) (ω : Nat → Event n) : Nat → World n :=
  trace step (begin state timestamp received (swarmExecCmd :: rest)) ω

/-- The quads to which something was sent, in order. -/
def served (x : World n) : List (Fin (n + 1)) := x.sent.map Sent.quad

/-! ### What is asked -/

section

variable (x : Nat → World n) (i : Fin (n + 1))

/-- The execute acknowledgement is sent to the quad at time `t`. -/
def SendsAck (t : Nat) : Prop :=
  ∃ s, (x (t + 1)).sent = (x t).sent ++ [⟨i, .sendAck 0xfd, s⟩]

/-- It is sent again and again, and between two times at most as many are sent to the others as
there are others. -/
structure Served : Prop where
  again : Recurs (SendsAck x i)
  inTurn : ∀ t p q, p < q → (served (x t))[p]? = some i → (served (x t))[q]? = some i →
    (∀ r, p < r → r < q → (served (x t))[r]? ≠ some i) → q - (p + 1) ≤ n

end

/-! ### When it is so -/

/-- Each bound is passed by the readings of the clock from some time on. -/
def ClockRuns (x : Nat → World n) (ω : Nat → Event n) : Prop :=
  ∀ bound, Stays fun t => ∀ now k quadState,
    ω t = .thread now → (x t).pc = .readTime k quadState → bound < now

/-- A reading that finds the time elapsed is for a quad that is not among the last `n` served. -/
def TakesTurns (x : World n) (e : Event n) : Prop :=
  ∀ now i quadState, e = .thread now → x.pc = .readTime (i : Fin (n + 1)) quadState →
    x.lastTime + 2 < now → ∀ p, (served x)[p]? = some i → p + n < (served x).length

/-! ### Steps -/

/-- Where the thread can be, when quad `i` is in neither of the states that end the phase. -/
def InPhase (i : Fin (n + 1)) : Pc → Prop
  | .start => True
  | .check k => k ≤ i
  | .checkReport k => k ≤ i
  | .visit _ => True
  | .readTime k _ => k ≤ n
  | .command k => k ≤ n
  | _ => False

/-- How many steps the thread is at most from a command, if the time has elapsed. -/
def stepsAhead (n : Nat) : Pc → Nat
  | .start => 2 * n + 9
  | .check k => 2 * n + 8 - k
  | .checkReport k => n + 5 - k
  | .visit k => if k ≤ n then 2 else 2 * n + 9
  | .readTime _ _ => 1
  | _ => 0

theorem quadAt_of_lt {k : Nat} (hk : k < n + 1) : quadAt k = some (⟨k, hk⟩ : Fin (n + 1)) :=
  dif_pos hk

theorem stepsAhead_visit {k : Nat} (hk : k ≤ n) : stepsAhead n (.visit k) = 2 := if_pos hk

theorem stepsAhead_visited {k : Nat} (hk : n < k) : stepsAhead n (.visit k) = 2 * n + 9 :=
  if_neg (Nat.not_le.mpr hk)

theorem bodyStart_execCmd : bodyStart swarmExecCmd = .visit 0 := by decide

/-- A step of the thread in the phase. -/
inductive ExecMove (now : Nat) (i : Fin (n + 1)) (x : World n) : World n → Prop
  | start (hpc : x.pc = .start) :
      ExecMove now i x { x with lastTimestamp := fun _ => 0, lastTime := now, pc := .check 0 }
  | quiet (pc : Pc) (hpc : InPhase i pc) (hstart : pc ≠ .start) (hcommand : ∀ k, pc ≠ .command k)
      (hahead : stepsAhead n pc < stepsAhead n x.pc) : ExecMove now i x { x with pc := pc }
  | wait (k : Nat) (quadState : SwarmState) (hpc : x.pc = .readTime k quadState)
      (hearly : ¬x.lastTime + 2 < now) : ExecMove now i x { x with pc := .visit (k + 1) }
  | elapsed (j : Fin (n + 1)) (quadState : SwarmState) (hpc : x.pc = .readTime j quadState)
      (helapsed : x.lastTime + 2 < now) :
      ExecMove now i x { x with lastTime := now, pc := .command j }
  | send (j : Fin (n + 1)) (hpc : x.pc = .command j) :
      ExecMove now i x
        { x with
          sent := x.sent ++ [⟨j, .sendAck 0xfd, x.state j⟩]
          pc := .visit (j + 1) }

/-- The test on the state of the quad excludes nothing. -/
theorem guard_holds (quadState : SwarmState) :
    quadState ≠ swarmExecCmd ∨ quadState ≠ swarmReportState := by
  rcases eq_or_ne quadState swarmExecCmd with rfl | hne
  · exact Or.inr (by decide)
  · exact Or.inl hne

theorem execMove {i : Fin (n + 1)} {x : World n} {rest : List SwarmState}
    (hwaits : x.waits = swarmExecCmd :: rest) (hpc : InPhase i x.pc)
    (hstate : x.state i = swarmWaitExecAck) (now : Nat) :
    ExecMove now i x (threadStep now x) := by
  have hstep : threadStep now x = waitStep now swarmExecCmd x := by
    rw [threadStep, hwaits]
  rw [hstep, waitStep]
  cases hx : x.pc with
  | start => exact .start hx
  | check k =>
      rw [hx] at hpc
      have hk : k < n + 1 := Nat.lt_of_le_of_lt hpc i.isLt
      dsimp only
      rw [quadAt_of_lt hk]
      dsimp only
      rw [if_pos (rfl : swarmExecCmd = swarmExecCmd)]
      split_ifs with hexec
      · -- Quad `i` is not in this state.
        have hne : k ≠ i := by
          rintro rfl
          rw [hstate] at hexec
          exact absurd hexec (by decide)
        refine .quiet _ (Nat.lt_of_le_of_ne hpc hne) (by rintro ⟨⟩) (by rintro _ ⟨⟩) ?_
        simp only [hx, stepsAhead]
        omega
      · refine .quiet _ (Nat.zero_le _) (by rintro ⟨⟩) (by rintro _ ⟨⟩) ?_
        simp only [hx, stepsAhead]
        omega
  | checkReport k =>
      rw [hx] at hpc
      have hk : k < n + 1 := Nat.lt_of_le_of_lt hpc i.isLt
      dsimp only
      rw [quadAt_of_lt hk]
      dsimp only
      split_ifs with hreport
      · have hne : k ≠ i := by
          rintro rfl
          rw [hstate] at hreport
          exact absurd hreport (by decide)
        refine .quiet _ (Nat.lt_of_le_of_ne hpc hne) (by rintro ⟨⟩) (by rintro _ ⟨⟩) ?_
        simp only [hx, stepsAhead]
        omega
      · rw [bodyStart_execCmd]
        refine .quiet _ trivial (by rintro ⟨⟩) (by rintro _ ⟨⟩) ?_
        rw [hx, stepsAhead_visit (Nat.zero_le n), stepsAhead]
        omega
  | visit k =>
      dsimp only
      rcases Nat.lt_or_ge k (n + 1) with hk | hk
      · rw [quadAt_of_lt hk]
        dsimp only
        refine .quiet _ (Nat.le_of_lt_succ hk) (by rintro ⟨⟩) (by rintro _ ⟨⟩) ?_
        rw [hx, stepsAhead_visit (Nat.le_of_lt_succ hk)]
        exact Nat.one_lt_two
      · rw [quadAt_of_ge hk]
        refine .quiet _ (Nat.zero_le _) (by rintro ⟨⟩) (by rintro _ ⟨⟩) ?_
        rw [hx, stepsAhead_visited hk]
        exact Nat.lt_succ_self _
  | readTime k quadState =>
      rw [hx] at hpc
      have hk : k < n + 1 := Nat.lt_succ_of_le hpc
      dsimp only
      rw [quadAt_of_lt hk]
      dsimp only
      split_ifs with htime
      · exact .elapsed ⟨k, hk⟩ quadState hx htime.2
      · exact .wait k quadState hx fun helapsed => htime ⟨guard_holds quadState, helapsed⟩
  | command k =>
      rw [hx] at hpc
      have hk : k < n + 1 := Nat.lt_succ_of_le hpc
      dsimp only
      rw [quadAt_of_lt hk]
      exact .send ⟨k, hk⟩ hx
  | readStamp k => exact absurd hpc (by rw [hx]; exact id)
  | readState k => exact absurd hpc (by rw [hx]; exact id)
  | readStateAgain k => exact absurd hpc (by rw [hx]; exact id)
  | stamp k => exact absurd hpc (by rw [hx]; exact id)

/-! ### Runs -/

/-- A run of the phase in which quad `i` stays where it is. -/
structure ExecRun (rest : List SwarmState) (ω : Nat → Event n) (i : Fin (n + 1))
    (x : Nat → World n) : Prop where
  waits : (x 0).waits = swarmExecCmd :: rest
  pc : (x 0).pc = .start
  sent : (x 0).sent = []
  succ : ∀ t, x (t + 1) = step (x t) (ω t)
  stays : ∀ t, (x t).state i = swarmWaitExecAck

section

variable {rest : List SwarmState} {ω : Nat → Event n} {i : Fin (n + 1)} {x : Nat → World n}

/-- What a report leaves as it is. -/
theorem ExecRun.report (h : ExecRun rest ω i x) {t : Nat} {j : Fin (n + 1)} {s : SwarmState}
    (he : ω t = .report j s) :
    (x (t + 1)).waits = (x t).waits ∧ (x (t + 1)).pc = (x t).pc ∧ (x (t + 1)).sent = (x t).sent ∧
      (x (t + 1)).lastTime = (x t).lastTime := by
  rw [h.succ, he]
  exact ⟨rfl, rfl, rfl, rfl⟩

theorem ExecRun.inPhase (h : ExecRun rest ω i x) (t : Nat) :
    (x t).waits = swarmExecCmd :: rest ∧ InPhase i (x t).pc := by
  induction t with
  | zero =>
      rw [h.pc]
      exact ⟨h.waits, trivial⟩
  | succ t ih =>
      cases he : ω t with
      | report j s =>
          obtain ⟨hwaits, hpc, -, -⟩ := h.report he
          rw [hwaits, hpc]
          exact ih
      | thread now =>
          have hmove := execMove ih.1 ih.2 (h.stays t) now
          rw [h.succ, he]
          change (threadStep now (x t)).waits = _ ∧ InPhase i (threadStep now (x t)).pc
          generalize threadStep now (x t) = x' at hmove ⊢
          cases hmove with
          | start hpc => exact ⟨ih.1, Nat.zero_le _⟩
          | quiet pc hpc hstart hcommand hahead => exact ⟨ih.1, hpc⟩
          | wait k quadState hpc hearly => exact ⟨ih.1, trivial⟩
          | elapsed j quadState hpc helapsed => exact ⟨ih.1, Nat.le_of_lt_succ j.isLt⟩
          | send j hpc => exact ⟨ih.1, trivial⟩

theorem ExecRun.move (h : ExecRun rest ω i x) {t now : Nat} (he : ω t = .thread now) :
    ∃ y, x (t + 1) = y ∧ ExecMove now i (x t) y := by
  obtain ⟨hwaits, hpc⟩ := h.inPhase t
  rw [h.succ, he]
  exact ⟨_, rfl, execMove hwaits hpc (h.stays t) now⟩

theorem ExecRun.sent_succ (h : ExecRun rest ω i x) (t : Nat) :
    (x (t + 1)).sent = (x t).sent ∨ ∃ j : Fin (n + 1), (x t).pc = .command j ∧
      (x (t + 1)).sent = (x t).sent ++ [⟨j, .sendAck 0xfd, (x t).state j⟩] := by
  cases he : ω t with
  | report j s => exact Or.inl (h.report he).2.2.1
  | thread now =>
      obtain ⟨y, hy, hmove⟩ := h.move he
      rw [hy]
      cases hmove with
      | start hpc => exact Or.inl rfl
      | quiet pc hpc hstart hcommand hahead => exact Or.inl rfl
      | wait k quadState hpc hearly => exact Or.inl rfl
      | elapsed j quadState hpc helapsed => exact Or.inl rfl
      | send j hpc => exact Or.inr ⟨j, hpc, rfl⟩

theorem ExecRun.sent_isPrefix (h : ExecRun rest ω i x) {t t' : Nat} (hle : t ≤ t') :
    (x t).sent <+: (x t').sent := by
  induction t', hle using Nat.le_induction with
  | base => exact List.prefix_rfl
  | succ t' hle ih =>
      rcases h.sent_succ t' with hsame | ⟨j, -, hsent⟩
      · rwa [hsame]
      · rw [hsent]
        exact ih.trans (List.prefix_append _ _)

theorem ExecRun.length_mono (h : ExecRun rest ω i x) {t t' : Nat} (hle : t ≤ t') :
    (x t).sent.length ≤ (x t').sent.length := (h.sent_isPrefix hle).length_le

/-- What stands in the list from a place on was sent from the time on when it was so long. -/
theorem ExecRun.exists_sendsAck (h : ExecRun rest ω i x) {t₀ t r : Nat} {j : Fin (n + 1)}
    (hr : (served (x t))[r]? = some j) (hle : (x t₀).sent.length ≤ r) :
    ∃ t', t₀ ≤ t' ∧ SendsAck x j t' := by
  induction t with
  | zero =>
      rw [served, h.sent] at hr
      exact nomatch hr
  | succ t ih =>
      have hlt := (List.getElem?_eq_some_iff.mp hr).1
      rw [served, List.length_map] at hlt
      rcases h.sent_succ t with hsame | ⟨j', -, hsent⟩
      · rw [served, hsame] at hr
        exact ih hr
      · rw [served, hsent, List.map_append] at hr
        rw [hsent, List.length_append, List.length_singleton] at hlt
        rcases Nat.lt_or_ge r (x t).sent.length with hold | hnew
        · rw [List.getElem?_append_left (by rw [List.length_map]; exact hold)] at hr
          exact ih hr
        · have hlen : r = ((x t).sent.map Sent.quad).length := by
            rw [List.length_map]
            omega
          rw [hlen, List.map_singleton, List.getElem?_concat_length] at hr
          obtain rfl := Option.some.inj hr
          refine ⟨t, ?_, _, hsent⟩
          by_contra hbefore
          have hmono := h.length_mono (Nat.not_le.mp hbefore)
          rw [hsent, List.length_append, List.length_singleton] at hmono
          omega

/-! ### Turns -/

/-- The acknowledgements are spaced, and the next one keeps them so. -/
def InTurn (y : World n) : Prop :=
  Spaced (served y) ∧ ∀ j : Fin (n + 1), y.pc = .command j →
    ∀ p, (served y)[p]? = some j → p + n < (served y).length

theorem ExecRun.inTurn (h : ExecRun rest ω i x) (hturns : ∀ t, TakesTurns (x t) (ω t)) (t : Nat) :
    InTurn (x t) := by
  induction t with
  | zero =>
      rw [InTurn, served, h.sent]
      exact ⟨spaced_nil, fun j _ p hp => nomatch hp⟩
  | succ t ih =>
      obtain ⟨hspaced, hnext⟩ := ih
      cases he : ω t with
      | report j s =>
          obtain ⟨-, hpc, hsent, -⟩ := h.report he
          rw [InTurn, served, hpc, hsent]
          exact ⟨hspaced, hnext⟩
      | thread now =>
          have hturn := hturns t now
          obtain ⟨y, hy, hmove⟩ := h.move he
          rw [hy]
          cases hmove with
          | start hpc => exact ⟨hspaced, fun j hj => nomatch hj⟩
          | quiet pc hpc hstart hcommand hahead =>
              exact ⟨hspaced, fun j hj => absurd hj (hcommand j)⟩
          | wait k quadState hpc hearly => exact ⟨hspaced, fun j hj => nomatch hj⟩
          | elapsed j quadState hpc helapsed =>
              refine ⟨hspaced, fun j' hj' => ?_⟩
              obtain rfl : j = j' := Fin.ext (Pc.command.inj hj')
              exact hturn j quadState he hpc helapsed
          | send j hpc =>
              refine ⟨?_, fun j hj => nomatch hj⟩
              rw [served, List.map_append]
              exact hspaced.concat (hnext j hpc)

/-! ### Progress -/

theorem ExecRun.pc_ne_start (h : ExecRun rest ω i x) {t now : Nat} (he : ω t = .thread now) :
    (x (t + 1)).pc ≠ .start := by
  obtain ⟨y, hy, hmove⟩ := h.move he
  rw [hy]
  cases hmove with
  | start hpc => exact nofun
  | quiet pc hpc hstart hcommand hahead => exact hstart
  | wait k quadState hpc hearly => exact nofun
  | elapsed j quadState hpc helapsed => exact nofun
  | send j hpc => exact nofun

/-- The timer is set at the start and by an acknowledgement that is due. -/
theorem ExecRun.lastTime_of_started (h : ExecRun rest ω i x) {t₁ t : Nat}
    (hstart : (x t₁).pc ≠ .start) (hle : t₁ ≤ t) :
    (x t).pc ≠ .start ∧ ((x t₁).sent.length < (x t).sent.length ∨
      (x t).lastTime = (x t₁).lastTime ∨ ∃ j : Fin (n + 1), (x t).pc = .command j) := by
  induction t, hle using Nat.le_induction with
  | base => exact ⟨hstart, Or.inr (Or.inl rfl)⟩
  | succ t hle ih =>
      obtain ⟨hgone, hcases⟩ := ih
      cases he : ω t with
      | report j s =>
          obtain ⟨-, hpc, hsent, htime⟩ := h.report he
          rw [hpc, hsent, htime]
          exact ⟨hgone, hcases⟩
      | thread now =>
          refine ⟨h.pc_ne_start he, ?_⟩
          have hlength := h.length_mono hle
          have hmono := h.length_mono (Nat.le_succ t)
          obtain ⟨y, hy, hmove⟩ := h.move he
          rw [hy] at hmono ⊢
          rcases hcases with hmore | htime | ⟨j', hj'⟩
          · exact Or.inl (hmore.trans_le hmono)
          · cases hmove with
            | start hpc => exact absurd hpc hgone
            | quiet pc hpc hstart hcommand hahead => exact Or.inr (Or.inl htime)
            | wait k quadState hpc hearly => exact Or.inr (Or.inl htime)
            | elapsed j quadState hpc helapsed => exact Or.inr (Or.inr ⟨j, rfl⟩)
            | send j hpc =>
                rw [List.length_append, List.length_singleton]
                exact Or.inl (Nat.lt_succ_of_le hlength)
          · cases hmove with
            | start hpc => exact absurd hpc hgone
            | quiet pc hpc hstart hcommand hahead =>
                rw [hj'] at hahead
                exact absurd hahead (Nat.not_lt_zero _)
            | wait k quadState hpc hearly => exact absurd (hj'.symm.trans hpc) nofun
            | elapsed j quadState hpc helapsed => exact absurd (hj'.symm.trans hpc) nofun
            | send j hpc =>
                rw [List.length_append, List.length_singleton]
                exact Or.inl (Nat.lt_succ_of_le hlength)

/-- While the timer stays and the clock is past it, the thread gets on towards a command. -/
theorem ExecRun.closer (h : ExecRun rest ω i x) {t now length lastTime : Nat}
    (he : ω t = .thread now) (hlength : length ≤ (x t).sent.length)
    (htimer : (x t).lastTime = lastTime ∨ ∃ j : Fin (n + 1), (x t).pc = .command j)
    (hlate : ∀ k quadState, (x t).pc = .readTime k quadState → lastTime + 2 < now) :
    stepsAhead n (x (t + 1)).pc < stepsAhead n (x t).pc ∨ length < (x (t + 1)).sent.length := by
  obtain ⟨y, hy, hmove⟩ := h.move he
  rw [hy]
  cases hmove with
  | start hpc =>
      left
      rw [hpc]
      exact Nat.lt_succ_self _
  | quiet pc hpc hstart hcommand hahead => exact Or.inl hahead
  | wait k quadState hpc hearly =>
      rcases htimer with htime | ⟨j, hj⟩
      · rw [htime] at hearly
        exact absurd (hlate k quadState hpc) hearly
      · exact absurd (hj.symm.trans hpc) nofun
  | elapsed j quadState hpc helapsed =>
      left
      rw [hpc]
      exact Nat.zero_lt_one
  | send j hpc =>
      right
      rw [List.length_append, List.length_singleton]
      exact Nat.lt_succ_of_le hlength

/-- After the start there is always one more acknowledgement. -/
theorem ExecRun.exists_longer (h : ExecRun rest ω i x) (hfair : Recurs fun t => IsThread (ω t))
    (hclock : ClockRuns x ω) {t₁ : Nat} (hstart : (x t₁).pc ≠ .start) :
    ∃ t, (x t₁).sent.length < (x t).sent.length := by
  obtain ⟨t₂, hlate⟩ := hclock ((x t₁).lastTime + 2)
  have hcloser : ∀ t now, max t₁ t₂ ≤ t → ω t = .thread now →
      ¬(x t₁).sent.length < (x t).sent.length →
        stepsAhead n (x (t + 1)).pc < stepsAhead n (x t).pc ∨
          (x t₁).sent.length < (x (t + 1)).sent.length := by
    intro t now ht he hnot
    have hle : t₁ ≤ t := by omega
    exact h.closer he (h.length_mono hle) ((h.lastTime_of_started hstart hle).2.resolve_left hnot)
      fun k quadState hpc => hlate t (by omega) now k quadState he hpc
  refine @eventually_of_rank _ x (fun y => (x t₁).sent.length < y.sent.length)
    (fun y => stepsAhead n y.pc) _ (max t₁ t₂) hfair ?_ ?_
  · rintro t ht hnot
    cases he : ω t with
    | report j s =>
        rw [(h.report he).2.1]
        exact Or.inl (Nat.le_refl _)
    | thread now => exact (hcloser t now ht he hnot).imp_left Nat.le_of_lt
  · rintro t ht hnot hthread
    cases he : ω t with
    | report j s =>
        rw [he] at hthread
        exact hthread.elim
    | thread now => exact hcloser t now ht he hnot

theorem ExecRun.exists_length (h : ExecRun rest ω i x) (hfair : Recurs fun t => IsThread (ω t))
    (hclock : ClockRuns x ω) (length : Nat) :
    ∃ t, (x t).pc ≠ .start ∧ length ≤ (x t).sent.length := by
  induction length with
  | zero =>
      obtain ⟨t, -, hthread⟩ := hfair 0
      cases he : ω t with
      | report j s =>
          rw [he] at hthread
          exact hthread.elim
      | thread now => exact ⟨t + 1, h.pc_ne_start he, Nat.zero_le _⟩
  | succ length ih =>
      obtain ⟨t, hstart, hlength⟩ := ih
      obtain ⟨t', hlonger⟩ := h.exists_longer hfair hclock hstart
      have hle : t ≤ t' := by
        by_contra hbefore
        exact Nat.not_lt.mpr (h.length_mono (Nat.le_of_not_le hbefore)) hlonger
      exact ⟨t', (h.lastTime_of_started hstart hle).1, by omega⟩

theorem ExecRun.served (h : ExecRun rest ω i x) (hfair : Recurs fun t => IsThread (ω t))
    (hclock : ClockRuns x ω) (hturns : ∀ t, TakesTurns (x t) (ω t)) : Served x i where
  again t₀ := by
    obtain ⟨t, -, hlength⟩ := h.exists_length hfair hclock ((x t₀).sent.length + n + 1)
    obtain ⟨r, hle, -, hr⟩ := (h.inTurn hturns t).1.exists_turn
      (p := (x t₀).sent.length) (by rw [ExecuteAcks.served, List.length_map]; omega) i
    exact h.exists_sendsAck hr hle
  inTurn t p q hlt hp hq hbetween := by
    have hgap := (h.inTurn hturns t).1.gap_le (List.getElem?_eq_some_iff.mp hq).1 hbetween
    omega

end

end

/-- If the clock runs on, and whenever the time has elapsed it is the turn of a quad that is not
among the last served, every quad that stays in WAIT_EXEC_ACK is served in turn. -/
theorem served_of_takesTurns {n : Nat} (state : Fin (n + 1) → SwarmState)
    (timestamp : Fin (n + 1) → UInt64) (received : Fin (n + 1) → Nat) (rest : List SwarmState)
    (ω : Nat → Event n) (quads : Set (Fin (n + 1))) (hfair : Recurs fun t => IsThread (ω t))
    (hstays : ∀ i ∈ quads, ∀ t,
      (execTrace state timestamp received rest ω t).state i = swarmWaitExecAck)
    (hclock : ClockRuns (execTrace state timestamp received rest ω) ω)
    (hturns : ∀ t, TakesTurns (execTrace state timestamp received rest ω t) (ω t)) :
    ∀ i ∈ quads, Served (execTrace state timestamp received rest ω) i := by
  intro i hi
  have h : ExecRun rest ω i (execTrace state timestamp received rest ω) :=
    ⟨rfl, rfl, rfl, fun _ => rfl, hstays i hi⟩
  exact h.served hfair hclock hturns

/-! ### Two quads -/

/-- Both quads wait, and the thread is in the phase. -/
def waiting (pc : Pc) (lastTime : Nat) (sent : List (Sent 1)) : World 1 :=
  { state := fun _ => swarmWaitExecAck, timestamp := fun _ => 0, waits := [swarmExecCmd], pc := pc
    lastTimestamp := fun _ => 0, lastTime := lastTime, received := fun _ => 0, sent := sent }

def ackTo (i : Fin 2) : Sent 1 := ⟨i, .sendAck 0xfd, swarmWaitExecAck⟩

/-- The run without reports, with a clock. -/
def quietRun (clock : Nat → Nat) : Nat → World 1 :=
  execTrace (fun _ => swarmWaitExecAck) (fun _ => 0) (fun _ => 0) [] fun t => .thread (clock t)

section

variable {clock : Nat → Nat} {t lastTime : Nat} {sent : List (Sent 1)}

theorem quietRun_succ {y : World 1} (h : quietRun clock t = y) :
    quietRun clock (t + 1) = threadStep (clock t) y := congrArg (threadStep (clock t)) h

/-- From the head of the `while` to the first reading. -/
theorem quietRun_reading (h : quietRun clock t = waiting (.check 0) lastTime sent) :
    quietRun clock (t + 1) = waiting (.checkReport 0) lastTime sent ∧
      quietRun clock (t + 2) = waiting (.visit 0) lastTime sent ∧
      quietRun clock (t + 3) = waiting (.readTime 0 swarmWaitExecAck) lastTime sent :=
  ⟨quietRun_succ h, quietRun_succ (quietRun_succ h),
    quietRun_succ (quietRun_succ (quietRun_succ h))⟩

theorem quietRun_elapsed {i : Fin 2}
    (h : quietRun clock t = waiting (.readTime i swarmWaitExecAck) lastTime sent)
    (helapsed : lastTime + 2 < clock t) :
    quietRun clock (t + 1) = waiting (.command i) (clock t) sent ∧
      quietRun clock (t + 2) = waiting (.visit (i + 1)) (clock t) (sent ++ [ackTo i]) := by
  have hcommand : quietRun clock (t + 1) = waiting (.command i) (clock t) sent := by
    rw [quietRun_succ h]
    match i with
    | 0 => exact if_pos ⟨guard_holds _, helapsed⟩
    | 1 => exact if_pos ⟨guard_holds _, helapsed⟩
  refine ⟨hcommand, ?_⟩
  rw [quietRun_succ hcommand]
  match i with
  | 0 => rfl
  | 1 => rfl

theorem quietRun_wait (h : quietRun clock t = waiting (.readTime 1 swarmWaitExecAck) lastTime sent)
    (hearly : ¬lastTime + 2 < clock t) :
    quietRun clock (t + 1) = waiting (.visit 2) lastTime sent := by
  rw [quietRun_succ h]
  exact if_neg fun hdue => hearly hdue.2

theorem execRun_quietRun (i : Fin 2) :
    ExecRun [] (fun t => .thread (clock t)) i (quietRun clock) := by
  refine ⟨rfl, rfl, rfl, fun _ => rfl, fun t => ?_⟩
  induction t with
  | zero => rfl
  | succ t ih =>
      rw [quietRun_succ rfl, InitThread.state_threadStep]
      exact ih

end

/-- The clock jumps between the loops over the quads. -/
def jumpingClock (t : Nat) : Nat := if t = 0 then 0 else 3 * (t / 8 + 1)

theorem jumpingClock_eq {c r : Nat} (hr : r < 8) (hpos : 0 < 8 * c + r) :
    jumpingClock (8 * c + r) = 3 * (c + 1) := by
  rw [jumpingClock, if_neg hpos.ne', Nat.mul_add_div (by decide), Nat.div_eq_of_lt hr, Nat.add_zero]

/-- The first quad gets one acknowledgement in every loop. -/
theorem quietRun_jumping (c : Nat) :
    quietRun jumpingClock (8 * c + 1) =
      waiting (.check 0) (3 * c) (List.replicate c (ackTo 0)) := by
  induction c with
  | zero => rfl
  | succ c ih =>
      obtain ⟨-, -, hfirst⟩ := quietRun_reading ih
      have hclock : jumpingClock (8 * c + 1 + 3) = 3 * (c + 1) :=
        jumpingClock_eq (c := c) (r := 4) (by decide) (by omega)
      have hclock' : jumpingClock (8 * c + 1 + 6) = 3 * (c + 1) :=
        jumpingClock_eq (c := c) (r := 7) (by decide) (by omega)
      obtain ⟨-, hvisit⟩ := @quietRun_elapsed _ _ _ _ 0 hfirst (by rw [hclock]; omega)
      rw [hclock] at hvisit
      have hsecond : quietRun jumpingClock (8 * c + 1 + 6) =
          waiting (.readTime 1 swarmWaitExecAck) (3 * (c + 1))
            (List.replicate c (ackTo 0) ++ [ackTo 0]) := quietRun_succ hvisit
      have hlast := quietRun_wait hsecond (by rw [hclock']; omega)
      rw [List.replicate_succ']
      exact quietRun_succ hlast

/-- The second quad waits for ever, although the clock runs on. -/
theorem never_served :
    (Recurs fun t => IsThread (n := 1) (.thread (jumpingClock t))) ∧
      (∀ i t, (quietRun jumpingClock t).state i = swarmWaitExecAck) ∧
      ClockRuns (quietRun jumpingClock) (fun t => .thread (jumpingClock t)) ∧
      ¬Served (quietRun jumpingClock) 1 := by
  have hrun := @execRun_quietRun jumpingClock
  refine ⟨fun t => ⟨t, Nat.le_refl t, trivial⟩, fun i => (hrun i).stays, fun bound => ?_,
    fun h => ?_⟩
  · refine ⟨8 * bound + 1, fun t ht now k quadState he _ => ?_⟩
    obtain rfl := Event.thread.inj he
    rw [jumpingClock, if_neg (by omega)]
    omega
  · obtain ⟨t, -, s, hsent⟩ := h.again 0
    have hmem : (⟨1, .sendAck 0xfd, s⟩ : Sent 1) ∈ (quietRun jumpingClock (8 * t + 1)).sent := by
      apply ((hrun 1).sent_isPrefix (show t + 1 ≤ 8 * t + 1 by omega)).subset
      rw [hsent]
      exact List.mem_append_right _ (List.mem_singleton_self _)
    rw [quietRun_jumping] at hmem
    have hquad : (1 : Fin 2) = 0 := congrArg Sent.quad (List.eq_of_mem_replicate hmem)
    exact absurd hquad (by decide)

/-- Both quads get one acknowledgement in every loop. -/
def alternating : Nat → List (Sent 1)
  | 0 => []
  | c + 1 => alternating c ++ [ackTo 0] ++ [ackTo 1]

theorem length_alternating (c : Nat) : ((alternating c).map Sent.quad).length = 2 * c := by
  induction c with
  | zero => rfl
  | succ c ih =>
      rw [alternating, List.map_append, List.map_append, List.length_append, List.length_append, ih]
      rfl

theorem alternating_get {c p : Nat} {i : Fin 2} (h : ((alternating c).map Sent.quad)[p]? = some i) :
    p < 2 * c ∧ p % 2 = i := by
  have hlt := (List.getElem?_eq_some_iff.mp h).1
  rw [length_alternating] at hlt
  refine ⟨hlt, ?_⟩
  induction c with
  | zero => exact nomatch h
  | succ c ih =>
      have hlen := length_alternating c
      rw [alternating, List.map_append, List.map_append] at h
      rcases Nat.lt_trichotomy p (2 * c) with hold | rfl | hnew
      · rw [List.getElem?_append_left (by rw [List.length_append, hlen]; omega),
          List.getElem?_append_left (by omega)] at h
        exact ih h hold
      · have hquad : (((alternating c).map Sent.quad) ++ [0])[2 * c]? = some i := by
          rwa [List.getElem?_append_left (by
            rw [List.length_append, hlen]
            exact Nat.lt_succ_self _)] at h
        rw [← hlen, List.getElem?_concat_length] at hquad
        obtain rfl := Option.some.inj hquad
        exact Nat.mul_mod_right 2 c
      · have hlast : p = ((alternating c).map Sent.quad ++ [ackTo 0].map Sent.quad).length := by
          rw [List.length_append, hlen]
          exact Nat.le_antisymm (Nat.le_of_lt_succ hlt) hnew
        rw [hlast, List.map_singleton, List.map_singleton, List.getElem?_concat_length] at h
        obtain rfl := Option.some.inj h
        rw [hlast, List.length_append, hlen]
        exact Nat.mul_add_mod 2 c 1

/-- Three seconds go by between any two steps. -/
def steadyClock (t : Nat) : Nat := 3 * t

/-- A loop over the quads. -/
theorem quietRun_loop {t lastTime : Nat} {sent : List (Sent 1)}
    (h : quietRun steadyClock t = waiting (.check 0) lastTime sent) (hle : lastTime ≤ 3 * t) :
    quietRun steadyClock (t + 4) = waiting (.command 0) (3 * (t + 3)) sent ∧
      quietRun steadyClock (t + 5) = waiting (.visit 1) (3 * (t + 3)) (sent ++ [ackTo 0]) ∧
      quietRun steadyClock (t + 6) = waiting (.readTime 1 swarmWaitExecAck) (3 * (t + 3))
        (sent ++ [ackTo 0]) ∧
      quietRun steadyClock (t + 7) = waiting (.command 1) (3 * (t + 6)) (sent ++ [ackTo 0]) ∧
      quietRun steadyClock (t + 8) = waiting (.visit 2) (3 * (t + 6))
        (sent ++ [ackTo 0] ++ [ackTo 1]) ∧
      quietRun steadyClock (t + 9) = waiting (.check 0) (3 * (t + 6))
        (sent ++ [ackTo 0] ++ [ackTo 1]) := by
  obtain ⟨-, -, hfirst⟩ := quietRun_reading h
  obtain ⟨hcommand, hvisit⟩ := @quietRun_elapsed _ _ _ _ 0 hfirst (by rw [steadyClock]; omega)
  have hsecond : quietRun steadyClock (t + 6) = waiting (.readTime 1 swarmWaitExecAck) (3 * (t + 3))
      (sent ++ [ackTo 0]) := quietRun_succ hvisit
  obtain ⟨hcommand', hvisit'⟩ := @quietRun_elapsed _ _ _ _ 1 hsecond (by rw [steadyClock]; omega)
  exact ⟨hcommand, hvisit, hsecond, hcommand', hvisit', quietRun_succ hvisit'⟩

theorem quietRun_steady (c : Nat) : ∃ lastTime, lastTime ≤ 3 * (9 * c + 1) ∧
    quietRun steadyClock (9 * c + 1) = waiting (.check 0) lastTime (alternating c) := by
  induction c with
  | zero => exact ⟨0, Nat.zero_le _, rfl⟩
  | succ c ih =>
      obtain ⟨lastTime, hle, h⟩ := ih
      exact ⟨_, by omega, (quietRun_loop h hle).2.2.2.2.2⟩

theorem takesTurns_of_pc {y : World 1} {e : Event 1}
    (h : ∀ k quadState, y.pc ≠ .readTime k quadState) : TakesTurns y e :=
  fun _ _ _ _ hpc => absurd hpc (h _ _)

theorem takesTurns_steady (t : Nat) :
    TakesTurns (quietRun steadyClock t) (.thread (steadyClock t)) := by
  obtain rfl | ⟨c, r, hr, rfl⟩ : t = 0 ∨ ∃ c r, r < 9 ∧ t = 9 * c + 1 + r := by
    rcases Nat.eq_zero_or_pos t with hzero | hpos
    · exact Or.inl hzero
    · exact Or.inr ⟨(t - 1) / 9, (t - 1) % 9, Nat.mod_lt _ (by decide), by omega⟩
  · exact takesTurns_of_pc nofun
  · obtain ⟨lastTime, hle, hhead⟩ := quietRun_steady c
    obtain ⟨hreport, hvisit, hfirst⟩ := quietRun_reading hhead
    obtain ⟨hcommand, hvisit', hsecond, hcommand', hvisit'', -⟩ := quietRun_loop hhead hle
    match r, hr with
    | 0, _ => exact takesTurns_of_pc (hhead ▸ nofun)
    | 1, _ => exact takesTurns_of_pc (hreport ▸ nofun)
    | 2, _ => exact takesTurns_of_pc (hvisit ▸ nofun)
    | 3, _ =>
        rw [hfirst]
        intro now i quadState _ hpc _ p hp
        have hzero := (Pc.readTime.inj hpc).1
        obtain ⟨hlt, hmod⟩ := alternating_get hp
        change p + 1 < ((alternating c).map Sent.quad).length
        rw [length_alternating]
        omega
    | 4, _ => exact takesTurns_of_pc (hcommand ▸ nofun)
    | 5, _ => exact takesTurns_of_pc (hvisit' ▸ nofun)
    | 6, _ =>
        rw [hsecond]
        intro now i quadState _ hpc _ p hp
        have hone := (Pc.readTime.inj hpc).1
        have hlen := length_alternating c
        rw [served, waiting, List.map_append] at hp ⊢
        have hlt := (List.getElem?_eq_some_iff.mp hp).1
        rw [List.length_append, hlen] at hlt ⊢
        refine Nat.succ_lt_succ (Nat.lt_of_le_of_ne (Nat.le_of_lt_succ hlt) ?_)
        rintro rfl
        rw [List.map_singleton, ← hlen, List.getElem?_concat_length] at hp
        obtain rfl := Option.some.inj hp
        exact absurd hone (by decide)
    | 7, _ => exact takesTurns_of_pc (hcommand' ▸ nofun)
    | 8, _ => exact takesTurns_of_pc (hvisit'' ▸ nofun)

theorem served_steady : Served (quietRun steadyClock) 1 := by
  have hrun := @execRun_quietRun steadyClock
  refine served_of_takesTurns (fun _ => swarmWaitExecAck) (fun _ => 0) (fun _ => 0) []
    (fun t => .thread (steadyClock t)) Set.univ (fun t => ⟨t, Nat.le_refl t, trivial⟩)
    (fun i _ => (hrun i).stays) (fun bound => ⟨bound + 1, fun t ht now k quadState he _ => ?_⟩)
    takesTurns_steady 1 (Set.mem_univ 1)
  obtain rfl := Event.thread.inj he
  rw [steadyClock]
  omega

end Paparazzi.QuadSwarm.ExecuteAcks
