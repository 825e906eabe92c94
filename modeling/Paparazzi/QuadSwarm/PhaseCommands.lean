import Mathlib.Data.Fin.VecNotation
import Paparazzi.QuadSwarm.WaitAllQuads

/-!
The commands of a phase: to which quads `wait_all_quads` sends them, and how often.
-/

namespace Paparazzi.QuadSwarm.PhaseCommands

open Paparazzi.Library.Machine
open Paparazzi.QuadSwarm.WaitAllQuads

/-- A quad with this last report needs no command of the phase any more. -/
def Done (s state : SwarmState) : Prop :=
  state = s ∨ (s = swarmExecCmd ∧ state = swarmReportState) ∨
    (s = swarmLanded ∧ state = swarmLandHere)

instance (s state : SwarmState) : Decidable (Done s state) := by
  unfold Done
  infer_instance

/-- The thread has decided on a command to the quad. -/
def Decided (s : SwarmState) (pc : Pc) (i : Nat) : Prop :=
  pc = .stamp i ∨ pc = .command i ∨ (pc = .readStamp i ∧ s ≠ swarmLanded)

instance (s : SwarmState) (pc : Pc) (i : Nat) : Decidable (Decided s pc i) := by
  unfold Decided
  infer_instance

/-- The quad at whose turn the thread looks at its timer. -/
def timing : Pc → Option Nat
  | .readTime k _ => some k
  | _ => none

section

variable {n : Nat}

/-- The timer of the execute phase runs out, and the landing phase finds a new report, only
where the quad is not done; and no report of a quad shows that it is done between the test of
its state and the command. -/
def NoLateCommand (s : SwarmState) (x : World n) : Event n → Prop
  | .thread now =>
      ∀ i : Fin (n + 1),
        ((timing x.pc = some i.val ∧ x.lastTime + 2 < now) ∨
          (x.pc = .readStamp i ∧ s = swarmLanded ∧ x.lastTimestamp i < x.timestamp i)) →
        ¬ Done s (x.state i)
  | .report i state => Decided s x.pc i → ¬ Done s state

instance (s : SwarmState) (x : World n) : (e : Event n) → Decidable (NoLateCommand s x e)
  | .thread now =>
      inferInstanceAs (Decidable (∀ i : Fin (n + 1),
        ((timing x.pc = some i.val ∧ x.lastTime + 2 < now) ∨
          (x.pc = .readStamp i ∧ s = swarmLanded ∧ x.lastTimestamp i < x.timestamp i)) →
        ¬ Done s (x.state i)))
  | .report i state => inferInstanceAs (Decidable (Decided s x.pc i → ¬ Done s state))

/-- No command went to a quad that was done. -/
structure Timely (s : SwarmState) (x : World n) : Prop where
  waits : x.waits = [s] ∨ x.waits = []
  sent : ∀ c ∈ x.sent, ¬ Done s c.state
  decided : ∀ i : Fin (n + 1), Decided s x.pc i → ¬ Done s (x.state i)
  init : ∀ i, x.pc = .readState i ∨ x.pc = .readStateAgain i → s = swarmInit

variable {s : SwarmState} {x y : World n}

theorem done_of_resend {skip : SwarmState} {command : Command} {state : SwarmState}
    (hbody : bodyOf s = .resend skip command) (hs : s ≠ swarmLanded) (hne : state ≠ skip) :
    ¬ Done s state := by
  have hskip : skip = s ∧ s ≠ swarmExecCmd := by
    unfold bodyOf at hbody
    split_ifs at hbody
    all_goals first
      | exact absurd ‹s = swarmLanded› hs
      | contradiction
      | (injection hbody with hskip
         subst s
         exact ⟨hskip.symm, by decide⟩)
  rintro (rfl | ⟨rfl, -⟩ | ⟨rfl, -⟩)
  · exact hne hskip.1.symm
  · exact hskip.2 rfl
  · exact hs rfl

theorem eq_init_of_initialise (hbody : bodyOf s = .initialise) : s = swarmInit := by
  unfold bodyOf at hbody
  split_ifs at hbody
  assumption

theorem not_decided_of_quiet {pc : Pc} (hpc : Quiet pc) (i : Nat) : ¬ Decided s pc i := by
  rintro (rfl | rfl | ⟨rfl, -⟩) <;> exact hpc

theorem decided_unique {pc : Pc} {i j : Fin (n + 1)} (hi : Decided s pc i) (hj : Decided s pc j) :
    i = j := by
  rcases hi with rfl | rfl | ⟨rfl, -⟩
  · exact Fin.ext (by simpa [Decided] using hj)
  · exact Fin.ext (by simpa [Decided] using hj)
  · obtain ⟨hpc, -⟩ : Pc.readStamp i = .readStamp j ∧ _ := by simpa [Decided] using hj
    exact Fin.ext (Pc.readStamp.inj hpc)

theorem not_done_of_decided {pc : Pc} {i : Fin (n + 1)} (hpc : Decided s pc i)
    (hi : ¬ Done s (x.state i)) (j : Fin (n + 1)) (hj : Decided s pc j) : ¬ Done s (x.state j) :=
  decided_unique hpc hj ▸ hi

theorem Timely.move {now : Nat} (h : Timely s x) (hok : NoLateCommand s x (.thread now))
    (hmove : Move now s x y) : Timely s y := by
  cases hmove with
  | quiet pc hpc =>
      refine { h with decided := ?_, init := ?_ }
      · exact fun i hi => absurd hi (not_decided_of_quiet hpc i)
      · rintro i (rfl | rfl)
        · exact hpc.elim
        · exact hpc.elim
  | begin hpc => exact { h with decided := by simp [Decided], init := by simp }
  | finish =>
      refine { h with waits := ?_, decided := by simp [Decided], init := by simp }
      rcases h.waits with hw | hw <;> simp [hw]
  | look i skip command hbody hne =>
      refine { h with decided := ?_, init := by simp }
      rintro j (hj | hj | ⟨hj, hs⟩)
      · exact absurd hj nofun
      · exact absurd hj nofun
      · obtain rfl : i = j := Fin.ext (Pc.readStamp.inj hj)
        exact done_of_resend hbody hs hne
  | lookInit i hbody hfresh =>
      exact { h with
        decided := by simp [Decided]
        init := fun _ _ => eq_init_of_initialise hbody }
  | lookTime i hbody => exact { h with decided := by simp [Decided], init := by simp }
  | lookAgain i hpc =>
      exact { h with decided := by simp [Decided], init := fun _ _ => h.init i (Or.inl hpc) }
  | decide i hpc hfresh =>
      refine { h with decided := not_done_of_decided (Or.inl rfl) ?_, init := by simp }
      by_cases hs : s = swarmLanded
      · exact hok i (Or.inr ⟨hpc, hs, hfresh⟩)
      · exact h.decided i (Or.inr (Or.inr ⟨hpc, hs⟩))
  | decideInit i hpc hne =>
      refine { h with decided := not_done_of_decided (Or.inl rfl) ?_, init := by simp }
      obtain rfl := h.init i (Or.inr hpc)
      rintro (hdone | ⟨hs, -⟩ | ⟨hs, -⟩)
      · exact hne hdone
      · exact absurd hs (by decide)
      · exact absurd hs (by decide)
  | decideTime i quadState hpc helapsed =>
      refine { h with decided := not_done_of_decided (Or.inr (Or.inl rfl)) ?_, init := by simp }
      exact hok i (Or.inl ⟨by rw [hpc]; rfl, helapsed⟩)
  | stamp i hpc =>
      refine { h with decided := not_done_of_decided (Or.inr (Or.inl rfl)) ?_, init := by simp }
      exact h.decided i (Or.inl hpc)
  | send i command hpc =>
      refine { h with sent := ?_, decided := by simp [Decided], init := by simp }
      intro c hc
      rcases List.mem_append.mp hc with hc | hc
      · exact h.sent c hc
      · rw [List.mem_singleton.mp hc]
        exact h.decided i (Or.inr (Or.inl hpc))

theorem Timely.step {e : Event n} (h : Timely s x) (hok : NoLateCommand s x e) :
    Timely s (step x e) := by
  cases e with
  | thread now =>
      rcases h.waits with hw | hw
      · have hstep : WaitAllQuads.step x (.thread now) = waitStep now s x := by
          simp [WaitAllQuads.step, threadStep, hw]
        rw [hstep]
        exact h.move hok (move_waitStep now s x)
      · simpa [WaitAllQuads.step, threadStep, hw] using h
  | report i state =>
      refine { h with decided := ?_ }
      intro j hj
      by_cases hij : j = i
      · subst hij
        simpa [WaitAllQuads.step, setQuadState] using hok hj
      · simpa [WaitAllQuads.step, setQuadState, Function.update_of_ne hij] using h.decided j hj

/-! ### Pace -/

/-- The commands sent to a quad. -/
def World.sentTo (x : World n) (i : Fin (n + 1)) : Nat := x.sent.countP fun c => c.quad = i

/-- A command that is stamped and not yet sent. -/
def due (x : World n) (i : Fin (n + 1)) : Nat := if x.pc = .command i then 1 else 0

/-- The thread has found a new report of the quad, which it has not stamped yet. -/
def Found (pc : Pc) (i : Nat) : Prop := pc = .readState i ∨ pc = .readStateAgain i ∨ pc = .stamp i

/-- The commands stay behind the reports. -/
structure Paced (x : World n) : Prop where
  start : x.pc = .start → x.waits ≠ [] → x.lastTimestamp = fun _ => 0
  untimed : ∀ k quadState, x.pc ≠ .readTime k quadState
  fresh : ∀ i, x.lastTimestamp i < x.timestamp i → World.sentTo x i + due x i + 1 ≤ x.received i
  found : ∀ i : Fin (n + 1), Found x.pc i → World.sentTo x i + 1 ≤ x.received i
  le : ∀ i, World.sentTo x i + due x i ≤ x.received i

theorem due_of_ne {i : Fin (n + 1)} (h : x.pc ≠ .command i) : due x i = 0 := if_neg h

theorem Paced.sentTo_le (h : Paced x) (i : Fin (n + 1)) : World.sentTo x i ≤ x.received i :=
  Nat.le_trans (Nat.le_add_right _ _) (h.le i)

theorem Paced.sentTo_lt (h : Paced x) {i : Fin (n + 1)}
    (hfresh : x.lastTimestamp i < x.timestamp i) : World.sentTo x i + 1 ≤ x.received i :=
  Nat.le_trans (Nat.add_le_add_right (Nat.le_add_right _ _) 1) (h.fresh i hfresh)

/-- A move of the thread that neither stamps nor sends. -/
theorem Paced.goto (h : Paced x) {pc : Pc} (hstart : pc ≠ .start) (hcommand : ∀ k, pc ≠ .command k)
    (htime : ∀ k quadState, pc ≠ .readTime k quadState)
    (hfound : ∀ i : Fin (n + 1), Found pc i → World.sentTo x i + 1 ≤ x.received i) :
    Paced { x with pc := pc } := by
  have hdue (i : Fin (n + 1)) : due { x with pc := pc } i = 0 := due_of_ne (hcommand i)
  refine ⟨fun hpc => absurd hpc hstart, htime, ?_, hfound, ?_⟩
  · intro i hi
    rw [hdue]
    exact h.sentTo_lt hi
  · intro i
    rw [hdue]
    exact h.sentTo_le i

theorem not_found_of_quiet {pc : Pc} (hpc : Quiet pc) (i : Nat) : ¬ Found pc i := by
  rintro (rfl | rfl | rfl) <;> exact hpc

theorem found_unique {pc : Pc} {i j : Fin (n + 1)} (hi : Found pc i) (hj : Found pc j) : i = j := by
  rcases hi with rfl | rfl | rfl
  · exact Fin.ext (by simpa [Found] using hj)
  · exact Fin.ext (by simpa [Found] using hj)
  · exact Fin.ext (by simpa [Found] using hj)

/-- The thread goes on with the quad of which it has found a new report. -/
theorem Paced.find (h : Paced x) {pc : Pc} {i : Fin (n + 1)} (hpc : Found pc i)
    (hi : World.sentTo x i + 1 ≤ x.received i) : Paced { x with pc := pc } := by
  refine h.goto ?_ ?_ ?_ fun j hj => found_unique hpc hj ▸ hi
  · rintro rfl
    simp [Found] at hpc
  · rintro k rfl
    simp [Found] at hpc
  · rintro k quadState rfl
    simp [Found] at hpc

theorem eq_execCmd_of_execute (hbody : bodyOf s = .execute) : s = swarmExecCmd := by
  unfold bodyOf at hbody
  split_ifs at hbody
  assumption

theorem Paced.move {now : Nat} (hs : s ≠ swarmExecCmd) (hwaits : x.waits = [s]) (h : Paced x)
    (hmove : Move now s x y) : Paced y := by
  cases hmove with
  | quiet pc hpc =>
      refine h.goto ?_ ?_ ?_ fun i hi => absurd hi (not_found_of_quiet hpc i)
      · rintro rfl
        exact hpc
      · rintro k rfl
        exact hpc
      · rintro k quadState rfl
        exact hpc
  | begin hpc =>
      have hzero := h.start hpc (by simp [hwaits])
      refine ⟨nofun, nofun, ?_, by simp [Found], ?_⟩
      · intro i hi
        have hle := h.fresh i (by rw [hzero]; exact hi)
        rw [due_of_ne (by simp [hpc])] at hle
        rwa [due_of_ne (by simp)]
      · intro i
        have hle := h.le i
        rw [due_of_ne (by simp [hpc])] at hle
        rwa [due_of_ne (by simp)]
  | finish =>
      refine ⟨by simp [hwaits], nofun, ?_, by simp [Found], ?_⟩
      · intro i hi
        rw [due_of_ne (by simp)]
        exact h.sentTo_lt hi
      · intro i
        rw [due_of_ne (by simp)]
        exact h.sentTo_le i
  | look i skip command hbody hne => exact h.goto nofun nofun nofun (by simp [Found])
  | lookInit i hbody hfresh => exact h.find (Or.inl rfl) (h.sentTo_lt hfresh)
  | lookTime i hbody => exact absurd (eq_execCmd_of_execute hbody) hs
  | lookAgain i hpc => exact h.find (Or.inr (Or.inl rfl)) (h.found i (Or.inl hpc))
  | decide i hpc hfresh => exact h.find (Or.inr (Or.inr rfl)) (h.sentTo_lt hfresh)
  | decideInit i hpc hne => exact h.find (Or.inr (Or.inr rfl)) (h.found i (Or.inr (Or.inl hpc)))
  | decideTime i quadState hpc helapsed => exact absurd hpc (h.untimed _ _)
  | stamp i hpc =>
      have hold (j : Fin (n + 1)) : due x j = 0 := due_of_ne (by simp [hpc])
      refine ⟨nofun, nofun, ?_, by simp [Found], ?_⟩
      · intro j hj
        by_cases hij : j = i
        · subst hij
          simp at hj
        · have hle := h.fresh j (by simpa [Function.update_of_ne hij] using hj)
          rw [hold] at hle
          rwa [due_of_ne (by simpa [Fin.ext_iff, eq_comm] using hij)]
      · intro j
        by_cases hij : j = i
        · subst hij
          rw [due, if_pos rfl]
          exact h.found j (Or.inr (Or.inr hpc))
        · have hle := h.le j
          rw [hold] at hle
          rwa [due_of_ne (by simpa [Fin.ext_iff, eq_comm] using hij)]
  | send i command hpc =>
      have hsum (j : Fin (n + 1)) :
          World.sentTo { x with
            sent := x.sent ++ [⟨i, command, x.state i⟩]
            pc := .visit (i + 1) } j + 0 = World.sentTo x j + due x j := by
        by_cases hij : i = j
        · subst hij
          simp [World.sentTo, due, hpc]
        · have hne : (i : Nat) ≠ j := fun h => hij (Fin.ext h)
          simp [World.sentTo, due, hpc, hij, hne]
      refine ⟨nofun, nofun, ?_, by simp [Found], ?_⟩
      · intro j hj
        rw [due_of_ne (by simp), hsum]
        exact h.fresh j hj
      · intro j
        rw [due_of_ne (by simp), hsum]
        exact h.le j

theorem Paced.report (h : Paced x) (i : Fin (n + 1)) (state : SwarmState) :
    Paced (setQuadState i state x) := by
  have hmore (j : Fin (n + 1)) : x.received j ≤ (setQuadState i state x).received j := by
    by_cases hij : j = i
    · subst hij
      simp [setQuadState]
    · simp [setQuadState, Function.update_of_ne hij]
  refine ⟨h.start, h.untimed, ?_, fun j hj => Nat.le_trans (h.found j hj) (hmore j),
    fun j => Nat.le_trans (h.le j) (hmore j)⟩
  intro j hj
  by_cases hij : j = i
  · subst hij
    have hone : (setQuadState j state x).received j = x.received j + 1 := by simp [setQuadState]
    rw [hone]
    exact Nat.add_le_add_right (h.le j) 1
  · refine Nat.le_trans (h.fresh j ?_) (hmore j)
    simpa [setQuadState, Function.update_of_ne hij] using hj

theorem Paced.step (hs : s ≠ swarmExecCmd) (hwaits : x.waits = [s] ∨ x.waits = []) (h : Paced x)
    (e : Event n) : Paced (step x e) := by
  cases e with
  | thread now =>
      rcases hwaits with hw | hw
      · have hstep : WaitAllQuads.step x (.thread now) = waitStep now s x := by
          simp [WaitAllQuads.step, threadStep, hw]
        rw [hstep]
        exact h.move hs hw (move_waitStep now s x)
      · simpa [WaitAllQuads.step, threadStep, hw] using h
  | report i state => exact h.report i state

/-! ### Runs -/

variable {state : Fin (n + 1) → SwarmState} {timestamp : Fin (n + 1) → UInt64}
  {received : Fin (n + 1) → Nat}

theorem timely_begin : Timely s (begin state timestamp received [s]) :=
  ⟨Or.inl rfl, nofun, by simp [begin, Decided], by simp [begin]⟩

theorem paced_begin (hstamp : ∀ i, timestamp i = 0 ∨ 0 < received i) :
    Paced (begin state timestamp received [s]) := by
  refine ⟨fun _ _ => rfl, nofun, ?_, by simp [begin, Found], fun i => Nat.zero_le _⟩
  intro i hi
  rcases hstamp i with hzero | hpos
  · simp [begin, hzero] at hi
  · exact hpos

end

/-- A call of `wait_all_quads(s)`, from any record of the quads in which a quad without a
report has the stamp 0: it sends no command to a quad that is done, and in the phases without
a timer at most one for every report. -/
theorem phase_commands {n : Nat} (s : SwarmState) (state : Fin (n + 1) → SwarmState)
    (timestamp : Fin (n + 1) → UInt64) (received : Fin (n + 1) → Nat)
    (hstamp : ∀ i, timestamp i = 0 ∨ 0 < received i) (es : List (Event n))
    (hok : RunOk step (NoLateCommand s) (begin state timestamp received [s]) es) :
    (∀ c ∈ (run step (begin state timestamp received [s]) es).sent, ¬ Done s c.state) ∧
      (s ≠ swarmExecCmd → ∀ i,
        World.sentTo (run step (begin state timestamp received [s]) es) i ≤
          (run step (begin state timestamp received [s]) es).received i) := by
  have hinv := run_invariant (fun x : World n => Timely s x ∧ (s ≠ swarmExecCmd → Paced x))
    (fun x e hx hok => ⟨hx.1.step hok, fun hs => (hx.2 hs).step hs hx.1.waits e⟩)
    ⟨timely_begin, fun _ => paced_begin hstamp⟩ hok
  exact ⟨hinv.1.sent, fun hs i => (hinv.2 hs).sentTo_le i⟩

theorem phase_commands_takeoff :
    (run step (begin (fun _ : Fin 2 => swarmWaitCmdStartEngine) (fun _ => 1) (fun _ => 1)
        [swarmWaitCmdTakeoff]) (List.replicate 6 (.thread 0))).sent.length = 1 ∧
      ∀ c ∈ (run step (begin (fun _ : Fin 2 => swarmWaitCmdStartEngine) (fun _ => 1) (fun _ => 1)
        [swarmWaitCmdTakeoff]) (List.replicate 6 (.thread 0))).sent,
        ¬ Done swarmWaitCmdTakeoff c.state := by
  refine ⟨by decide +kernel, ?_⟩
  exact (phase_commands swarmWaitCmdTakeoff _ _ _ (fun _ => Or.inr Nat.one_pos)
    (List.replicate 6 (.thread 0)) (by decide +kernel)).1

/-- Two quads. In the execute phase the first one executes already, in the landing phase it
has landed; both are commanded. And with a stamp that nobody has set, a quad that never
reported is commanded. -/
theorem done_quads_commanded :
    (run step (begin (![swarmExecCmd, swarmWaitExecAck] : Fin 2 → SwarmState) (fun _ => 1)
        (fun _ => 1) [swarmExecCmd])
      (List.replicate 5 (.thread 0) ++ List.replicate 2 (.thread 3))).sent =
        [⟨0, .sendAck 0xfd, swarmExecCmd⟩] ∧
    (run step (begin (![swarmLanded, swarmLandHere] : Fin 2 → SwarmState) (fun _ => 1)
        (fun _ => 1) [swarmLanded]) (List.replicate 7 (.thread 0))).sent =
      [⟨0, .sendBlockLandHere, swarmLanded⟩] ∧
    World.sentTo (run step (begin (fun _ : Fin 1 => swarmKilled) (fun _ => 5) (fun _ => 0)
      [swarmInit]) (List.replicate 7 (.thread 0))) 0 = 1 ∧
    (run step (begin (fun _ : Fin 1 => swarmKilled) (fun _ => 5) (fun _ => 0)
      [swarmInit]) (List.replicate 7 (.thread 0))).received 0 = 0 := by
  decide +kernel

end Paparazzi.QuadSwarm.PhaseCommands
