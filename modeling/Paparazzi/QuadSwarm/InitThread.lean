import Mathlib
import Paparazzi.Library.Liveness
import Paparazzi.QuadSwarm.WaitAllQuads

/-!
`init_quadcopters_thread`: the wait for SWARM_INIT and the one for SWARM_NEGOTIATE_REF, in
endless runs with the reports of the quads.
-/

namespace Paparazzi.QuadSwarm.InitThread

open Paparazzi.Library.Liveness
open Paparazzi.QuadSwarm.GroundStation (quadAt)
open Paparazzi.QuadSwarm.WaitAllQuads

/-- The calls of the thread. -/
def initQuadcopters : List SwarmState := [swarmInit, swarmNegotiateRef]

section

variable {n : Nat}

/-- The thread takes a step. -/
def IsThread : Event n → Prop
  | .thread _ => True
  | .report _ _ => False

/-- From some time on the quad reports NEGOTIATE_REF, and nothing else. -/
def Negotiates (ω : Nat → Event n) (i : Fin (n + 1)) : Prop :=
  ∃ t, ω t = .report i swarmNegotiateRef ∧
    ∀ t', t ≤ t' → ∀ s, ω t' = .report i s → s = swarmNegotiateRef

/-- At time `t` an evaluation of `all_in_state(SWARM_INIT)` has come to quad `k`, and read each
quad before at a time when its last report was INIT. -/
inductive SeenInit (x : Nat → World n) (ω : Nat → Event n) : Nat → Nat → Prop
  | enter (t : Nat) (hwaits : (x t).waits = initQuadcopters) (hpc : (x t).pc = .check 0) :
      SeenInit x ω 0 t
  | report (k t : Nat) (h : SeenInit x ω k t) (hreport : ¬ IsThread (ω t)) : SeenInit x ω k (t + 1)
  | read (i : Fin (n + 1)) (t : Nat) (h : SeenInit x ω i t) (hthread : IsThread (ω t))
      (hstate : (x t).state i = swarmInit) : SeenInit x ω (i + 1) (t + 1)

variable {state : Fin (n + 1) → SwarmState} {timestamp : Fin (n + 1) → UInt64}
  {received : Fin (n + 1) → Nat} {ω : Nat → Event n} {k t : Nat} {x : World n}

/-! ### Steps -/

theorem quadAt_val (i : Fin (n + 1)) : quadAt i.val = some i := dif_pos i.isLt

theorem quadAt_of_ge (hk : n + 1 ≤ k) : (quadAt k : Option (Fin (n + 1))) = none :=
  dif_neg (by omega)

/-- A step of the thread at an entry of `all_in_state`. -/
theorem threadStep_check {s : SwarmState} {rest : List SwarmState} (hwaits : x.waits = s :: rest)
    (i : Fin (n + 1)) (hpc : x.pc = .check i) (hs : s ≠ swarmExecCmd) (now : Nat) :
    threadStep now x =
      { x with pc := if x.state i = s then .check (i + 1) else bodyStart s } := by
  simp only [threadStep, hwaits, waitStep, hpc, quadAt_val, hs, if_false]
  split_ifs <;> rfl

theorem threadStep_checked {s : SwarmState} {rest : List SwarmState} (hwaits : x.waits = s :: rest)
    (hpc : x.pc = .check (n + 1)) (now : Nat) :
    threadStep now x = { x with waits := rest, pc := .start } := by
  simp [threadStep, hwaits, waitStep, hpc, quadAt_of_ge]

/-- A step inside the first wait stays there, and goes on to the next quad only from a quad
in INIT; or the evaluation has come to its end. -/
def InitStep (x y : World n) : Prop :=
  (y.waits = x.waits ∧ (∀ k, y.pc ≠ .checkReport k) ∧
      ∀ k, y.pc = .check (k + 1) →
        ∃ i : Fin (n + 1), i.val = k ∧ x.pc = .check i ∧ x.state i = swarmInit) ∨
    ∃ k, n + 1 ≤ k ∧ x.pc = .check k ∧ y = { x with waits := x.waits.tail, pc := .start }

/-- A move to a place that is no entry of `all_in_state` but the first. -/
theorem InitStep.goto {y : World n} (hwaits : y.waits = x.waits)
    (hreport : ∀ k, y.pc ≠ .checkReport k) (hcheck : ∀ k, y.pc ≠ .check (k + 1)) :
    InitStep x y :=
  Or.inl ⟨hwaits, hreport, fun k hk => absurd hk (hcheck k)⟩

theorem initStep_waitStep (hpc : ∀ k, x.pc ≠ .checkReport k) (now : Nat) :
    InitStep x (waitStep now swarmInit x) := by
  unfold waitStep
  cases hx : x.pc with
  | start => exact .goto rfl nofun nofun
  | checkReport k => exact absurd hx (hpc k)
  | check k =>
      dsimp only
      by_cases hk : k < n + 1
      · rw [show quadAt k = some (⟨k, hk⟩ : Fin (n + 1)) from dif_pos hk]
        dsimp only
        split_ifs with hstate hexec
        · refine Or.inl ⟨rfl, nofun, ?_⟩
          rintro k' hk'
          obtain rfl : k = k' := Nat.succ.inj (Pc.check.inj hk')
          exact ⟨⟨k, hk⟩, rfl, hx, hstate⟩
        · exact absurd hexec (by decide)
        · exact .goto rfl nofun nofun
      · rw [quadAt_of_ge (by omega)]
        exact Or.inr ⟨k, by omega, hx, rfl⟩
  | visit k =>
      dsimp only
      cases (quadAt k : Option (Fin (n + 1))) with
      | none => exact .goto rfl nofun nofun
      | some i =>
          show InitStep x (if x.lastTimestamp i < x.timestamp i then { x with pc := .readState k }
            else { x with pc := .visit (k + 1) })
          split_ifs
          · exact .goto rfl nofun nofun
          · exact .goto rfl nofun nofun
  | readStamp k =>
      dsimp only
      cases (quadAt k : Option (Fin (n + 1))) with
      | none => exact .goto rfl nofun nofun
      | some i =>
          dsimp only
          split_ifs
          · exact .goto rfl nofun nofun
          · exact .goto rfl nofun nofun
  | readState k =>
      dsimp only
      cases (quadAt k : Option (Fin (n + 1))) with
      | none => exact .goto rfl nofun nofun
      | some i =>
          dsimp only
          split_ifs
          · exact .goto rfl nofun nofun
          · exact .goto rfl nofun nofun
  | readStateAgain k =>
      dsimp only
      cases (quadAt k : Option (Fin (n + 1))) with
      | none => exact .goto rfl nofun nofun
      | some i =>
          dsimp only
          split_ifs
          · exact .goto rfl nofun nofun
          · exact .goto rfl nofun nofun
  | readTime k quadState =>
      dsimp only
      cases (quadAt k : Option (Fin (n + 1))) with
      | none => exact .goto rfl nofun nofun
      | some i =>
          dsimp only
          split_ifs
          · exact .goto rfl nofun nofun
          · exact .goto rfl nofun nofun
  | stamp k =>
      dsimp only
      cases (quadAt k : Option (Fin (n + 1))) with
      | none => exact .goto rfl nofun nofun
      | some i => exact .goto rfl nofun nofun
  | command k =>
      dsimp only
      cases (quadAt k : Option (Fin (n + 1))) with
      | none => exact .goto rfl nofun nofun
      | some i => exact .goto rfl nofun nofun

/-- The place of the thread in the second wait, which sends nothing. -/
def Polling (x : World n) : Prop := x.pc = .start ∨ ∃ k, k ≤ n + 1 ∧ x.pc = .check k

/-- The waits of the thread, in their order. -/
structure Waiting (x : World n) : Prop where
  waits : x.waits = initQuadcopters ∨ (x.waits = [swarmNegotiateRef] ∧ Polling x) ∨ x.waits = []
  report : ∀ k, x.pc ≠ .checkReport k

theorem threadStep_negotiate (hwaits : x.waits = [swarmNegotiateRef]) (hpc : Polling x)
    (now : Nat) :
    Polling (threadStep now x) ∧
      ((threadStep now x).waits = [swarmNegotiateRef] ∨ (threadStep now x).waits = []) := by
  rcases hpc with hpc | ⟨k, hk, hpc⟩
  · simp only [threadStep, hwaits, waitStep, hpc]
    exact ⟨Or.inr ⟨0, Nat.zero_le _, rfl⟩, Or.inl trivial⟩
  · by_cases hlt : k < n + 1
    · rw [threadStep_check hwaits ⟨k, hlt⟩ hpc (by decide)]
      refine ⟨Or.inr ?_, Or.inl hwaits⟩
      split_ifs
      · exact ⟨k + 1, hlt, rfl⟩
      · exact ⟨0, Nat.zero_le _, rfl⟩
    · obtain rfl : k = n + 1 := by omega
      rw [threadStep_checked hwaits hpc]
      exact ⟨Or.inl rfl, Or.inr rfl⟩

theorem Polling.not_checkReport (h : Polling x) (k : Nat) : x.pc ≠ .checkReport k := by
  rcases h with hpc | ⟨k', -, hpc⟩ <;> simp [hpc]

theorem threadStep_init (hwaits : x.waits = initQuadcopters) (now : Nat) :
    threadStep now x = waitStep now swarmInit x := by
  simp [threadStep, hwaits, initQuadcopters]

theorem Waiting.step (h : Waiting x) (e : Event n) : Waiting (step x e) := by
  cases e with
  | report i s => exact ⟨h.waits, h.report⟩
  | thread now =>
      show Waiting (threadStep now x)
      rcases h.waits with hwaits | ⟨hwaits, hpoll⟩ | hwaits
      · rw [threadStep_init hwaits]
        rcases initStep_waitStep h.report now with ⟨hkeep, hreport, -⟩ | ⟨k, -, -, hy⟩
        · exact ⟨Or.inl (hkeep.trans hwaits), hreport⟩
        · rw [hy, hwaits]
          exact ⟨Or.inr (Or.inl ⟨rfl, Or.inl rfl⟩), nofun⟩
      · obtain ⟨hpoll', hwaits'⟩ := threadStep_negotiate hwaits hpoll now
        refine ⟨?_, hpoll'.not_checkReport⟩
        rcases hwaits' with hwaits' | hwaits'
        · exact Or.inr (Or.inl ⟨hwaits', hpoll'⟩)
        · exact Or.inr (Or.inr hwaits')
      · have hdone : threadStep now x = x := by simp [threadStep, hwaits]
        rw [hdone]
        exact h

/-- The first wait goes on to the next quad from a quad in INIT only. -/
theorem Waiting.check_of_threadStep (h : Waiting x) {now : Nat}
    (hwaits : (threadStep now x).waits = initQuadcopters)
    (hpc : (threadStep now x).pc = .check (k + 1)) :
    ∃ i : Fin (n + 1), i.val = k ∧ x.waits = initQuadcopters ∧ x.pc = .check i ∧
      x.state i = swarmInit := by
  rcases h.waits with hx | ⟨hx, hpoll⟩ | hx
  · rw [threadStep_init hx] at hwaits hpc
    rcases initStep_waitStep h.report now with ⟨-, -, hcheck⟩ | ⟨-, -, -, hy⟩
    · obtain ⟨i, hi, hxpc, hstate⟩ := hcheck k hpc
      exact ⟨i, hi, hx, hxpc, hstate⟩
    · rw [hy] at hpc
      exact absurd hpc nofun
  · rcases (threadStep_negotiate hx hpoll now).2 with hy | hy <;> rw [hy] at hwaits <;>
      exact absurd hwaits nofun
  · have hdone : threadStep now x = x := by simp [threadStep, hx]
    rw [hdone, hx] at hwaits
    exact absurd hwaits nofun

/-- The first wait ends at the end of an evaluation only. -/
theorem Waiting.finish_of_threadStep (h : Waiting x) {now : Nat} (hx : x.waits = initQuadcopters)
    (hwaits : (threadStep now x).waits ≠ initQuadcopters) :
    ∃ k, n + 1 ≤ k ∧ x.pc = .check k := by
  rw [threadStep_init hx] at hwaits
  rcases initStep_waitStep h.report now with ⟨hkeep, -, -⟩ | ⟨k, hk, hpc, -⟩
  · exact absurd (hkeep.trans hx) hwaits
  · exact ⟨k, hk, hpc⟩

/-! ### The first wait -/

/-- The endless run of the thread. -/
def initTrace (state : Fin (n + 1) → SwarmState) (timestamp : Fin (n + 1) → UInt64)
    (received : Fin (n + 1) → Nat) (ω : Nat → Event n) : Nat → World n :=
  trace step (begin state timestamp received initQuadcopters) ω

theorem initTrace_succ (t : Nat) :
    initTrace state timestamp received ω (t + 1) =
      step (initTrace state timestamp received ω t) (ω t) := rfl

theorem waiting_initTrace (t : Nat) : Waiting (initTrace state timestamp received ω t) := by
  induction t with
  | zero => exact ⟨Or.inl rfl, nofun⟩
  | succ t ih => exact ih.step (ω t)

theorem SeenInit.le {x : Nat → World n} (h : SeenInit x ω k t) : k ≤ n + 1 := by
  induction h with
  | enter t hwaits hpc => exact Nat.zero_le _
  | report k t h hreport ih => exact ih
  | read i t h hthread hstate ih => exact i.isLt

/-- An evaluation that has seen `k` quads is at quad `k`. -/
theorem SeenInit.check (h : SeenInit (initTrace state timestamp received ω) ω k t) :
    (initTrace state timestamp received ω t).waits = initQuadcopters ∧
      (initTrace state timestamp received ω t).pc = .check k := by
  induction h with
  | enter t hwaits hpc => exact ⟨hwaits, hpc⟩
  | report k t h hreport ih =>
      rw [initTrace_succ]
      cases he : ω t with
      | thread now => exact absurd (by simp [he, IsThread]) hreport
      | report i s => exact ih
  | read i t h hthread hstate ih =>
      obtain ⟨hwaits, hpc⟩ := ih
      rw [initTrace_succ]
      cases he : ω t with
      | report j s => exact absurd hthread (by simp [he, IsThread])
      | thread now =>
          have hstep := threadStep_check hwaits i hpc (by decide) now
          rw [if_pos hstate] at hstep
          rw [show step _ (.thread now) = _ from hstep]
          exact ⟨hwaits, rfl⟩

/-- At quad `k` an evaluation has seen the quads before. -/
theorem seenInit_of_check (hwaits : (initTrace state timestamp received ω t).waits = initQuadcopters)
    (hpc : (initTrace state timestamp received ω t).pc = .check k) :
    SeenInit (initTrace state timestamp received ω) ω k t := by
  induction t generalizing k with
  | zero => exact absurd hpc nofun
  | succ t ih =>
      cases k with
      | zero => exact .enter (t + 1) hwaits hpc
      | succ k =>
          rw [initTrace_succ] at hwaits hpc
          cases he : ω t with
          | report j s =>
              rw [he] at hwaits hpc
              exact .report (k + 1) t (ih hwaits hpc) (by simp [he, IsThread])
          | thread now =>
              rw [he] at hwaits hpc
              obtain ⟨i, rfl, hx, hxpc, hstate⟩ :=
                (waiting_initTrace t).check_of_threadStep hwaits hpc
              exact .read i t (ih hx hxpc) (by simp [he, IsThread]) hstate

theorem exists_seenInit (hdone : ∃ t, (initTrace state timestamp received ω t).waits = []) :
    ∃ t, SeenInit (initTrace state timestamp received ω) ω (n + 1) t := by
  by_contra hnever
  have hfirst (t : Nat) : (initTrace state timestamp received ω t).waits = initQuadcopters := by
    induction t with
    | zero => rfl
    | succ t ih =>
        rw [initTrace_succ]
        cases he : ω t with
        | report j s => exact ih
        | thread now =>
            by_contra hleft
            obtain ⟨k, hk, hpc⟩ := (waiting_initTrace t).finish_of_threadStep ih hleft
            have hseen := seenInit_of_check ih hpc
            obtain rfl : k = n + 1 := Nat.le_antisymm hseen.le hk
            exact hnever ⟨t, hseen⟩
  obtain ⟨t, ht⟩ := hdone
  rw [hfirst t] at ht
  exact absurd ht nofun

/-! ### The second wait -/

/-- The thread only reads the states. -/
theorem state_threadStep (now : Nat) (x : World n) : (threadStep now x).state = x.state := by
  unfold threadStep
  cases x.waits with
  | nil => rfl
  | cons s rest =>
      have hmove := move_waitStep now s x
      show (waitStep now s x).state = x.state
      generalize waitStep now s x = y at hmove
      cases hmove <;> rfl

/-- The quad stays in NEGOTIATE_REF. -/
theorem stays_negotiateRef {i : Fin (n + 1)} (h : Negotiates ω i) :
    Stays fun t => (initTrace state timestamp received ω t).state i = swarmNegotiateRef := by
  obtain ⟨t, hreport, honly⟩ := h
  refine ⟨t + 1, ?_⟩
  rintro t' ht'
  refine trace_invariant (fun x : World n => x.state i = swarmNegotiateRef) ?_ ?_ ht'
  · rintro t'' ht'' hx
    have hnext := honly t'' (by omega)
    simp only [trace]
    cases he : ω t'' with
    | thread now =>
        show (threadStep now _).state i = _
        rw [state_threadStep]
        exact hx
    | report j s =>
        by_cases hij : i = j
        · subst hij
          simp [step, setQuadState, hnext s he]
        · simpa [step, setQuadState, Function.update_of_ne hij] using hx
  · simp [trace, step, hreport, setQuadState]

/-- The first evaluation with all quads in INIT is over. -/
def Passed (x : World n) : Prop :=
  (x.waits = initQuadcopters ∧ x.pc = .check (n + 1)) ∨
    (x.waits = [swarmNegotiateRef] ∧ Polling x) ∨ x.waits = []

/-- The steps of the thread to the end of its waits, if all quads stay in NEGOTIATE_REF. -/
def remaining (x : World n) : Nat :=
  if x.waits = initQuadcopters then n + 4
  else
    match x.pc with
    | .start => n + 3
    | .check k => n + 2 - k
    | _ => 0

theorem Passed.threadStep (h : Passed x) (now : Nat) : Passed (threadStep now x) := by
  rcases h with ⟨hwaits, hpc⟩ | ⟨hwaits, hpoll⟩ | hwaits
  · rw [threadStep_checked hwaits hpc]
    exact Or.inr (Or.inl ⟨rfl, Or.inl rfl⟩)
  · obtain ⟨hpoll', hwaits'⟩ := threadStep_negotiate hwaits hpoll now
    rcases hwaits' with hwaits' | hwaits'
    · exact Or.inr (Or.inl ⟨hwaits', hpoll'⟩)
    · exact Or.inr (Or.inr hwaits')
  · have hdone : WaitAllQuads.threadStep now x = x := by simp [WaitAllQuads.threadStep, hwaits]
    rw [hdone]
    exact Or.inr (Or.inr hwaits)

theorem remaining_threadStep (h : Passed x)
    (hstate : ∀ i, x.state i = swarmNegotiateRef) (hwaits : x.waits ≠ []) (now : Nat) :
    remaining (threadStep now x) < remaining x ∨ (threadStep now x).waits = [] := by
  have hne : ([swarmNegotiateRef] : List SwarmState) ≠ initQuadcopters := nofun
  rcases h with ⟨hx, hpc⟩ | ⟨hx, hpoll⟩ | hx
  · left
    rw [threadStep_checked hx hpc]
    simp [remaining, hx, hne]
  · rcases hpoll with hpc | ⟨k, hk, hpc⟩
    · left
      simp only [threadStep, hx, waitStep, hpc, remaining, hne, if_false]
      omega
    · by_cases hlt : k < n + 1
      · left
        rw [threadStep_check hx ⟨k, hlt⟩ hpc (by decide), if_pos (hstate _)]
        simp only [remaining, hx, hpc, hne, if_false]
        omega
      · right
        obtain rfl : k = n + 1 := by omega
        rw [threadStep_checked hx hpc]
  · exact absurd hx hwaits

theorem completes_of_seenInit (hfair : Recurs fun t => IsThread (ω t))
    (hnegotiates : ∀ i, Negotiates ω i)
    (hseen : ∃ t, SeenInit (initTrace state timestamp received ω) ω (n + 1) t) :
    ∃ t, (initTrace state timestamp received ω t).waits = [] := by
  obtain ⟨t₁, hseen⟩ := hseen
  obtain ⟨t₂, hstate⟩ := Stays.forall_fin fun i =>
    stays_negotiateRef (hnegotiates i)
  have hpassed (t : Nat) (ht : t₁ ≤ t) : Passed (initTrace state timestamp received ω t) := by
    refine trace_invariant Passed ?_ (Or.inl hseen.check) ht
    rintro t' - hx
    simp only [trace]
    cases ω t' with
    | thread now => exact hx.threadStep now
    | report i s => exact hx
  refine @eventually_of_rank _ (initTrace state timestamp received ω) (fun x => x.waits = [])
    remaining _ (max t₁ t₂) hfair ?_ ?_
  · rintro t ht hwaits
    rw [initTrace_succ]
    cases ω t with
    | thread now =>
        rcases remaining_threadStep (hpassed t (by omega)) (hstate t (by omega)) hwaits now with h | h
        · exact Or.inl (Nat.le_of_lt h)
        · exact Or.inr h
    | report i s => exact Or.inl (Nat.le_refl _)
  · rintro t ht hwaits hthread
    rw [initTrace_succ]
    cases he : ω t with
    | thread now =>
        exact remaining_threadStep (hpassed t (by omega)) (hstate t (by omega)) hwaits now
    | report i s => exact absurd hthread (by simp [he, IsThread])

end

/-- The thread completes exactly in the runs in which some evaluation of
`all_in_state(SWARM_INIT)` reads every quad while its last report is INIT. -/
theorem init_completes_iff {n : Nat} (state : Fin (n + 1) → SwarmState)
    (timestamp : Fin (n + 1) → UInt64) (received : Fin (n + 1) → Nat) (ω : Nat → Event n)
    (hfair : Recurs fun t => IsThread (ω t)) (hnegotiates : ∀ i, Negotiates ω i) :
    (∃ t, (initTrace state timestamp received ω t).waits = []) ↔
      ∃ t, SeenInit (initTrace state timestamp received ω) ω (n + 1) t :=
  ⟨exists_seenInit, completes_of_seenInit hfair hnegotiates⟩

/-- One quad that reports INIT, is polled, and then reports NEGOTIATE_REF. -/
def promptRun (t : Nat) : Event 0 :=
  if t = 0 then .report 0 swarmInit else if t = 4 then .report 0 swarmNegotiateRef else .thread 0

theorem init_completes_prompt :
    ∃ t, (initTrace (fun _ => swarmKilled) (fun _ => 0) (fun _ => 0) promptRun t).waits = [] := by
  have hfair : Recurs fun t => IsThread (promptRun t) := by
    intro t
    refine ⟨t + 5, by omega, ?_⟩
    simp [promptRun, IsThread]
  have hnegotiates : ∀ i, Negotiates promptRun i := by
    intro i
    refine ⟨4, ?_, ?_⟩
    · rw [Fin.fin_one_eq_zero i]
      rfl
    · intro t ht s hs
      unfold promptRun at hs
      split_ifs at hs with hzero
      · omega
      · exact (Event.report.inj hs).2.symm
  refine (init_completes_iff _ _ _ promptRun hfair hnegotiates).mpr ⟨3, ?_⟩
  exact .read 0 2 (.enter 2 rfl rfl) (by simp [promptRun, IsThread]) rfl

local instance (priority := high) neZero_two : NeZero (1 + 1) := ⟨Nat.succ_ne_zero 1⟩

/-- Two quads; the first one has gone on to NEGOTIATE_REF when the second one reports INIT. -/
def wedgedRun (t : Nat) : Event 1 :=
  match t with
  | 0 => .report 0 swarmInit
  | 1 => .report 0 swarmNegotiateRef
  | 2 => .report 1 swarmInit
  | 3 => .report 1 swarmNegotiateRef
  | _ => .thread 0

theorem isThread_wedgedRun {t : Nat} : IsThread (wedgedRun t) ↔ 4 ≤ t := by
  match t with
  | 0 => simp [wedgedRun, IsThread]
  | 1 => simp [wedgedRun, IsThread]
  | 2 => simp [wedgedRun, IsThread]
  | 3 => simp [wedgedRun, IsThread]
  | t + 4 => simp [wedgedRun, IsThread]

theorem negotiates_wedgedRun (i : Fin 2) : Negotiates wedgedRun i := by
  have hlast {t : Nat} (ht : 4 ≤ t) {j : Fin 2} {s : SwarmState} :
      wedgedRun t ≠ .report j s := by
    have hthread := isThread_wedgedRun.mpr ht
    rintro h
    rw [h] at hthread
    exact hthread
  match i with
  | 0 =>
      refine ⟨1, rfl, ?_⟩
      rintro t ht s hs
      match t, ht with
      | 1, _ => exact (Event.report.inj hs).2.symm
      | 2, _ => exact absurd (Event.report.inj hs).1 (by decide)
      | 3, _ => exact absurd (Event.report.inj hs).1 (by decide)
      | t + 4, _ => exact absurd hs (hlast (by omega))
  | 1 =>
      refine ⟨3, rfl, ?_⟩
      rintro t ht s hs
      match t, ht with
      | 3, _ => exact (Event.report.inj hs).2.symm
      | t + 4, _ => exact absurd hs (hlast (by omega))

/-- The thread never ends, however often it polls. -/
theorem init_wedged :
    (Recurs fun t => IsThread (wedgedRun t)) ∧ (∀ i, Negotiates wedgedRun i) ∧
      ¬ ∃ t, (initTrace (fun _ => swarmKilled) (fun _ => 0) (fun _ => 0) wedgedRun t).waits = [] := by
  refine ⟨fun t => ⟨t + 4, by omega, isThread_wedgedRun.mpr (by omega)⟩, negotiates_wedgedRun, ?_⟩
  intro hdone
  obtain ⟨t, hseen⟩ := exists_seenInit hdone
  have hfirst {t : Nat} (ht : 4 ≤ t) :
      (initTrace (fun _ => swarmKilled) (fun _ => 0) (fun _ => 0) wedgedRun t).state 0 =
        swarmNegotiateRef := by
    refine trace_invariant (fun x : World 1 => x.state 0 = swarmNegotiateRef) ?_ rfl ht
    rintro t' ht' hx
    obtain ⟨d, rfl⟩ := Nat.exists_eq_add_of_le' ht'
    show (threadStep 0 _).state 0 = _
    rw [state_threadStep]
    exact hx
  have hnone : ∀ k t, SeenInit (initTrace (fun _ => swarmKilled) (fun _ => 0) (fun _ => 0) wedgedRun)
      wedgedRun k t → k = 0 := by
    intro k t h
    induction h with
    | enter t hwaits hpc => rfl
    | report k t h hreport ih => exact ih
    | read i t h hthread hstate ih =>
        obtain rfl : i = 0 := Fin.ext ih
        rw [hfirst (isThread_wedgedRun.mp hthread)] at hstate
        exact absurd hstate (by decide)
  exact absurd (hnone _ _ hseen) (by decide)

end Paparazzi.QuadSwarm.InitThread
