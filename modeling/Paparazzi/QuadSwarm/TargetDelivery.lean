import Mathlib
import Paparazzi.Library.Machine
import Paparazzi.QuadSwarm.LinkInvariant

/-!
Targets reach their own quads. The `go_*` loop sends every target to the leader: as
long as the first message of a loop is the one the leader takes, the others find
it waiting for 0xfd, and every quad but the leader gets its target from
`wait_all_quads` only.
-/

namespace Paparazzi.QuadSwarm.TargetDelivery

open Paparazzi.Library Paparazzi.Library.FifoLink
open Paparazzi.Library.Machine
open Paparazzi.Math.GeodeticInt
open Paparazzi.Rotorcraft.Arming
open Paparazzi.QuadSwarm.Airborne hiding step
open Paparazzi.QuadSwarm.GroundStation Paparazzi.QuadSwarm.LinkInvariant

/-! ### The invariant of the whole system -/

/-- A `go_*` thread has begun to send its targets. -/
def sending : Pc → Bool
  | .goLoop _ | .waitCheck _ | .waitRead _ | .waitResend _ | .returned => true
  | _ => false

/-- The number of targets the running `go_*` thread has computed. -/
def computedUpTo (n : Nat) : Pc → Nat
  | .goLoop k => k
  | _ => n + 1

/-- The highest serial number sent. -/
def highest (pc : Pc) (command : Nat) : Nat := if sending pc then 2 * command else 2 * command + 1

/-- What the ground station has seen of a quad when it has come to a place. -/
def seenMark (pc : Pc) (command i : Nat) : Nat :=
  match pc with
  | .goCheckTakeoff k | .goCheckReport k => if i < k then 3 * command + 2 else 3 * command
  | .waitCheck k => if i < k then 3 * command else 3 * command - 1
  | .goLoop _ | .waitRead _ | .waitResend _ => 3 * command - 1
  | _ => 3 * command

section

variable {n : Nat}

structure Inv (s : World n) : Prop where
  quad : ∀ i, QuadInv (highest s.pc s.command) s.command s.target i (s.quad i)
  seen : ∀ i : Fin (n + 1), seenMark s.pc s.command i ≤ Quad.stateMark (s.quad i)
  target_le : ∀ j, (s.target j).command ≤ s.command
  begun : sending s.pc = true → 1 ≤ s.command
  computed : sending s.pc = true → ∀ j : Fin (n + 1), j < computedUpTo n s.pc →
    (s.target j).command = s.command ∧ (s.target j).quad = j
  uncomputed : sending s.pc = true → ∀ j : Fin (n + 1), computedUpTo n s.pc ≤ j →
    (s.target j).command < s.command
  heard : dead (s.quad leader).agent.quadSwarmState = true ∨
    s.heard ≤ (s.quad leader).storedCommand

theorem quadAt_some {k : Nat} {i : Fin (n + 1)} (h : quadAt k = some i) : i.val = k := by
  unfold quadAt at h
  split_ifs at h
  cases h
  rfl

theorem quadAt_none {k : Nat} (h : (quadAt k : Option (Fin (n + 1))) = none) : n + 1 ≤ k := by
  unfold quadAt at h
  split_ifs at h
  omega

variable {s : World n}

/-- One quad changes to a later state. -/
theorem Inv.modifyQuad (h : Inv s) {i : Fin (n + 1)} {f : Quad n → Quad n}
    (hquad : QuadInv (highest s.pc s.command) s.command s.target i (f (s.quad i)))
    (hlater : Later (s.quad i) (f (s.quad i))) : Inv (s.modifyQuad i f) where
  quad := by
    intro j
    by_cases hj : j = i
    · subst hj
      simpa [World.modifyQuad] using hquad
    · simpa [World.modifyQuad, hj] using h.quad j
  seen := by
    intro j
    by_cases hj : j = i
    · subst hj
      simpa [World.modifyQuad] using Nat.le_trans (h.seen j) hlater.state
    · simpa [World.modifyQuad, hj] using h.seen j
  target_le := h.target_le
  begun := h.begun
  computed := h.computed
  uncomputed := h.uncomputed
  heard := by
    by_cases hi : leader = i
    · subst hi
      have hheard := h.heard.imp hlater.dead fun hle => Nat.le_trans hle hlater.stored
      simpa [World.modifyQuad] using hheard
    · simpa [World.modifyQuad, hi] using h.heard

/-- The thread goes to another place of the same command. -/
theorem Inv.setPc (h : Inv s) {pc : Pc} (hhighest : highest s.pc s.command ≤ highest pc s.command)
    (hseen : ∀ i : Fin (n + 1), seenMark pc s.command i ≤ Quad.stateMark (s.quad i))
    (hsending : sending pc = true → sending s.pc = true ∧ computedUpTo n pc ≤ computedUpTo n s.pc ∧
      (computedUpTo n s.pc = computedUpTo n pc ∨ n + 1 ≤ computedUpTo n pc)) :
    Inv { s with pc := pc } where
  quad := by
    intro i
    refine (h.quad i).proceed hhighest (Nat.le_refl _) ?_ fun t _ ht => ht
    simp only [highest]
    split_ifs <;> omega
  seen := hseen
  target_le := h.target_le
  begun := fun hs => h.begun (hsending hs).1
  computed := by
    intro hs j hj
    obtain ⟨hsend, hle, -⟩ := hsending hs
    exact h.computed hsend j (Nat.lt_of_lt_of_le hj hle)
  uncomputed := by
    intro hs j hj
    obtain ⟨hsend, -, heq | hall⟩ := hsending hs
    · exact h.uncomputed hsend j (heq ▸ hj)
    · have hlt := j.isLt
      have hj : computedUpTo n pc ≤ j.val := hj
      omega
  heard := h.heard

/-- A packet with the highest serial number is sent. -/
theorem Inv.send (h : Inv s) {i : Fin (n + 1)} {p : Packet n}
    (hserial : Packet.serial p = highest s.pc s.command)
    (htarget : ∀ t b, p = .target t b → 3 * t.command ≤ Quad.mark (s.quad i) + 1 ∧
      t = s.target t.quad ∧ (t.quad = i ∨ b = true ∧ i = leader)) : Inv (s.send i p) :=
  h.modifyQuad ((h.quad i).send hserial htarget) ⟨id, Nat.le_refl _, Nat.le_refl _⟩

/-- The thread has found all quads ready and begins a command. -/
theorem Inv.startLoop (h : Inv s) (hsending : sending s.pc = false)
    (hseen : ∀ i : Fin (n + 1), 3 * s.command + 2 ≤ Quad.stateMark (s.quad i)) :
    Inv { s with pc := .goLoop 0, command := s.command + 1 } where
  quad := by
    intro i
    have hhighest : highest s.pc s.command = 2 * s.command + 1 := by
      simp [highest, hsending]
    refine (h.quad i).proceed ?_ (Nat.le_succ _) (by omega) ?_
    · rw [hhighest]
      change 2 * s.command + 1 ≤ 2 * (s.command + 1)
      omega
    · intro t hle _ hcommand
      change t.command = s.command + 1 at hcommand
      omega
  seen := by
    intro i
    have hi := hseen i
    change 3 * (s.command + 1) - 1 ≤ Quad.stateMark (s.quad i)
    omega
  target_le := fun j => Nat.le_succ_of_le (h.target_le j)
  begun := fun _ => Nat.le_add_left _ _
  computed := fun _ j hj => absurd hj (Nat.not_lt_zero _)
  uncomputed := fun _ j _ => Nat.lt_succ_of_le (h.target_le j)
  heard := h.heard

/-- A target is computed, for the first time by this command. -/
theorem Inv.computeTarget (h : Inv s) {k : Nat} {i : Fin (n + 1)} (hpc : s.pc = .goLoop k)
    (hi : i.val = k) (pos : EcefCoorI) :
    Inv { s.computeTarget i pos with pc := .goLoop (k + 1) } where
  quad := by
    intro j
    have hsending : sending s.pc = true := by rw [hpc]; rfl
    have hhighest : highest s.pc s.command = 2 * s.command := by simp [highest, hsending]
    refine (h.quad j).proceed (Nat.le_of_eq hhighest) (Nat.le_refl _) (by omega) ?_
    intro t _ ht hcommand
    have hne : t.quad ≠ i := by
      intro hquad
      have hold := h.uncomputed hsending i (by rw [hpc]; exact Nat.le_of_eq hi.symm)
      rw [← hquad, ← ht hcommand] at hold
      change t.command = s.command at hcommand
      omega
    simpa [World.computeTarget, hne] using ht hcommand
  seen := by
    intro j
    have hseen := h.seen j
    rw [hpc] at hseen
    exact hseen
  target_le := by
    intro j
    by_cases hj : j = i
    · subst hj
      simp [World.computeTarget]
    · simpa [World.computeTarget, hj] using h.target_le j
  begun := fun _ => h.begun (by rw [hpc]; rfl)
  computed := by
    intro _ j hj
    change j.val < k + 1 at hj
    by_cases hji : j = i
    · subst hji
      simp [World.computeTarget]
    · have hne : j.val ≠ i.val := fun heq => hji (Fin.ext heq)
      have hold := h.computed (by rw [hpc]; rfl) j (by
        rw [hpc]
        change j.val < k
        omega)
      simpa [World.computeTarget, hji] using hold
  uncomputed := by
    intro _ j hj
    change k + 1 ≤ j.val at hj
    have hji : j ≠ i := by
      rintro rfl
      omega
    have hold := h.uncomputed (by rw [hpc]; rfl) j (by
      rw [hpc]
      change k ≤ j.val
      omega)
    simpa [World.computeTarget, hji] using hold
  heard := h.heard

/-! ### The thread -/

/-- The state of a quad the ground station reads, as a mark. -/
theorem stateMark_eq {q : Quad n} {phase : SwarmPhase} (h : q.state = phase) :
    Quad.stateMark q = 3 * q.stateStored + rank phase := by
  rw [Quad.stateMark, mark, h]

/-- One more quad is found to be in a state of rank 2. -/
theorem seen_ready {k : Nat} {i : Fin (n + 1)} (hi : i.val = k)
    (hseen : ∀ j : Fin (n + 1),
      (if j.val < k then 3 * s.command + 2 else 3 * s.command) ≤ Quad.stateMark (s.quad j))
    {phase : SwarmPhase} (hstate : (s.quad i).state = phase) (hrank : rank phase = 2)
    (j : Fin (n + 1)) :
    (if j.val < k + 1 then 3 * s.command + 2 else 3 * s.command) ≤
      Quad.stateMark (s.quad j) := by
  have hj := hseen j
  by_cases hji : j = i
  · subst hji
    have hmark := stateMark_eq hstate
    split_ifs at hj ⊢ <;> omega
  · have hne : j.val ≠ i.val := fun heq => hji (Fin.ext heq)
    split_ifs at hj ⊢ <;> omega

/-- After the last quad, all have been found in such a state. -/
theorem seen_all {k : Nat} (hk : (quadAt k : Option (Fin (n + 1))) = none)
    (hseen : ∀ j : Fin (n + 1),
      (if j.val < k then 3 * s.command + 2 else 3 * s.command) ≤ Quad.stateMark (s.quad j))
    (j : Fin (n + 1)) : 3 * s.command + 2 ≤ Quad.stateMark (s.quad j) := by
  have hlast := quadAt_none hk
  have hlt := j.isLt
  have hj := hseen j
  rwa [if_pos (by omega)] at hj

/-- What has been found is forgotten. -/
theorem seen_none {k : Nat} (hseen : ∀ j : Fin (n + 1),
      (if j.val < k then 3 * s.command + 2 else 3 * s.command) ≤ Quad.stateMark (s.quad j))
    (j : Fin (n + 1)) : 3 * s.command ≤ Quad.stateMark (s.quad j) := by
  have hj := hseen j
  split_ifs at hj <;> omega

theorem Inv.goCheckTakeoff (h : Inv s) {k : Nat} (hpc : s.pc = .goCheckTakeoff k)
    (pos : EcefCoorI) (elapsed : Bool) : Inv (threadStep s pos elapsed) := by
  have hseen := h.seen
  simp only [hpc, seenMark] at hseen
  simp only [threadStep, hpc]
  cases hk : (quadAt k : Option (Fin (n + 1))) with
  | none => exact h.startLoop (by rw [hpc]; rfl) (seen_all hk hseen)
  | some i =>
      dsimp only
      split_ifs with hstate
      · refine h.setPc (by rw [hpc]; exact Nat.le_refl _) ?_ nofun
        exact seen_ready (quadAt_some hk) hseen hstate rfl
      · refine h.setPc (by rw [hpc]; exact Nat.le_refl _) ?_ nofun
        simpa [seenMark] using seen_none hseen

theorem Inv.goCheckReport (h : Inv s) {k : Nat} (hpc : s.pc = .goCheckReport k)
    (pos : EcefCoorI) (elapsed : Bool) : Inv (threadStep s pos elapsed) := by
  have hseen := h.seen
  simp only [hpc, seenMark] at hseen
  simp only [threadStep, hpc]
  cases hk : (quadAt k : Option (Fin (n + 1))) with
  | none => exact h.startLoop (by rw [hpc]; rfl) (seen_all hk hseen)
  | some i =>
      dsimp only
      split_ifs with hstate
      · refine h.setPc (by rw [hpc]; exact Nat.le_refl _) ?_ nofun
        exact seen_ready (quadAt_some hk) hseen hstate rfl
      · refine h.setPc (by rw [hpc]; exact Nat.le_refl _) ?_ nofun
        exact seen_none hseen

theorem Inv.goLoop (h : Inv s) {k : Nat} (hpc : s.pc = .goLoop k)
    (pos : EcefCoorI) (elapsed : Bool) : Inv (threadStep s pos elapsed) := by
  have hbegun := h.begun (by rw [hpc]; rfl)
  have hseen := h.seen
  simp only [hpc, seenMark] at hseen
  simp only [threadStep, hpc]
  cases hk : (quadAt k : Option (Fin (n + 1))) with
  | none =>
      have hlast := quadAt_none hk
      have hwait : Inv { s with pc := .waitCheck 0 } := by
        refine h.setPc (by rw [hpc]; exact Nat.le_refl _) ?_ ?_
        · intro j
          have hj := hseen j
          simpa [seenMark] using hj
        · intro _
          rw [hpc]
          exact ⟨rfl, hlast, Or.inr (Nat.le_refl _)⟩
      exact
        { quad := fun i => { hwait.quad i with }
          seen := hwait.seen
          target_le := hwait.target_le
          begun := hwait.begun
          computed := hwait.computed
          uncomputed := hwait.uncomputed
          heard := hwait.heard }
  | some i =>
      have hcomputed := h.computeTarget hpc (quadAt_some hk) pos
      have htarget : (s.computeTarget i pos).target i = ⟨pos, s.command, i⟩ := by
        simp [World.computeTarget]
      dsimp only
      rw [htarget]
      refine hcomputed.send (i := leader) (p := .target ⟨pos, s.command, i⟩ true) rfl ?_
      intro t b ht
      cases ht
      refine ⟨?_, htarget.symm, Or.inr ⟨rfl, rfl⟩⟩
      have hleader := hseen leader
      have hle := (h.quad leader).state_le
      change 3 * s.command ≤ Quad.mark (s.quad leader) + 1
      omega

theorem Inv.waitCheck (h : Inv s) {k : Nat} (hpc : s.pc = .waitCheck k)
    (pos : EcefCoorI) (elapsed : Bool) : Inv (threadStep s pos elapsed) := by
  have hbegun := h.begun (by rw [hpc]; rfl)
  have hseen := h.seen
  simp only [hpc, seenMark] at hseen
  have hsame : ∀ pc, sending pc = true → computedUpTo n pc = n + 1 →
      (sending pc = true → sending s.pc = true ∧ computedUpTo n pc ≤ computedUpTo n s.pc ∧
        (computedUpTo n s.pc = computedUpTo n pc ∨ n + 1 ≤ computedUpTo n pc)) := by
    intro pc _ heq _
    rw [hpc, heq]
    exact ⟨rfl, Nat.le_refl _, Or.inr (Nat.le_refl _)⟩
  simp only [threadStep, hpc]
  cases hk : (quadAt k : Option (Fin (n + 1))) with
  | none =>
      have hlast := quadAt_none hk
      refine h.setPc (by rw [hpc]; exact Nat.le_refl _) ?_ (hsame _ rfl rfl)
      intro i
      have hi := hseen i
      have hlt := i.isLt
      rwa [if_pos (by omega)] at hi
  | some i =>
      dsimp only
      split_ifs with hstate
      · refine h.setPc (by rw [hpc]; exact Nat.le_refl _) ?_ (hsame _ rfl rfl)
        intro j
        have hj := hseen j
        have hi := quadAt_some hk
        simp only [seenMark]
        by_cases hji : j = i
        · subst hji
          have hmark := stateMark_eq hstate
          simp only [rank] at hmark
          split_ifs at hj ⊢ <;> omega
        · have hne : j.val ≠ i.val := fun heq => hji (Fin.ext heq)
          split_ifs at hj ⊢ <;> omega
      · refine h.setPc (by rw [hpc]; exact Nat.le_refl _) ?_ (hsame _ rfl rfl)
        intro j
        have hj := hseen j
        simp only [seenMark]
        split_ifs at hj <;> omega

/-- From place to place in the wait. -/
theorem Inv.waiting (h : Inv s) {pc : Pc} (hsending : sending s.pc = true)
    (hall : computedUpTo n s.pc = n + 1) (hpc : sending pc = true)
    (hpcAll : computedUpTo n pc = n + 1)
    (hseen : ∀ i : Fin (n + 1), seenMark pc s.command i ≤ Quad.stateMark (s.quad i)) :
    Inv { s with pc := pc } := by
  refine h.setPc ?_ hseen ?_
  · exact Nat.le_of_eq (by rw [highest, highest, hsending, hpc])
  · intro _
    rw [hall, hpcAll]
    exact ⟨hsending, Nat.le_refl _, Or.inr (Nat.le_refl _)⟩

theorem Inv.waitRead (h : Inv s) {k : Nat} (hpc : s.pc = .waitRead k)
    (pos : EcefCoorI) (elapsed : Bool) : Inv (threadStep s pos elapsed) := by
  have hseen := h.seen
  simp only [hpc, seenMark] at hseen
  have hsending : sending s.pc = true := by rw [hpc]; rfl
  have hall : computedUpTo n s.pc = n + 1 := by rw [hpc]; rfl
  simp only [threadStep, hpc]
  cases hk : (quadAt k : Option (Fin (n + 1))) with
  | none => exact h.waiting hsending hall rfl rfl (by simpa [seenMark] using hseen)
  | some i =>
      dsimp only
      split_ifs
      · exact h.waiting hsending hall rfl rfl hseen
      · exact h.waiting hsending hall rfl rfl hseen

theorem Inv.waitResend (h : Inv s) {k : Nat} (hpc : s.pc = .waitResend k)
    (pos : EcefCoorI) (elapsed : Bool) : Inv (threadStep s pos elapsed) := by
  have hbegun := h.begun (by rw [hpc]; rfl)
  have hseen := h.seen
  simp only [hpc, seenMark] at hseen
  have hsending : sending s.pc = true := by rw [hpc]; rfl
  have hall : computedUpTo n s.pc = n + 1 := by rw [hpc]; rfl
  simp only [threadStep, hpc]
  cases hk : (quadAt k : Option (Fin (n + 1))) with
  | none => exact h.waiting hsending hall rfl rfl (by simpa [seenMark] using hseen)
  | some i =>
      dsimp only
      split_ifs
      · have hread : Inv { s with pc := .waitRead (k + 1) } :=
          h.waiting hsending hall rfl rfl hseen
        have htime : Inv (({ s with pc := .waitRead (k + 1) } : World n).modifyQuad i
            fun q => { q with lastTimestamp := q.timestamp }) :=
          hread.modifyQuad { hread.quad i with } ⟨id, Nat.le_refl _, Nat.le_refl _⟩
        obtain ⟨hcommand, hquad⟩ := h.computed hsending i (by rw [hall]; exact i.isLt)
        refine htime.send (i := i) (p := .target (s.target i) false) ?_ ?_
        · change 2 * (s.target i).command = 2 * s.command
          rw [hcommand]
        · intro t b ht
          cases ht
          refine ⟨?_, ?_, Or.inl hquad⟩
          · have hi := hseen i
            have hle := (h.quad i).state_le
            rw [hcommand]
            simp only [World.modifyQuad, Function.update_self]
            change 3 * s.command ≤ Quad.mark (s.quad i) + 1
            omega
          · rw [hquad]
            rfl
      · exact h.waiting hsending hall rfl rfl hseen

/-- Where no command is under way nothing but the seen marks matters. -/
theorem Inv.setPc_quiet (h : Inv s) {pc : Pc} (hseen : ∀ i : Fin (n + 1),
    seenMark pc s.command i ≤ Quad.stateMark (s.quad i)) (hpc : sending pc = false) :
    Inv { s with pc := pc } := by
  refine h.setPc ?_ hseen ?_
  · simp only [highest, hpc, Bool.false_eq_true, if_false]
    split_ifs <;> omega
  · intro hs
    rw [hpc] at hs
    cases hs

theorem Inv.exec (h : Inv s) (hseen : ∀ i : Fin (n + 1),
    3 * s.command ≤ Quad.stateMark (s.quad i)) (i : Fin (n + 1)) {pc : Pc}
    (hpc : sending pc = false) (hpcSeen : ∀ i, seenMark pc s.command i = 3 * s.command) :
    Inv { s.send i (.exec s.command) with pc := pc } := by
  have hset : Inv { s with pc := pc } :=
    h.setPc_quiet (fun i => by rw [hpcSeen]; exact hseen i) hpc
  refine hset.send (i := i) (p := .exec s.command) ?_ nofun
  simp [Packet.serial, highest, hpc]

theorem Inv.thread (h : Inv s) (pos : EcefCoorI) (elapsed : Bool) :
    Inv (threadStep s pos elapsed) := by
  have hseen := h.seen
  cases hpc : s.pc with
  | idle => simpa [threadStep, hpc] using h
  | goCheckTakeoff k => exact h.goCheckTakeoff hpc pos elapsed
  | goCheckReport k => exact h.goCheckReport hpc pos elapsed
  | goLoop k => exact h.goLoop hpc pos elapsed
  | waitCheck k => exact h.waitCheck hpc pos elapsed
  | waitRead k => exact h.waitRead hpc pos elapsed
  | waitResend k => exact h.waitResend hpc pos elapsed
  | returned =>
      rw [hpc] at hseen
      simp only [threadStep, hpc]
      exact h.setPc_quiet hseen rfl
  | execCheck k | execWait k | execReport k =>
      rw [hpc] at hseen
      simp only [threadStep, hpc]
      cases (quadAt k : Option (Fin (n + 1))) with
      | none => exact h.setPc_quiet hseen rfl
      | some i =>
          dsimp only
          split_ifs
          · exact h.setPc_quiet hseen rfl
          · exact h.setPc_quiet hseen rfl
  | execSend k =>
      rw [hpc] at hseen
      simp only [threadStep, hpc]
      cases (quadAt k : Option (Fin (n + 1))) with
      | none => exact h.setPc_quiet hseen rfl
      | some i =>
          dsimp only
          split_ifs
          · exact h.exec hseen i rfl fun _ => rfl
          · exact h.setPc_quiet hseen rfl

/-! ### The quads -/

/-- The condition on a step: a target that the loop computed for another quad
reaches the leader, while it waits for a target, only after the leader's own of
the same command. -/
def FirstHeard (s : World n) : Event n → Prop
  | .receive i =>
      match (s.quad i).down with
      | .target t true :: _ =>
          t.quad ≠ leader → acceptsTarget (s.quad i).agent.quadSwarmState = true →
            s.heard = t.command
      | _ => True
  | _ => True

instance FirstHeard.decidable (s : World n) : (e : Event n) → Decidable (FirstHeard s e)
  | .receive i =>
      match h : (s.quad i).down with
      | .target t true :: _ =>
          decidable_of_iff (t.quad ≠ leader →
            acceptsTarget (s.quad i).agent.quadSwarmState = true → s.heard = t.command)
            (by simp only [FirstHeard, h])
      | .target _ false :: _ | .exec _ :: _ | [] => isTrue (by simp only [FirstHeard, h])
  | .startGo | .startExec | .thread _ _ | .periodic _ | .gotoBlock _ _ _ | .lose _ _
  | .duplicate _ _ | .report _ | .loseReport _ _ | .duplicateReport _ _ => isTrue trivial

variable {fleet : Fleet n}

theorem acIdOf_inj (fleet : Fleet n) {i j : Fin (n + 1)} (h : acIdOf i = acIdOf j) : i = j := by
  have hle := fleet.quadNb_le
  have hi := i.isLt
  have hj := j.isLt
  have hnat := congrArg UInt8.toNat h
  change (i.val + 1) % 256 = (j.val + 1) % 256 at hnat
  apply Fin.ext
  omega

theorem highest_le (pc : Pc) (command : Nat) : highest pc command ≤ 2 * command + 1 := by
  unfold highest
  split_ifs <;> omega

/-- A quad that takes a target takes its own: the leader has taken its own already
when another's arrives. -/
theorem Inv.takes_own (h : Inv s) {i : Fin (n + 1)} {t : Target n} {b : Bool}
    {rest : List (Packet n)} (hdown : (s.quad i).down = .target t b :: rest)
    (hok : FirstHeard s (.receive i))
    (haccept : acceptsTarget (s.quad i).agent.quadSwarmState = true) : t.quad = i := by
  have hmem : Packet.target t b ∈ (s.quad i).down := hdown ▸ List.mem_cons_self
  obtain hquad | ⟨rfl, rfl⟩ := ((h.quad i).down_target t b hmem).2
  · exact hquad
  · by_contra hquad
    simp only [FirstHeard, hdown] at hok
    have hheard := hok hquad haccept
    have hlt := (h.quad leader).stored_lt_of_accepted hmem haccept
    rcases h.heard with hdead | hle
    · rw [(accepts_alive haccept).1] at hdead
      cases hdead
    · omega

theorem Inv.receive (h : Inv s) {i : Fin (n + 1)} (hok : FirstHeard s (.receive i)) :
    Inv (step fleet s (.receive i)) := by
  simp only [step]
  cases hdown : (s.quad i).down with
  | nil => exact h
  | cons p rest =>
      have hid := fleet.acId_eq i
      cases p with
      | exec c =>
          obtain ⟨hquad, hlater⟩ := (h.quad i).receive_exec (fleet.cfg i) hdown
          have hinv := h.modifyQuad (f := fun q =>
            ({ q with down := rest }).receive (fleet.cfg i) i (.exec c)) hquad hlater
          exact { hinv with heard := hinv.heard }
      | target t b =>
          obtain ⟨hquad, hlater⟩ := (h.quad i).receive_target hdown hid
            (highest_le s.pc s.command) (h.takes_own hdown hok)
          have hinv := h.modifyQuad (f := fun q =>
            ({ q with down := rest }).receive (fleet.cfg i) i (.target t b)) hquad hlater
          refine { hinv with heard := ?_ }
          simp only [heardAfter]
          split_ifs with hfirst
          · obtain ⟨rfl, -, hleader⟩ := hfirst
            have hmem : Packet.target t b ∈ (s.quad leader).down := hdown ▸ List.mem_cons_self
            simp only [World.modifyQuad, Function.update_self]
            by_cases haccept : acceptsTarget (s.quad leader).agent.quadSwarmState = true
            · right
              simp [Quad.receive, Quad.storedCommand, haccept]
            · have hrefused := (h.quad leader).stored_of_refused hmem (by simpa using haccept)
              exact hrefused.imp hlater.dead fun hle => Nat.le_trans hle hlater.stored
          · exact hinv.heard

/-- A link to a quad keeps its order and gets nothing new. -/
theorem Inv.changeDown (h : Inv s) (i : Fin (n + 1)) {f : List (Packet n) → List (Packet n)}
    (horder : ∀ l, InOrder Packet.serial l → InOrder Packet.serial (f l))
    (hsub : ∀ l, ∀ p ∈ f l, p ∈ l) : Inv (s.modifyQuad i fun q => { q with down := f q.down }) :=
  h.modifyQuad ((h.quad i).down (horder _ (h.quad i).down_inOrder) (hsub _))
    ⟨id, Nat.le_refl _, Nat.le_refl _⟩

theorem Inv.changeUp (h : Inv s) (i : Fin (n + 1)) {f : List UpReport → List UpReport}
    (horder : ∀ l, InOrder UpReport.mark l → InOrder UpReport.mark (f l))
    (hsub : ∀ l, ∀ r ∈ f l, r ∈ l) : Inv (s.modifyQuad i fun q => { q with up := f q.up }) :=
  h.modifyQuad ((h.quad i).up (horder _ (h.quad i).up_inOrder) (hsub _))
    ⟨id, Nat.le_refl _, Nat.le_refl _⟩

theorem Inv.report (h : Inv s) {i : Fin (n + 1)} : Inv (step fleet s (.report i)) := by
  simp only [step]
  cases hup : (s.quad i).up with
  | nil => exact h
  | cons r rest =>
      obtain ⟨hquad, hlater⟩ := (h.quad i).setState hup
      have hid := (h.quad i).up_acId r (hup ▸ List.mem_cons_self)
      have hinv := h.modifyQuad (f := fun q => ({ q with up := rest }).setState r) hquad hlater
      -- the report is about the quad it came from
      have hsame : (fun j => if acIdOf j = r.report.acId then
            ((s.modifyQuad i fun q => { q with up := rest }).quad j).setState r
          else (s.modifyQuad i fun q => { q with up := rest }).quad j) =
          (s.modifyQuad i fun q => ({ q with up := rest }).setState r).quad := by
        funext j
        by_cases hj : j = i
        · subst hj
          simp [World.modifyQuad, hid]
        · have hne : acIdOf j ≠ r.report.acId := by
            rw [hid]
            exact fun heq => hj (acIdOf_inj fleet heq)
          simp [World.modifyQuad, hj, hne]
      dsimp only
      rw [hsame]
      exact hinv

/-- Every step that meets the condition preserves the invariant. -/
theorem inv_step (fleet : Fleet n) (s : World n) (e : Event n) (h : Inv s)
    (hok : FirstHeard s e) : Inv (step fleet s e) := by
  cases e with
  | startGo =>
      simp only [step]
      split_ifs with hpc
      · have hseen := h.seen
        rw [hpc] at hseen
        exact h.setPc_quiet (by simpa [seenMark] using hseen) rfl
      · exact h
  | startExec =>
      simp only [step]
      split_ifs with hpc
      · have hseen := h.seen
        rw [hpc] at hseen
        exact h.setPc_quiet hseen rfl
      · exact h
  | thread pos elapsed => exact h.thread pos elapsed
  | periodic i =>
      obtain ⟨hquad, hlater⟩ := (h.quad i).periodic (fleet.acId_eq i)
      exact h.modifyQuad hquad hlater
  | gotoBlock i position b =>
      have hquad := (h.quad i).gotoBlock (fleet.cfg i) position b
      exact h.modifyQuad (i := i) (f := fun q =>
        { q with agent := Airborne.step (fleet.cfg i) q.agent (.gotoBlock position b) })
        hquad ⟨id, Nat.le_refl _, Nat.le_refl _⟩
  | receive i => exact h.receive hok
  | lose i k => exact h.changeDown i (fun _ h => h.lose k) fun _ _ hp => mem_of_mem_lose hp
  | duplicate i k =>
      exact h.changeDown i (fun _ h => h.duplicate k) fun _ _ hp => mem_of_mem_duplicate hp
  | report i => exact h.report
  | loseReport i k => exact h.changeUp i (fun _ h => h.lose k) fun _ _ hr => mem_of_mem_lose hr
  | duplicateReport i k =>
      exact h.changeUp i (fun _ h => h.duplicate k) fun _ _ hr => mem_of_mem_duplicate hr

/-! ### Runs -/

/-- No command has begun: the links are empty, the quads are in NAV and do not wait
for 0xfd, and no recorded state is ahead of its quad. -/
structure Start (s : World n) : Prop where
  pc : s.pc = .idle
  command : s.command = 0
  heard : s.heard = 0
  target : ∀ i, (s.target i).command = 0
  quad : ∀ i, (s.quad i).down = [] ∧ (s.quad i).up = [] ∧ (s.quad i).stored = none ∧
    (s.quad i).executed = none ∧ (s.quad i).stateStored = 0
  agent : ∀ i, (s.quad i).agent.quadSwarmInitilized = true ∧
    (s.quad i).agent.autopilot.autopilotMode = apModeNav ∧
    (s.quad i).agent.quadSwarmState ≠ .waitExecAck ∧ (s.quad i).agent.quadSwarmState ≠ .execCmd
  state : ∀ i, rank (s.quad i).state ≤ rank (s.quad i).agent.quadSwarmState

/-- Every quad has stored, and moved `SWARM_WP` to, targets computed for it only;
and when `wait_all_quads(SWARM_WAIT_EXEC_ACK)` has returned, the stored target of
every quad is its entry of `target[]`, computed by this command. -/
structure Safe (s : World n) : Prop where
  stored_pos : ∀ i t, (s.quad i).stored = some t → (s.quad i).agent.quadSwarmTarget = t.pos
  stored : ∀ i t, (s.quad i).stored = some t → t.quad = i
  executed : ∀ i t, (s.quad i).executed = some t → t.quad = i
  returned : s.pc = .returned → ∀ i, (s.quad i).stored = some (s.target i) ∧
    (s.target i).command = s.command ∧ (s.target i).quad = i

theorem inv_start (h : Start s) : Inv s where
  quad := by
    intro i
    obtain ⟨hdown, hup, hstored, hexecuted, hstateStored⟩ := h.quad i
    obtain ⟨hinit, hnav, hwait, hexec⟩ := h.agent i
    have hcommand : (s.quad i).storedCommand = 0 := by simp [Quad.storedCommand, hstored]
    exact
      { init := hinit
        nav := hnav
        down_inOrder := by
          rw [hdown]
          exact InOrder.nil
        down_le := by simp [hdown]
        lowest_le := by
          intro _
          simp [lowest, hwait, hcommand, h.pc, h.command, highest, sending]
        down_new := by simp [hdown]
        down_begun := by simp [hdown]
        down_target := by simp [hdown]
        stored_own := by simp [hstored]
        stored_target := by simp [hstored]
        executed_own := by simp [hexecuted]
        up_inOrder := by
          rw [hup]
          exact InOrder.nil
        up_mark := by simp [hup]
        state_le := by
          simp only [Quad.stateMark, Quad.mark, mark, hstateStored, hcommand]
          exact Nat.add_le_add_left (h.state i) _
        up_acId := by simp [hup] }
  seen := by simp [h.pc, h.command, seenMark]
  target_le := fun j => Nat.le_of_eq ((h.target j).trans h.command.symm)
  begun := by simp [h.pc, sending]
  computed := by simp [h.pc, sending]
  uncomputed := by simp [h.pc, sending]
  heard := by simp [h.heard]

theorem Inv.safe (h : Inv s) : Safe s where
  stored_pos := fun i t ht => ((h.quad i).stored_own t ht).2.symm
  stored := fun i t ht => ((h.quad i).stored_own t ht).1
  executed := fun i t ht => (h.quad i).executed_own t ht
  returned := by
    intro hpc i
    have hbegun := h.begun (by rw [hpc]; rfl)
    have hcomputed := h.computed (by rw [hpc]; rfl) i (by rw [hpc]; exact i.isLt)
    have hseen := h.seen i
    rw [hpc] at hseen
    have hle := (h.quad i).state_le
    have hrank : rank (s.quad i).agent.quadSwarmState ≤ 2 := by
      cases (s.quad i).agent.quadSwarmState <;> decide
    have hmark : 3 * s.command ≤ 3 * (s.quad i).storedCommand + 2 := by
      simp only [Quad.mark, mark, seenMark] at hle hseen
      omega
    cases hstored : (s.quad i).stored with
    | none =>
        simp only [Quad.storedCommand, hstored] at hmark
        omega
    | some t =>
        obtain ⟨hcommand, htarget⟩ := (h.quad i).stored_target t hstored
        simp only [Quad.storedCommand, hstored] at hmark
        have hnow : t.command = s.command := by omega
        exact ⟨congrArg some (htarget hnow), hcomputed⟩

/-- In every run of the threads, the quads and the links in which the leader hears
its own target of each loop before the others, targets reach their own quads. -/
theorem targets_reach_own_quads (fleet : Fleet n) {s : World n} (hs : Start s)
    {es : List (Event n)} (hok : RunOk (step fleet) FirstHeard s es) :
    Safe (run (step fleet) s es) :=
  Inv.safe (run_invariant _ (inv_step fleet) (inv_start hs) hok)

end

/-- Two quads that hover and wait for a command. -/
def pair : Fleet 1 where
  cfg i := { bootedConfig with acId := acIdOf i }
  acId_eq _ := rfl
  quadNb_le := by decide

def pairReady : World 1 where
  quad _ :=
    { agent :=
        { bootedAgent with
          quadSwarmState := .waitCmdTakeoff
          autopilot := { bootedAgent.autopilot with autopilotMode := apModeNav } }
      down := []
      up := []
      state := .waitCmdTakeoff
      timestamp := 1
      lastTimestamp := 0
      stored := none
      executed := none
      stateStored := 0 }
  target i := ⟨⟨0, 0, 0⟩, 0, i⟩
  pc := .idle
  command := 0
  heard := 0

theorem start_pairReady : Start pairReady where
  pc := rfl
  command := rfl
  heard := rfl
  target _ := rfl
  quad _ := ⟨rfl, rfl, rfl, rfl, rfl⟩
  agent _ := ⟨rfl, rfl, nofun, nofun⟩
  state _ := Nat.le_refl _

/-- A `go_*` command up to the end of its loop. -/
def goEvents : List (Event 1) :=
  [.startGo, .thread ⟨0, 0, 0⟩ false, .thread ⟨0, 0, 0⟩ false, .thread ⟨0, 0, 0⟩ false,
    .thread ⟨1, 1, 1⟩ false, .thread ⟨2, 2, 2⟩ false, .thread ⟨0, 0, 0⟩ false]

/-- The rest of it: the leader takes its target and reports, the other quad gets its
own by the first resending. -/
def waitEvents : List (Event 1) :=
  [.receive 0, .receive 0, .periodic 0, .report 0, .thread ⟨0, 0, 0⟩ false,
    .thread ⟨0, 0, 0⟩ false, .thread ⟨0, 0, 0⟩ false, .thread ⟨0, 0, 0⟩ false,
    .thread ⟨0, 0, 0⟩ false, .thread ⟨0, 0, 0⟩ false, .receive 1, .periodic 1, .report 1,
    .thread ⟨0, 0, 0⟩ false, .thread ⟨0, 0, 0⟩ false, .thread ⟨0, 0, 0⟩ false]

theorem targets_reach_own_quads_pair :
    (run (step pair) pairReady (goEvents ++ waitEvents)).pc = .returned ∧
      Safe (run (step pair) pairReady (goEvents ++ waitEvents)) :=
  ⟨by decide, targets_reach_own_quads pair start_pairReady (by decide)⟩

/-- The first message of the loop is lost, and the leader takes the target that was
computed for the other quad. -/
theorem leader_takes_another_target :
    Start pairReady ∧ ¬ Safe (run (step pair) pairReady (goEvents ++ [.lose 0 0, .receive 0])) := by
  refine ⟨start_pairReady, fun h => ?_⟩
  have hquad := h.stored 0 ⟨⟨2, 2, 2⟩, 1, 1⟩ (by decide)
  exact absurd hquad (by decide)

end Paparazzi.QuadSwarm.TargetDelivery
