import Mathlib.Data.Fintype.EquivFin
import Mathlib.Data.List.Basic
import Paparazzi.Library.Machine

/-!
Endless runs of event-driven machines, and what must happen in them: a rank that drops at
every fair step brings the goal, or one that drops at the step that helps, and turns that keep
their distance come to every party.
-/

namespace Paparazzi.Library.Liveness

variable {σ ε : Type*}

/-- The states of the endless run from `s` with the events `ω`. -/
def trace (step : σ → ε → σ) (s : σ) (ω : Nat → ε) : Nat → σ
  | 0 => s
  | t + 1 => step (trace step s ω t) (ω t)

/-- Again and again. -/
def Recurs (p : Nat → Prop) : Prop := ∀ t, ∃ t', t ≤ t' ∧ p t'

/-- From some time on, for ever. -/
def Stays (p : Nat → Prop) : Prop := ∃ t, ∀ t', t ≤ t' → p t'

theorem Stays.and {p q : Nat → Prop} (hp : Stays p) (hq : Stays q) : Stays fun t => p t ∧ q t := by
  obtain ⟨tp, hp⟩ := hp
  obtain ⟨tq, hq⟩ := hq
  refine ⟨max tp tq, ?_⟩
  rintro t ht
  exact ⟨hp t (by omega), hq t (by omega)⟩

/-- What stays for each of finitely many indices stays for all of them at once. -/
theorem Stays.forall_fin {n : Nat} {p : Fin n → Nat → Prop} (h : ∀ i, Stays (p i)) :
    Stays fun t => ∀ i, p i t := by
  induction n with
  | zero => exact ⟨0, fun t _ i => i.elim0⟩
  | succ n ih =>
      obtain ⟨t, ht⟩ := (h 0).and (ih fun i => h i.succ)
      refine ⟨t, ?_⟩
      rintro t' hle i
      obtain ⟨hfirst, hrest⟩ := ht t' hle
      cases i using Fin.cases with
      | zero => exact hfirst
      | succ i => exact hrest i

/-- An invariant of the steps from some time on. -/
theorem trace_invariant {step : σ → ε → σ} {s : σ} {ω : Nat → ε} (inv : σ → Prop) {t₀ : Nat}
    (hstep : ∀ t, t₀ ≤ t → inv (trace step s ω t) → inv (trace step s ω (t + 1)))
    (h : inv (trace step s ω t₀)) {t : Nat} (ht : t₀ ≤ t) : inv (trace step s ω t) := by
  obtain ⟨d, rfl⟩ := Nat.exists_eq_add_of_le ht
  induction d with
  | zero => exact h
  | succ d ih => exact hstep (t₀ + d) (Nat.le_add_right _ _) (ih (Nat.le_add_right _ _))

/-- The rank rule: if from `t₀` on every step keeps the rank or reaches the goal, and the steps
that recur lower it, then the goal is reached. -/
theorem eventually_of_rank {x : Nat → σ} {goal : σ → Prop} (rank : σ → Nat) {fair : Nat → Prop}
    (t₀ : Nat) (hfair : Recurs fair)
    (hkeep : ∀ t, t₀ ≤ t → ¬ goal (x t) → rank (x (t + 1)) ≤ rank (x t) ∨ goal (x (t + 1)))
    (hdrop : ∀ t, t₀ ≤ t → ¬ goal (x t) → fair t →
      rank (x (t + 1)) < rank (x t) ∨ goal (x (t + 1))) :
    ∃ t, goal (x t) := by
  by_contra hnever
  have hno (t : Nat) : ¬ goal (x t) := fun h => hnever ⟨t, h⟩
  have hmono (t : Nat) (ht : t₀ ≤ t) : rank (x (t + 1)) ≤ rank (x t) :=
    (hkeep t ht (hno t)).resolve_right (hno (t + 1))
  have hanti (t : Nat) (ht : t₀ ≤ t) (d : Nat) : rank (x (t + d)) ≤ rank (x t) := by
    induction d with
    | zero => exact Nat.le_refl _
    | succ d ih => exact Nat.le_trans (hmono (t + d) (by omega)) ih
  have hbound (r : Nat) : ∀ t, t₀ ≤ t → r ≤ rank (x t) := by
    induction r with
    | zero => exact fun t _ => Nat.zero_le _
    | succ r ih =>
        intro t ht
        obtain ⟨t', hle, hf⟩ := hfair t
        have hlt := (hdrop t' (by omega) (hno t') hf).resolve_right (hno (t' + 1))
        have hr := ih (t' + 1) (by omega)
        have hback := hanti t ht (t' - t)
        rw [Nat.add_sub_cancel' hle] at hback
        omega
  have hself := hbound (rank (x t₀) + 1) t₀ (Nat.le_refl _)
  omega

/-- The helpful step rule: if each step reaches the goal, or lowers the rank, or keeps the rank and
the kind of step that helps without being one, and every kind recurs, then the goal is reached. -/
theorem eventually_of_helpful {κ : Type*} {x : Nat → σ} {goal : σ → Prop} (rank : σ → Nat)
    (helpful : σ → κ) {fair : κ → Nat → Prop} (t₀ : Nat) (hfair : ∀ k, Recurs (fair k))
    (hstep : ∀ t, t₀ ≤ t → ¬ goal (x t) →
      goal (x (t + 1)) ∨ rank (x (t + 1)) < rank (x t) ∨
        rank (x (t + 1)) = rank (x t) ∧ helpful (x (t + 1)) = helpful (x t) ∧
          ¬ fair (helpful (x t)) t) :
    ∃ t, t₀ ≤ t ∧ goal (x t) := by
  by_contra hnever
  have hno (t : Nat) (ht : t₀ ≤ t) : ¬ goal (x t) := fun h => hnever ⟨t, ht, h⟩
  have hnext (t : Nat) (ht : t₀ ≤ t) :=
    (hstep t ht (hno t ht)).resolve_left (hno (t + 1) (by omega))
  have hlower (r : Nat) : ∀ t, t₀ ≤ t → rank (x t) ≠ r := by
    induction r using Nat.strongRecOn with
    | ind r ih =>
        rintro t ht rfl
        obtain ⟨t', hle, hf⟩ := hfair (helpful (x t)) t
        -- until the helpful step nothing lowers the rank, and then it does
        have hwait (d : Nat) (hd : t + d ≤ t') :
            rank (x (t + d)) = rank (x t) ∧ helpful (x (t + d)) = helpful (x t) := by
          induction d with
          | zero => exact ⟨rfl, rfl⟩
          | succ d ihd =>
              obtain ⟨hrank, hhelpful⟩ := ihd (by omega)
              rcases hnext (t + d) (by omega) with hlt | ⟨hsame, hkind, -⟩
              · exact absurd rfl (ih _ (hrank ▸ hlt) (t + d + 1) (by omega))
              · exact ⟨hsame.trans hrank, hkind.trans hhelpful⟩
        obtain ⟨hrank, hhelpful⟩ := hwait (t' - t) (by omega)
        rw [Nat.add_sub_cancel' hle] at hrank hhelpful
        rcases hnext t' (by omega) with hlt | ⟨-, -, hnot⟩
        · exact ih _ (hrank ▸ hlt) (t' + 1) (by omega) rfl
        · exact hnot (hhelpful ▸ hf)
  exact hlower _ t₀ (Nat.le_refl _) rfl

end Paparazzi.Library.Liveness

namespace Paparazzi.Library.RoundRobin

variable {n : ℕ} {turns : List (Fin (n + 1))}

/-- Between two turns of one party come at least as many others as there are other parties. -/
def Spaced (turns : List (Fin (n + 1))) : Prop :=
  ∀ p q i, p < q → turns[p]? = some i → turns[q]? = some i → p + n < q

theorem spaced_nil : Spaced ([] : List (Fin (n + 1))) := fun _ _ _ _ hp => nomatch hp

theorem Spaced.concat (h : Spaced turns) {i : Fin (n + 1)}
    (hi : ∀ p, turns[p]? = some i → p + n < turns.length) : Spaced (turns ++ [i]) := by
  intro p q j hlt hp hq
  have hqlt := (List.getElem?_eq_some_iff.mp hq).1
  rw [List.length_append, List.length_singleton] at hqlt
  rw [List.getElem?_append_left (by omega)] at hp
  rcases Nat.lt_or_ge q turns.length with hold | hnew
  · rw [List.getElem?_append_left hold] at hq
    exact h p q j hlt hp hq
  · obtain rfl : q = turns.length := by omega
    rw [List.getElem?_concat_length] at hq
    obtain rfl := Option.some.inj hq
    exact hi p hp

/-- Each party has a turn among any `n + 1` in a row. -/
theorem Spaced.exists_turn (h : Spaced turns) {p : ℕ} (hp : p + n < turns.length)
    (i : Fin (n + 1)) : ∃ r, p ≤ r ∧ r ≤ p + n ∧ turns[r]? = some i := by
  let turn (k : Fin (n + 1)) : Fin (n + 1) := turns.get ⟨p + k, by omega⟩
  have hturn (k : Fin (n + 1)) : turns[p + k.val]? = some (turn k) := List.getElem?_eq_getElem _
  have hinj : Function.Injective turn := by
    intro k k' heq
    rcases Nat.lt_trichotomy k k' with hlt | hk | hlt
    · have hfar := h (p + k) (p + k') (turn k) (by omega) (hturn k) (heq ▸ hturn k')
      omega
    · exact Fin.ext hk
    · have hfar := h (p + k') (p + k) (turn k) (by omega) (heq ▸ hturn k') (hturn k)
      omega
  obtain ⟨k, hk⟩ := Finite.injective_iff_surjective.mp hinj i
  exact ⟨p + k, by omega, by omega, by rw [hturn, hk]⟩

/-- Between one turn of a party and the next come at most as many others as there are others. -/
theorem Spaced.gap_le (h : Spaced turns) {p q : ℕ} {i : Fin (n + 1)} (hq : q < turns.length)
    (hbetween : ∀ r, p < r → r < q → turns[r]? ≠ some i) : q ≤ p + 1 + n := by
  by_contra hfar
  obtain ⟨r, hle, hge, hr⟩ := h.exists_turn (p := p + 1) (by omega) i
  exact hbetween r (by omega) (by omega) hr

end Paparazzi.Library.RoundRobin
