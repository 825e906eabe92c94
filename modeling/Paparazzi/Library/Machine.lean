import Mathlib.Data.List.Basic

/-!
Runs of event-driven machines: the state reached after a sequence of events, a
run all of whose steps meet a condition, and the induction rules for invariants
and for simulations between two machines that read the same events.
-/

namespace Paparazzi.Library.Machine

variable {σ τ ε : Type*}

/-- The state reached from `s` after the events of the list, in order. -/
def run (step : σ → ε → σ) : σ → List ε → σ
  | s, [] => s
  | s, e :: es => run step (step s e) es

/-- Every step of the run from `s` is taken in a state and with an event that
meet `ok`. -/
def RunOk (step : σ → ε → σ) (ok : σ → ε → Prop) : σ → List ε → Prop
  | _, [] => True
  | s, e :: es => ok s e ∧ RunOk step ok (step s e) es

/-- Whether a given run meets a decidable condition can be computed. -/
instance RunOk.decidable (step : σ → ε → σ) (ok : σ → ε → Prop) [∀ s e, Decidable (ok s e)] :
    (s : σ) → (es : List ε) → Decidable (RunOk step ok s es)
  | _, [] => isTrue trivial
  | s, e :: es =>
      have := RunOk.decidable step ok (step s e) es
      inferInstanceAs (Decidable (ok s e ∧ RunOk step ok (step s e) es))

@[simp] theorem run_nil (step : σ → ε → σ) (s : σ) : run step s [] = s := rfl

@[simp] theorem run_cons (step : σ → ε → σ) (s : σ) (e : ε) (es : List ε) :
    run step s (e :: es) = run step (step s e) es := rfl

theorem runOk_congr {step : σ → ε → σ} {ok ok' : σ → ε → Prop}
    (h : ∀ s e, ok s e ↔ ok' s e) (s : σ) (es : List ε) :
    RunOk step ok s es ↔ RunOk step ok' s es := by
  induction es generalizing s with
  | nil => exact Iff.rfl
  | cons e es ih => exact and_congr (h s e) (ih (step s e))

/-- Two conditions that agree where an invariant holds, which the steps that meet the first
one preserve, are met by the same runs. -/
theorem runOk_congr_of_inv {step : σ → ε → σ} {ok ok' : σ → ε → Prop} (inv : σ → Prop)
    (hstep : ∀ s e, inv s → ok s e → inv (step s e))
    (h : ∀ s e, inv s → (ok s e ↔ ok' s e)) {s : σ} (hs : inv s) (es : List ε) :
    RunOk step ok s es ↔ RunOk step ok' s es := by
  induction es generalizing s with
  | nil => exact Iff.rfl
  | cons e es ih =>
      constructor
      · rintro ⟨hok, hrest⟩
        exact ⟨(h s e hs).mp hok, (ih (hstep s e hs hok)).mp hrest⟩
      · rintro ⟨hok', hrest⟩
        have hok := (h s e hs).mpr hok'
        exact ⟨hok, (ih (hstep s e hs hok)).mpr hrest⟩

/-- A condition on a part of the state that steps by itself. -/
theorem runOk_comp {step : σ → ε → σ} {step' : τ → ε → τ} {ok : τ → ε → Prop} (f : σ → τ)
    (hf : ∀ s e, f (step s e) = step' (f s) e) (s : σ) (es : List ε) :
    RunOk step (fun s e => ok (f s) e) s es ↔ RunOk step' ok (f s) es := by
  induction es generalizing s with
  | nil => exact Iff.rfl
  | cons e es ih =>
      rw [RunOk, RunOk, ih, hf]

/-- A condition on the events alone. -/
theorem runOk_iff_forall {step : σ → ε → σ} {ok : ε → Prop} (s : σ) (es : List ε) :
    RunOk step (fun _ e => ok e) s es ↔ ∀ e ∈ es, ok e := by
  induction es generalizing s with
  | nil => simp [RunOk]
  | cons e es ih => rw [RunOk, ih, List.forall_mem_cons]

/-- The events of two lists are related one by one, along the run of the first. -/
def EventsRelated (step : σ → ε → σ) (rel : σ → ε → ε → Prop) : σ → List ε → List ε → Prop
  | _, [], [] => True
  | s, e :: es, e' :: es' => rel s e e' ∧ EventsRelated step rel (step s e) es es'
  | _, _, _ => False

/-- Events that are related do the same: so do the runs. -/
theorem run_eq_of_related {step : σ → ε → σ} {rel : σ → ε → ε → Prop}
    (hrel : ∀ s e e', rel s e e' → step s e = step s e') {s : σ} {es es' : List ε}
    (h : EventsRelated step rel s es es') : run step s es = run step s es' := by
  induction es generalizing s es' with
  | nil =>
      cases es' with
      | nil => rfl
      | cons e' es' => exact h.elim
  | cons e es ih =>
      cases es' with
      | nil => exact h.elim
      | cons e' es' =>
          rw [run_cons, run_cons, ← hrel s e e' h.1]
          exact ih h.2

theorem run_append (step : σ → ε → σ) (s : σ) (es fs : List ε) :
    run step s (es ++ fs) = run step (run step s es) fs := by
  induction es generalizing s with
  | nil => rfl
  | cons e es ih => simpa using ih (step s e)

/-! ### What is seen of a run -/

section Outputs

variable {ο : Type*} {step : σ → ε → σ} {out : σ → ο}

/-- What is seen of the state after each event. -/
def outputs (step : σ → ε → σ) (out : σ → ο) : σ → List ε → List ο
  | _, [] => []
  | s, e :: es => out (step s e) :: outputs step out (step s e) es

theorem outputs_append (s : σ) (es fs : List ε) :
    outputs step out s (es ++ fs) =
      outputs step out s es ++ outputs step out (run step s es) fs := by
  induction es generalizing s with
  | nil => rfl
  | cons e es ih => simp [outputs, ih]

theorem length_outputs (s : σ) (es : List ε) : (outputs step out s es).length = es.length := by
  induction es generalizing s with
  | nil => rfl
  | cons e es ih => simp [outputs, ih]

/-- A machine that takes in a series of `n` events, one after the other, and then goes on. -/
theorem run_series {n : Nat} (taken : List ε → σ → Prop) (more done : σ → Prop) {b : ο}
    (hstep : ∀ {es s}, taken es s → more s → es.length < n → ∀ e, taken (es ++ [e]) (step s e) ∧
      (es.length + 1 < n → more (step s e)) ∧ (es.length + 1 = n → done (step s e)))
    (hout : ∀ {es s}, taken es s → out s = b) {es rest : List ε} {s : σ} (h : taken es s)
    (hmore : more s) (hrest : rest ≠ []) (hlen : es.length + rest.length = n) :
    taken (es ++ rest) (run step s rest) ∧ done (run step s rest) ∧
      outputs step out s rest = List.replicate rest.length b := by
  induction rest generalizing s es with
  | nil => exact absurd rfl hrest
  | cons e rest ih =>
      rw [List.length_cons] at hlen
      obtain ⟨htaken, hnext, hlast⟩ := hstep h hmore (by omega) e
      cases rest with
      | nil =>
          refine ⟨htaken, hlast hlen, ?_⟩
          rw [outputs, hout htaken]
          rfl
      | cons e' rest =>
          rw [List.length_cons] at hlen
          obtain ⟨hrun, hdone, houtputs⟩ := ih htaken (hnext (by omega)) (List.cons_ne_nil _ _) (by
            rw [List.length_append, List.length_singleton, List.length_cons]
            omega)
          rw [List.append_assoc] at hrun
          refine ⟨hrun, hdone, ?_⟩
          rw [outputs, houtputs, hout htaken]
          rfl

end Outputs

theorem runOk_append {step : σ → ε → σ} {ok : σ → ε → Prop} {s : σ} {es fs : List ε} :
    RunOk step ok s (es ++ fs) ↔ RunOk step ok s es ∧ RunOk step ok (run step s es) fs := by
  induction es generalizing s with
  | nil => exact (and_iff_right trivial).symm
  | cons e es ih =>
      rw [List.cons_append, RunOk, RunOk, ih, run_cons, and_assoc]

/-- A condition on every step, as one on every beginning of the run. -/
theorem runOk_iff_forall_isPrefix {step : σ → ε → σ} {ok : σ → ε → Prop} {s : σ}
    {es : List ε} :
    RunOk step ok s es ↔ ∀ earlier e, earlier ++ [e] <+: es → ok (run step s earlier) e := by
  induction es generalizing s with
  | nil =>
      exact iff_of_true trivial fun earlier e h => absurd (List.prefix_nil.mp h)
        (List.append_ne_nil_of_right_ne_nil _ (List.cons_ne_nil _ _))
  | cons e es ih =>
      rw [RunOk, ih]
      constructor
      · rintro ⟨hfirst, hrest⟩ earlier e' h
        cases earlier with
        | nil =>
            obtain ⟨rfl, -⟩ := List.cons_prefix_cons.mp h
            exact hfirst
        | cons e₀ earlier =>
            obtain ⟨rfl, htail⟩ := List.cons_prefix_cons.mp h
            exact hrest earlier e' htail
      · intro h
        exact ⟨h [] e (List.prefix_append [e] es),
          fun earlier e' htail => h (e :: earlier) e' (List.cons_prefix_cons.mpr ⟨rfl, htail⟩)⟩

/-- The invariant rule: what every permitted step preserves holds at the end of
every permitted run. -/
theorem run_invariant {step : σ → ε → σ} {ok : σ → ε → Prop} (inv : σ → Prop)
    (hstep : ∀ s e, inv s → ok s e → inv (step s e))
    {s : σ} (hs : inv s) {es : List ε} (hok : RunOk step ok s es) :
    inv (run step s es) := by
  induction es generalizing s with
  | nil => exact hs
  | cons e es ih => exact ih (hstep s e hs hok.1) hok.2

/-- The history rule: what every step preserves, with the events read so far. -/
theorem run_history {step : σ → ε → σ} (inv : List ε → σ → Prop)
    (hstep : ∀ es s e, inv es s → inv (es ++ [e]) (step s e))
    {s : σ} (hs : inv [] s) (es : List ε) : inv es (run step s es) := by
  have hprefix : ∀ (past : List ε) (s : σ), inv past s → inv (past ++ es) (run step s es) := by
    induction es with
    | nil =>
        intro past s h
        simpa using h
    | cons e es ih =>
        intro past s h
        simpa using ih (past ++ [e]) (step s e) (hstep past s e h)
  exact hprefix [] s hs

/-- The simulation rule: a relation that every permitted pair of steps preserves
relates the two states reached by the same events. -/
theorem run_simulation {step : σ → ε → σ} {abstractStep : τ → ε → τ}
    {ok : σ → ε → Prop} {rel : τ → σ → Prop}
    (hstep : ∀ a s e, rel a s → ok s e → rel (abstractStep a e) (step s e))
    {a : τ} {s : σ} (hs : rel a s) {es : List ε} (hok : RunOk step ok s es) :
    rel (run abstractStep a es) (run step s es) := by
  induction es generalizing a s with
  | nil => exact hs
  | cons e es ih => exact ih (hstep a s e hs hok.1) hok.2

end Paparazzi.Library.Machine
