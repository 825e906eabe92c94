import Mathlib.Data.List.Basic
import Mathlib.Data.List.Forall2

/-!
Steps that may have no value: `List.mapM` with the results when it has one, and runs as monadic
folds, which have a value where every step meets its condition.
-/

namespace Paparazzi.Library.MapM

variable {α β : Type} {f : α → Option β}

theorem mapM_cons_eq_some {a : α} {as : List α} {bs : List β} (h : (a :: as).mapM f = some bs) :
    ∃ b bs', f a = some b ∧ as.mapM f = some bs' ∧ bs = b :: bs' := by
  rw [List.mapM_cons] at h
  obtain ⟨b, hb, h⟩ := Option.bind_eq_some_iff.mp h
  obtain ⟨bs', hbs', h⟩ := Option.bind_eq_some_iff.mp h
  cases h
  exact ⟨b, bs', hb, hbs', rfl⟩

theorem forall₂_of_mapM {as : List α} {bs : List β} (h : as.mapM f = some bs) :
    List.Forall₂ (fun a b => f a = some b) as bs := by
  induction as generalizing bs with
  | nil =>
      cases h
      exact .nil
  | cons a as ih =>
      obtain ⟨b, bs', hb, hbs', rfl⟩ := mapM_cons_eq_some h
      exact .cons hb (ih hbs')

/-- Lists that are related element by element, at one place. -/
theorem getElem?_of_forall₂ {R : α → β → Prop} {as : List α} {bs : List β}
    (h : List.Forall₂ R as bs) {k : Nat} {b : β} (hb : bs[k]? = some b) :
    ∃ a, as[k]? = some a ∧ R a b := by
  induction h generalizing k with
  | nil => cases hb
  | cons hab _ ih =>
      cases k with
      | zero =>
          cases hb
          exact ⟨_, rfl, hab⟩
      | succ k => exact ih hb

theorem exists_forall₂ {R : α → β → Prop} {as : List α} (h : ∀ a ∈ as, ∃ b, R a b) :
    ∃ bs, List.Forall₂ R as bs := by
  induction as with
  | nil => exact ⟨[], .nil⟩
  | cons a as ih =>
      obtain ⟨⟨b, hb⟩, has⟩ := List.forall_mem_cons.mp h
      obtain ⟨bs, hbs⟩ := ih has
      exact ⟨b :: bs, .cons hb hbs⟩

/-- A step that can only give `g a` makes the whole a `map`. -/
theorem eq_map_of_mapM {g : α → β} (hstep : ∀ a b, f a = some b → b = g a) {as : List α}
    {bs : List β} (h : as.mapM f = some bs) : bs = as.map g := by
  induction as generalizing bs with
  | nil =>
      cases h
      rfl
  | cons a as ih =>
      obtain ⟨b, bs', hb, hbs', rfl⟩ := mapM_cons_eq_some h
      rw [hstep a b hb, ih hbs', List.map_cons]

theorem mapM_eq_map {g : α → β} {as : List α} (h : ∀ a ∈ as, f a = some (g a)) :
    as.mapM f = some (as.map g) := by
  induction as with
  | nil => rfl
  | cons a as ih =>
      obtain ⟨ha, has⟩ := List.forall_mem_cons.mp h
      rw [List.mapM_cons, ha, ih has]
      rfl

theorem mapM_singleton {a : α} {b : β} (h : f a = some b) : [a].mapM f = some [b] := by
  rw [List.mapM_cons, h]
  rfl

/-- The outputs of a walk in which the chosen elements have one output each, and the others none. -/
theorem exists_forall₂_flatten_iff {g : α → Option (List β)} {p : α → Bool} {R : α → β → Prop}
    {l : List α} (hskip : ∀ a ∈ l, p a = false → g a = some [])
    (hone : ∀ a ∈ l, p a = true → ∀ bs, g a = some bs → ∃ b, bs = [b]) :
    (∃ bs, (l.mapM g).map List.flatten = some bs ∧ List.Forall₂ R (l.filter p) bs) ↔
      ∀ a ∈ l, p a = true → ∃ b, g a = some [b] ∧ R a b := by
  induction l with
  | nil =>
      refine iff_of_true ⟨[], rfl, .nil⟩ fun a ha => ?_
      cases ha
  | cons a l ih =>
      have ih := ih (fun a ha => hskip a (List.mem_cons_of_mem _ ha))
        fun a ha => hone a (List.mem_cons_of_mem _ ha)
      have hmapM : ((a :: l).mapM g).map List.flatten =
          (g a).bind fun bs => ((l.mapM g).map List.flatten).map (bs ++ ·) := by
        rw [List.mapM_cons]
        cases g a with
        | none => rfl
        | some bs => cases l.mapM g <;> rfl
      rw [hmapM, List.forall_mem_cons, ← ih]
      cases hp : p a with
      | false =>
          rw [hskip a List.mem_cons_self hp, List.filter_cons_of_neg (by simp [hp])]
          simp
      | true =>
          rw [List.filter_cons_of_pos hp]
          constructor
          · rintro ⟨bs, hbs, hall⟩
            obtain ⟨as, has, hbs⟩ := Option.bind_eq_some_iff.mp hbs
            obtain ⟨rest, hrest, rfl⟩ := Option.map_eq_some_iff.mp hbs
            obtain ⟨b, rfl⟩ := hone a List.mem_cons_self hp as has
            obtain ⟨hb, hall⟩ := List.forall₂_cons.mp hall
            exact ⟨fun _ => ⟨b, has, hb⟩, rest, hrest, hall⟩
          · rintro ⟨hb, rest, hrest, hall⟩
            obtain ⟨b, hga, hb⟩ := hb rfl
            refine ⟨b :: rest, ?_, .cons hb hall⟩
            rw [hga, Option.bind_some, hrest]
            rfl

end Paparazzi.Library.MapM

namespace Paparazzi.Library.FallibleRun

variable {σ ε : Type*} {update : σ → ε → Option σ} {ok : σ → ε → Prop} {inv : σ → Prop}

/-- Every step of the run is taken in a state and with an event that meet `ok`. -/
def Meets (update : σ → ε → Option σ) (ok : σ → ε → Prop) : σ → List ε → Prop
  | _, [] => True
  | s, e :: es => ok s e ∧ ∀ s', update s e = some s' → Meets update ok s' es

/-- Whether a given run meets a decidable condition can be computed. -/
instance Meets.decidable (update : σ → ε → Option σ) (ok : σ → ε → Prop)
    [∀ s e, Decidable (ok s e)] : (s : σ) → (es : List ε) → Decidable (Meets update ok s es)
  | _, [] => isTrue trivial
  | s, e :: es =>
      match h : update s e with
      | none => decidable_of_iff (ok s e) (by simp [Meets, h])
      | some t =>
          have := Meets.decidable update ok t es
          decidable_of_iff (ok s e ∧ Meets update ok t es) (by simp [Meets, h])

theorem inv_of_foldlM (hinv : ∀ s e s', inv s → update s e = some s' → inv s') {s s' : σ}
    {es : List ε} (hs : inv s) (hrun : es.foldlM update s = some s') : inv s' := by
  induction es generalizing s with
  | nil =>
      obtain rfl : s = s' := Option.some.inj hrun
      exact hs
  | cons e es ih =>
      obtain ⟨t, ht, hrest⟩ := Option.bind_eq_some_iff.mp hrun
      exact ih (hinv s e t hs ht) hrest

theorem isSome_foldlM_iff (hok : ∀ s e, inv s → ((update s e).isSome ↔ ok s e))
    (hinv : ∀ s e s', inv s → update s e = some s' → inv s') {s : σ} {es : List ε} (hs : inv s) :
    (es.foldlM update s).isSome ↔ Meets update ok s es := by
  induction es generalizing s with
  | nil => exact iff_of_true rfl trivial
  | cons e es ih =>
      rw [Meets, ← hok s e hs, List.foldlM_cons]
      cases hstep : update s e with
      | none => simp
      | some t =>
          rw [Option.bind_eq_bind, Option.bind_some, ih (hinv s e t hs hstep)]
          simp

/-- A run whose steps meet the condition has a value, in which the invariant holds. -/
theorem exists_of_meets
    (hstep : ∀ s e, inv s → ok s e → ∃ s', update s e = some s' ∧ inv s') {s : σ} {es : List ε}
    (hs : inv s) (hrun : Meets update ok s es) : ∃ s', es.foldlM update s = some s' ∧ inv s' := by
  induction es generalizing s with
  | nil => exact ⟨s, rfl, hs⟩
  | cons e es ih =>
      obtain ⟨hok, hrest⟩ := hrun
      obtain ⟨t, ht, hinv⟩ := hstep s e hs hok
      rw [List.foldlM_cons, ht]
      exact ih hinv (hrest t ht)

/-- The last step of a run, and the state it is taken in. -/
theorem exists_last_of_foldlM {s s' : σ} {es : List ε} {e : ε}
    (hrun : (es ++ [e]).foldlM update s = some s') :
    ∃ t, es.foldlM update s = some t ∧ update t e = some s' := by
  rw [List.foldlM_append] at hrun
  obtain ⟨t, ht, hlast⟩ := Option.bind_eq_some_iff.mp hrun
  refine ⟨t, ht, ?_⟩
  simpa using hlast

/-- A beginning of a run that has a value has one. -/
theorem isSome_of_append {s : σ} {es fs : List ε}
    (hrun : ((es ++ fs).foldlM update s).isSome) : (es.foldlM update s).isSome := by
  rw [List.foldlM_append] at hrun
  exact Option.isSome_of_isSome_bind hrun

/-- Every step of the run from `s₀` has a value, which meets `post` with the state before and the
event. -/
def EveryStep (update : σ → ε → Option σ) (post : σ → ε → σ → Prop) (s₀ : σ) (es : List ε) :
    Prop :=
  ∀ earlier e, earlier ++ [e] <+: es →
    ∃ s s', earlier.foldlM update s₀ = some s ∧ update s e = some s' ∧ post s e s'

theorem everyStep_iff_isSome {post : σ → ε → σ → Prop}
    (hinv : ∀ s e s', inv s → update s e = some s' → inv s')
    (hpost : ∀ s e s', inv s → update s e = some s' → post s e s') {s₀ : σ} {es : List ε}
    (hs₀ : inv s₀) : EveryStep update post s₀ es ↔ (es.foldlM update s₀).isSome := by
  constructor
  · intro h
    rcases List.eq_nil_or_concat es with rfl | ⟨earlier, e, rfl⟩
    · rfl
    · rw [List.concat_eq_append] at *
      obtain ⟨s, s', hs, hs', -⟩ := h earlier e (List.prefix_refl _)
      rw [List.foldlM_append, hs]
      simp [hs']
  · rintro h earlier e ⟨later, rfl⟩
    obtain ⟨s', hrun⟩ := Option.isSome_iff_exists.mp (isSome_of_append h)
    obtain ⟨s, hs, hlast⟩ := exists_last_of_foldlM hrun
    exact ⟨s, s', hs, hlast, hpost s e s' (inv_of_foldlM hinv hs₀ hs) hlast⟩

/-- The steps of a run all have a value if and only if they all meet the condition. -/
theorem everyStep_iff_meets {post : σ → ε → σ → Prop}
    (hok : ∀ s e, inv s → ((update s e).isSome ↔ ok s e))
    (hinv : ∀ s e s', inv s → update s e = some s' → inv s')
    (hpost : ∀ s e s', inv s → update s e = some s' → post s e s') {s₀ : σ} {es : List ε}
    (hs₀ : inv s₀) : EveryStep update post s₀ es ↔ Meets update ok s₀ es :=
  (everyStep_iff_isSome hinv hpost hs₀).trans (isSome_foldlM_iff hok hinv hs₀)

end Paparazzi.Library.FallibleRun
