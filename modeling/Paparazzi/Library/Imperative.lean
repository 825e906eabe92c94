import Mathlib.Data.List.Basic

/-!
Imperative programs: loops over the entries of a table that rewrite one entry at each turn, so
that each entry is written once, from its own value before the loop; and programs that may
return early, a state with an exception for each reason to stop, which keeps what was written
before. A triple has one postcondition for the end and one for the stop.
-/

namespace Paparazzi.Library.EntryLoop

variable {σ ι α : Type*} {get : σ → ι → α} {turn : σ → ι → σ} {f : ι → α → α}

/-- The entries that the loop does not come to stay. -/
theorem foldl_of_not_mem (hother : ∀ s i j, j ≠ i → get (turn s i) j = get s j) {l : List ι}
    {i : ι} (hi : i ∉ l) (s : σ) : get (l.foldl turn s) i = get s i := by
  induction l generalizing s with
  | nil => rfl
  | cons a l ih =>
      obtain ⟨hne, hl⟩ := not_or.1 (mt List.mem_cons.2 hi)
      rw [List.foldl_cons, ih hl, hother s a i hne]

theorem foldl_of_mem (hself : ∀ s i, get (turn s i) i = f i (get s i))
    (hother : ∀ s i j, j ≠ i → get (turn s i) j = get s j) {l : List ι} (hl : l.Nodup) {i : ι}
    (hi : i ∈ l) (s : σ) : get (l.foldl turn s) i = f i (get s i) := by
  induction l generalizing s with
  | nil => exact absurd hi List.not_mem_nil
  | cons a l ih =>
      obtain ⟨ha, hl⟩ := List.nodup_cons.1 hl
      rw [List.foldl_cons]
      rcases List.mem_cons.1 hi with rfl | hi
      · rw [foldl_of_not_mem hother ha, hself]
      · have hne : i ≠ a := fun heq => ha (heq ▸ hi)
        rw [ih hl hi, hother s a i hne]

end Paparazzi.Library.EntryLoop

namespace Paparazzi.Library.EarlyReturn

variable {ε σ α β : Type}

abbrev Prog (ε σ α : Type) := ExceptT ε (StateM σ) α

def runProg (m : Prog ε σ α) (s : σ) : Except ε α × σ := StateT.run (ExceptT.run m) s

/-- A computation on what is read of the state. -/
def reading (f : σ → Except ε α) : Prog ε σ α := ExceptT.mk fun s => (f s, s)

def writing (f : σ → σ) : Prog ε σ Unit := ExceptT.mk fun s => (.ok (), f s)

/-- From `pre` the program ends with `post`, or stops with `stop`. -/
def Triple (pre : σ → Prop) (m : Prog ε σ α) (post : α → σ → Prop) (stop : ε → σ → Prop) : Prop :=
  ∀ s, pre s → match runProg m s with
    | (.ok a, s') => post a s'
    | (.error e, s') => stop e s'

section

variable {pre : σ → Prop} {post : α → σ → Prop} {stop : ε → σ → Prop}

theorem runProg_bind (m : Prog ε σ α) (f : α → Prog ε σ β) (s : σ) :
    runProg (m >>= f) s = match runProg m s with
      | (.ok a, s') => runProg (f a) s'
      | (.error e, s') => (.error e, s') := by
  change (match runProg m s with
    | (r, s') => StateT.run (ExceptT.bindCont f r) s') = _
  rcases runProg m s with ⟨e | a, s'⟩ <;> rfl

theorem Triple.bind {m : Prog ε σ α} {f : α → Prog ε σ β} {result : β → σ → Prop}
    (post : α → σ → Prop) (hm : Triple pre m post stop)
    (hf : ∀ a, Triple (post a) (f a) result stop) :
    Triple pre (m >>= f) result stop := by
  intro s hs
  have hfirst := hm s hs
  rw [runProg_bind]
  rcases hrun : runProg m s with ⟨e | a, s'⟩
  · rw [hrun] at hfirst
    exact hfirst
  · rw [hrun] at hfirst
    exact hf a s' hfirst

theorem Triple.pure {a : α} (h : ∀ s, pre s → post a s) :
    Triple pre (Pure.pure a : Prog ε σ α) post stop := h

theorem Triple.reading {f : σ → Except ε α}
    (h : ∀ s, pre s → match f s with | .ok a => post a s | .error e => stop e s) :
    Triple pre (reading f) post stop := by
  intro s hs
  have hf := h s hs
  change match (f s, s) with | (.ok a, s') => post a s' | (.error e, s') => stop e s'
  rcases hread : f s with e | a
  · rw [hread] at hf
    exact hf
  · rw [hread] at hf
    exact hf

theorem Triple.writing {f : σ → σ} {post : Unit → σ → Prop} (h : ∀ s, pre s → post () (f s)) :
    Triple pre (writing f) post stop := h

theorem Triple.of_false {m : Prog ε σ α} (h : ∀ s, ¬ pre s) : Triple pre m post stop :=
  fun s hs => absurd hs (h s)

end

end Paparazzi.Library.EarlyReturn
