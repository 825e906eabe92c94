import Mathlib.Algebra.Order.Ring.Int
import Mathlib.Data.Int.ModEq
import Mathlib.Data.List.Dedup
import Mathlib.Data.List.Sort
import Mathlib.Data.Nat.Periodic
import Paparazzi.Library.Imperative

/-!
The code that the generators of periodic calls have in common: a counter for each modulo, and a
list of tests of the counters, some of them behind an `else`.
-/

namespace Paparazzi.Generator.PeriodicChain

open Paparazzi.Library

/-! ### The counters -/

/-- The values of `uint16_t` or of `uint8_t`. -/
def counterSize (modulo : Nat) : Nat := if modulo ≥ 256 then 65536 else 256

/-- `i++; if (i>=modulo) i=0;` -/
def bump (modulo i : Nat) : Nat :=
  let i := (i + 1) % counterSize modulo
  if i ≥ modulo then 0 else i

/-- The modulos that the generators compute: `min 65535 (max 1 x)`. -/
def IsModulo (m : Nat) : Prop := 0 < m ∧ m < 65536

theorem bump_eq {m i : Nat} (hm : IsModulo m) (hi : i < m) : bump m i = (i + 1) % m := by
  have hsize : i + 1 < counterSize m ∨ i + 1 = m ∧ m ≤ counterSize m := by
    obtain ⟨hpos, hlt⟩ := hm
    unfold counterSize
    split_ifs <;> omega
  have hle : i + 1 ≤ m := hi
  rcases hle.lt_or_eq with hlt | heq
  · rw [Nat.mod_eq_of_lt hlt, bump, Nat.mod_eq_of_lt (by omega), if_neg (by omega)]
  · rw [heq, Nat.mod_self, bump, heq]
    rcases hsize with hsize | ⟨-, hsize⟩
    · rw [Nat.mod_eq_of_lt (by omega), if_pos le_rfl]
    · rcases hsize.lt_or_eq with hsize | hsize
      · rw [Nat.mod_eq_of_lt hsize, if_pos le_rfl]
      · rw [← hsize, Nat.mod_self]
        split_ifs <;> rfl

theorem bump_lt {m i : Nat} (hm : IsModulo m) (hi : i < m) : bump m i < m := by
  rw [bump_eq hm hi]
  exact Nat.mod_lt _ hm.1

/-- How often a counter shows the phase in `n` calls. -/
def hits (m : Nat) (phase : Int) : Nat → Nat → Nat
  | _, 0 => 0
  | i, n + 1 => (if (bump m i : Int) = phase then 1 else 0) + hits m phase (bump m i) n

/-- The counter goes through the residues. -/
theorem hits_eq_card {m : Nat} (hm : IsModulo m) (phase : Int) {i : Nat} (n k : Nat)
    (hi : i = k % m) :
    hits m phase i n =
      ((Finset.Ico (k + 1) (k + 1 + n)).filter fun j => ((j % m : Nat) : Int) = phase).card := by
  induction n generalizing i k with
  | zero => simp [hits]
  | succ n ih =>
      have hbump : bump m i = (k + 1) % m := by
        rw [bump_eq hm (hi ▸ Nat.mod_lt _ hm.1), hi, Nat.mod_add_mod]
      have hIco : Finset.Ico (k + 1) (k + 1 + (n + 1)) =
          insert (k + 1) (Finset.Ico (k + 1 + 1) (k + 1 + 1 + n)) := by
        rw [Finset.insert_Ico_add_one_left_eq_Ico (by omega)]
        congr 1
        omega
      rw [hits, ih (k + 1) hbump, hIco, Finset.filter_insert, hbump]
      split_ifs with hphase
      · rw [Finset.card_insert_of_notMem (by simp), add_comm]
      · rw [zero_add]

/-- In `m` consecutive calls a counter shows each of its values once. -/
theorem hits_self {m : Nat} (hm : IsModulo m) {phase : Int} (h0 : 0 ≤ phase) (hlt : phase < m)
    {i : Nat} (hi : i < m) : hits m phase i m = 1 := by
  rw [hits_eq_card hm phase m i (Nat.mod_eq_of_lt hi).symm,
    Nat.filter_Ico_card_eq_of_periodic _ m (fun j => ((j % m : Nat) : Int) = phase)
      fun j => by simp only [Nat.add_mod_right]]
  obtain ⟨d, rfl⟩ := Int.eq_ofNat_of_zero_le h0
  have hd : d < m := by exact_mod_cast hlt
  rw [Nat.count_eq_card_filter_range, Finset.card_eq_one]
  refine ⟨d, ?_⟩
  ext j
  simp only [Finset.mem_filter, Finset.mem_range, Finset.mem_singleton, Nat.cast_inj]
  constructor
  · rintro ⟨hj, hmod⟩
    rwa [Nat.mod_eq_of_lt hj] at hmod
  · rintro rfl
    exact ⟨hd, Nat.mod_eq_of_lt hd⟩

/-- A phase that is no value of the counter is never shown. -/
theorem hits_eq_zero {m : Nat} (hm : IsModulo m) {phase : Int} (h : phase < 0 ∨ m ≤ phase)
    {i : Nat} (hi : i < m) (n : Nat) : hits m phase i n = 0 := by
  induction n generalizing i with
  | zero => rfl
  | succ n ih =>
      have hbump := bump_lt hm hi
      rw [hits, ih hbump, if_neg (by omega)]

/-! ### The modulos -/

/-- What the generators use of the floats. -/
structure Floats (F : Type) where
  ofString : String → Option F
  ofInt : Int → F
  mul : F → F → F
  div : F → F → F
  toInt : F → Int

/-- Whole numbers in place of floats, with the texts of two of them. -/
def wholes : Floats Int where
  ofString s := [("0", 0), ("1", 1)].lookup s
  ofInt x := x
  mul x y := x * y
  div x y := x / y
  toInt x := x

/-- `min 65535 (max 1 x)` -/
def boundedModulo (x : Int) : Nat := (min 65535 (max 1 x)).toNat

theorem isModulo_boundedModulo (x : Int) : IsModulo (boundedModulo x) := by
  unfold IsModulo boundedModulo
  omega

def singletonize (l : List Nat) : List Nat := (l.insertionSort (· ≤ ·)).dedup

theorem nodup_singletonize (l : List Nat) : (singletonize l).Nodup := List.nodup_dedup _

theorem mem_singletonize {l : List Nat} {m : Nat} : m ∈ singletonize l ↔ m ∈ l := by
  rw [singletonize, List.mem_dedup, List.mem_insertionSort]

/-- The counters, after the lines that count them. -/
def bumpAll (modulos : List Nat) (c : Nat → Nat) : Nat → Nat :=
  modulos.foldl (fun c m => Function.update c m (bump m (c m))) c

theorem bumpAll_of_mem {modulos : List Nat} (hnodup : modulos.Nodup) {m : Nat}
    (hm : m ∈ modulos) (c : Nat → Nat) : bumpAll modulos c m = bump m (c m) :=
  @EntryLoop.foldl_of_mem _ _ _ (fun c m => c m) (fun c m => Function.update c m (bump m (c m))) bump
    (fun _ _ => Function.update_self ..) (fun _ _ _ hne => Function.update_of_ne hne ..) _ hnodup
    m hm c

theorem bumpAll_of_notMem {modulos : List Nat} {m : Nat} (hm : m ∉ modulos) (c : Nat → Nat) :
    bumpAll modulos c m = c m :=
  @EntryLoop.foldl_of_not_mem _ _ _ (fun c m => c m)
    (fun c m => Function.update c m (bump m (c m)))
    (fun _ _ _ hne => Function.update_of_ne hne ..) _ m hm c

/-- The counters stay below their modulos. -/
theorem bumpAll_lt {modulos : List Nat} (hnodup : modulos.Nodup) {c : Nat → Nat}
    (hc : ∀ m, IsModulo m → c m < m) {m : Nat} (hm : IsModulo m) : bumpAll modulos c m < m := by
  by_cases hmem : m ∈ modulos
  · rw [bumpAll_of_mem hnodup hmem]
    exact bump_lt hm (hc m hm)
  · rw [bumpAll_of_notMem hmem]
    exact hc m hm

def byModulo {α : Type*} (x y : α × Nat) : Prop := x.2 ≤ y.2

instance {α : Type*} : DecidableRel (byModulo (α := α)) :=
  fun x y => inferInstanceAs (Decidable (x.2 ≤ y.2))

instance {α : Type*} : Std.Total (byModulo (α := α)) := ⟨fun x y => Nat.le_total x.2 y.2⟩

instance {α : Type*} : IsTrans (α × Nat) byModulo := ⟨fun _ _ _ => Nat.le_trans⟩

/-- `List.sort (fun (_,p) (_,p') -> compare p p')` -/
def sortByModulo {α : Type*} (l : List (α × Nat)) : List (α × Nat) := l.insertionSort byModulo

theorem mem_sortByModulo {α : Type*} {l : List (α × Nat)} {x : α × Nat} :
    x ∈ sortByModulo l ↔ x ∈ l := List.mem_insertionSort _

theorem sorted_sortByModulo {α : Type*} (l : List (α × Nat)) :
    (sortByModulo l).Pairwise byModulo := List.pairwise_insertionSort _ l

/-! ### The tests -/

/-- `if (i5 == 3)`, or `else if (i5 == 3)`. -/
structure Test where
  els : Bool
  modulo : Nat
  phase : Int
  deriving DecidableEq, Repr

/-- `List.mem_assoc p l && not (List.mem (p, phase) l)` -/
def needsElse (l : List (Nat × Int)) (modulo : Nat) (phase : Int) : Bool :=
  (l.lookup modulo).isSome && !l.contains (modulo, phase)

/-- An entry of the list that is printed: the modulo, the phase and what to do. -/
structure Entry (β : Type*) where
  modulo : Nat
  phase : Int
  body : β

section

variable {β σ : Type*}

/-- The printing loop; `l` are the pairs that it has seen. -/
def link : List (Nat × Int) → List (Entry β) → List (Test × β)
  | _, [] => []
  | l, e :: es =>
      (⟨needsElse l e.modulo e.phase, e.modulo, e.phase⟩, e.body) ::
        link ((e.modulo, e.phase) :: l) es

variable (counter : Nat → Nat) (cond : β → σ → Bool) (act : Nat → β → σ → σ)

/-- The execution of the tests, numbered from `n` on. An `else` belongs to the test before it;
`taken` says that a test of the chain that ends there held. -/
def runTests : Nat → List (Test × β) → Bool → σ → σ
  | _, [], _, s => s
  | n, (t, b) :: rest, taken, s =>
      if t.els && taken then runTests (n + 1) rest true s
      else if decide ((counter t.modulo : Int) = t.phase) && cond b s then
        runTests (n + 1) rest true (act n b s)
      else runTests (n + 1) rest false s

/-- One entry by itself. -/
def runEntry (n : Nat) (e : Entry β) (s : σ) : σ :=
  if decide ((counter e.modulo : Int) = e.phase) && cond e.body s then act n e.body s else s

def runEntries : Nat → List (Entry β) → σ → σ
  | _, [], s => s
  | n, e :: es, s => runEntries (n + 1) es (runEntry counter cond act n e s)

/-- What is known in front of the entries `es` when the pairs `l` have been seen. -/
structure Seen (l : List (Nat × Int)) (es : List (Entry β)) (taken : Bool) : Prop where
  sorted : es.Pairwise fun e e' => e.modulo ≤ e'.modulo
  below : ∀ x ∈ l.head?, ∀ e ∈ es, x.1 ≤ e.modulo
  sortedSeen : l.Pairwise fun x y => y.1 ≤ x.1
  taken : taken = true → ∃ x ∈ l, (∀ y ∈ l.head?, x.1 = y.1) ∧ (counter x.1 : Int) = x.2

theorem seen_cons {l : List (Nat × Int)} {e : Entry β} {es : List (Entry β)} {taken taken' : Bool}
    (h : Seen counter l (e :: es) taken)
    (htaken : taken' = true → ∃ x ∈ (e.modulo, e.phase) :: l, x.1 = e.modulo ∧
      (counter x.1 : Int) = x.2) :
    Seen counter ((e.modulo, e.phase) :: l) es taken' where
  sorted := (List.pairwise_cons.mp h.sorted).2
  below := by
    intro x hx e' he'
    cases hx
    exact (List.pairwise_cons.mp h.sorted).1 e' he'
  sortedSeen := by
    refine List.pairwise_cons.mpr ⟨?_, h.sortedSeen⟩
    intro y hy
    cases l with
    | nil => cases hy
    | cons x l =>
        have hx := h.below x rfl e List.mem_cons_self
        rcases List.mem_cons.mp hy with rfl | hy
        · exact hx
        · exact ((List.pairwise_cons.mp h.sortedSeen).1 y hy).trans hx
  taken := by
    intro ht
    obtain ⟨x, hx, hmodulo, hcounter⟩ := htaken ht
    refine ⟨x, hx, ?_, hcounter⟩
    rintro y hy
    cases hy
    exact hmodulo

/-- Behind an `else` the modulo is the one of the test before. -/
theorem head_modulo {l : List (Nat × Int)} {e : Entry β} {es : List (Entry β)} {taken : Bool}
    (h : Seen counter l (e :: es) taken) (hels : needsElse l e.modulo e.phase = true) :
    (∀ y ∈ l.head?, y.1 = e.modulo) ∧ (e.modulo, e.phase) ∉ l := by
  rw [needsElse, Bool.and_eq_true, Bool.not_eq_true', List.contains_eq_mem,
    decide_eq_false_iff_not] at hels
  obtain ⟨hlookup, hnot⟩ := hels
  refine ⟨?_, hnot⟩
  obtain ⟨phase, hphase⟩ := Option.isSome_iff_exists.mp hlookup
  obtain ⟨before, after, rfl, -⟩ := List.lookup_eq_some_iff.mp hphase
  intro y hy
  cases before with
  | nil =>
      cases hy
      rfl
  | cons x before =>
      cases hy
      have hle := h.below _ rfl e List.mem_cons_self
      have hge := (List.pairwise_cons.mp h.sortedSeen).1 (e.modulo, phase) (by simp)
      exact le_antisymm hle hge

/-- The chain of tests does what the entries do one by one. -/
theorem runTests_link {l : List (Nat × Int)} {es : List (Entry β)} {taken : Bool}
    (h : Seen counter l es taken) (n : Nat) (s : σ) :
    runTests counter cond act n (link l es) taken s = runEntries counter cond act n es s := by
  induction es generalizing l taken n s with
  | nil => rfl
  | cons e es ih =>
      rw [link, runTests, runEntries, runEntry]
      by_cases hskip : (needsElse l e.modulo e.phase && taken) = true
      · obtain ⟨hels, htaken⟩ := (Bool.and_eq_true _ _).mp hskip
        obtain ⟨hhead, hnot⟩ := head_modulo counter h hels
        obtain ⟨x, hx, hxhead, hxcounter⟩ := h.taken htaken
        have hxmodulo : x.1 = e.modulo := by
          cases l with
          | nil => cases hx
          | cons y l => exact (hxhead y rfl).trans (hhead y rfl)
        -- a test of the chain held: another phase of the same modulo
        have hfalse : ¬ (counter e.modulo : Int) = e.phase := by
          intro heq
          rw [hxmodulo, heq] at hxcounter
          refine hnot ?_
          rw [← hxmodulo, hxcounter]
          exact hx
        rw [if_pos hskip, decide_eq_false hfalse, Bool.false_and, if_neg Bool.false_ne_true]
        exact ih (seen_cons counter h fun _ =>
          ⟨x, List.mem_cons_of_mem _ hx, hxmodulo, hxcounter⟩) _ _
      · rw [if_neg hskip]
        split_ifs with htest
        · refine ih (seen_cons counter h fun _ => ⟨_, List.mem_cons_self, rfl, ?_⟩) _ _
          exact of_decide_eq_true ((Bool.and_eq_true _ _).mp htest).1
        · exact ih (seen_cons counter h fun hf => absurd hf Bool.false_ne_true) _ _

theorem seen_nil {es : List (Entry β)} (h : es.Pairwise fun e e' => e.modulo ≤ e'.modulo) :
    Seen counter [] es false where
  sorted := h
  below := fun _ hx => by cases hx
  sortedSeen := List.Pairwise.nil
  taken := fun hf => absurd hf Bool.false_ne_true

/-! ### How often an entry is run -/

/-- Something that the entries do not change. -/
theorem runEntries_eq {γ : Type*} {c : σ → γ} (hact : ∀ n b s, c (act n b s) = c s)
    (n : Nat) (es : List (Entry β)) (s : σ) : c (runEntries counter cond act n es s) = c s := by
  induction es generalizing n s with
  | nil => rfl
  | cons e es ih =>
      rw [runEntries, ih, runEntry]
      split_ifs
      · exact hact n e.body s
      · rfl

variable {c : σ → Nat} {m : Nat} (hact : ∀ n b s, c (act n b s) = c s + if n = m then 1 else 0)

include hact

/-- The entries behind the number `m` are not counted. -/
theorem count_runEntries_of_lt {n : Nat} (hn : m < n) (es : List (Entry β)) (s : σ) :
    c (runEntries counter cond act n es s) = c s := by
  induction es generalizing n s with
  | nil => rfl
  | cons e es ih =>
      rw [runEntries, ih (by omega), runEntry]
      split_ifs
      · rw [hact, if_neg (by omega), add_zero]
      · rfl

/-- The entry with the number `m` is run once if the counter shows its phase and its condition
holds when it is reached. -/
theorem count_runEntries {n j : Nat} (hm : n + j = m) {es : List (Entry β)} {e : Entry β}
    (he : es[j]? = some e) (s : σ) :
    c (runEntries counter cond act n es s) = c s +
      if decide ((counter e.modulo : Int) = e.phase) &&
          cond e.body (runEntries counter cond act n (es.take j) s) then 1 else 0 := by
  induction es generalizing n j s with
  | nil => cases he
  | cons e' es ih =>
      cases j with
      | zero =>
          cases he
          rw [runEntries, count_runEntries_of_lt counter cond act hact (by omega), runEntry,
            List.take_zero, runEntries]
          split_ifs
          · rw [hact, if_pos (by omega)]
          · rw [add_zero]
      | succ j =>
          have hentry : c (runEntry counter cond act n e' s) = c s := by
            rw [runEntry]
            split_ifs
            · rw [hact, if_neg (by omega), add_zero]
            · rfl
          rw [runEntries, ih (by omega) he, hentry, List.take_succ_cons, runEntries]

end

end Paparazzi.Generator.PeriodicChain
