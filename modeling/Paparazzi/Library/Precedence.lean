import Mathlib

/-!
Left-associative binary operators: the tree into which the levels of a precedence
table read a chain of operands with operators between them, one operator and operand
after the other, and when two tables read a chain alike.
-/

namespace Paparazzi.Library.Precedence

variable {ω α β : Type*}

inductive Tree (ω α : Type*) where
  | leaf (a : α)
  | node (o : ω) (l r : Tree ω α)
  deriving DecidableEq, Repr

namespace Tree

/-- The operators of the chain under the tree, the last one first. -/
def ops : Tree ω α → List ω
  | leaf _ => []
  | node o l r => r.ops ++ o :: l.ops

/-- The operands of the chain under the tree. -/
def operands : Tree ω α → List α
  | leaf a => [a]
  | node _ l r => l.operands ++ r.operands

def map (f : α → β) : Tree ω α → Tree ω β
  | leaf a => leaf (f a)
  | node o l r => node o (l.map f) (r.map f)

/-- The value of the tree under a meaning of the operators. -/
def fold (g : ω → α → α → α) : Tree ω α → α
  | leaf a => a
  | node o l r => g o (l.fold g) (r.fold g)

/-- The next operator and operand are read: the operator takes as its left operand
what ends there and binds at least as tight. -/
def read (level : ω → Nat) (o : ω) (a : α) : Tree ω α → Tree ω α
  | leaf b => node o (leaf b) (leaf a)
  | node o' l r =>
      if level o ≤ level o' then node o (node o' l r) (leaf a) else node o' l (r.read level o a)

theorem read_leaf (level : ω → Nat) (o : ω) (a b : α) :
    (leaf b).read level o a = node o (leaf b) (leaf a) :=
  rfl

theorem read_node (level : ω → Nat) (o o' : ω) (a : α) (l r : Tree ω α) :
    (node o' l r).read level o a =
      if level o ≤ level o' then node o (node o' l r) (leaf a) else node o' l (r.read level o a) :=
  rfl

/-- The operator at the root, if there is one, has at least the level `k`. -/
def Above (level : ω → Nat) (k : Nat) : Tree ω α → Prop
  | leaf _ => True
  | node o _ _ => k ≤ level o

/-- Every operand binds tighter than its operator, a left one at least as tight. -/
def Allowed (level : ω → Nat) : Tree ω α → Prop
  | leaf _ => True
  | node o l r =>
      l.Above level (level o) ∧ r.Above level (level o + 1) ∧ l.Allowed level ∧ r.Allowed level

/-- The operators among the last ones that bind at least as tight as `o`: those that
`o` takes into its left operand. -/
def taken (level : ω → Nat) (o : ω) (ops : List ω) : List ω :=
  ops.takeWhile fun p => level o ≤ level p

@[simp] theorem ops_read (level : ω → Nat) (o : ω) (a : α) (t : Tree ω α) :
    (t.read level o a).ops = o :: t.ops := by
  induction t with
  | leaf b => rfl
  | node o' l r ihl ihr =>
      rw [read_node]
      split_ifs
      · rfl
      · simp [ops, ihr]

@[simp] theorem operands_read (level : ω → Nat) (o : ω) (a : α) (t : Tree ω α) :
    (t.read level o a).operands = t.operands ++ [a] := by
  induction t with
  | leaf b => rfl
  | node o' l r ihl ihr =>
      rw [read_node]
      split_ifs
      · rfl
      · simp [operands, ihr]

@[simp] theorem map_read (f : α → β) (level : ω → Nat) (o : ω) (a : α) (t : Tree ω α) :
    (t.read level o a).map f = (t.map f).read level o (f a) := by
  induction t with
  | leaf b => rfl
  | node o' l r ihl ihr =>
      rw [read_node, map, read_node]
      split_ifs
      · rfl
      · rw [map, ihr]

theorem above_read {level : ω → Nat} {k : Nat} {o : ω} {t : Tree ω α} (a : α)
    (ht : t.Above level k) (ho : k ≤ level o) : (t.read level o a).Above level k := by
  cases t with
  | leaf b => exact ho
  | node o' l r =>
      rw [read_node]
      split_ifs
      · exact ho
      · exact ht

theorem allowed_read {level : ω → Nat} {t : Tree ω α} (ht : t.Allowed level) (o : ω) (a : α) :
    (t.read level o a).Allowed level := by
  induction t with
  | leaf b => exact ⟨trivial, trivial, trivial, trivial⟩
  | node o' l r ihl ihr =>
      obtain ⟨hl, hr, hal, har⟩ := ht
      rw [read_node]
      split_ifs with h
      · exact ⟨h, trivial, ⟨hl, hr, hal, har⟩, trivial⟩
      · exact ⟨hl, above_read a hr (by omega), hal, ihr har⟩

/-- No operator of a tree that is allowed has a lower level than its root. -/
theorem le_level_of_mem_ops {level : ω → Nat} {k : Nat} {t : Tree ω α} (ht : t.Allowed level)
    (hk : t.Above level k) : ∀ p ∈ t.ops, k ≤ level p := by
  induction t generalizing k with
  | leaf b => nofun
  | node o l r ihl ihr =>
      rintro p hp
      obtain ⟨hl, hr, hal, har⟩ := ht
      rcases List.mem_append.mp hp with hp | hp
      · have := ihr har hr p hp
        exact Nat.le_trans hk (by omega)
      · rcases List.mem_cons.mp hp with rfl | hp
        · exact hk
        · exact Nat.le_trans hk (ihl hal hl p hp)

theorem read_ne_leaf {level : ω → Nat} {o : ω} {a b : α} {t : Tree ω α} :
    t.read level o a ≠ leaf b := by
  cases t with
  | leaf c => nofun
  | node o' l r =>
      rw [read_node]
      split_ifs <;> nofun

/-- The tree before an operator and operand were read is found again, whatever the table. -/
theorem read_inj {level level' : ω → Nat} {o o' : ω} {a a' : α} {t t' : Tree ω α}
    (h : t.read level o a = t'.read level' o' a') : t = t' ∧ o = o' ∧ a = a' := by
  induction t generalizing t' with
  | leaf b =>
      cases t' with
      | leaf b' =>
          cases h
          exact ⟨rfl, rfl, rfl⟩
      | node p l r =>
          rw [read_leaf, read_node] at h
          split_ifs at h
          · cases h
          · injection h with _ _ hr
            exact absurd hr.symm read_ne_leaf
  | node p l r ihl ihr =>
      cases t' with
      | leaf b' =>
          rw [read_node, read_leaf] at h
          split_ifs at h
          · cases h
          · injection h with _ _ hr
            exact absurd hr read_ne_leaf
      | node p' l' r' =>
          rw [read_node, read_node] at h
          split_ifs at h
          · cases h
            exact ⟨rfl, rfl, rfl⟩
          · injection h with _ _ hr
            exact absurd hr.symm read_ne_leaf
          · injection h with _ _ hr
            exact absurd hr read_ne_leaf
          · injection h with hp hl hr
            obtain ⟨rfl, rfl, rfl⟩ := ihr hr
            exact ⟨by rw [hp, hl], rfl, rfl⟩

/-- Two tables, the second of which keeps the order of the first, read an operator
alike just if it binds no tighter, by the second, than what it takes by the first. -/
theorem read_eq_iff {level level' : ω → Nat} (hlt : ∀ o p, level o < level p → level' o < level' p)
    {t : Tree ω α} (ht : t.Allowed level) (ht' : t.Allowed level') (o : ω) (a : α) :
    t.read level' o a = t.read level o a ↔ ∀ p ∈ taken level o t.ops, level' o ≤ level' p := by
  induction t with
  | leaf b => exact iff_of_true rfl nofun
  | node p l r ihl ihr =>
      by_cases h : level o ≤ level p
      · have hall : taken level o (node p l r).ops = (node p l r).ops := by
          apply List.takeWhile_eq_self_iff.mpr
          intro q hq
          exact decide_eq_true (le_level_of_mem_ops ht h q hq)
        rw [hall, read_node, read_node, if_pos h]
        constructor
        · intro heq
          have hallowed := allowed_read ht' o a
          rw [read_node, heq] at hallowed
          exact le_level_of_mem_ops ht' hallowed.1
        · intro hle
          exact if_pos (hle p (by simp [ops]))
      · obtain ⟨-, -, -, har⟩ := ht
        obtain ⟨-, -, -, har'⟩ := ht'
        have hp : ¬ level' o ≤ level' p := Nat.not_le.mpr (hlt p o (Nat.not_le.mp h))
        have hright : taken level o (node p l r).ops = taken level o r.ops := by
          rw [taken, ops, List.takeWhile_append]
          split_ifs with hlen
          · have hwhole := (List.takeWhile_prefix (fun p => level o ≤ level p)).eq_of_length hlen
            simp [h, taken, hwhole]
          · rfl
        rw [hright, read_node, read_node, if_neg h, if_neg hp, ← ihr har har']
        constructor
        · intro heq
          injection heq
        · intro heq
          rw [heq]

@[simp] theorem ops_map (f : α → β) (t : Tree ω α) : (t.map f).ops = t.ops := by
  induction t with
  | leaf a => rfl
  | node o l r ihl ihr => rw [map, ops, ops, ihl, ihr]

@[simp] theorem operands_map (f : α → β) (t : Tree ω α) :
    (t.map f).operands = t.operands.map f := by
  induction t with
  | leaf a => rfl
  | node o l r ihl ihr => rw [map, operands, operands, ihl, ihr, List.map_append]

theorem above_map (f : α → β) (level : ω → Nat) (k : Nat) (t : Tree ω α) :
    (t.map f).Above level k ↔ t.Above level k := by
  cases t <;> exact Iff.rfl

theorem allowed_map (f : α → β) (level : ω → Nat) (t : Tree ω α) :
    (t.map f).Allowed level ↔ t.Allowed level := by
  induction t with
  | leaf a => exact Iff.rfl
  | node o l r ihl ihr =>
      exact and_congr (above_map f level _ l) (and_congr (above_map f level _ r)
        (and_congr ihl ihr))

/-- Two tables that read an operator alike over some operands do so over all. -/
theorem read_congr {level level' : ω → Nat}
    (hlt : ∀ o p, level o < level p → level' o < level' p) {t : Tree ω α} {t' : Tree ω β}
    (ht : t.Allowed level) (ht' : t.Allowed level') (hs : t'.Allowed level)
    (hs' : t'.Allowed level') (hops : t.ops = t'.ops) (o : ω) (a : α) (b : β)
    (h : t.read level' o a = t.read level o a) : t'.read level' o b = t'.read level o b := by
  rw [read_eq_iff hlt ht ht', hops] at h
  exact (read_eq_iff hlt hs hs' o b).mpr h

/-! ### Trees of one chain with one value -/

theorem eq_of_sum_eq {xs ys xs' ys' : List Nat} (h : xs ++ ys = xs' ++ ys')
    (hsum : (xs.map (· + 1)).sum = (xs'.map (· + 1)).sum) : xs = xs' ∧ ys = ys' := by
  have hempty : ∀ zs : List Nat, (zs.map (· + 1)).sum = 0 → zs = [] := by
    intro zs hzs
    cases zs with
    | nil => rfl
    | cons z zs => simp at hzs
  rcases List.append_eq_append_iff.mp h with ⟨zs, rfl, rfl⟩ | ⟨zs, rfl, rfl⟩
  · rw [List.map_append, List.sum_append] at hsum
    rw [hempty zs (by omega)]
    simp
  · rw [List.map_append, List.sum_append] at hsum
    rw [hempty zs (by omega)]
    simp

theorem size_fold {g : ω → α → α → α} {size : α → Nat}
    (hsize : ∀ o a b, size (g o a b) = size a + size b + 1) (t : Tree ω α) :
    size (t.fold g) + 1 = ((t.operands.map size).map (· + 1)).sum := by
  induction t with
  | leaf a => simp [fold, operands]
  | node o l r ihl ihr =>
      rw [fold, operands, List.map_append, List.map_append, List.sum_append, ← ihl, ← ihr, hsize]
      omega

/-- Over operands of the same sizes, trees of the same value are the same. -/
theorem fold_inj {g : ω → α → α → α} {size : α → Nat}
    (hsize : ∀ o a b, size (g o a b) = size a + size b + 1)
    (hinj : ∀ o o' a a' b b', g o a b = g o' a' b' → o = o' ∧ a = a' ∧ b = b')
    {t t' : Tree ω α} (hoperands : t.operands.map size = t'.operands.map size)
    (h : t.fold g = t'.fold g) : t = t' := by
  have hlength : ∀ t : Tree ω α, 0 < t.operands.length := by
    intro t
    induction t with
    | leaf a => exact Nat.one_pos
    | node o l r ihl ihr =>
        rw [operands, List.length_append]
        omega
  induction t generalizing t' with
  | leaf a =>
      cases t' with
      | leaf a' => exact congrArg leaf h
      | node o' l' r' =>
          have := congrArg List.length hoperands
          have hl := hlength l'
          have hr := hlength r'
          simp only [operands, List.length_map, List.length_append, List.length_singleton] at this
          omega
  | node o l r ihl ihr =>
      cases t' with
      | leaf a' =>
          have := congrArg List.length hoperands
          have hl := hlength l
          have hr := hlength r
          simp only [operands, List.length_map, List.length_append, List.length_singleton] at this
          omega
      | node o' l' r' =>
          obtain ⟨rfl, hfl, hfr⟩ := hinj _ _ _ _ _ _ h
          rw [operands, operands, List.map_append, List.map_append] at hoperands
          have hsum := size_fold hsize l
          rw [hfl, size_fold hsize l'] at hsum
          obtain ⟨hl, hr⟩ := eq_of_sum_eq hoperands hsum.symm
          rw [ihl hl hfl, ihr hr hfr]

/-! ### The tree of a chain -/

theorem above_iff_ops {level : ω → Nat} {k : Nat} {t : Tree ω α} (ht : t.Allowed level) :
    t.Above level k ↔ ∀ p ∈ t.ops, k ≤ level p := by
  constructor
  · exact le_level_of_mem_ops ht
  · intro h
    cases t with
    | leaf a => trivial
    | node o l r => exact h o (by simp [ops])

theorem length_operands (t : Tree ω α) : t.operands.length = t.ops.length + 1 := by
  induction t with
  | leaf a => rfl
  | node o l r ihl ihr =>
      rw [operands, ops, List.length_append, List.length_append, List.length_cons, ihl, ihr]
      omega

/-- The chain decides the tree: the last operator of the lowest level is the root. -/
theorem eq_of_allowed {level : ω → Nat} {t t' : Tree ω α} (ht : t.Allowed level)
    (ht' : t'.Allowed level) (hops : t.ops = t'.ops) (hoperands : t.operands = t'.operands) :
    t = t' := by
  induction t generalizing t' with
  | leaf a =>
      cases t' with
      | leaf a' =>
          cases hoperands
          rfl
      | node o' l' r' => simp [ops] at hops
  | node o l r ihl ihr =>
      cases t' with
      | leaf a' => simp [ops] at hops
      | node o' l' r' =>
          obtain ⟨hl, hr, hal, har⟩ := ht
          obtain ⟨hl', hr', hal', har'⟩ := ht'
          rw [ops, ops] at hops
          -- neither root is among the operators behind the other one
          have hroot : r.ops = r'.ops ∧ o :: l.ops = o' :: l'.ops := by
            rcases List.append_eq_append_iff.mp hops with ⟨zs, hzs, hrest⟩ | ⟨zs, hzs, hrest⟩
            · cases zs with
              | nil => exact ⟨by rw [hzs, List.append_nil], by simpa using hrest⟩
              | cons z zs =>
                  injection hrest with hz htail
                  have hlow := le_level_of_mem_ops har' hr' z (by simp [hzs])
                  have hhigh := le_level_of_mem_ops hal hl o' (by simp [htail])
                  rw [← hz] at hlow
                  omega
            · cases zs with
              | nil => exact ⟨by rw [hzs, List.append_nil], by simpa using hrest.symm⟩
              | cons z zs =>
                  injection hrest with hz htail
                  have hlow := le_level_of_mem_ops har hr z (by simp [hzs])
                  have hhigh := le_level_of_mem_ops hal' hl' o (by simp [htail])
                  rw [← hz] at hlow
                  omega
          obtain ⟨hright, hleft⟩ := hroot
          injection hleft with ho hleft
          have hlength : l.operands.length = l'.operands.length := by
            rw [length_operands, length_operands, hleft]
          obtain ⟨hl, hr⟩ := List.append_inj hoperands hlength
          rw [ho, ihl hal hal' hleft hl, ihr har har' hright hr]

/-- A tree over two chains with an operator between them has that operator at its root, and the
trees of the chains under it, if its value has the operator outside and values of the right
sizes under it. -/
theorem eq_node_of_fold {g : ω → α → α → α} {size : α → Nat} {level : ω → Nat}
    (hsize : ∀ o a b, size (g o a b) = size a + size b + 1)
    (hinj : ∀ o o' a a' b b', g o a b = g o' a' b' → o = o' ∧ a = a' ∧ b = b')
    {t t₁ t₂ : Tree ω α} (ht : t.Allowed level) (ht₁ : t₁.Allowed level) (ht₂ : t₂.Allowed level)
    {o : ω} (hops : t.ops = t₂.ops ++ o :: t₁.ops)
    (hoperands : t.operands = t₁.operands ++ t₂.operands) {a b : α}
    (ha : size a = size (t₁.fold g)) (h : t.fold g = g o a b) : t = node o t₁ t₂ := by
  cases t with
  | leaf c => simp [ops] at hops
  | node p l r =>
      obtain ⟨-, -, hal, har⟩ := ht
      obtain ⟨rfl, hl, -⟩ := hinj _ _ _ _ _ _ h
      have hsum := size_fold hsize l
      rw [hl, ha, size_fold hsize t₁] at hsum
      have hsizes := congrArg (List.map size) hoperands
      rw [operands, List.map_append, List.map_append] at hsizes
      have hlength := congrArg List.length (eq_of_sum_eq hsizes hsum.symm).1
      rw [List.length_map, List.length_map] at hlength
      obtain ⟨hoperandsL, hoperandsR⟩ := List.append_inj hoperands hlength
      have hlengthR := congrArg List.length hoperandsR
      rw [length_operands, length_operands, Nat.add_right_cancel_iff] at hlengthR
      obtain ⟨hopsR, hopsL⟩ := List.append_inj hops hlengthR
      injection hopsL with _ hopsL
      rw [eq_of_allowed hal ht₁ hopsL hoperandsL, eq_of_allowed har ht₂ hopsR hoperandsR]

theorem fold_map (f : α → β) {g : ω → α → α → α} {g' : ω → β → β → β}
    (hf : ∀ o a b, f (g o a b) = g' o (f a) (f b)) (t : Tree ω α) :
    (t.map f).fold g' = f (t.fold g) := by
  induction t with
  | leaf a => rfl
  | node o l r ihl ihr => rw [map, fold, fold, ihl, ihr, hf]

end Tree

end Paparazzi.Library.Precedence
