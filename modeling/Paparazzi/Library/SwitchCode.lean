import Mathlib.Data.List.Basic
import Mathlib.Data.List.Nodup

/-!
The body of a C `switch` with labels and `goto`: a flat list of marks,
declarations and statements, executed from the place where the switch or a jump
enters it.  Places are suffixes of the body.
-/

namespace Paparazzi.Library.SwitchCode

/-! ### Places in a list -/

section Seek

variable {α κ : Type*} [DecidableEq κ]

/-- What follows the first element with key `k`. -/
def seek (key : α → Option κ) (k : κ) : List α → Option (List α)
  | [] => none
  | a :: rest => if key a = some k then some rest else seek key k rest

/-- Where the keys of a list are distinct, an element is found by its key. -/
theorem seek_eq_some {key : α → Option κ} {k : κ} {a : α} {rest code : List α}
    (hkey : key a = some k) (hnodup : (code.filterMap key).Nodup) (hsuffix : a :: rest <:+ code) :
    seek key k code = some rest := by
  obtain ⟨before, rfl⟩ := hsuffix
  induction before with
  | nil => simp [seek, hkey]
  | cons b before ih =>
      rw [List.cons_append, List.filterMap_cons] at hnodup
      have hmem : k ∈ (before ++ a :: rest).filterMap key := by
        rw [List.mem_filterMap]
        exact ⟨a, by simp, hkey⟩
      rw [List.cons_append, seek]
      cases hb : key b with
      | none =>
          rw [hb] at hnodup
          simpa using ih hnodup
      | some k' =>
          rw [hb] at hnodup
          obtain ⟨hnot, hnodup⟩ := List.nodup_cons.mp hnodup
          have hne : k' ≠ k := by
            rintro rfl
            exact hnot hmem
          simpa [hne] using ih hnodup

end Seek

/-! ### Code and its execution -/

/-- One item of a switch body, over the labels and the statements of a program. -/
inductive Item (Label Stmt : Type*) where
  | label (l : Label)
  | case (n : Nat)
  | default
  | decl (v : String)
  | stmt (s : Stmt)
  deriving DecidableEq, Repr

/-- Where the control goes after a statement. -/
inductive Flow (Label State : Type*) where
  | next (s : State)
  | goto (l : Label) (s : State)
  | leave (s : State)
  deriving Repr

variable {Label Stmt State : Type*}

namespace Item

def labelOf : Item Label Stmt → Option Label
  | .label l => some l
  | _ => none

def caseOf : Item Label Stmt → Option Nat
  | .case n => some n
  | _ => none

def defaultOf : Item Label Stmt → Option Unit
  | .default => some ()
  | _ => none

def declOf : Item Label Stmt → Option String
  | .decl v => some v
  | _ => none

/-- A label in the sense of the grammar of C: what must stand before a statement. -/
def isMark : Item Label Stmt → Bool
  | .label _ | .case _ | .default => true
  | _ => false

def isStmt : Item Label Stmt → Bool
  | .stmt _ => true
  | _ => false

@[simp] theorem labelOf_apply :
    (∀ l, (label l : Item Label Stmt).labelOf = some l) ∧
      (∀ n, (case n : Item Label Stmt).labelOf = none) ∧
      (default : Item Label Stmt).labelOf = none ∧
      (∀ v, (decl v : Item Label Stmt).labelOf = none) ∧
      ∀ st, (stmt st : Item Label Stmt).labelOf = none :=
  ⟨fun _ => rfl, fun _ => rfl, rfl, fun _ => rfl, fun _ => rfl⟩

@[simp] theorem caseOf_apply :
    (∀ l, (label l : Item Label Stmt).caseOf = none) ∧
      (∀ n, (case n : Item Label Stmt).caseOf = some n) ∧
      (default : Item Label Stmt).caseOf = none ∧ (∀ v, (decl v : Item Label Stmt).caseOf = none) ∧
      ∀ st, (stmt st : Item Label Stmt).caseOf = none :=
  ⟨fun _ => rfl, fun _ => rfl, rfl, fun _ => rfl, fun _ => rfl⟩

@[simp] theorem defaultOf_apply :
    (∀ l, (label l : Item Label Stmt).defaultOf = none) ∧
      (∀ n, (case n : Item Label Stmt).defaultOf = none) ∧
      (default : Item Label Stmt).defaultOf = some () ∧
      (∀ v, (decl v : Item Label Stmt).defaultOf = none) ∧
      ∀ st, (stmt st : Item Label Stmt).defaultOf = none :=
  ⟨fun _ => rfl, fun _ => rfl, rfl, fun _ => rfl, fun _ => rfl⟩

@[simp] theorem declOf_apply :
    (∀ l, (label l : Item Label Stmt).declOf = none) ∧
      (∀ n, (case n : Item Label Stmt).declOf = none) ∧
      (default : Item Label Stmt).declOf = none ∧
      (∀ v, (decl v : Item Label Stmt).declOf = some v) ∧
      ∀ st, (stmt st : Item Label Stmt).declOf = none :=
  ⟨fun _ => rfl, fun _ => rfl, rfl, fun _ => rfl, fun _ => rfl⟩

@[simp] theorem isMark_apply :
    (∀ l, (label l : Item Label Stmt).isMark = true) ∧
      (∀ n, (case n : Item Label Stmt).isMark = true) ∧
      (default : Item Label Stmt).isMark = true ∧ (∀ v, (decl v : Item Label Stmt).isMark = false) ∧
      ∀ st, (stmt st : Item Label Stmt).isMark = false :=
  ⟨fun _ => rfl, fun _ => rfl, rfl, fun _ => rfl, fun _ => rfl⟩

@[simp] theorem isStmt_apply :
    (∀ l, (label l : Item Label Stmt).isStmt = false) ∧
      (∀ n, (case n : Item Label Stmt).isStmt = false) ∧
      (default : Item Label Stmt).isStmt = false ∧ (∀ v, (decl v : Item Label Stmt).isStmt = false) ∧
      ∀ st, (stmt st : Item Label Stmt).isStmt = true :=
  ⟨fun _ => rfl, fun _ => rfl, rfl, fun _ => rfl, fun _ => rfl⟩

end Item

/-- A place where a label can stand: a statement follows, or another mark. -/
def labelled : List (Item Label Stmt) → Bool
  | [] => false
  | item :: _ => item.isMark || item.isStmt

/-- Every mark stands before a statement or another mark: a declaration cannot
be labelled, and neither can the end of a block. -/
def marksFollowed : List (Item Label Stmt) → Bool
  | [] => true
  | item :: rest => (!item.isMark || labelled rest) && marksFollowed rest

@[simp] theorem labelled_cons (item : Item Label Stmt) (rest : List (Item Label Stmt)) :
    labelled (item :: rest) = (item.isMark || item.isStmt) := rfl

@[simp] theorem marksFollowed_cons (item : Item Label Stmt) (rest : List (Item Label Stmt)) :
    marksFollowed (item :: rest) = ((!item.isMark || labelled rest) && marksFollowed rest) := rfl

theorem marksFollowed_append_of_stmts {stmts : List (Item Label Stmt)}
    (hstmts : ∀ item ∈ stmts, item.isStmt = true) (rest : List (Item Label Stmt)) :
    marksFollowed (stmts ++ rest) = marksFollowed rest := by
  induction stmts with
  | nil => rfl
  | cons item stmts ih =>
      have hitem : item.isMark = false := by
        have := hstmts item (by simp)
        cases item <;> simp_all [Item.isStmt, Item.isMark]
      rw [List.cons_append, marksFollowed, hitem]
      simpa using ih fun item hmem => hstmts item (by simp [hmem])

/-- What a C compiler asks of the body of one switch: distinct labels, case
values and declared names, one `default` at most, and labelled statements. -/
structure Legal (code : List (Item Label Stmt)) : Prop where
  labels : (code.filterMap Item.labelOf).Nodup
  cases : (code.filterMap Item.caseOf).Nodup
  defaults : (code.filterMap Item.defaultOf).Nodup
  decls : (code.filterMap Item.declOf).Nodup
  marks : marksFollowed code = true

variable [DecidableEq Label]

/-- The place where `switch (n)` enters the body. -/
def enter (code : List (Item Label Stmt)) (n : Nat) : List (Item Label Stmt) :=
  match seek Item.caseOf n code with
  | some place => place
  | none => (seek Item.defaultOf () code).getD []

/-- Execution from a place of the body until it is left, in at most `fuel` items. -/
def exec (sem : Stmt → State → Flow Label State) (code : List (Item Label Stmt)) :
    Nat → List (Item Label Stmt) → State → Option State
  | 0, _, _ => none
  | _ + 1, [], s => some s
  | fuel + 1, .stmt st :: rest, s =>
      match sem st s with
      | .next s' => exec sem code fuel rest s'
      | .leave s' => some s'
      | .goto l s' =>
          match seek Item.labelOf l code with
          | some place => exec sem code fuel place s'
          | none => none
  | fuel + 1, _ :: rest, s => exec sem code fuel rest s

/-- The execution from a place ends, in the state `s'`. -/
def Returns (sem : Stmt → State → Flow Label State) (code place : List (Item Label Stmt))
    (s s' : State) : Prop :=
  ∃ fuel, exec sem code fuel place s = some s'

section Rules

variable {sem : Stmt → State → Flow Label State} {code rest : List (Item Label Stmt)}
  {s s₁ s' : State}

/-- Marks and declarations do nothing when the control passes over them. -/
theorem exec_skip {item : Item Label Stmt} (hitem : item.isStmt = false) (fuel : Nat) :
    exec sem code (fuel + 1) (item :: rest) s = exec sem code fuel rest s := by
  cases item with
  | stmt st => cases hitem
  | label l => rfl
  | case n => rfl
  | default => rfl
  | decl v => rfl

theorem returns_skip {item : Item Label Stmt} (hitem : item.isStmt = false) :
    Returns sem code (item :: rest) s s' ↔ Returns sem code rest s s' := by
  constructor
  · rintro ⟨fuel, h⟩
    cases fuel with
    | zero => cases h
    | succ fuel => exact ⟨fuel, (exec_skip hitem fuel).symm.trans h⟩
  · rintro ⟨fuel, h⟩
    exact ⟨fuel + 1, (exec_skip hitem fuel).trans h⟩

theorem returns_skip_all {marks : List (Item Label Stmt)}
    (hmarks : ∀ item ∈ marks, item.isStmt = false) :
    Returns sem code (marks ++ rest) s s' ↔ Returns sem code rest s s' := by
  induction marks with
  | nil => rfl
  | cons item marks ih =>
      rw [List.cons_append, returns_skip (hmarks item (by simp))]
      exact ih fun item hitem => hmarks item (by simp [hitem])

theorem returns_next {st : Stmt} (hsem : sem st s = .next s₁)
    (h : Returns sem code rest s₁ s') : Returns sem code (.stmt st :: rest) s s' := by
  obtain ⟨fuel, h⟩ := h
  refine ⟨fuel + 1, ?_⟩
  rw [exec, hsem]
  exact h

theorem returns_leave {st : Stmt} (hsem : sem st s = .leave s') :
    Returns sem code (.stmt st :: rest) s s' := by
  refine ⟨1, ?_⟩
  rw [exec, hsem]

theorem returns_goto {st : Stmt} {l : Label} {place : List (Item Label Stmt)}
    (hsem : sem st s = .goto l s₁) (hplace : seek Item.labelOf l code = some place)
    (h : Returns sem code place s₁ s') : Returns sem code (.stmt st :: rest) s s' := by
  obtain ⟨fuel, h⟩ := h
  refine ⟨fuel + 1, ?_⟩
  rw [exec, hsem]
  simp only [hplace]
  exact h

/-- More fuel changes no result. -/
theorem exec_mono {fuel fuel' : Nat} {place : List (Item Label Stmt)}
    (h : exec sem code fuel place s = some s') (hle : fuel ≤ fuel') :
    exec sem code fuel' place s = some s' := by
  induction fuel generalizing fuel' place s with
  | zero => cases h
  | succ fuel ih =>
      obtain ⟨fuel', rfl⟩ : ∃ f, fuel' = f + 1 := ⟨fuel' - 1, by omega⟩
      have hle : fuel ≤ fuel' := by omega
      cases place with
      | nil => exact h
      | cons item rest =>
          cases hitem : item.isStmt with
          | false =>
              rw [exec_skip hitem] at h ⊢
              exact ih h hle
          | true =>
              obtain ⟨st, rfl⟩ : ∃ st, item = .stmt st := by
                cases item <;> simp_all [Item.isStmt]
              rw [exec] at h ⊢
              cases hsem : sem st s with
              | next s₂ =>
                  simp only [hsem] at h ⊢
                  exact ih h hle
              | leave s₂ =>
                  simp only [hsem] at h ⊢
                  exact h
              | goto l s₂ =>
                  simp only [hsem] at h ⊢
                  cases hplace : seek Item.labelOf l code with
                  | none =>
                      rw [hplace] at h
                      cases h
                  | some target =>
                      simp only [hplace] at h ⊢
                      exact ih h hle

/-- An execution has one result. -/
theorem returns_unique {place : List (Item Label Stmt)} {s₂ : State}
    (h₁ : Returns sem code place s s₁) (h₂ : Returns sem code place s s₂) : s₁ = s₂ := by
  obtain ⟨fuel₁, h₁⟩ := h₁
  obtain ⟨fuel₂, h₂⟩ := h₂
  have h₁' := exec_mono h₁ (Nat.le_max_left fuel₁ fuel₂)
  have h₂' := exec_mono h₂ (Nat.le_max_right fuel₁ fuel₂)
  exact Option.some.inj (h₁'.symm.trans h₂')

end Rules

end Paparazzi.Library.SwitchCode
