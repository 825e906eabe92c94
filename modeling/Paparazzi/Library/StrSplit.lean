import Mathlib.Data.List.Basic
import Mathlib.Tactic.SplitIfs

/-!
Cutting a text at delimiters and putting it together again: the pieces between single
delimiters, and the words between runs of them.
-/

namespace Paparazzi.Library.StrSplit

variable {α : Type*}

/-! ### Runs of delimiters -/

/-- The pieces between runs of delimiters; those at the two ends are ignored. -/
def words (p : α → Bool) (l : List α) : List (List α) :=
  (l.splitOnP p).filter fun w => !w.isEmpty

section

variable {p : α → Bool}

@[simp] theorem words_nil : words p [] = [] := by
  simp [words, List.splitOnP_nil]

/-- Nothing reaches over a delimiter. -/
theorem words_append_cons {x : α} (hx : p x = true) (l l' : List α) :
    words p (l ++ x :: l') = words p l ++ words p l' := by
  rw [words, List.splitOnP_append_cons l l' hx, List.filter_append, words, words]

theorem words_of_forall {l : List α} (hne : l ≠ []) (h : ∀ x ∈ l, p x = false) :
    words p l = [l] := by
  have hempty : l.isEmpty = false := by simpa using hne
  rw [words, List.splitOnP_eq_singleton h, List.filter_singleton, hempty]
  rfl

theorem not_delimiter_of_mem_splitOnP {l w : List α} (hw : w ∈ l.splitOnP p) :
    ∀ x ∈ w, p x = false := by
  induction l generalizing w with
  | nil =>
      rw [List.splitOnP_nil, List.mem_singleton] at hw
      subst hw
      simp
  | cons x l ih =>
      rw [List.splitOnP_cons_eq_if_modifyHead] at hw
      split_ifs at hw with hx
      · rcases List.mem_cons.mp hw with rfl | hw
        · simp
        · exact ih hw
      · obtain ⟨v, vs, hvs⟩ := List.exists_cons_of_ne_nil (List.splitOnP_ne_nil p l)
        rw [hvs] at hw ih
        rcases List.mem_cons.mp hw with rfl | hw
        · intro y hy
          rcases List.mem_cons.mp hy with rfl | hy
          · exact Bool.eq_false_iff.mpr hx
          · exact ih List.mem_cons_self y hy
        · exact ih (List.mem_cons_of_mem _ hw)

/-- A word is not empty and has no delimiter. -/
theorem of_mem_words {l w : List α} (hw : w ∈ words p l) : w ≠ [] ∧ ∀ x ∈ w, p x = false := by
  obtain ⟨hmem, hne⟩ := List.mem_filter.mp hw
  exact ⟨by simpa using hne, not_delimiter_of_mem_splitOnP hmem⟩

theorem length_words_le_one {l : List α} (h : ∀ x ∈ l, p x = false) :
    (words p l).length ≤ 1 := by
  cases l with
  | nil => simp
  | cons x l => rw [words_of_forall (List.cons_ne_nil x l) h]; exact Nat.le_refl 1

/-- The words of texts that are joined by a delimiter. -/
theorem words_intercalate {x : α} (hx : p x = true) (ls : List (List α)) :
    words p ([x].intercalate ls) = ls.flatMap (words p) := by
  induction ls with
  | nil => exact words_nil
  | cons l ls ih =>
      cases ls with
      | nil => simp
      | cons l' ls =>
          rw [List.intercalate_cons_cons, List.append_assoc, List.singleton_append,
            words_append_cons hx, ih]
          rfl

theorem length_flatMap_words_le {ls : List (List α)} (h : ∀ l ∈ ls, (words p l).length ≤ 1) :
    (ls.flatMap (words p)).length ≤ ls.length := by
  induction ls with
  | nil => exact Nat.le_refl _
  | cons l ls ih =>
      obtain ⟨hl, hls⟩ := List.forall_mem_cons.mp h
      have hle := ih hls
      rw [List.flatMap_cons, List.length_append, List.length_cons]
      omega

/-- Texts of one word at most, as many as they have words, have one word each. -/
theorem forall₂_of_flatMap_words {ls ws : List (List α)} (h : ls.flatMap (words p) = ws)
    (hlength : ws.length = ls.length) (hle : ∀ l ∈ ls, (words p l).length ≤ 1) :
    List.Forall₂ (fun l w => words p l = [w]) ls ws := by
  induction ls generalizing ws with
  | nil =>
      subst h
      exact .nil
  | cons l ls ih =>
      obtain ⟨hl, hls⟩ := List.forall_mem_cons.mp hle
      have hrest := length_flatMap_words_le hls
      rw [List.flatMap_cons] at h
      have hsum := congrArg List.length h
      rw [List.length_append, hlength, List.length_cons] at hsum
      obtain ⟨w, hw⟩ := List.length_eq_one_iff.mp (show (words p l).length = 1 by omega)
      rw [hw] at h
      subst h
      exact .cons hw (ih rfl (by simpa using hlength) hls)

end

/-! ### Single delimiters -/

theorem mem_intercalate {x y : α} {ls : List (List α)} :
    y ∈ [x].intercalate ls → y = x ∨ ∃ l ∈ ls, y ∈ l := by
  induction ls with
  | nil => simp
  | cons l ls ih =>
      cases ls with
      | nil =>
          intro hy
          rw [List.intercalate_singleton] at hy
          exact .inr ⟨l, List.mem_cons_self, hy⟩
      | cons l' ls =>
          intro hy
          rw [List.intercalate_cons_cons, List.append_assoc, List.mem_append] at hy
          rcases hy with hy | hy
          · exact .inr ⟨l, List.mem_cons_self, hy⟩
          · rcases List.mem_cons.mp hy with rfl | hy
            · exact .inl rfl
            · exact (ih hy).imp_right fun ⟨l, hl, hy⟩ => ⟨l, List.mem_cons_of_mem _ hl, hy⟩

theorem mem_intercalate_of_mem {x y : α} {ls : List (List α)} {l : List α} (hl : l ∈ ls)
    (hy : y ∈ l) : y ∈ [x].intercalate ls := by
  induction ls with
  | nil => cases hl
  | cons l' ls ih =>
      cases ls with
      | nil =>
          rw [List.mem_singleton.mp hl] at hy
          rwa [List.intercalate_singleton]
      | cons l'' ls =>
          rw [List.intercalate_cons_cons, List.append_assoc, List.mem_append]
          rcases List.mem_cons.mp hl with rfl | hl
          · exact .inl hy
          · exact .inr (List.mem_cons_of_mem _ (ih hl))

variable [DecidableEq α]

/-- One delimiter in front, if there is one, is ignored. -/
def dropFront (x : α) : List α → List α
  | [] => []
  | y :: l => if y = x then l else y :: l

/-- Nothing behind the last delimiter is no piece. -/
def dropEmptyEnd (ls : List (List α)) : List (List α) :=
  if ls.getLast? = some [] then ls.dropLast else ls

/-- The pieces between single delimiters; one delimiter at each end is ignored. -/
def split (x : α) (l : List α) : List (List α) :=
  dropEmptyEnd ((dropFront x l).splitOn x)

theorem length_dropEmptyEnd_le (ls : List (List α)) : (dropEmptyEnd ls).length ≤ ls.length := by
  unfold dropEmptyEnd
  split_ifs
  · rw [List.length_dropLast]
    omega
  · exact Nat.le_refl _

theorem mem_of_mem_dropEmptyEnd {ls : List (List α)} {l : List α} (h : l ∈ dropEmptyEnd ls) :
    l ∈ ls := by
  unfold dropEmptyEnd at h
  split_ifs at h
  · exact (List.dropLast_sublist ls).subset h
  · exact h

/-- The pieces have no delimiter. -/
theorem notMem_of_mem_split {x : α} {l w : List α} (hw : w ∈ split x l) : x ∉ w := by
  have hmem := mem_of_mem_dropEmptyEnd hw
  rw [List.splitOn_eq_splitOnP] at hmem
  intro hx
  simpa using not_delimiter_of_mem_splitOnP hmem x hx

/-- The pieces consist of what was split. -/
theorem mem_of_mem_split {x y : α} {l w : List α} (hw : w ∈ split x l) (hy : y ∈ w) : y ∈ l := by
  have hmem := mem_intercalate_of_mem (x := x) (mem_of_mem_dropEmptyEnd hw) hy
  rw [List.intercalate_splitOn] at hmem
  cases l with
  | nil => exact hmem
  | cons z l =>
      rw [dropFront] at hmem
      split_ifs at hmem
      · exact List.mem_cons_of_mem _ hmem
      · exact hmem

/-- Pieces that can be told apart when they are joined: the delimiter is in none of them, and
neither the first nor the last one is empty. -/
structure Separable (x : α) (ls : List (List α)) : Prop where
  ne_nil : ls ≠ []
  notMem : ∀ l ∈ ls, x ∉ l
  head : ls.head? ≠ some []
  last : ls.getLast? ≠ some []

theorem dropFront_intercalate {x : α} {l : List α} {ls : List (List α)} (hl : l ≠ [])
    (hx : x ∉ l) : dropFront x ([x].intercalate (l :: ls)) = [x].intercalate (l :: ls) := by
  obtain ⟨y, l, rfl⟩ := List.exists_cons_of_ne_nil hl
  have hy : y ≠ x := fun h => hx (h ▸ List.mem_cons_self)
  cases ls with
  | nil =>
      rw [List.intercalate_singleton]
      exact if_neg hy
  | cons l' ls =>
      rw [List.intercalate_cons_cons]
      exact if_neg hy

theorem split_intercalate {x : α} {ls : List (List α)} (h : Separable x ls) :
    split x ([x].intercalate ls) = ls := by
  obtain ⟨hne, hnotMem, hhead, hlast⟩ := h
  cases ls with
  | nil => exact absurd rfl hne
  | cons l ls =>
      have hl : l ≠ [] := fun h => hhead (by rw [h]; rfl)
      rw [split, dropFront_intercalate hl (hnotMem l List.mem_cons_self),
        List.splitOn_intercalate x hnotMem hne, dropEmptyEnd, if_neg hlast]

/-- Only such pieces are found again. -/
theorem separable_of_split {x : α} {ls : List (List α)} (hne : ls ≠ [])
    (h : split x ([x].intercalate ls) = ls) : Separable x ls := by
  have hnotMem : ∀ l ∈ ls, x ∉ l := by
    intro l hl
    rw [← h] at hl
    exact notMem_of_mem_split hl
  have hhead : ls.head? ≠ some [] := by
    intro hhead
    cases ls with
    | nil => exact hne rfl
    | cons l ls =>
        cases hhead
        have hlength := congrArg List.length h
        cases ls with
        | nil => simp [split, dropFront, dropEmptyEnd] at hlength
        | cons l' ls =>
            -- the empty piece is the delimiter in front
            have hfront : dropFront x ([x].intercalate ([] :: l' :: ls)) =
                [x].intercalate (l' :: ls) := by
              rw [List.intercalate_cons_cons]
              exact if_pos rfl
            rw [split, hfront, List.splitOn_intercalate x
              (fun l hl => hnotMem l (List.mem_cons_of_mem _ hl)) (List.cons_ne_nil _ _)] at hlength
            have hle := length_dropEmptyEnd_le (l' :: ls)
            rw [List.length_cons] at hlength
            omega
  refine ⟨hne, hnotMem, hhead, ?_⟩
  intro hlast
  cases ls with
  | nil => exact hne rfl
  | cons l ls =>
      have hl : l ≠ [] := fun h => hhead (by rw [h]; rfl)
      rw [split, dropFront_intercalate hl (hnotMem l List.mem_cons_self),
        List.splitOn_intercalate x hnotMem hne, dropEmptyEnd, if_pos hlast] at h
      have hlength := congrArg List.length h
      rw [List.length_dropLast, List.length_cons] at hlength
      omega

end Paparazzi.Library.StrSplit
