import Mathlib.Computability.ContextFreeGrammar
import Mathlib.Data.List.Basic

/-!
The parsers that `ocamlyacc` generates: the LR(0) states of a grammar, tables of actions over them
with default reductions, and the engine that runs the tables on the tokens of a lexer.
-/

namespace Paparazzi.Library.LRParser

variable {T : Type} (g : ContextFreeGrammar T)

/-! ### States -/

/-- A rule of the grammar, or the rule of the entry point. -/
inductive Production where
  | entry
  | rule (r : ContextFreeRule T g.NT)

def Production.output : Production g → List (Symbol T g.NT)
  | .entry => [.nonterminal g.initial]
  | .rule r => r.output

/-- A production with the number of symbols that have been read. -/
abbrev Item := Production g × Nat

variable {g}

/-- The items of a state with the given kernel. -/
inductive Closure (kernel : Set (Item g)) : Item g → Prop
  | kernel {i : Item g} (h : i ∈ kernel) : Closure kernel i
  | expand {p : Production g} {d : Nat} {r : ContextFreeRule T g.NT} (h : Closure kernel (p, d))
      (hnext : p.output[d]? = some (.nonterminal r.input)) (hr : r ∈ g.rules) :
      Closure kernel (.rule r, 0)

variable (g) in
abbrev State := Set (Item g)

variable (g) in
def start : State g := {(.entry, 0)}

/-- The state that a symbol leads to. -/
def goto (q : State g) (x : Symbol T g.NT) : State g :=
  {i | ∃ d, i.2 = d + 1 ∧ Closure q (i.1, d) ∧ i.1.output[d]? = some x}

def Complete (q : State g) (p : Production g) : Prop := Closure q (p, p.output.length)

/-! ### Tables -/

variable (g) in
/-- `sindex`, `rindex` and `defred` with `table` and `check`; the token `none` is the end of the
input. -/
structure Tables where
  shift : State g → Option T → Bool
  reduce : State g → Option T → Option (Production g)
  defred : State g → Option (Production g)

variable (g) in
/-- How the tables are made from the states and the lookaheads of complete productions. -/
structure Tables.Made (tables : Tables g) (lookahead : State g → Production g → Option T → Prop) :
    Prop where
  /-- A reduction is of a complete production, at one of its lookaheads. -/
  reduce_complete : ∀ {q t p}, tables.reduce q t = some p → Complete q p ∧ lookahead q p t
  /-- A default reduction is of a complete production, in a state without shifts. -/
  defred_complete : ∀ {q p}, tables.defred q = some p →
    Complete q p ∧ ∀ t, tables.shift q t = false
  /-- The end of the input is not shifted. -/
  shift_end : ∀ {q}, tables.shift q none = false
  /-- A token that can be shifted is shifted, unless there is a conflict. -/
  shift_kept : ∀ {q p d t}, Closure q (p, d) → p.output[d]? = some (.terminal t) →
    tables.shift q (some t) = true ∨ ∃ p', Complete q p' ∧ lookahead q p' (some t)
  /-- Behind the entry point comes the end of the input. -/
  entry_lookahead : ∀ {q t}, lookahead q .entry t → t = none

/-! ### The engine -/

section

variable {I : Type} (next : I → Option (Option T × I))

/-- The stack of states, the last one first, the token that has been read ahead, and the text
behind it. -/
structure Config (g : ContextFreeGrammar T) (I : Type) where
  stack : List (State g)
  ahead : Option (Option T)
  rest : I

inductive Outcome (g : ContextFreeGrammar T) (I : Type) where
  | accepted
  | failed
  | running (c : Config g I)

def initial (input : I) : Config g I := ⟨[start g], none, input⟩

/-- A reduction; the action of the entry rule ends the run. -/
def reduceBy (c : Config g I) : Production g → Outcome g I
  | .entry => .accepted
  | .rule r =>
      let stack := c.stack.drop r.output.length
      .running { c with
        stack := goto (stack.headD (start g)) (.nonterminal r.input) :: stack }

variable (tables : Tables g)

/-- A step of `parse_engine`. Without productions that have `error`, an error ends the run. -/
def step (c : Config g I) : Outcome g I :=
  let q := c.stack.headD (start g)
  match tables.defred q with
  | some p => reduceBy c p
  | none =>
      match c.ahead with
      | none =>
          match next c.rest with
          | none => .failed
          | some (t, rest) => .running { c with ahead := some t, rest := rest }
      | some t =>
          if tables.shift q t then
            match t with
            | some t => .running { c with stack := goto q (.terminal t) :: c.stack, ahead := none }
            | none => .failed
          else
            match tables.reduce q t with
            | some p => reduceBy c p
            | none => .failed

section

variable {next} {tables} {q : State g} {qs : List (State g)} {rest : I}
  (hdefred : tables.defred q = none)

include hdefred

theorem step_read {t : Option T} {rest' : I} (hnext : next rest = some (t, rest')) :
    step next tables ⟨q :: qs, none, rest⟩ = .running ⟨q :: qs, some t, rest'⟩ := by
  simp only [step, List.headD_cons, hdefred, hnext]

theorem step_shift {t : T} (hshift : tables.shift q (some t) = true) :
    step next tables ⟨q :: qs, some (some t), rest⟩ =
      .running ⟨goto q (.terminal t) :: q :: qs, none, rest⟩ := by
  simp only [step, List.headD_cons, hdefred, hshift, if_true]

theorem step_reduce {t : Option T} {p : Production g} (hshift : tables.shift q t = false)
    (hreduce : tables.reduce q t = some p) :
    step next tables ⟨q :: qs, some t, rest⟩ = reduceBy ⟨q :: qs, some t, rest⟩ p := by
  simp only [step, List.headD_cons, hdefred, hshift, Bool.false_eq_true, if_false, hreduce]

end

/-- The production that a step reduces. -/
def Reduces (c : Config g I) (p : Production g) : Prop :=
  tables.defred (c.stack.headD (start g)) = some p ∨
    ∃ t, c.ahead = some t ∧ tables.reduce (c.stack.headD (start g)) t = some p

/-- What a step can do: a reduction, or to read a token or to shift one. -/
theorem step_cases (c : Config g I) :
    step next tables c = .failed ∨
      (∃ p, Reduces tables c p ∧ step next tables c = reduceBy c p) ∨
      (∃ t rest, c.ahead = none ∧ next c.rest = some (t, rest) ∧
        step next tables c = .running { c with ahead := some t, rest := rest }) ∨
      ∃ t, c.ahead = some (some t) ∧
        step next tables c = .running { c with
          stack := goto (c.stack.headD (start g)) (.terminal t) :: c.stack
          ahead := none } := by
  unfold step
  dsimp only
  cases hdefred : tables.defred (c.stack.headD (start g)) with
  | some p => exact .inr (.inl ⟨p, .inl hdefred, rfl⟩)
  | none =>
      cases hahead : c.ahead with
      | none =>
          cases hnext : next c.rest with
          | none => exact .inl rfl
          | some r => exact .inr (.inr (.inl ⟨r.1, r.2, rfl, rfl, rfl⟩))
      | some t =>
          dsimp only
          split
          · cases t with
            | none => exact .inl rfl
            | some t => exact .inr (.inr (.inr ⟨t, rfl, rfl⟩))
          · cases hreduce : tables.reduce (c.stack.headD (start g)) t with
            | none => exact .inl rfl
            | some p => exact .inr (.inl ⟨p, .inr ⟨t, hahead, hreduce⟩, rfl⟩)

/-- The run from a configuration ends with the action of the entry rule. -/
inductive Accepts : Config g I → Prop
  | now {c : Config g I} (h : step next tables c = .accepted) : Accepts c
  | later {c c' : Config g I} (h : step next tables c = .running c') (hrest : Accepts c') : Accepts c

/-- The tokens that the lexer gives up to a place of the input. -/
inductive Reads : I → List T → I → Prop
  | nil (input : I) : Reads input [] input
  | cons {input rest last : I} {t : T} {ts : List T} (h : next input = some (some t, rest))
      (hrest : Reads rest ts last) : Reads input (t :: ts) last

variable {next}

theorem Reads.snoc {input rest last : I} {t : T} {ts : List T} (h : Reads next input ts rest)
    (hlast : next rest = some (some t, last)) : Reads next input (ts ++ [t]) last := by
  induction h with
  | nil input => exact .cons hlast (.nil last)
  | cons h _ ih => exact .cons h (ih hlast)

end

/-! ### The stack -/

/-- The symbols that lead to the states of the stack, the last one first. -/
inductive Stacked : List (State g) → List (Symbol T g.NT) → Prop
  | start : Stacked [start g] []
  | push {q : State g} {qs : List (State g)} {xs : List (Symbol T g.NT)} (x : Symbol T g.NT)
      (h : Stacked (q :: qs) xs) : Stacked (goto q x :: q :: qs) (x :: xs)

theorem Stacked.drop {qs : List (State g)} {xs ys : List (Symbol T g.NT)}
    (h : Stacked qs (xs ++ ys)) : Stacked (qs.drop xs.length) ys := by
  induction xs generalizing qs with
  | nil => exact h
  | cons x xs ih =>
      cases h with
      | push _ h => exact ih h

/-- The productions of items are the entry rule, which is begun only at the start, and rules of
the grammar. -/
theorem Closure.entry_zero {q : State g} {qs : List (State g)} {xs : List (Symbol T g.NT)}
    (hstack : Stacked (q :: qs) xs) (h : Closure q (.entry, 0)) : xs = [] := by
  cases hstack with
  | start => rfl
  | push x hstack =>
      cases h with
      | kernel h =>
          obtain ⟨d, hd, -⟩ := h
          cases hd

/-- What has been read of the production of an item stands on top of the stack, and the item of
its beginning is in the state below. -/
theorem Closure.handle {q : State g} {qs : List (State g)} {xs : List (Symbol T g.NT)}
    {p : Production g} {d : Nat} (hstack : Stacked (q :: qs) xs) (h : Closure q (p, d)) :
    ∃ ys q' qs', xs = (p.output.take d).reverse ++ ys ∧ Stacked (q' :: qs') ys ∧
      Closure q' (p, 0) := by
  induction d generalizing q qs xs with
  | zero => exact ⟨xs, q, qs, rfl, hstack, h⟩
  | succ d ih =>
      cases h with
      | kernel h =>
          cases hstack with
          | start => cases h
          | push x hstack =>
              obtain ⟨d', hd, hclosure, hnext⟩ := h
              cases hd
              obtain ⟨ys, q', qs', rfl, hstack', hzero⟩ := ih hstack hclosure
              refine ⟨ys, q', qs', ?_, hstack', hzero⟩
              dsimp only at hnext
              rw [List.take_add_one, hnext, Option.toList_some, List.reverse_append]
              rfl

theorem Closure.mem_rules {qs : List (State g)} {q : State g} {xs : List (Symbol T g.NT)}
    {r : ContextFreeRule T g.NT} {d : Nat} (hstack : Stacked (q :: qs) xs)
    (h : Closure q (.rule r, d)) : r ∈ g.rules := by
  obtain ⟨ys, q', qs', -, hstack', hzero⟩ := h.handle hstack
  cases hzero with
  | expand _ _ hr => exact hr
  | kernel h =>
      cases hstack' with
      | start => cases h
      | push x _ =>
          obtain ⟨d, hd, -⟩ := h
          cases hd

/-! ### What is accepted -/

section

variable {I : Type} {next : I → Option (Option T × I)} {tables : Tables g}
  {lookahead : State g → Production g → Option T → Prop} {input : I}

/-- The symbols on the stack derive the tokens that have been taken. -/
structure Inv (next : I → Option (Option T × I)) (input : I) (xs : List (Symbol T g.NT))
    (ts : List T) (c : Config g I) : Prop where
  stacked : Stacked c.stack xs
  derives : g.Derives xs.reverse (ts.map .terminal)
  ahead : match c.ahead with
    | none => Reads next input ts c.rest
    | some t => ∃ rest, Reads next input ts rest ∧ next rest = some (t, c.rest)

def Whole (next : I → Option (Option T × I)) (g : ContextFreeGrammar T) (input : I) : Prop :=
  ∃ ts rest last, Reads next input ts rest ∧ next rest = some (none, last) ∧ ts ∈ g.language

theorem Stacked.exists_cons {qs : List (State g)} {xs : List (Symbol T g.NT)}
    (h : Stacked qs xs) : ∃ q qs', qs = q :: qs' := by
  cases h with
  | start => exact ⟨_, _, rfl⟩
  | push x h => exact ⟨_, _, rfl⟩

theorem inv_reduce {c c' : Config g I} {xs : List (Symbol T g.NT)} {ts : List T}
    {p : Production g} (hinv : Inv next input xs ts c)
    (hcomplete : Complete (c.stack.headD (start g)) p) (h : reduceBy c p = .running c') :
    ∃ xs', Inv next input xs' ts c' := by
  obtain ⟨q, qs, hstack⟩ := hinv.stacked.exists_cons
  have hstacked := hinv.stacked
  rw [hstack] at hstacked hcomplete
  cases p with
  | entry => cases h
  | rule r =>
      have hr := Closure.mem_rules hstacked hcomplete
      obtain ⟨ys, q', qs', hxs, -, -⟩ := Closure.handle hstacked hcomplete
      rw [Production.output, List.take_length] at hxs
      subst hxs
      have hdrop := hstacked.drop
      rw [List.length_reverse] at hdrop
      obtain ⟨q₁, qs₁, hqs₁⟩ := hdrop.exists_cons
      rw [reduceBy] at h
      cases h
      refine ⟨.nonterminal r.input :: ys, ?_, ?_, hinv.ahead⟩
      · dsimp only
        rw [hstack, hqs₁]
        rw [hqs₁] at hdrop
        exact .push _ hdrop
      · have hproduces : g.Produces (ys.reverse ++ [.nonterminal r.input])
            (ys.reverse ++ r.output) := by
          have hrewrites := r.rewrites_of_exists_parts ys.reverse []
          rw [List.append_nil, List.append_nil] at hrewrites
          exact ⟨r, hr, hrewrites⟩
        have hderives := hinv.derives
        rw [List.reverse_append, List.reverse_reverse] at hderives
        rw [List.reverse_cons]
        exact hproduces.trans_derives hderives

theorem inv_read {c : Config g I} {xs : List (Symbol T g.NT)} {ts : List T} {t : Option T}
    {rest : I} (hinv : Inv next input xs ts c) (hahead : c.ahead = none)
    (hnext : next c.rest = some (t, rest)) :
    Inv next input xs ts { c with ahead := some t, rest := rest } := by
  have hreads := hinv.ahead
  rw [hahead] at hreads
  exact ⟨hinv.stacked, hinv.derives, c.rest, hreads, hnext⟩

theorem inv_shift {c : Config g I} {xs : List (Symbol T g.NT)} {ts : List T} {t : T}
    (hinv : Inv next input xs ts c) (hahead : c.ahead = some (some t)) :
    Inv next input (.terminal t :: xs) (ts ++ [t])
      { c with
        stack := goto (c.stack.headD (start g)) (.terminal t) :: c.stack
        ahead := none } := by
  obtain ⟨q, qs, hstack⟩ := hinv.stacked.exists_cons
  have hstacked := hinv.stacked
  have hreads := hinv.ahead
  rw [hahead] at hreads
  obtain ⟨rest, hreads, hnext⟩ := hreads
  refine ⟨?_, ?_, hreads.snoc hnext⟩
  · rw [hstack] at hstacked ⊢
    exact .push _ hstacked
  · rw [List.reverse_cons, List.map_append]
    exact hinv.derives.append_right _

theorem Reduces.complete (made : tables.Made g lookahead) {c : Config g I} {p : Production g}
    (h : Reduces tables c p) : Complete (c.stack.headD (start g)) p := by
  rcases h with hdefred | ⟨t, -, hreduce⟩
  · exact (made.defred_complete hdefred).1
  · exact (made.reduce_complete hreduce).1

theorem inv_step (made : tables.Made g lookahead) {c c' : Config g I}
    {xs : List (Symbol T g.NT)} {ts : List T} (hinv : Inv next input xs ts c)
    (h : step next tables c = .running c') : ∃ xs' ts', Inv next input xs' ts' c' := by
  rcases step_cases next tables c with
    hstep | ⟨p, hreduces, hstep⟩ | ⟨t, rest, hahead, hnext, hstep⟩ | ⟨t, hahead, hstep⟩
  · cases hstep.symm.trans h
  · obtain ⟨xs', hinv'⟩ := inv_reduce hinv (hreduces.complete made) (hstep.symm.trans h)
    exact ⟨xs', ts, hinv'⟩
  · cases hstep.symm.trans h
    exact ⟨xs, ts, inv_read hinv hahead hnext⟩
  · cases hstep.symm.trans h
    exact ⟨_, _, inv_shift hinv hahead⟩

theorem complete_entry {q : State g} {qs : List (State g)} {xs : List (Symbol T g.NT)}
    (hstack : Stacked (q :: qs) xs) (h : Complete q .entry) :
    xs = [.nonterminal g.initial] ∧ q = goto (start g) (.nonterminal g.initial) := by
  obtain ⟨ys, q', qs', rfl, hstack', hzero⟩ := Closure.handle hstack h
  obtain rfl := Closure.entry_zero hstack' hzero
  refine ⟨rfl, ?_⟩
  cases hstack with
  | push x hstack =>
      cases hstack with
      | start => rfl

theorem eq_entry_of_reduceBy {c : Config g I} {p : Production g}
    (h : reduceBy c p = .accepted) : p = .entry := by
  cases p with
  | entry => rfl
  | rule r => cases h

/-- The action of the entry rule is taken at the end of the input, when the stack holds the
initial symbol. -/
theorem whole_of_accepted (made : tables.Made g lookahead)
    (hdefault : tables.defred (goto (start g) (.nonterminal g.initial)) ≠ some .entry)
    {c : Config g I} {xs : List (Symbol T g.NT)} {ts : List T}
    (hinv : Inv next input xs ts c) (h : step next tables c = .accepted) :
    Whole next g input := by
  obtain ⟨q, qs, hstack⟩ := hinv.stacked.exists_cons
  have hstacked := hinv.stacked
  rw [hstack] at hstacked
  have hreduces : Reduces tables c .entry := by
    rcases step_cases next tables c with
      hstep | ⟨p, hreduces, hstep⟩ | ⟨t, rest, -, -, hstep⟩ | ⟨t, -, hstep⟩
    · cases hstep.symm.trans h
    · obtain rfl := eq_entry_of_reduceBy (hstep.symm.trans h)
      exact hreduces
    · cases hstep.symm.trans h
    · cases hstep.symm.trans h
  have hcomplete := hreduces.complete made
  rw [hstack] at hcomplete
  obtain ⟨rfl, rfl⟩ := complete_entry hstacked hcomplete
  rcases hreduces with hdefred | ⟨t, hahead, hreduce⟩
  · rw [hstack] at hdefred
    exact absurd hdefred hdefault
  · obtain rfl := made.entry_lookahead (made.reduce_complete hreduce).2
    have hreads := hinv.ahead
    rw [hahead] at hreads
    obtain ⟨rest, hreads, hnext⟩ := hreads
    refine ⟨ts, rest, c.rest, hreads, hnext, ?_⟩
    rw [ContextFreeGrammar.mem_language_iff]
    exact hinv.derives

/-- What is accepted is a sentence as a whole, unless the entry rule is a default reduction. -/
theorem whole_of_accepts (made : tables.Made g lookahead)
    (hdefault : tables.defred (goto (start g) (.nonterminal g.initial)) ≠ some .entry)
    (h : Accepts next tables (initial input)) : Whole next g input := by
  have hall : ∀ c, Accepts next tables c →
      (∃ xs ts, Inv next input xs ts c) → Whole next g input := by
    intro c h
    induction h with
    | now h =>
        rintro ⟨xs, ts, hinv⟩
        exact whole_of_accepted made hdefault hinv h
    | later h _ ih =>
        rintro ⟨xs, ts, hinv⟩
        exact ih (inv_step made hinv h)
  exact hall _ h ⟨[], [], .start, .refl [], .nil input⟩

end

end Paparazzi.Library.LRParser
