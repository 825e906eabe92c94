import Paparazzi.FlightPlan.ReturnPoint

/-!
Exceptions and returns in every run: the block number, the targets of exceptions, and where a
return leads.
-/

namespace Paparazzi.FlightPlan.ReturnPoint

open Paparazzi.FlightPlan.CommonFlightPlan
open Paparazzi.FlightPlan.Printer (Label printSimple printBody stage jump printExitBlock untilCode)
open Paparazzi.FlightPlan.Stage (Text Simple)
open Paparazzi.Library.SwitchCode

/-! ### The printed code -/

/-- A statement that changes the block is the last one of its stage. -/
def StmtOk (ret : Bool) : Statement → Code → Prop
  | .return_, rest => ret = true ∧ rest.head? = some (.stmt (.base .brk))
  | .base (.gotoBlock _), rest => rest.head? = some (.stmt (.base .brk))
  | .base .nextBlock, rest => rest.head? = some (.stmt (.base .brk))
  | .base _, _ => True

def CodeOk (ret : Bool) : Code → Prop
  | [] => True
  | .stmt s :: rest => StmtOk ret s rest ∧ CodeOk ret rest
  | _ :: rest => CodeOk ret rest

section

variable {ret : Bool}

theorem stmtOk_append {s : Statement} {rest : Code} (h : StmtOk ret s rest) (code : Code) :
    StmtOk ret s (rest ++ code) := by
  have hhead : rest.head? = some (.stmt (.base .brk)) →
      (rest ++ code).head? = some (.stmt (.base .brk)) := by
    intro hbrk
    rw [List.head?_append, hbrk]
    rfl
  cases s with
  | return_ => exact ⟨h.1, hhead h.2⟩
  | base s =>
      cases s with
      | gotoBlock b => exact hhead h
      | nextBlock => exact hhead h
      | _ => trivial

theorem codeOk_append {a b : Code} (ha : CodeOk ret a) (hb : CodeOk ret b) :
    CodeOk ret (a ++ b) := by
  induction a with
  | nil => exact hb
  | cons item a ih =>
      cases item with
      | stmt s => exact ⟨stmtOk_append ha.1 b, ih ha.2⟩
      | _ => exact ih ha

theorem codeOk_suffix {code place : Code} (h : CodeOk ret code) (hsuffix : place <:+ code) :
    CodeOk ret place := by
  obtain ⟨before, rfl⟩ := hsuffix
  induction before with
  | nil => exact h
  | cons item before ih =>
      cases item with
      | stmt s => exact ih h.2
      | _ => exact ih h

/-- The statements that keep the block. -/
def keepsBlock : Printer.Statement → Bool
  | .gotoBlock _ => false
  | .nextBlock => false
  | _ => true

def itemKeepsBlock : Item Label Printer.Statement → Bool
  | .stmt s => keepsBlock s
  | _ => true

theorem codeOk_lift {code : Printer.Code} (h : code.all itemKeepsBlock = true) :
    CodeOk ret (lift code) := by
  induction code with
  | nil => trivial
  | cons item code ih =>
      rw [List.all_cons, Bool.and_eq_true] at h
      cases item with
      | stmt s =>
          refine ⟨?_, ih h.2⟩
          cases s with
          | gotoBlock b => cases h.1
          | nextBlock => cases h.1
          | _ => trivial
      | _ => exact ih h.2

theorem codeOk_printSimple (x : Simple) (n : Nat) : CodeOk ret (lift (printSimple x n)) := by
  cases x with
  | deroute b => exact ⟨trivial, rfl, trivial, trivial⟩
  | attitude until_ nav => cases until_ <;> exact codeOk_lift rfl
  | go place approaching wp nav until_ =>
      cases place <;> cases until_ <;> exact codeOk_lift rfl
  | stay nav until_ => cases until_ <;> exact codeOk_lift rfl
  | circle nav until_ => cases until_ <;> exact codeOk_lift rfl
  | eight init nav until_ => cases until_ <;> exact codeOk_lift rfl
  | oval init nav until_ => cases until_ <;> exact codeOk_lift rfl
  | _ => exact codeOk_lift rfl

theorem codeOk_printStages {t : Stages} (h : t.hasReturn = true → ret = true) (n x : Nat) :
    CodeOk ret (printStages t n x) := by
  induction t generalizing n x with
  | done => trivial
  | simple s rest ih => exact codeOk_append (codeOk_printSimple s n) (ih h _ _)
  | return_ rest ih =>
      refine codeOk_append (codeOk_append (codeOk_lift rfl) ⟨⟨h rfl, rfl⟩, trivial, trivial⟩) ?_
      exact ih (fun _ => h rfl) _ _
  | loopWhile cond body rest ihBody ihRest =>
      have hbody := ihBody fun hb => h (by rw [Stages.hasReturn, hb, Bool.true_or])
      have hrest := ihRest fun hr => h (by rw [Stages.hasReturn, hr, Bool.or_true])
      exact codeOk_append (codeOk_append (codeOk_append (codeOk_lift rfl) (hbody _ _))
        (codeOk_lift rfl)) (hrest _ _)
  | loopFor var from_ toExpr body rest ihBody ihRest =>
      have hbody := ihBody fun hb => h (by rw [Stages.hasReturn, hb, Bool.true_or])
      have hrest := ihRest fun hr => h (by rw [Stages.hasReturn, hr, Bool.or_true])
      exact codeOk_append (codeOk_append (codeOk_append (codeOk_lift rfl) (hbody _ _))
        (codeOk_lift rfl)) (hrest _ _)

theorem codeOk_printSwitch (b : Block) (x : Nat) :
    CodeOk b.stages.hasReturn (printSwitch b x) :=
  codeOk_append (codeOk_printStages id _ _) ⟨trivial, rfl, trivial, trivial⟩

theorem codeOk_printBlocks {blocks : List Block} {x i : Nat} {b : Block} {code : Code}
    (hb : blocks[i]? = some b) (hcode : (printBlocks blocks x)[i]? = some code) :
    CodeOk b.stages.hasReturn code := by
  induction blocks generalizing x i with
  | nil => cases hb
  | cons b' blocks ih =>
      cases i with
      | zero =>
          cases hb
          cases hcode
          exact codeOk_printSwitch _ _
      | succ i => exact ih hb hcode

end

/-! ### One statement -/

section

variable {inp : Inputs} {nbBlock : Nat} {st : State}

@[simp] theorem act_env (text : Text) (w : World Unit) : w.act inp.env text = w := rfl

@[simp] theorem test_env (cond : Text) (w : World Unit) :
    w.test inp.env cond = (inp.truth cond, w) := rfl

@[simp] theorem value_env (e : Text) (w : World Unit) :
    w.value inp.env e = (inp.value e, w) := rfl

@[simp] theorem moved_self (st : State) : st.moved st.world = st := by
  rw [State.moved, if_pos rfl]

@[simp] theorem act_self (text : Text) (st : State) : act inp text st = st := moved_self st

theorem navInitBlock_lt (hpos : 0 < nbBlock) (w : World Unit) :
    (w.navInitBlock inp.env nbBlock).navBlock < nbBlock := by
  simp only [World.navInitBlock, World.initStage, act_env]
  split_ifs with hge
  · exact Nat.sub_lt hpos Nat.zero_lt_one
  · exact Nat.lt_of_not_le hge

/-- The block, the return point and the record stay. -/
structure Same (st st' : State) : Prop where
  navBlock_eq : st'.world.navBlock = st.world.navBlock
  last_eq : st'.last = st.last
  entry_eq : st'.entry = st.entry
  returns_eq : st'.returns = st.returns

theorem Same.refl (st : State) : Same st st := ⟨rfl, rfl, rfl, rfl⟩

theorem Same.trans {a b c : State} (h : Same a b) (h' : Same b c) : Same a c :=
  ⟨h'.navBlock_eq.trans h.navBlock_eq, h'.last_eq.trans h.last_eq, h'.entry_eq.trans h.entry_eq,
    h'.returns_eq.trans h.returns_eq⟩

theorem same_moved {w : World Unit} (h : w.navBlock = st.world.navBlock) :
    Same st (st.moved w) :=
  ⟨h, rfl, if_pos h, rfl⟩

/-- The block changes without a `return`. -/
structure Moves (nbBlock : Nat) (st st' : State) : Prop where
  navBlock_lt : st'.world.navBlock < nbBlock
  last_eq : st'.last = st.last
  entry_eq : st'.entry = st.entry ∨ ∃ p, st'.entry = .other p
  returns_eq : st'.returns = st.returns

theorem moves_moved {w : World Unit} (h : w.navBlock < nbBlock) : Moves nbBlock st (st.moved w) := by
  refine ⟨h, rfl, ?_, rfl⟩
  rw [State.moved]
  dsimp only
  split_ifs
  · exact Or.inl rfl
  · exact Or.inr ⟨_, rfl⟩

/-- The state of a flow of control. -/
def flowState {τ : Type} : Flow Label τ → τ
  | .next s => s
  | .goto _ s => s
  | .leave s => s

theorem flowState_liftFlow (f : Flow Label (World Unit)) :
    flowState (liftFlow st f) = st.moved (flowState f) := by
  cases f <;> rfl

/-- Only two statements change the block. -/
theorem navBlock_sem {s : Printer.Statement} (h : keepsBlock s = true) (w : World Unit) :
    (flowState (Printer.sem inp.env nbBlock s w)).navBlock = w.navBlock := by
  cases s with
  | gotoBlock b => cases h
  | nextBlock => cases h
  | forTest v toVar e =>
      simp only [Printer.sem]
      split <;> rfl
  | whileTest cond e =>
      simp only [Printer.sem]
      split <;> rfl
  | nextIf cond =>
      simp only [Printer.sem]
      split <;> rfl
  | nextUnless cond =>
      simp only [Printer.sem]
      split <;> rfl
  | nextElse cond nav =>
      simp only [Printer.sem]
      split <;> rfl
  | nextFromElse cond wp nav =>
      simp only [Printer.sem]
      split <;> rfl
  | _ => rfl

theorem same_sem {s : Printer.Statement} (h : keepsBlock s = true) (st : State) :
    Same st (flowState (sem inp nbBlock (.base s) st)) := by
  rw [sem, flowState_liftFlow]
  exact same_moved (navBlock_sem h st.world)

/-! ### The stages of a call -/

/-- What the stages of a block do to the place in the plan. -/
inductive Ran (nbBlock : Nat) (ret : Bool) (st st' : State) : Prop where
  | same (h : Same st st')
  | moved (h : Moves nbBlock st st')
  | returned (hret : ret = true) (hplace : st'.place = st.last) (hlast : st'.last = st.last)
      (hentry : st'.entry = .resumed) (hreturns : st'.returns = st.returns ++ [(st.last, st.entry)])

theorem exec_brk {fuel : Nat} {code place : Code} {s s' : State}
    (h : exec (sem inp nbBlock) code fuel place s = some s')
    (hhead : place.head? = some (.stmt (.base .brk))) : s' = s := by
  cases place with
  | nil => cases hhead
  | cons item place =>
      cases hhead
      cases fuel with
      | zero => cases h
      | succ fuel =>
          rw [exec] at h
          simp only [sem, Printer.sem, liftFlow, moved_self] at h
          exact (Option.some.inj h).symm

theorem Ran.of_same {ret : Bool} {a b c : State} (hsame : Same a b) (h : Ran nbBlock ret b c) :
    Ran nbBlock ret a c := by
  cases h with
  | same h => exact .same (hsame.trans h)
  | moved h =>
      refine .moved ⟨h.navBlock_lt, h.last_eq.trans hsame.last_eq, ?_,
        h.returns_eq.trans hsame.returns_eq⟩
      rw [← hsame.entry_eq]
      exact h.entry_eq
  | returned hret hplace hlast hentry hreturns =>
      refine .returned hret (hplace.trans hsame.last_eq) (hlast.trans hsame.last_eq) hentry ?_
      rw [hreturns, hsame.last_eq, hsame.entry_eq, hsame.returns_eq]

theorem seek_suffix {α κ : Type} [DecidableEq κ] {key : α → Option κ} {k : κ} {code place : List α}
    (h : seek key k code = some place) : place <:+ code := by
  induction code with
  | nil => cases h
  | cons a code ih =>
      rw [seek] at h
      split_ifs at h with hkey
      · rw [← Option.some.inj h]
        exact List.suffix_cons a code
      · exact (ih h).trans (List.suffix_cons a code)

theorem enter_suffix (code : Code) (n : Nat) : enter code n <:+ code := by
  rw [enter]
  split
  · exact seek_suffix ‹_›
  · cases hseek : seek Item.defaultOf () code with
    | none => exact List.nil_suffix
    | some place => exact seek_suffix hseek

theorem ran_exec {ret : Bool} {code : Code} (hpos : 0 < nbBlock) (hcode : CodeOk ret code)
    {fuel : Nat} {place : Code} (hplace : place <:+ code) {s s' : State}
    (h : exec (sem inp nbBlock) code fuel place s = some s') : Ran nbBlock ret s s' := by
  induction fuel generalizing place s with
  | zero => cases h
  | succ fuel ih =>
      cases place with
      | nil =>
          cases Option.some.inj h
          exact .same (Same.refl _)
      | cons item rest =>
          have hrest : rest <:+ code := (List.suffix_cons item rest).trans hplace
          cases item with
          | stmt stm =>
              have hok := (codeOk_suffix hcode hplace).1
              cases stm with
              | return_ =>
                  rw [exec] at h
                  have hlast := exec_brk h hok.2
                  subst hlast
                  exact .returned hok.1 rfl rfl rfl rfl
              | base stm =>
                  by_cases hkeeps : keepsBlock stm = true
                  · have hsame := @same_sem inp nbBlock stm hkeeps s
                    rw [exec] at h
                    cases hflow : sem inp nbBlock (.base stm) s with
                    | next s₁ =>
                        rw [hflow] at h hsame
                        exact .of_same hsame (ih hrest h)
                    | leave s₁ =>
                        rw [hflow] at h hsame
                        cases h
                        exact .same hsame
                    | goto l s₁ =>
                        rw [hflow] at h hsame
                        dsimp only at h
                        split at h
                        · rename_i target htarget
                          exact .of_same hsame (ih (seek_suffix htarget) h)
                        · cases h
                  · cases stm with
                    | gotoBlock b =>
                        rw [exec] at h
                        have hlast := exec_brk h hok
                        subst hlast
                        exact .moved (moves_moved (navInitBlock_lt hpos _))
                    | nextBlock =>
                        rw [exec] at h
                        have hlast := exec_brk h hok
                        subst hlast
                        exact .moved (moves_moved (navInitBlock_lt hpos _))
                    | _ => exact absurd rfl hkeeps
          | label l => exact ih hrest h
          | case n => exact ih hrest h
          | default => exact ih hrest h
          | decl v => exact ih hrest h

/-! ### The exceptions -/

theorem firstException_cons (x : Exception) (exceptions : List Exception) (i : Nat) :
    firstException inp (x :: exceptions) i =
      if i ≠ x.deroute ∧ inp.truth x.cond = true then some x
      else firstException inp exceptions i := by
  rw [firstException, List.find?_cons]
  split_ifs with h
  · rw [decide_eq_true h]
  · rw [decide_eq_false h, firstException]

theorem checkExceptions_env (exceptions : List Exception) (w : World Unit) :
    CommonFlightPlan.checkExceptions inp.env (jump inp.env nbBlock) exceptions w =
      match firstException inp exceptions w.navBlock with
      | none => (false, w)
      | some x => (true, jump inp.env nbBlock x.deroute w) := by
  induction exceptions with
  | nil => rfl
  | cons x exceptions ih =>
      rw [CommonFlightPlan.checkExceptions, firstException_cons, test_env]
      rcases Decidable.em (w.navBlock = x.deroute) with heq | hne
      · rw [if_neg (not_not_intro heq), if_neg fun h => h.1 heq]
        exact ih
      · rw [if_pos hne]
        cases htruth : inp.truth x.cond with
        | false =>
            have hnot : ¬ (w.navBlock ≠ x.deroute ∧ false = true) := fun h => nomatch h.2
            rw [if_neg hnot]
            exact ih
        | true =>
            rw [if_pos ⟨hne, rfl⟩]
            rfl

theorem firstException_mem {exceptions : List Exception} {i : Nat} {x : Exception}
    (h : firstException inp exceptions i = some x) : x ∈ exceptions :=
  List.mem_of_find?_eq_some h

theorem checkExceptions_eq (exceptions : List Exception) (st : State) :
    checkExceptions inp nbBlock exceptions st =
      match firstException inp exceptions st.world.navBlock with
      | none => (false, st)
      | some x => (true, st.moved (jump inp.env nbBlock x.deroute st.world)) := by
  rw [checkExceptions, checkExceptions_env]
  cases firstException inp exceptions st.world.navBlock with
  | none => exact Prod.ext rfl (moved_self st)
  | some x => rfl

theorem jump_lt {b : Nat} (hpos : 0 < nbBlock) (w : World Unit) :
    (jump inp.env nbBlock b w).navBlock < nbBlock :=
  navInitBlock_lt hpos _

/-- A target that the generator found is below `NB_BLOCK`, and is reached unless it is cut to eight
bits. -/
theorem jump_place {b : Nat} (hb : b < nbBlock) (hnb : nbBlock ≤ 256) (w : World Unit) :
    (jump inp.env nbBlock b w).navBlock = b ∧ (jump inp.env nbBlock b w).navStage = 0 ∧
      (jump inp.env nbBlock b w).visits = w.visits := by
  have hmod : b % 256 = b := Nat.mod_eq_of_lt (Nat.lt_of_lt_of_le hb hnb)
  have hnot : ¬ (b % 256 ≥ nbBlock) := by
    rw [hmod]
    exact Nat.not_le_of_lt hb
  simp only [jump, World.gotoBlock, World.navInitBlock, World.initStage, act_env]
  rw [if_neg hnot]
  exact ⟨hmod, trivial, rfl⟩

end

/-! ### One call -/

section

variable {plan : Plan} {inp : Inputs} {st st' : State}

theorem length_blocks (plan : Plan) : plan.blocks.length = plan.nbBlock := by
  rw [Plan.blocks, List.length_append]
  rfl

theorem nbBlock_pos (plan : Plan) : 0 < plan.nbBlock := Nat.succ_pos _

theorem length_printBlocks (blocks : List Block) (x : Nat) :
    (printBlocks blocks x).length = blocks.length := by
  induction blocks generalizing x with
  | nil => rfl
  | cons b blocks ih => rw [printBlocks, List.length_cons, ih, List.length_cons]

theorem resolved_blocks {b : Block} (hb : b ∈ plan.blocks) {x : Exception}
    (hx : x ∈ b.exceptions) : x.deroute < plan.nbBlock := by
  rcases List.mem_append.mp hb with hb | hb
  · exact plan.exceptions_resolved b hb x hx
  · cases List.mem_singleton.mp hb
    cases hx

theorem deroute_lt {x : Exception} {i : Nat} (h : exceptionOf plan inp i = some x) :
    x.deroute < plan.nbBlock := by
  rcases Option.or_eq_some_iff.mp h with hglobal | ⟨-, hblock⟩
  · exact plan.global_resolved x (firstException_mem hglobal)
  · obtain ⟨b, hb, hx⟩ := Option.bind_eq_some_iff.mp hblock
    exact resolved_blocks (List.mem_of_getElem? hb) (firstException_mem hx)

/-- The stages of the current block, where no exception applies. -/
theorem ran_runBlock {b : Block} {code : Code} {nbBlock fuel : Nat} (hpos : 0 < nbBlock)
    (hcode : CodeOk b.stages.hasReturn code)
    (hnone : firstException inp b.exceptions st.world.navBlock = none)
    (h : runBlock inp nbBlock b code fuel st = some st') :
    Ran nbBlock b.stages.hasReturn st st' := by
  rw [runBlock, act_self, checkExceptions_eq, hnone] at h
  obtain ⟨st₁, hexec, hpost⟩ := Option.map_eq_some_iff.mp h
  rw [act_self] at hpost
  subst hpost
  exact ran_exec hpos hcode (enter_suffix code _) hexec

/-- A call of `auto_nav` jumps to the target of its exception, or runs the current block. -/
theorem autoNav_cases {fuel : Nat} (hlt : st.world.navBlock < plan.nbBlock)
    (h : autoNav inp plan fuel st = some st') :
    (∃ x, exceptionOf plan inp st.world.navBlock = some x ∧
      st' = st.moved (jump inp.env plan.nbBlock x.deroute st.world)) ∨
    (exceptionOf plan inp st.world.navBlock = none ∧
      ∃ b, plan.blocks[st.world.navBlock]? = some b ∧
        Ran plan.nbBlock b.stages.hasReturn st st') := by
  rw [autoNav, checkExceptions_eq] at h
  cases hglobal : firstException inp plan.globalExceptions st.world.navBlock with
  | some x =>
      rw [hglobal] at h
      refine Or.inl ⟨x, ?_, (Option.some.inj h).symm⟩
      rw [exceptionOf, hglobal, Option.some_or]
  | none =>
      rw [hglobal] at h
      have hlen : st.world.navBlock < plan.blocks.length := by
        rw [length_blocks]
        exact hlt
      have hlen' : st.world.navBlock < (printBlocks plan.blocks 0).length := by
        rw [length_printBlocks]
        exact hlen
      have hb := List.getElem?_eq_getElem hlen
      have hcode := List.getElem?_eq_getElem hlen'
      simp only [hb, hcode, Bool.false_eq_true, if_false] at h
      cases hblock : firstException inp plan.blocks[st.world.navBlock].exceptions
          st.world.navBlock with
      | some x =>
          refine Or.inl ⟨x, ?_, ?_⟩
          · rw [exceptionOf, hglobal, Option.none_or, hb]
            exact hblock
          · rw [runBlock, act_self, checkExceptions_eq, hblock] at h
            exact (Option.some.inj h).symm
      | none =>
          refine Or.inr ⟨?_, _, hb, ?_⟩
          · rw [exceptionOf, hglobal, Option.none_or, hb]
            exact hblock
          · exact ran_runBlock (nbBlock_pos plan) (codeOk_printBlocks hb hcode) hblock h

/-! ### Runs -/

/-- What every run keeps. -/
structure Good (plan : Plan) (st : State) : Prop where
  navBlock_lt : st.world.navBlock < plan.nbBlock
  lastBlock_lt : st.lastBlock < plan.nbBlock
  entry_last : ∀ p, st.entry = .navGotoBlock p → p = st.last
  returns : ReturnsRight st

theorem good_initial (h : Initial plan st) : Good plan st where
  navBlock_lt := h.navBlock_lt
  lastBlock_lt := by
    rw [h.lastBlock_eq]
    exact nbBlock_pos plan
  entry_last := by
    intro p hp
    rw [h.entry_eq] at hp
    cases hp
  returns := by
    intro r hr
    rw [h.returns_eq] at hr
    cases hr

theorem lastBlock_eq_of_last {a b : State} (h : a.last = b.last) : a.lastBlock = b.lastBlock :=
  congrArg Place.block h

theorem Good.of_moves (hgood : Good plan st) (h : Moves plan.nbBlock st st') : Good plan st' where
  navBlock_lt := h.navBlock_lt
  lastBlock_lt := by
    rw [lastBlock_eq_of_last h.last_eq]
    exact hgood.lastBlock_lt
  entry_last := by
    intro p hp
    rw [h.last_eq]
    rcases h.entry_eq with hentry | ⟨q, hentry⟩
    · exact hgood.entry_last p (hentry.symm.trans hp)
    · cases hentry.symm.trans hp
  returns := by
    intro r hr
    rw [h.returns_eq] at hr
    exact hgood.returns r hr

theorem Good.of_ran {ret : Bool} (hgood : Good plan st)
    (hother : ret = true → ∀ p, st.entry = .other p → p = st.last)
    (h : Ran plan.nbBlock ret st st') : Good plan st' := by
  cases h with
  | same h =>
      refine hgood.of_moves ⟨?_, h.last_eq, Or.inl h.entry_eq, h.returns_eq⟩
      rw [h.navBlock_eq]
      exact hgood.navBlock_lt
  | moved h => exact hgood.of_moves h
  | returned hret hplace hlast hentry hreturns =>
      have hblock : st'.world.navBlock = st.lastBlock := congrArg Place.block hplace
      refine ⟨?_, ?_, ?_, ?_⟩
      · rw [hblock]
        exact hgood.lastBlock_lt
      · rw [lastBlock_eq_of_last hlast]
        exact hgood.lastBlock_lt
      · intro p hp
        cases hentry.symm.trans hp
      · intro r hr p hp
        rw [hreturns, List.mem_append, List.mem_singleton] at hr
        rcases hr with hr | rfl
        · exact hgood.returns r hr p hp
        · cases hbefore : st.entry with
          | start =>
              rw [hbefore] at hp
              cases hp
          | resumed =>
              rw [hbefore] at hp
              cases hp
          | navGotoBlock q =>
              rw [hbefore] at hp
              cases hp
              exact (hgood.entry_last p hbefore).symm
          | other q =>
              rw [hbefore] at hp
              cases hp
              exact (hother hret p hbefore).symm

theorem good_navGotoBlock (b : UInt8) (hgood : Good plan st) :
    Good plan (navGotoBlock plan b st) := by
  rw [navGotoBlock]
  split_ifs with hne
  · refine ⟨navInitBlock_lt (nbBlock_pos plan) _, hgood.navBlock_lt, ?_, hgood.returns⟩
    intro p hp
    cases hp
    rfl
  · exact ⟨navInitBlock_lt (nbBlock_pos plan) _, hgood.lastBlock_lt, hgood.entry_last,
      hgood.returns⟩

/-- A call keeps the invariant and does what is asked of it. -/
theorem callRight_of_step {e : Event} (hnb : plan.nbBlock ≤ 256) (hgood : Good plan st)
    (hok : StepOk plan st e) (h : Step plan st e st') :
    Good plan st' ∧ CallRight plan st e st' := by
  cases h with
  | navGotoBlock b =>
      have hgood' := good_navGotoBlock b hgood
      exact ⟨hgood', hgood'.navBlock_lt, fun inp h => (by cases h), hgood'.returns⟩
  | @autoNav _ inp fuel h =>
      rcases autoNav_cases hgood.navBlock_lt h with ⟨x, hx, rfl⟩ | ⟨hnone, b, hb, hran⟩
      · have hgood' := hgood.of_moves
          (@moves_moved _ st _ (@jump_lt inp _ x.deroute (nbBlock_pos plan) st.world))
        refine ⟨hgood', hgood'.navBlock_lt, ?_, hgood'.returns⟩
        intro inp' hinp y hy
        cases hinp
        cases hx.symm.trans hy
        obtain ⟨hblock, hstage, hvisits⟩ := jump_place (deroute_lt hx) hnb st.world
        exact ⟨congrArg₂ Place.mk hblock hstage, hvisits, rfl⟩
      · have hgood' := hgood.of_ran (hok hnone b hb) hran
        refine ⟨hgood', hgood'.navBlock_lt, ?_, hgood'.returns⟩
        intro inp' hinp y hy
        cases hinp
        cases hnone.symm.trans hy

theorem good_run {st₀ : State} {steps : List (State × Event)} (hnb : plan.nbBlock ≤ 256)
    (hrun : Run plan st₀ steps st) (hgood : Good plan st₀)
    (hok : ∀ s ∈ steps, StepOk plan s.1 s.2) : Good plan st := by
  induction hrun with
  | nil st => exact hgood
  | cons h hrest ih =>
      have hstep := hok _ List.mem_cons_self
      exact ih (callRight_of_step hnb hgood hstep h).1 fun s hs => hok s (List.mem_cons_of_mem _ hs)

/-- A block to wait in, one with an exception, and one that returns. -/
def returnPlan : Plan where
  globalExceptions := []
  userBlocks :=
    [⟨"", "", [], .simple (.stay "NavGotoWaypoint(WP_HOME);" none) .done⟩,
      ⟨"", "", [⟨"(stage_time>10)", 2⟩], .simple (.stay "NavGotoWaypoint(WP_HOME);" none) .done⟩,
      ⟨"", "", [], .return_ .done⟩]
  global_resolved := by decide
  exceptions_resolved := by decide

def stateIn (navBlock : Nat) : State where
  world := ⟨⟨fun _ _ => 0, ()⟩, navBlock, 0, [], []⟩
  lastBlock := 0
  lastStage := 0
  entry := .start
  returns := []

theorem initial_stateIn {navBlock : Nat} (h : navBlock < 4) :
    Initial returnPlan (stateIn navBlock) :=
  ⟨h, rfl, rfl, rfl⟩

def quiet : Inputs := ⟨fun _ => false, fun _ => 0⟩

def raising : Inputs := ⟨fun _ => true, fun _ => 0⟩

end

end Paparazzi.FlightPlan.ReturnPoint
