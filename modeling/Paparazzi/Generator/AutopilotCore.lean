import Mathlib.Data.List.Nodup
import Paparazzi.Generator.Autopilot

/-!
What a call of the generated periodic task does to the mode, against what the description says.
-/

namespace Paparazzi.Generator.Autopilot

open Paparazzi.Library.GuardedChoice

/-! ### The description's meaning -/

namespace Description

variable (ap : Description)

/-- The modes have the numbers 0, 1, … -/
def number (name : String) : Nat := (printModes ap.modes).idxOf (printModeName name)

/-- The selects in document order, each with its mode. `$DEFAULT_MODE` is no condition. -/
def selects : List (Mode × Select) :=
  ap.modes.flatMap fun m =>
    (m.selects.filter fun s => s.cond ≠ "$DEFAULT_MODE").map fun s => (m, s)

/-- The numbers of the modes in an exception list. -/
def excludes (x : Mode × Select) : List Nat := (excluded x.2).map (printModes ap.modes).idxOf

/-- The exception list does not contain the current mode. -/
def allows (current : Nat) (x : Mode × Select) : Bool := current ∉ ap.excludes x

/-- The mode of the first select whose condition holds and whose exception list does not contain
the current mode. -/
def selected (truth : Nat → Bool) (current : Nat) : Nat :=
  ((first truth (ap.allows current) ap.selects 0).map fun x =>
    ap.number x.1.name).getD current

/-- The target of an exception of a mode. -/
def deroute (previous : Nat) (e : Exception) : Nat :=
  if e.deroute = "$LAST_MODE" then previous else ap.number e.deroute

/-- The target of the first true exception of the mode. -/
def derouted (truth : Nat → Bool) (previous mode : Nat) : Nat :=
  ((first truth (fun _ => true) ((ap.modes[mode]?).elim [] Mode.exceptions) 0).map
    (ap.deroute previous)).getD mode

/-- The target of the last true global exception. -/
def overridden (truth : Nat → Bool) (mode : Nat) : Nat :=
  ((last truth ap.exceptions 0).map fun e => ap.number e.deroute).getD mode

/-- The mode after a call. -/
def target (truths : Truths) (previous current : Nat) : Nat :=
  ap.overridden truths.global
    (ap.derouted truths.exception previous (ap.selected truths.select current))

/-- The start or the stop functions of a mode. -/
def functions (f : Mode → Option String) (mode : Nat) : List String :=
  ((ap.modes[mode]?).bind f).elim [] split

/-- The generated code, called in a state, does what the description says. -/
def Conforms (c : Core) (s : State) (truths : Truths) : Prop :=
  let current := s.privateAutopilotMode.toNat
  let mode := ap.target truths s.lastAutopilotMode.toNat current
  let s' := c.autopilotCorePeriodicTask s truths
  if mode = current then s' = s
  else
    s'.autopilotMode.toNat = mode ∧ s'.privateAutopilotMode.toNat = mode ∧
      s'.lastAutopilotMode.toNat = current ∧
      s'.calls = s.calls ++ ap.functions Mode.stop current ++ ap.functions Mode.start mode

/-- The C compiler takes the generated code: no case twice, and no name that is not defined. -/
structure Compiles : Prop where
  distinct : (printModes ap.modes).Nodup
  excluded : ∀ x ∈ ap.selects, ∀ name ∈ excluded x.2, name ∈ printModes ap.modes
  deroutes : ∀ m ∈ ap.modes, ∀ e ∈ m.exceptions,
    e.deroute ≠ "$LAST_MODE" → printModeName e.deroute ∈ printModes ap.modes
  globals : ∀ e ∈ ap.exceptions, printModeName e.deroute ∈ printModes ap.modes

/-- A mode that is on the exception list of a select together with another mode: the select is
for this mode itself, and so are all selects after it, unless the mode is on their list too. -/
def ExclusionsMatter (l : List (Mode × Select)) : Prop :=
  ∀ pre x post, l = pre ++ x :: post → ∀ current < 256, current ∈ ap.excludes x →
    (∃ e ∈ ap.excludes x, e ≠ current) →
      ap.number x.1.name = current ∧
        ∀ y ∈ post, ap.number y.1.name = current ∨ current ∈ ap.excludes y

/-- The numbers of the modes that can be chosen fit in a byte, and the exception lists do not
need more than one comparison. -/
structure Sound : Prop where
  exclusions : ap.ExclusionsMatter ap.selects
  selects : ∀ x ∈ ap.selects, ap.number x.1.name < 256
  deroutes : ∀ m ∈ ap.modes, ap.number m.name < 256 → ∀ e ∈ m.exceptions,
    e.deroute ≠ "$LAST_MODE" → ap.number e.deroute < 256
  globals : ∀ e ∈ ap.exceptions, ap.number e.deroute < 256

end Description

/-! ### The generated functions -/

section

variable {ap : Description} {init : Mode} {s : State} {truth : Nat → Bool}

/-- Where a description has at most 256 modes. -/
theorem number_lt_of_mem {name : String} (h : printModeName name ∈ printModes ap.modes) :
    ap.number name < ap.modes.length := by
  have hlt := List.idxOf_lt_length_of_mem h
  rwa [printModes, List.length_map] at hlt

/-- The comparison that is printed for the exception list lets a mode through. -/
def Description.passes (ap : Description) (current : Nat) (x : Mode × Select) : Bool :=
  (ap.excludes x).isEmpty || (ap.excludes x).any fun e => current ≠ e

theorem passes_of_notMem {current : Nat} {x : Mode × Select} (h : current ∉ ap.excludes x) :
    ap.passes current x = true := by
  unfold Description.passes
  cases hx : ap.excludes x with
  | nil => rfl
  | cons e es =>
      rw [hx, List.mem_cons, not_or] at h
      simp [h.1]

theorem passes_of_mem {current : Nat} {x : Mode × Select} (h : current ∈ ap.excludes x) :
    ap.passes current x = true ↔ ∃ e ∈ ap.excludes x, e ≠ current := by
  unfold Description.passes
  cases hx : ap.excludes x with
  | nil => simp [hx] at h
  | cons e es =>
      simp only [List.isEmpty_cons, Bool.false_or, List.any_eq_true, decide_eq_true_eq]
      exact exists_congr fun e' => and_congr_right fun _ => ne_comm

/-- The branch that is printed for a select. -/
def branch (x : Mode × Select) : Branch where
  test := (except x.2).elim (.cond x.2.cond) (.and (.cond x.2.cond))
  value := .mode (printModeName x.1.name)

theorem printTestSelect_eq : printTestSelect ap.modes = ap.selects.map branch := by
  have hmode : ∀ (m : Mode) (l : List Select), l.flatMap (printSelect m) =
      ((l.filter fun s => s.cond ≠ "$DEFAULT_MODE").map fun s => (m, s)).map branch := by
    intro m l
    induction l with
    | nil => rfl
    | cons s l ih =>
        rw [List.flatMap_cons, ih, printSelect]
        by_cases hs : s.cond = "$DEFAULT_MODE"
        · simp [hs]
        · rw [if_neg hs, List.filter_cons_of_pos (by simpa using hs)]
          cases he : except s with
          | none => simp [branch, he]
          | some test => simp [branch, he]
  simp only [printTestSelect, Description.selects, List.map_flatMap, hmode]

variable {c : Core}

theorem eval_foldl_or (b : Bool) (names : List String) (t : Test) :
    c.eval s b ((names.map Test.differs).foldl .or t) =
      (c.eval s b t || names.any fun name => s.privateAutopilotMode.toNat ≠ c.number name) := by
  induction names generalizing t with
  | nil => simp
  | cons name names ih =>
      rw [List.map_cons, List.foldl_cons, ih, List.any_cons, ← Bool.or_assoc]
      rfl

theorem eval_branch (x : Mode × Select) (b : Bool) :
    (printCore ap init).eval s b (branch x).test =
      (b && ap.passes s.privateAutopilotMode.toNat x) := by
  unfold branch except Description.passes Description.excludes
  cases excluded x.2 with
  | nil => simp [Core.eval]
  | cons name names =>
      simp only [Option.elim, Core.eval, eval_foldl_or]
      simp only [Core.number, printCore, List.map_cons, List.isEmpty_cons, Bool.false_or,
        List.any_cons, List.any_map, Function.comp_def]
      rfl

theorem runReturns_map {α : Type} {l : List α} {k : Nat} {br : α → Branch} {ok : α → Bool}
    (hbr : ∀ a b, c.eval s b (br a).test = (b && ok a)) :
    c.runReturns s truth (l.map br) k =
      (first truth ok l k).map fun a => c.value s (br a).value := by
  induction l generalizing k with
  | nil => rfl
  | cons a l ih =>
      rw [List.map_cons, Core.runReturns, hbr, first, ih]
      split_ifs <;> rfl

theorem runSets_map {α : Type} {l : List α} {k : Nat} {br : α → Branch} {mode : UInt8}
    (hbr : ∀ a b, c.eval s b (br a).test = b) :
    c.runSets s truth (l.map br) mode k =
      ((last truth l k).map fun a => c.value s (br a).value).getD mode := by
  induction l generalizing k mode with
  | nil => rfl
  | cons a l ih =>
      rw [List.map_cons, Core.runSets, hbr, ih, last]
      cases last truth l (k + 1) with
      | none => split_ifs <;> rfl
      | some a' => rfl

theorem number_getElem (h : (printModes ap.modes).Nodup) {n : Nat} (hn : n < ap.modes.length) :
    ap.number ap.modes[n].name = n := by
  have hlen : n < (printModes ap.modes).length := by
    rwa [printModes, List.length_map]
  have hname : (printModes ap.modes)[n] = printModeName ap.modes[n].name := List.getElem_map _
  have hidx := h.idxOf_getElem n hlen
  rwa [hname] at hidx

/-- The place of a mode is its number. -/
theorem getElem?_eq_some_iff (h : (printModes ap.modes).Nodup) {m : Mode} (hm : m ∈ ap.modes)
    (n : Nat) : ap.modes[n]? = some m ↔ ap.number m.name = n := by
  obtain ⟨i, hi, rfl⟩ := List.getElem_of_mem hm
  constructor
  · intro hn
    obtain ⟨hn', heq⟩ := List.getElem?_eq_some_iff.1 hn
    rw [← heq, number_getElem h]
  · rintro rfl
    rw [number_getElem h]
    exact List.getElem?_eq_getElem hi

/-- The case of a mode. -/
theorem caseOf_filterMap {β : Type} (h : (printModes ap.modes).Nodup)
    (body : Mode → Option (List β)) (mode : UInt8) :
    (printCore ap init).caseOf
        (ap.modes.filterMap fun m => (body m).map fun b => (printModeName m.name, b)) mode =
      ((ap.modes[mode.toNat]?).bind body).getD [] := by
  unfold Core.caseOf
  rw [List.find?_filterMap]
  cases hf : ap.modes.find? _ with
  | none =>
      rw [List.find?_eq_none] at hf
      cases hm : ap.modes[mode.toNat]? with
      | none => rfl
      | some m =>
          have hmem := List.mem_of_getElem? hm
          have hnumber := (getElem?_eq_some_iff h hmem mode.toNat).1 hm
          cases hb : body m with
          | none => simp [hb]
          | some b =>
              refine absurd ?_ (hf m hmem)
              rw [hb]
              exact decide_eq_true hnumber
  | some m =>
      have hmem := List.mem_of_find?_eq_some hf
      have hq := List.find?_some hf
      cases hb : body m with
      | none => simp [hb] at hq
      | some b =>
          rw [hb] at hq
          have hnumber : ap.number m.name = mode.toNat := of_decide_eq_true hq
          rw [(getElem?_eq_some_iff h hmem mode.toNat).2 hnumber]
          simp [hb]

theorem modeSelect_eq :
    (printCore ap init).autopilotCoreModeSelect s truth =
      ((first truth (ap.passes s.privateAutopilotMode.toNat) ap.selects 0).map fun x =>
        UInt8.ofNat (ap.number x.1.name)).getD s.privateAutopilotMode := by
  change ((printCore ap init).runReturns s truth (printTestSelect ap.modes) 0).getD _ = _
  rw [printTestSelect_eq, runReturns_map eval_branch]
  rfl

theorem value_printException (e : Exception) :
    (printCore ap init).value s (printException e).value =
      if e.deroute = "$LAST_MODE" then s.lastAutopilotMode
      else UInt8.ofNat (ap.number e.deroute) := by
  unfold printException
  split_ifs <;> rfl

theorem modeExceptions_eq (h : (printModes ap.modes).Nodup) (mode : UInt8) :
    (printCore ap init).autopilotCoreModeExceptions s truth mode =
      ((first truth (fun _ => true) ((ap.modes[mode.toNat]?).elim [] Mode.exceptions) 0).map
        fun e =>
          if e.deroute = "$LAST_MODE" then s.lastAutopilotMode
          else UInt8.ofNat (ap.number e.deroute)).getD mode := by
  have hcase : (printCore ap init).caseOf (printTestException ap.modes) mode =
      ((ap.modes[mode.toNat]?).elim [] Mode.exceptions).map printException := by
    have hcases : printTestException ap.modes = ap.modes.filterMap fun m =>
        (some (m.exceptions.map printException)).map fun b => (printModeName m.name, b) :=
      (congrFun List.filterMap_eq_map' ap.modes).symm
    rw [hcases, caseOf_filterMap h fun m => some (m.exceptions.map printException)]
    cases ap.modes[mode.toNat]? <;> rfl
  change ((printCore ap init).runReturns s truth
    ((printCore ap init).caseOf (printTestException ap.modes) mode) 0).getD mode = _
  rw [hcase, @runReturns_map s truth _ _ _ 0 printException fun _ => true]
  · simp only [value_printException]
  · intro e b
    rw [Bool.and_true, printException]
    split_ifs <;> rfl

theorem globalExceptions_eq (mode : UInt8) :
    (printCore ap init).autopilotCoreGlobalExceptions s truth mode =
      ((last truth ap.exceptions 0).map fun e => UInt8.ofNat (ap.number e.deroute)).getD mode := by
  change (printCore ap init).runSets s truth (printGlobalExceptions ap.exceptions) mode 0 = _
  rw [printGlobalExceptions, runSets_map fun _ _ => rfl]
  rfl

/-- The mode that the generated functions come to. -/
def Core.mode (c : Core) (s : State) (truths : Truths) : UInt8 :=
  c.autopilotCoreGlobalExceptions s truths.global
    (c.autopilotCoreModeExceptions s truths.exception (c.autopilotCoreModeSelect s truths.select))

theorem functions_eq (h : (printModes ap.modes).Nodup) (f : Mode → Option String) (mode : UInt8) :
    (printCore ap init).caseOf (printSwitch f ap.modes) mode = ap.functions f mode.toNat := by
  have hcases : printSwitch f ap.modes = ap.modes.filterMap fun m =>
      ((f m).map split).map fun b => (printModeName m.name, b) := by
    simp only [printSwitch, Option.map_map, Function.comp_def]
  rw [hcases, caseOf_filterMap h fun m => (f m).map split, Description.functions]
  cases ap.modes[mode.toNat]? with
  | none => rfl
  | some m => cases hf : f m <;> simp [hf]

/-- The call is right as soon as the mode is. -/
theorem conforms_iff (h : (printModes ap.modes).Nodup) (truths : Truths) :
    ap.Conforms (printCore ap init) s truths ↔
      ((printCore ap init).mode s truths).toNat =
        ap.target truths s.lastAutopilotMode.toNat s.privateAutopilotMode.toNat := by
  unfold Description.Conforms
  change (if _ = _ then
    (printCore ap init).autopilotCoreSetMode s ((printCore ap init).mode s truths) = s else _) ↔ _
  have hset : (printCore ap init).autopilotCorePeriodicTask s truths =
    (printCore ap init).autopilotCoreSetMode s ((printCore ap init).mode s truths) := rfl
  rw [hset, Core.autopilotCoreSetMode]
  have hstop := @functions_eq ap init h Mode.stop
  have hstart := @functions_eq ap init h Mode.start
  split_ifs with htarget hsame hsame
  · rw [htarget, hsame]
    exact iff_of_true rfl rfl
  · refine iff_of_false (fun heq => hsame ?_) fun heq => hsame ?_
    · exact congrArg State.privateAutopilotMode heq
    · exact UInt8.toNat_inj.1 (heq.trans htarget)
  · rw [hsame]
    exact ⟨fun hc => absurd hc.2.1.symm htarget, fun heq => absurd heq.symm htarget⟩
  · constructor
    · exact fun hc => hc.1
    · intro heq
      refine ⟨heq, heq, rfl, ?_⟩
      change s.calls ++ _ ++ _ = _
      rw [← heq, ← hstop, ← hstart]
      rfl

/-! ### Descriptions whose code is right -/

/-- Where the comparisons let more selects through than the exception lists, those selects leave
the mode as it is. -/
theorem first_passes {current : Nat} (hcurrent : current < 256) {l : List (Mode × Select)} {k : Nat}
    (h : ap.ExclusionsMatter l) :
    ((first truth (ap.passes current) l k).map fun x => ap.number x.1.name).getD current =
      ((first truth (ap.allows current) l k).map fun x =>
        ap.number x.1.name).getD current := by
  induction l generalizing k with
  | nil => rfl
  | cons x rest ih =>
      have hrest : ap.ExclusionsMatter rest := by
        rintro pre y post rfl
        exact h (x :: pre) y post rfl
      rw [first, first]
      cases truth k with
      | false => exact ih hrest
      | true =>
          by_cases hmem : current ∈ ap.excludes x
          · have hspec : ap.allows current x = false := decide_eq_false (not_not.2 hmem)
            rw [hspec]
            change _ = ((first truth (ap.allows current) rest (k + 1)).map
              fun x => ap.number x.1.name).getD current
            cases hpass : ap.passes current x with
            | false => exact ih hrest
            | true =>
                obtain ⟨hx, hpost⟩ :=
                  h [] x rest rfl current hcurrent hmem ((passes_of_mem hmem).1 hpass)
                change ap.number x.1.name = _
                rw [hx]
                cases hfirst : first truth _ rest (k + 1) with
                | none => rfl
                | some y =>
                    rcases hpost y (mem_of_first hfirst) with hy | hy
                    · exact hy.symm
                    · have hallows : ap.allows current y = true := ok_of_first hfirst
                      exact absurd hy (of_decide_eq_true hallows)
          · have hspec : ap.allows current x = true := decide_eq_true hmem
            rw [passes_of_notMem hmem, hspec]
            rfl

theorem toNat_ofNat {n : Nat} (h : n < 256) : (UInt8.ofNat n).toNat = n :=
  UInt8.toNat_ofNat_of_lt' h

theorem Description.Sound.mode_eq (h : ap.Sound) (hnames : (printModes ap.modes).Nodup)
    (truths : Truths) :
    ((printCore ap init).mode s truths).toNat =
      ap.target truths s.lastAutopilotMode.toNat s.privateAutopilotMode.toNat := by
  have hselect : ((printCore ap init).autopilotCoreModeSelect s truths.select).toNat =
      ap.selected truths.select s.privateAutopilotMode.toNat := by
    rw [modeSelect_eq, Description.selected, ← first_passes (UInt8.toNat_lt _) h.exclusions]
    cases hfirst : first truths.select (ap.passes s.privateAutopilotMode.toNat) ap.selects 0 with
    | none => rfl
    | some x => exact toNat_ofNat (h.selects x (mem_of_first hfirst))
  have hexception : ∀ mode : UInt8,
      ((printCore ap init).autopilotCoreModeExceptions s truths.exception mode).toNat =
        ap.derouted truths.exception s.lastAutopilotMode.toNat mode.toNat := by
    intro mode
    rw [modeExceptions_eq hnames, Description.derouted]
    cases hfirst : first truths.exception (fun _ => true) _ 0 with
    | none => rfl
    | some e =>
        have he := mem_of_first hfirst
        change UInt8.toNat (if _ then _ else _) = ap.deroute _ e
        rw [Description.deroute]
        split_ifs with hlast
        · rfl
        · cases hm : ap.modes[mode.toNat]? with
          | none =>
              rw [hm] at he
              cases he
          | some m =>
              rw [hm] at he
              have hmem := List.mem_of_getElem? hm
              have hnumber := (getElem?_eq_some_iff hnames hmem mode.toNat).1 hm
              refine toNat_ofNat (h.deroutes m hmem ?_ e he hlast)
              rw [hnumber]
              exact UInt8.toNat_lt mode
  have hglobal : ∀ mode : UInt8,
      ((printCore ap init).autopilotCoreGlobalExceptions s truths.global mode).toNat =
        ap.overridden truths.global mode.toNat := by
    intro mode
    rw [globalExceptions_eq, Description.overridden]
    cases hlast : last truths.global ap.exceptions 0 with
    | none => rfl
    | some e => exact toNat_ofNat (h.globals e (mem_of_last hlast))
  rw [Core.mode, hglobal, hexception, hselect]
  rfl

/-! ### Only those -/

/-- Every call from a mode of the description does what the description says. -/
def Right (ap : Description) (c : Core) : Prop :=
  ∀ s truths, s.privateAutopilotMode.toNat < ap.modes.length →
    s.lastAutopilotMode.toNat < ap.modes.length → ap.Conforms c s truths

/-- The state in a mode that has been there for long. -/
def stateIn (current : Nat) : State where
  autopilotMode := UInt8.ofNat current
  privateAutopilotMode := UInt8.ofNat current
  lastAutopilotMode := UInt8.ofNat current
  calls := []

variable {current : Nat}

theorem Right.mode_eq (h : Right ap (printCore ap init)) (hnames : (printModes ap.modes).Nodup)
    (hbyte : current < 256) (hcurrent : current < ap.modes.length) (truths : Truths) :
    ((printCore ap init).mode (stateIn current) truths).toNat =
      ap.target truths current current := by
  have hnumber : (UInt8.ofNat current).toNat = current := toNat_ofNat hbyte
  have hconforms := h (stateIn current) truths (hnumber.symm ▸ hcurrent) (hnumber.symm ▸ hcurrent)
  have hmode := (conforms_iff hnames truths).1 hconforms
  change _ = ap.target truths (UInt8.ofNat current).toNat (UInt8.ofNat current).toNat at hmode
  rwa [hnumber] at hmode

/-- The conditions of selects only. -/
def onlySelects (truth : Nat → Bool) : Truths := ⟨truth, fun _ => false, fun _ => false⟩

theorem Right.selected_eq (h : Right ap (printCore ap init)) (hnames : (printModes ap.modes).Nodup)
    (hbyte : current < 256) (hcurrent : current < ap.modes.length) (truth : Nat → Bool) :
    (((first truth (ap.passes current) ap.selects 0).map fun x =>
        UInt8.ofNat (ap.number x.1.name)).getD (UInt8.ofNat current)).toNat =
      ap.selected truth current := by
  have hmode := h.mode_eq hnames hbyte hcurrent (onlySelects truth)
  have hnone : ∀ l : List Exception, first (fun _ => false) (fun _ => true) l 0 = none :=
    fun l => first_eq_none fun _ _ _ htruth => absurd htruth Bool.false_ne_true
  have hlast : last (fun _ => false) ap.exceptions 0 = none := last_eq_none fun _ => rfl
  rw [Core.mode, Description.target, globalExceptions_eq, modeExceptions_eq hnames,
    modeSelect_eq] at hmode
  simp only [onlySelects, hnone, hlast, Description.overridden, Description.derouted,
    Option.map_none, Option.getD_none] at hmode
  change (((first truth (ap.passes (UInt8.ofNat current).toNat) ap.selects 0).map fun x =>
    UInt8.ofNat (ap.number x.1.name)).getD (UInt8.ofNat current)).toNat = _ at hmode
  rwa [toNat_ofNat hbyte] at hmode

/-- The select at one place is true, and no other. -/
theorem Right.selected_at (h : Right ap (printCore ap init)) (hnames : (printModes ap.modes).Nodup)
    (hbyte : current < 256) (hcurrent : current < ap.modes.length)
    {pre post : List (Mode × Select)} {x : Mode × Select} (hsel : ap.selects = pre ++ x :: post)
    (hpass : ap.passes current x = true) :
    ap.number x.1.name % 256 = if current ∈ ap.excludes x then current else ap.number x.1.name := by
  have hother : ∀ (ok : Mode × Select → Bool) (i : Nat) (a : Mode × Select), pre[i]? = some a →
      decide (0 + i = pre.length) = true → ok a = false := by
    intro ok i a ha hi
    have hlt := (List.getElem?_eq_some_iff.1 ha).1
    have heq := of_decide_eq_true hi
    omega
  have heq := h.selected_eq hnames hbyte hcurrent fun k => decide (k = pre.length)
  rw [hsel, first_eq_some (hother _) (by simp) hpass] at heq
  have hleft : (UInt8.ofNat (ap.number x.1.name)).toNat = ap.number x.1.name % 256 :=
    UInt8.toNat_ofNat'
  change (UInt8.ofNat (ap.number x.1.name)).toNat = _ at heq
  rw [hleft, Description.selected, hsel] at heq
  rw [heq]
  split_ifs with hmem
  · rw [first_eq_none]
    · rfl
    · intro i a ha hi
      have hi := of_decide_eq_true hi
      rw [Nat.zero_add] at hi
      rw [hi, List.getElem?_append_right (Nat.le_refl _), Nat.sub_self] at ha
      cases ha
      exact decide_eq_false (not_not.2 hmem)
  · have hallows : ap.allows current x = true := decide_eq_true hmem
    rw [first_eq_some (hother _) (by simp) hallows]
    rfl

theorem mem_modes_of_selects {x : Mode × Select} (hx : x ∈ ap.selects) : x.1 ∈ ap.modes := by
  obtain ⟨m, hm, hx⟩ := List.mem_flatMap.1 hx
  obtain ⟨s, -, rfl⟩ := List.mem_map.1 hx
  exact hm

theorem number_lt {m : Mode} (hm : m ∈ ap.modes) : ap.number m.name < ap.modes.length :=
  number_lt_of_mem (List.mem_map_of_mem hm)

theorem Right.selects_lt (h : Right ap (printCore ap init)) (hnames : (printModes ap.modes).Nodup)
    {x : Mode × Select} (hx : x ∈ ap.selects) : ap.number x.1.name < 256 := by
  by_contra hge
  have hlength := number_lt (mem_modes_of_selects hx)
  obtain ⟨pre, post, hsel⟩ := List.append_of_mem hx
  have hall : ∀ current < 256, current ∈ ap.excludes x := by
    intro current hcurrent
    by_contra hmem
    have hat := h.selected_at hnames hcurrent (by omega) hsel (passes_of_notMem hmem)
    rw [if_neg hmem] at hat
    omega
  -- Every mode is excluded, so that the printed comparisons let every mode through.
  have hzero := hall 0 (by omega)
  have hone := hall 1 (by omega)
  have hatZero := h.selected_at hnames (by omega) (by omega) hsel
    ((passes_of_mem hzero).2 ⟨1, hone, by omega⟩)
  have hatOne := h.selected_at hnames (by omega) (by omega) hsel
    ((passes_of_mem hone).2 ⟨0, hzero, by omega⟩)
  rw [if_pos hzero] at hatZero
  rw [if_pos hone, hatZero] at hatOne
  omega

/-- A select that the comparisons let through wrongly, and a later one that is right. -/
theorem Right.selected_later (h : Right ap (printCore ap init))
    (hnames : (printModes ap.modes).Nodup) (hbyte : current < 256)
    (hcurrent : current < ap.modes.length) {pre mid post : List (Mode × Select)}
    {x y : Mode × Select} (hsel : ap.selects = pre ++ x :: (mid ++ y :: post))
    (hpass : ap.passes current x = true) (hx : current ∈ ap.excludes x)
    (hy : current ∉ ap.excludes y) : ap.number x.1.name % 256 = ap.number y.1.name := by
  have heq := h.selected_eq hnames hbyte hcurrent fun k =>
    decide (k = pre.length ∨ k = pre.length + 1 + mid.length)
  rw [hsel, first_eq_some _ (by simp) hpass] at heq
  · have hleft : (UInt8.ofNat (ap.number x.1.name)).toNat = ap.number x.1.name % 256 :=
      UInt8.toNat_ofNat'
    change (UInt8.ofNat (ap.number x.1.name)).toNat = _ at heq
    have hallows : ap.allows current y = true := decide_eq_true hy
    have hlist : pre ++ x :: (mid ++ y :: post) = (pre ++ x :: mid) ++ y :: post := by
      rw [List.append_assoc, List.cons_append]
    rw [hleft, Description.selected, hsel, hlist, first_eq_some _ _ hallows] at heq
    · exact heq
    · intro i a ha hi
      have hlt := (List.getElem?_eq_some_iff.1 ha).1
      rw [List.length_append, List.length_cons] at hlt
      have hi := of_decide_eq_true hi
      obtain rfl : i = pre.length := by omega
      rw [List.getElem?_append_right (Nat.le_refl _), Nat.sub_self] at ha
      cases ha
      exact decide_eq_false (not_not.2 hx)
    · simp [Nat.add_assoc, Nat.add_comm 1]
  · intro i a ha hi
    have hlt := (List.getElem?_eq_some_iff.1 ha).1
    have hi := of_decide_eq_true hi
    omega

theorem Right.exclusions (h : Right ap (printCore ap init)) (hc : ap.Compiles) :
    ap.ExclusionsMatter ap.selects := by
  intro pre x post hsel current hbyte hmem hother
  have hx : x ∈ ap.selects := hsel ▸ List.mem_append_right _ List.mem_cons_self
  have hcurrent : current < ap.modes.length := by
    obtain ⟨name, hname, rfl⟩ := List.mem_map.1 hmem
    have hlt := List.idxOf_lt_length_of_mem (hc.excluded x hx name hname)
    rwa [printModes, List.length_map] at hlt
  have hpass := (passes_of_mem hmem).2 hother
  have hat := h.selected_at hc.distinct hbyte hcurrent hsel hpass
  rw [if_pos hmem, Nat.mod_eq_of_lt (h.selects_lt hc.distinct hx)] at hat
  refine ⟨hat, fun y hy => ?_⟩
  by_contra hneither
  obtain ⟨hne, hnot⟩ := not_or.1 hneither
  obtain ⟨mid, post, rfl⟩ := List.append_of_mem hy
  have hlater := h.selected_later hc.distinct hbyte hcurrent hsel hpass hmem hnot
  rw [hat, Nat.mod_eq_of_lt hbyte] at hlater
  exact hne hlater.symm

/-- No select is true, and one exception of the mode. -/
theorem Right.deroutes_lt (h : Right ap (printCore ap init)) (hnames : (printModes ap.modes).Nodup)
    {m : Mode} (hm : m ∈ ap.modes) (hbyte : ap.number m.name < 256) {e : Exception}
    (he : e ∈ m.exceptions) (hlast : e.deroute ≠ "$LAST_MODE") : ap.number e.deroute < 256 := by
  obtain ⟨pre, post, hexc⟩ := List.append_of_mem he
  have hmode := h.mode_eq hnames hbyte (number_lt hm)
    ⟨fun _ => false, fun k => decide (k = pre.length), fun _ => false⟩
  have hnone : ∀ ok, first (fun _ => false) ok ap.selects 0 = none :=
    fun ok => first_eq_none fun _ _ _ htruth => absurd htruth Bool.false_ne_true
  have hlastNone : last (fun _ => false) ap.exceptions 0 = none := last_eq_none fun _ => rfl
  have hplace : ap.modes[ap.number m.name]? = some m := (getElem?_eq_some_iff hnames hm _).2 rfl
  have hfirst : first (fun k => decide (k = pre.length)) (fun _ => true) m.exceptions 0 = some e := by
    rw [hexc]
    refine first_eq_some (fun i a ha hi => ?_) (by simp) rfl
    have hlt := (List.getElem?_eq_some_iff.1 ha).1
    have hi := of_decide_eq_true hi
    omega
  have hprivate : (stateIn (ap.number m.name)).privateAutopilotMode.toNat = ap.number m.name :=
    toNat_ofNat hbyte
  rw [Core.mode, Description.target, globalExceptions_eq, modeExceptions_eq hnames,
    modeSelect_eq] at hmode
  simp only [hnone, hlastNone, Description.overridden, Description.derouted, Description.selected,
    Option.map_none, Option.getD_none, hprivate, hplace, Option.elim, hfirst, Option.map_some,
    Option.getD_some, if_neg hlast, Description.deroute] at hmode
  rw [← hmode]
  exact UInt8.toNat_lt _

theorem Right.globals_lt (h : Right ap (printCore ap init)) (hc : ap.Compiles) {e : Exception}
    (he : e ∈ ap.exceptions) : ap.number e.deroute < 256 := by
  have hpos : 0 < ap.modes.length := Nat.zero_lt_of_lt (number_lt_of_mem (hc.globals e he))
  obtain ⟨pre, post, hexc⟩ := List.append_of_mem he
  have hmode := h.mode_eq hc.distinct (by omega) hpos
    ⟨fun _ => false, fun _ => false, fun k => decide (k = pre.length)⟩
  have hfalse : ∀ i, decide (0 + pre.length + 1 + i = pre.length) = false :=
    fun i => decide_eq_false (by omega)
  have hlast : last (fun k => decide (k = pre.length)) ap.exceptions 0 = some e := by
    rw [hexc]
    exact last_eq_some (by simp) hfalse
  rw [Core.mode, Description.target, globalExceptions_eq] at hmode
  simp only [hlast, Description.overridden, Option.map_some, Option.getD_some] at hmode
  rw [← hmode]
  exact UInt8.toNat_lt _

theorem right_iff_sound (hc : ap.Compiles) : Right ap (printCore ap init) ↔ ap.Sound := by
  constructor
  · intro h
    exact ⟨h.exclusions hc, fun x hx => h.selects_lt hc.distinct hx,
      fun m hm hbyte e he hlast => h.deroutes_lt hc.distinct hm hbyte he hlast,
      fun e he => h.globals_lt hc he⟩
  · intro h s truths _ _
    exact (conforms_iff hc.distinct truths).2 (h.mode_eq hc.distinct truths)

/-- With at most 256 modes, the exception lists decide. -/
theorem sound_iff (hc : ap.Compiles) (hlength : ap.modes.length ≤ 256) :
    ap.Sound ↔ ∀ x ∈ ap.selects, ∀ e ∈ ap.excludes x, ∀ e' ∈ ap.excludes x, e = e' := by
  have hbyte : ∀ name, printModeName name ∈ printModes ap.modes → ap.number name < 256 :=
    fun name hname => Nat.lt_of_lt_of_le (number_lt_of_mem hname) hlength
  constructor
  · intro h x hx e he e' he'
    have hexcluded : ∀ e ∈ ap.excludes x, e < 256 := by
      intro e he
      obtain ⟨name, hname, rfl⟩ := List.mem_map.1 he
      have hlt := List.idxOf_lt_length_of_mem (hc.excluded x hx name hname)
      rw [printModes, List.length_map] at hlt
      exact Nat.lt_of_lt_of_le hlt hlength
    by_contra hne
    obtain ⟨pre, post, hsel⟩ := List.append_of_mem hx
    have hown := (h.exclusions pre x post hsel e (hexcluded e he) he ⟨e', he', Ne.symm hne⟩).1
    have hown' := (h.exclusions pre x post hsel e' (hexcluded e' he') he' ⟨e, he, hne⟩).1
    exact hne (hown.symm.trans hown')
  · intro h
    refine ⟨?_, fun x hx => ?_, fun m hm _ e he hlast => hbyte _ (hc.deroutes m hm e he hlast),
      fun e he => hbyte _ (hc.globals e he)⟩
    · rintro pre x post hsel current - hmem ⟨e, he, hne⟩
      exact absurd (h x (hsel ▸ List.mem_append_right _ List.mem_cons_self) e he current hmem) hne
    · exact Nat.lt_of_lt_of_le (number_lt (mem_modes_of_selects hx)) hlength

/-- The generated core does what the description says, in every mode and for every outcome of
the conditions, if and only if the exception lists need no more than one comparison and the
numbers of the modes fit. -/
theorem autopilot_core (ap : Description) (c : Core) (hgen : parseModes ap = some c)
    (hc : ap.Compiles) : Right ap c ↔ ap.Sound := by
  obtain ⟨init, -, rfl⟩ := Option.map_eq_some_iff.1 hgen
  exact right_iff_sound hc

end

/-- A rotorcraft, with the modes on the exception list of the select for NAV. -/
def rotorcraft (exception : String) : Description where
  modes := [
    ⟨"ATTITUDE", some "stabilization_attitude_enter()", none,
      [⟨"$DEFAULT_MODE", none⟩, ⟨"RCMode0()", none⟩], [⟨"RCLost()", "FAILSAFE"⟩]⟩,
    ⟨"NAV", some "guidance_h_nav_enter()|guidance_v_enter()", none,
      [⟨"RCMode2()", some exception⟩], [⟨"GPSLost()", "FAILSAFE"⟩]⟩,
    ⟨"HOME", some "guidance_h_nav_enter()|guidance_v_enter()", none, [],
      [⟨"GPSLost()", "FAILSAFE"⟩]⟩,
    ⟨"FAILSAFE", none, none, [], [⟨"!GPSLost()", "$LAST_MODE"⟩]⟩]
  exceptions := [⟨"too_far_from_home", "HOME"⟩]

theorem one_exception_right :
    ∃ c, parseModes (rotorcraft "HOME") = some c ∧ Right (rotorcraft "HOME") c := by
  have hc : (rotorcraft "HOME").Compiles := by
    constructor <;> decide +kernel
  have hsound : (rotorcraft "HOME").Sound :=
    (sound_iff hc (by decide +kernel)).2 (by decide +kernel)
  exact ⟨_, rfl, (autopilot_core _ _ rfl hc).2 hsound⟩

/-- From HOME, the select for NAV takes over although HOME is on its list. -/
theorem home_left :
    ∃ c, parseModes (rotorcraft "HOME|FAILSAFE") = some c ∧
      (rotorcraft "HOME|FAILSAFE").Compiles ∧ ¬Right (rotorcraft "HOME|FAILSAFE") c := by
  have hc : (rotorcraft "HOME|FAILSAFE").Compiles := by
    constructor <;> decide +kernel
  refine ⟨_, rfl, hc, fun h => ?_⟩
  have hconforms := h (stateIn 2) (onlySelects fun k => k = 1) (by decide +kernel)
    (by decide +kernel)
  have hmode := (conforms_iff hc.distinct _).1 hconforms
  exact absurd hmode (by decide +kernel)

end Paparazzi.Generator.Autopilot
