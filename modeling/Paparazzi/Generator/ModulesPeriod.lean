import Paparazzi.Generator.Modules
import Paparazzi.Library.Fallible

/-!
How often the generated task calls the periodic functions of the modules, and their start and
stop functions.
-/

namespace Paparazzi.Generator.Modules

open Paparazzi.Generator.PeriodicChain
open Paparazzi.Generator.Settings (Attribs attrib)
open Paparazzi.Library
open Paparazzi.Library.Machine
open Paparazzi.Library.MapM

/-! ### The lines -/

theorem take_printLines (l : List (Nat × Int)) (es : List (Entry Call)) (n : Nat) :
    (printLines l es).take n = printLines l (es.take n) := by
  induction es generalizing l n with
  | nil => rw [printLines, List.take_nil, List.take_nil, printLines]
  | cons e es ih =>
      cases n with
      | zero => rfl
      | succ n =>
          rw [List.take_succ_cons, printLines, printLines]
          split_ifs
          · rw [List.take_succ_cons, ih]
          · rw [List.take_succ_cons, ih]

/-- The entries of the list in the order of their modulos, with phases that the counters show. -/
structure Sorted (es : List (Entry Call)) : Prop where
  sorted : es.Pairwise fun e e' => e.modulo ≤ e'.modulo
  modulo : ∀ e ∈ es, IsModulo e.modulo
  phase : ∀ e ∈ es, 0 ≤ e.phase ∧ e.phase < e.modulo

theorem Sorted.take {es : List (Entry Call)} (h : Sorted es) (n : Nat) : Sorted (es.take n) where
  sorted := h.sorted.sublist (List.take_sublist n es)
  modulo := fun e he => h.modulo e (List.mem_of_mem_take he)
  phase := fun e he => h.phase e (List.mem_of_mem_take he)

theorem Sorted.tail {e : Entry Call} {es : List (Entry Call)} (h : Sorted (e :: es)) :
    Sorted es where
  sorted := (List.pairwise_cons.mp h.sorted).2
  modulo := fun e' he => h.modulo e' (List.mem_cons_of_mem _ he)
  phase := fun e' he => h.phase e' (List.mem_cons_of_mem _ he)

section

variable {σ : Type} (env : String → Memory σ → Memory σ) (counter : Nat → Nat)

/-- Where no modulo is 1, the lines are a chain of tests. -/
theorem runLines_of_ne_one {l : List (Nat × Int)} {es : List (Entry Call)}
    (h : ∀ e ∈ es, e.modulo ≠ 1) (n : Nat) (taken : Bool) (w : World σ) :
    runLines env counter n (printLines l es) taken w =
      runTests counter isRunning (runCall env) n (link l es) taken w := by
  induction es generalizing l n taken w with
  | nil => rfl
  | cons e es ih =>
      obtain ⟨he, hes⟩ := List.forall_mem_cons.mp h
      rw [printLines, if_neg he, link, runLines, runTests]
      split_ifs
      · exact ih hes ..
      · exact ih hes ..
      · exact ih hes ..

/-- The lines do what the entries do one by one; the counter of the modulo 1 is always 0. -/
theorem runLines_eq {es : List (Entry Call)} (h : Sorted es)
    (hone : ∀ e ∈ es, e.modulo = 1 → counter 1 = 0) (n : Nat) (w : World σ) :
    runLines env counter n (printLines [] es) false w =
      runEntries counter isRunning (runCall env) n es w := by
  induction es generalizing n w with
  | nil => rfl
  | cons e es ih =>
      have htail : ∀ e' ∈ es, e'.modulo = 1 → counter 1 = 0 :=
        fun e' he => hone e' (List.mem_cons_of_mem _ he)
      by_cases he : e.modulo = 1
      · have hphase := h.phase e List.mem_cons_self
        have hshown : decide ((counter e.modulo : Int) = e.phase) = true := by
          rw [he] at hphase
          rw [he, hone e List.mem_cons_self he, decide_eq_true_eq]
          omega
        rw [printLines, if_pos he, runLines, ih h.tail htail, runEntries, runEntry, hshown,
          Bool.true_and]
      · have hne : ∀ e' ∈ e :: es, e'.modulo ≠ 1 := by
          intro e' he'
          have hpos := (h.modulo e List.mem_cons_self).1
          rcases List.mem_cons.mp he' with rfl | he'
          · exact he
          · have hle := (List.pairwise_cons.mp h.sorted).1 e' he'
            omega
        rw [runLines_of_ne_one env counter hne, runTests_link _ _ _ (seen_nil _ h.sorted)]

/-! ### The start and stop functions -/

def calls (n : Nat) (w : World σ) : Nat := w.events.count (.call n)

theorem exec_calls (n : Nat) (text : String) (e : Event) (w : World σ) :
    calls n (exec env text e w) = calls n w + if e = .call n then 1 else 0 := by
  rw [calls, exec, List.count_append, List.count_singleton, calls]
  simp only [beq_iff_eq]

/-- The lines for start and stop leave the counters, and call no periodic function. -/
theorem runStartStop_frame (k : Nat) (x : StartStop) (w : World σ) :
    (runStartStop env k x w).counters = w.counters ∧
      ∀ n, calls n (runStartStop env k x w) = calls n w := by
  have hswitch : ∀ v value next text e (w : World σ), (∀ n, e ≠ .call n) →
      (switchStatus env v value next text e w).counters = w.counters ∧
        ∀ n, calls n (switchStatus env v value next text e w) = calls n w := by
    intro v value next text e w he
    rw [switchStatus]
    split_ifs
    · refine ⟨rfl, fun n => ?_⟩
      change calls n (exec env text e w) = _
      rw [exec_calls, if_neg (he n), add_zero]
    · exact ⟨rfl, fun _ => rfl⟩
  cases x with
  | nothing => exact ⟨rfl, fun _ => rfl⟩
  | always start =>
      refine ⟨rfl, fun n => ?_⟩
      rw [runStartStop, exec_calls, if_neg (by simp), add_zero]
  | byStatus v start stop =>
      obtain ⟨hcounters, hcalls⟩ :=
        hswitch v modulesStart modulesRun start (.start k) w (fun _ => by simp)
      obtain ⟨hcounters', hcalls'⟩ :=
        hswitch v modulesStop modulesIdle stop (.stop k)
          (switchStatus env v modulesStart modulesRun start (.start k) w) (fun _ => by simp)
      exact ⟨hcounters'.trans hcounters, fun n => (hcalls' n).trans (hcalls n)⟩

theorem runStartStops_frame (k : Nat) (xs : List StartStop) (w : World σ) :
    (runStartStops env k xs w).counters = w.counters ∧
      ∀ n, calls n (runStartStops env k xs w) = calls n w := by
  induction xs generalizing k w with
  | nil => exact ⟨rfl, fun _ => rfl⟩
  | cons x xs ih =>
      obtain ⟨hcounters, hcalls⟩ := ih (k + 1) (runStartStop env k x w)
      obtain ⟨hcounters', hcalls'⟩ := runStartStop_frame env k x w
      exact ⟨hcounters.trans hcounters', fun n => (hcalls n).trans (hcalls' n)⟩

theorem beforeLines_frame (code : Code) (w : World σ) :
    (beforeLines env code w).counters = bumpAll code.modulos w.counters ∧
      ∀ n, calls n (beforeLines env code w) = calls n w :=
  runStartStops_frame env 0 code.startStop _

/-! ### One call of the task -/

/-- The code of the entries `es`. -/
structure Printed (code : Code) (es : List (Entry Call)) : Prop extends Sorted es where
  lines : code.lines = printLines [] es
  nodup : code.modulos.Nodup
  mem : ∀ e ∈ es, e.modulo ∈ code.modulos

variable {code : Code} {es : List (Entry Call)} (h : Printed code es)

include h

theorem counter_one (w : World σ) {e : Entry Call} (he : e ∈ es) (hone : e.modulo = 1) :
    bumpAll code.modulos w.counters 1 = 0 := by
  have hmem := h.mem e he
  rw [hone] at hmem
  rw [bumpAll_of_mem h.nodup hmem, bump]
  split_ifs <;> omega

theorem reached_eq (n : Nat) (w : World σ) :
    reached env code n w =
      runEntries (bumpAll code.modulos w.counters) isRunning (runCall env) 0 (es.take n)
        (beforeLines env code w) := by
  rw [reached, (beforeLines_frame env code w).1, h.lines, take_printLines,
    runLines_eq env _ (h.toSorted.take n)]
  intro e he hone
  exact counter_one h w (List.mem_of_mem_take he) hone

theorem modulesPeriodicTask_eq (w : World σ) :
    modulesPeriodicTask env code w =
      runEntries (bumpAll code.modulos w.counters) isRunning (runCall env) 0 es
        (beforeLines env code w) := by
  rw [modulesPeriodicTask, (beforeLines_frame env code w).1, h.lines,
    runLines_eq env _ h.toSorted fun e he hone => counter_one h w he hone]

theorem modulesPeriodicTask_counters (w : World σ) :
    (modulesPeriodicTask env code w).counters = bumpAll code.modulos w.counters := by
  have hframe : ∀ w : World σ, (runEntries (bumpAll code.modulos w.counters) isRunning (runCall env) 0
      es (beforeLines env code w)).counters = (beforeLines env code w).counters :=
    fun w => runEntries_eq _ isRunning (runCall env) (c := World.counters) (fun _ _ _ => rfl) 0 es _
  rw [modulesPeriodicTask_eq env h, hframe, (beforeLines_frame env code w).1]

/-- A function is called when its counter shows its phase and its status, if it has one, lets it
run when its line is reached. -/
theorem calls_modulesPeriodicTask {n : Nat} {e : Entry Call} (he : es[n]? = some e) (w : World σ) :
    calls n (modulesPeriodicTask env code w) = calls n w +
      if (bump e.modulo (w.counters e.modulo) : Int) = e.phase ∧
        isRunning e.body (reached env code n w) = true then 1 else 0 := by
  have hact : ∀ n' c (w : World σ),
      calls n (runCall env n' c w) = calls n w + if n' = n then 1 else 0 := by
    intro n' c w
    rw [runCall, exec_calls]
    simp only [Event.call.injEq]
  rw [modulesPeriodicTask_eq env h, reached_eq env h,
    count_runEntries _ _ _ hact (Nat.zero_add n) he, (beforeLines_frame env code w).2,
    bumpAll_of_mem h.nodup (h.mem e (List.mem_of_getElem? he))]
  simp only [Bool.and_eq_true, decide_eq_true_eq]

/-! ### Runs -/

/-- The function of the line `n` is let run, in a call after a change of the memory. -/
def Ready (code : Code) (n : Nat) (c : Call) (w : World σ) (change : Memory σ → Memory σ) : Prop :=
  isRunning c (reached env code n { w with memory := change w.memory }) = true

/-- A function that is let run is called whenever its counter shows its phase. -/
theorem calls_run {n : Nat} {e : Entry Call} (he : es[n]? = some e)
    (changes : List (Memory σ → Memory σ)) {w : World σ}
    (hready : RunOk (step env code) (Ready env code n e.body) w changes) :
    calls n (run (step env code) w changes) = calls n w +
      hits e.modulo e.phase (w.counters e.modulo) changes.length := by
  induction changes generalizing w with
  | nil => rfl
  | cons change changes ih =>
      obtain ⟨hnow, hrest⟩ := hready
      have hcounter : (step env code w change).counters e.modulo =
          bump e.modulo (w.counters e.modulo) := by
        rw [step, modulesPeriodicTask_counters env h,
          bumpAll_of_mem h.nodup (h.mem e (List.mem_of_getElem? he))]
      rw [run_cons, ih hrest, hcounter, step, calls_modulesPeriodicTask env h he,
        List.length_cons, hits]
      simp only [show isRunning e.body
        (reached env code n { w with memory := change w.memory }) = true from hnow, and_true]
      exact Nat.add_assoc ..

theorem counters_lt (changes : List (Memory σ → Memory σ)) {w : World σ}
    (hw : ∀ m, IsModulo m → w.counters m < m) {m : Nat} (hm : IsModulo m) :
    (run (step env code) w changes).counters m < m := by
  induction changes generalizing w with
  | nil => exact hw m hm
  | cons change changes ih =>
      refine ih fun m hm => ?_
      rw [step, modulesPeriodicTask_counters env h]
      exact bumpAll_lt h.nodup hw hm

end

/-! ### Statuses -/

section

variable {σ : Type} (env : String → Memory σ → Memory σ)

def started (k : Nat) (w : World σ) : Nat := w.events.count (.start k)

def stopped (k : Nat) (w : World σ) : Nat := w.events.count (.stop k)

/-- The functions that are called do not set statuses. -/
def Quiet : Prop := ∀ text m, (env text m).status = m.status

def statusOf : StartStop → Option String
  | .byStatus v _ _ => some v
  | _ => none

/-- What the two lines for a status leave in it. -/
def settle (x : Nat) : Nat :=
  if x = modulesStart then modulesRun else if x = modulesStop then modulesIdle else x

theorem settle_ne (x : Nat) : settle x ≠ modulesStart ∧ settle x ≠ modulesStop := by
  unfold settle modulesStart modulesStop modulesRun modulesIdle
  split_ifs <;> omega

theorem settle_settle (x : Nat) : settle (settle x) = settle x := by
  have hx := settle_ne x
  rw [settle, if_neg hx.1, if_neg hx.2]

variable {env} (hquiet : Quiet env)

include hquiet

theorem switchStatus_status (v v' : String) (value next : Nat) (text : String) (e : Event)
    (w : World σ) : (switchStatus env v value next text e w).memory.status v' =
      if v' = v ∧ w.memory.status v = value then next else w.memory.status v' := by
  rw [switchStatus]
  by_cases hvalue : w.memory.status v = value
  · rw [if_pos hvalue]
    by_cases hv : v' = v
    · subst hv
      rw [if_pos ⟨rfl, hvalue⟩]
      exact Function.update_self ..
    · rw [if_neg fun h => hv h.1]
      refine (Function.update_of_ne hv ..).trans ?_
      exact congrFun (hquiet text w.memory) v'
  · rw [if_neg hvalue, if_neg fun h => hvalue h.2]

theorem runStartStop_status (k : Nat) (x : StartStop) (v : String) (w : World σ) :
    (runStartStop env k x w).memory.status v =
      if statusOf x = some v then settle (w.memory.status v) else w.memory.status v := by
  cases x with
  | nothing => rfl
  | always start => exact congrFun (hquiet start w.memory) v
  | byStatus v' start stop =>
      simp only [runStartStop, switchStatus_status hquiet, statusOf, Option.some.injEq]
      by_cases hv : v = v'
      · subst hv
        simp only [true_and, if_true, settle]
        split_ifs <;> simp_all [modulesRun, modulesStop]
      · simp only [hv, false_and, if_false, Ne.symm hv]

/-- The statuses behind the lines for start and stop. -/
theorem runStartStops_status (k : Nat) (xs : List StartStop) (v : String) (w : World σ) :
    (runStartStops env k xs w).memory.status v =
      if some v ∈ xs.map statusOf then settle (w.memory.status v) else w.memory.status v := by
  induction xs generalizing k w with
  | nil => rfl
  | cons x xs ih =>
      rw [runStartStops, ih, runStartStop_status hquiet, List.map_cons]
      by_cases hx : statusOf x = some v
      · simp only [hx, if_true, List.mem_cons, true_or, settle_settle, ite_self]
      · simp only [if_neg hx, List.mem_cons, Ne.symm hx, false_or]

end

/-! ### How often the start and stop functions are called -/

section

variable {σ : Type} {env : String → Memory σ → Memory σ}

theorem switchStatus_events (e e' : Event) (v : String) (value next : Nat) (text : String)
    (w : World σ) : (switchStatus env v value next text e w).events.count e' =
      w.events.count e' + if e = e' ∧ w.memory.status v = value then 1 else 0 := by
  rw [switchStatus]
  by_cases hvalue : w.memory.status v = value
  · rw [if_pos hvalue]
    change (w.events ++ [e]).count e' = _
    rw [List.count_append, List.count_singleton]
    simp only [beq_iff_eq, hvalue, and_true]
  · rw [if_neg hvalue, if_neg fun h => hvalue h.2, add_zero]

/-- A line for another element calls other functions. -/
theorem runStartStop_of_ne {k k' : Nat} (hne : k ≠ k') (x : StartStop) (w : World σ) :
    started k' (runStartStop env k x w) = started k' w ∧
      stopped k' (runStartStop env k x w) = stopped k' w := by
  have hstart : Event.start k ≠ Event.start k' := by simpa using hne
  have hstop : Event.stop k ≠ Event.stop k' := by simpa using hne
  cases x with
  | nothing => exact ⟨rfl, rfl⟩
  | always start =>
      simp [started, stopped, runStartStop, exec, List.count_append, hne]
  | byStatus v start stop =>
      simp [started, stopped, runStartStop, switchStatus_events, hne]

theorem runStartStops_of_lt {k k' : Nat} (hlt : k' < k) (xs : List StartStop) (w : World σ) :
    started k' (runStartStops env k xs w) = started k' w ∧
      stopped k' (runStartStops env k xs w) = stopped k' w := by
  induction xs generalizing k w with
  | nil => exact ⟨rfl, rfl⟩
  | cons x xs ih =>
      obtain ⟨hstarted, hstopped⟩ := ih (Nat.lt_succ_of_lt hlt) (runStartStop env k x w)
      obtain ⟨hstarted', hstopped'⟩ := runStartStop_of_ne hlt.ne' x w
      exact ⟨hstarted.trans hstarted', hstopped.trans hstopped'⟩

variable (hquiet : Quiet env)

include hquiet

theorem runStartStop_byStatus (k : Nat) (v start stop : String) (w : World σ) :
    started k (runStartStop env k (.byStatus v start stop) w) = started k w +
        (if w.memory.status v = modulesStart then 1 else 0) ∧
      stopped k (runStartStop env k (.byStatus v start stop) w) = stopped k w +
        (if w.memory.status v = modulesStop then 1 else 0) := by
  have hstop : (switchStatus env v modulesStart modulesRun start (.start k) w).memory.status v =
      modulesStop ↔ w.memory.status v = modulesStop := by
    rw [switchStatus_status hquiet]
    simp only [true_and]
    split_ifs with h
    · rw [h]
      decide
    · exact Iff.rfl
  simp [started, stopped, runStartStop, switchStatus_events, hstop]

/-- A start or stop function is called when the status asks for it and no line above has the same
status. -/
theorem runStartStops_byStatus {xs : List StartStop} {j : Nat} {v start stop : String}
    (hx : xs[j]? = some (.byStatus v start stop)) (k : Nat) (w : World σ) :
    started (k + j) (runStartStops env k xs w) = started (k + j) w +
        (if w.memory.status v = modulesStart ∧ some v ∉ (xs.take j).map statusOf then 1 else 0) ∧
      stopped (k + j) (runStartStops env k xs w) = stopped (k + j) w +
        (if w.memory.status v = modulesStop ∧ some v ∉ (xs.take j).map statusOf
          then 1 else 0) := by
  induction xs generalizing j k w with
  | nil => cases hx
  | cons x xs ih =>
      cases j with
      | zero =>
          cases hx
          obtain ⟨hstarted, hstopped⟩ := @runStartStops_of_lt σ env (k + 1) k (Nat.lt_add_one k)
            xs (runStartStop env k (.byStatus v start stop) w)
          obtain ⟨hstarted', hstopped'⟩ := runStartStop_byStatus hquiet k v start stop w
          simp only [Nat.add_zero, runStartStops, hstarted, hstopped, hstarted', hstopped',
            List.take_zero, List.map_nil, List.not_mem_nil, not_false_eq_true, and_true]
      | succ j =>
          have hne : k ≠ k + (j + 1) := by omega
          have hih := ih hx (k + 1) (runStartStop env k x w)
          obtain ⟨hstarted, hstopped⟩ := @runStartStop_of_ne σ env k (k + (j + 1)) hne x w
          rw [show k + 1 + j = k + (j + 1) from by omega, hstarted, hstopped,
            runStartStop_status hquiet] at hih
          rw [runStartStops, List.take_succ_cons, List.map_cons, hih.1, hih.2]
          by_cases hv : statusOf x = some v
          · have hsettle := settle_ne (w.memory.status v)
            simp [hv, hsettle.1, hsettle.2]
          · simp [hv, Ne.symm hv]

variable {code : Code} {es : List (Entry Call)} (h : Printed code es)

include h

/-- The periodic functions leave the statuses and call no start or stop function. -/
theorem modulesPeriodicTask_frame (w : World σ) :
    (modulesPeriodicTask env code w).memory.status = (beforeLines env code w).memory.status ∧
      ∀ k, started k (modulesPeriodicTask env code w) = started k (beforeLines env code w) ∧
        stopped k (modulesPeriodicTask env code w) = stopped k (beforeLines env code w) := by
  rw [modulesPeriodicTask_eq env h]
  refine ⟨?_, fun k => ⟨?_, ?_⟩⟩
  · exact runEntries_eq _ isRunning (runCall env) (c := fun w => w.memory.status)
      (fun _ b w => hquiet b.function w.memory) ..
  · refine runEntries_eq _ isRunning (runCall env) (c := started k) (fun n b w => ?_) ..
    simp [started, runCall, exec, List.count_append]
  · refine runEntries_eq _ isRunning (runCall env) (c := stopped k) (fun n b w => ?_) ..
    simp [stopped, runCall, exec, List.count_append]

theorem modulesPeriodicTask_byStatus {k : Nat} {v start stop : String}
    (hx : code.startStop[k]? = some (.byStatus v start stop)) (w : World σ) :
    started k (modulesPeriodicTask env code w) = started k w +
        (if w.memory.status v = modulesStart ∧ some v ∉ (code.startStop.take k).map statusOf
          then 1 else 0) ∧
      stopped k (modulesPeriodicTask env code w) = stopped k w +
        (if w.memory.status v = modulesStop ∧ some v ∉ (code.startStop.take k).map statusOf
          then 1 else 0) ∧
      (modulesPeriodicTask env code w).memory.status v = settle (w.memory.status v) := by
  obtain ⟨hstatus, hevents⟩ := modulesPeriodicTask_frame hquiet h w
  have hlines := runStartStops_byStatus hquiet hx 0
    { w with counters := bumpAll code.modulos w.counters }
  rw [Nat.zero_add] at hlines
  have hmem : some v ∈ code.startStop.map statusOf :=
    List.mem_map.mpr ⟨_, List.mem_of_getElem? hx, rfl⟩
  refine ⟨(hevents k).1.trans hlines.1, (hevents k).2.trans hlines.2, ?_⟩
  rw [hstatus, beforeLines, runStartStops_status hquiet, if_pos hmem]

end

/-! ### What is printed -/

/-- The call of an element, where it has a function. -/
def callOfFunc (f : Func) : Call := callOf f ((attrib f.1 "fun").getD "")

def IsEntry (f : Func × Nat) (e : Entry Call) : Prop :=
  e.modulo = f.2 ∧ e.body = callOfFunc f.1 ∧ 0 ≤ e.phase ∧ e.phase < e.modulo

theorem entries_isEntry {intOfString : String → Option Int} {same : Nat → Nat} {i : Nat}
    {functions : List (Func × Nat)} {es : List (Entry Call)}
    (hpos : ∀ f ∈ functions, 0 < f.2)
    (hdelay : ∀ f ∈ functions, ∀ s d, attrib f.1.1 "delay" = some s → intOfString s = some d →
      0 ≤ d)
    (h : entries intOfString same i functions = some es) :
    List.Forall₂ IsEntry functions es := by
  induction functions generalizing i es with
  | nil =>
      cases h
      exact .nil
  | cons f functions ih =>
      obtain ⟨f, p⟩ := f
      obtain ⟨hp, hpos⟩ := List.forall_mem_cons.mp hpos
      obtain ⟨hd, hdelay⟩ := List.forall_mem_cons.mp hdelay
      obtain ⟨function, hfunction, h⟩ := Option.bind_eq_some_iff.mp h
      have hcall : callOf f function = callOfFunc f := by rw [callOfFunc, hfunction, Option.getD_some]
      split_ifs at h with hone
      · obtain ⟨rest, hrest, rfl⟩ := Option.map_eq_some_iff.mp h
        exact .cons ⟨hone.symm, hcall, le_rfl, Int.one_pos⟩ (ih hpos hdelay hrest)
      · cases hattrib : attrib f.1 "delay" with
        | none =>
            rw [hattrib] at h
            obtain ⟨rest, hrest, rfl⟩ := Option.map_eq_some_iff.mp h
            exact .cons ⟨rfl, hcall, Int.natCast_nonneg _, Int.ofNat_lt.mpr (Nat.mod_lt _ hp)⟩
              (ih hpos hdelay hrest)
        | some s =>
            rw [hattrib] at h
            obtain ⟨d, hint, h⟩ := Option.bind_eq_some_iff.mp h
            obtain ⟨rest, hrest, rfl⟩ := Option.map_eq_some_iff.mp h
            have hnonneg : 0 ≤ d := hd s d hattrib hint
            refine .cons ⟨rfl, hcall, Int.tmod_nonneg _ hnonneg, ?_⟩ (ih hpos hdelay hrest)
            rw [Int.tmod_eq_emod_of_nonneg hnonneg]
            exact Int.emod_lt_of_pos _ (Int.ofNat_lt.mpr hp)

theorem map_isEntry {functions : List (Func × Nat)} {es : List (Entry Call)}
    (h : List.Forall₂ IsEntry functions es) :
    es.map (fun e => (e.body, e.modulo)) = functions.map fun f => (callOfFunc f.1, f.2) := by
  induction h with
  | nil => rfl
  | cons hfe _ ih => rw [List.map_cons, List.map_cons, ih, hfe.1, hfe.2.1]

/-- The modulo of a line. -/
def lineModulo (line : Line) : Nat := (line.1.map Test.modulo).getD 1

theorem map_printLines (l : List (Nat × Int)) (es : List (Entry Call)) :
    (printLines l es).map (fun line => (line.2, lineModulo line)) =
      es.map fun e => (e.body, e.modulo) := by
  induction es generalizing l with
  | nil => rfl
  | cons e es ih =>
      rw [printLines]
      split_ifs with hone
      · rw [List.map_cons, List.map_cons, ih, hone]
        rfl
      · rw [List.map_cons, List.map_cons, ih]
        rfl

section

variable {F : Type} {fl : Floats F} {intOfString : String → Option Int} {freq : Nat}
  {modules : List Module} {code : Code}

def NonnegativeDelays (intOfString : String → Option Int) (modules : List Module) : Prop :=
  ∀ f ∈ allPeriodic modules, ∀ s d, attrib f.1 "delay" = some s → intOfString s = some d → 0 ≤ d

/-- The lines are those of the functions. -/
def Complete (fl : Floats F) (freq : Nat) (modules : List Module) (code : Code) : Prop :=
  (code.lines.map fun line => (line.2, lineModulo line)).Perm
      ((functionsModulo fl freq modules).map fun f => (callOfFunc f.1, f.2)) ∧
    code.startStop = (allPeriodic modules).map startStop

theorem printed (hdelay : NonnegativeDelays intOfString modules)
    (h : printPeriodicFunctions fl intOfString freq modules = some code) :
    Complete fl freq modules code ∧ ∃ es, Printed code es := by
  obtain ⟨es, hes, rfl⟩ := Option.map_eq_some_iff.mp h
  have hfunction : ∀ f ∈ functionsModulo fl freq modules,
      f.1 ∈ allPeriodic modules ∧ IsModulo f.2 := by
    intro f hf
    obtain ⟨f, hmem, rfl⟩ := List.mem_map.mp hf
    exact ⟨hmem, isModulo_boundedModulo _⟩
  have hall := entries_isEntry
    (fun f hf => (hfunction f (mem_sortByModulo.mp hf)).2.1)
    (fun f hf => hdelay f.1 (hfunction f (mem_sortByModulo.mp hf)).1) hes
  have hmap := map_isEntry hall
  have hmodulo : es.map Entry.modulo =
      (sortByModulo (functionsModulo fl freq modules)).map Prod.snd := by
    have hsnd := congrArg (List.map Prod.snd) hmap
    rwa [List.map_map, List.map_map] at hsnd
  have hmem : ∀ e ∈ es, e.modulo ∈ (functionsModulo fl freq modules).map Prod.snd := by
    intro e he
    have hmem : e.modulo ∈ (sortByModulo (functionsModulo fl freq modules)).map Prod.snd := by
      rw [← hmodulo]
      exact List.mem_map_of_mem he
    obtain ⟨f, hf, hmod⟩ := List.mem_map.mp hmem
    rw [← hmod]
    exact List.mem_map_of_mem (mem_sortByModulo.mp hf)
  refine ⟨⟨?_, rfl⟩, es, ⟨⟨?_, ?_, ?_⟩, rfl, nodup_singletonize _, ?_⟩⟩
  · rw [map_printLines, hmap]
    exact (List.perm_insertionSort _ _).map _
  · have hpair : ((sortByModulo (functionsModulo fl freq modules)).map Prod.snd).Pairwise
        (· ≤ ·) := List.pairwise_map.mpr (sorted_sortByModulo _)
    rw [← hmodulo] at hpair
    exact List.pairwise_map.mp hpair
  · intro e he
    obtain ⟨f, hf, hmod⟩ := List.mem_map.mp (hmem e he)
    rw [← hmod]
    exact (hfunction f hf).2
  · intro e he
    obtain ⟨k, hk⟩ := List.getElem?_of_mem he
    obtain ⟨f, -, -, -, hphase⟩ := getElem?_of_forall₂ hall hk
    exact hphase
  · intro e he
    rw [mem_singletonize]
    exact hmem e he

/-! ### The schedule -/

/-- The world when the autopilot starts. -/
def initial {σ : Type} (m : Memory σ) : World σ := ⟨m, fun _ => 0, []⟩

/-- Every function is called once in each of its periods in which it is let run, and not while it
is idle; a start or stop function that a status asks for is called once. -/
structure Scheduled (fl : Floats F) (freq : Nat) (modules : List Module) (code : Code) : Prop where
  complete : Complete fl freq modules code
  period : ∀ (σ : Type) (env : String → Memory σ → Memory σ) (m : Memory σ)
    (before changes : List (Memory σ → Memory σ)) (n : Nat) (line : Line),
    code.lines[n]? = some line → changes.length = lineModulo line →
      RunOk (step env code) (Ready env code n line.2) (run (step env code) (initial m) before)
        changes →
      calls n (run (step env code) (run (step env code) (initial m) before) changes) =
        calls n (run (step env code) (initial m) before) + 1
  idle : ∀ (σ : Type) (env : String → Memory σ → Memory σ) (w : World σ) (n : Nat) (line : Line)
    (v : String), code.lines[n]? = some line → line.2.status = some v →
      (reached env code n w).memory.status v = modulesIdle →
      calls n (modulesPeriodicTask env code w) = calls n w
  start : ∀ (σ : Type) (env : String → Memory σ → Memory σ) (w : World σ) (k : Nat)
    (v start stop : String), Quiet env → code.startStop[k]? = some (.byStatus v start stop) →
      start ≠ "" → w.memory.status v = modulesStart →
      started k (modulesPeriodicTask env code w) = started k w + 1 ∧
        (modulesPeriodicTask env code w).memory.status v = modulesRun
  stop : ∀ (σ : Type) (env : String → Memory σ → Memory σ) (w : World σ) (k : Nat)
    (v start stop : String), Quiet env → code.startStop[k]? = some (.byStatus v start stop) →
      stop ≠ "" → w.memory.status v = modulesStop →
      stopped k (modulesPeriodicTask env code w) = stopped k w + 1 ∧
        (modulesPeriodicTask env code w).memory.status v = modulesIdle

/-- An element with a start or stop function does not share its status with one before it. -/
def StatusesSeparate (modules : List Module) : Prop :=
  ∀ k v start stop, ((allPeriodic modules).map startStop)[k]? = some (.byStatus v start stop) →
    some v ∈ (((allPeriodic modules).map startStop).take k).map statusOf → start = "" ∧ stop = ""

/-- A line and its entry. -/
theorem exists_entry {es : List (Entry Call)} (h : Printed code es) {n : Nat} {line : Line}
    (hline : code.lines[n]? = some line) :
    ∃ e, es[n]? = some e ∧ e.body = line.2 ∧ e.modulo = lineModulo line := by
  have hget := congrArg (fun l => l[n]?) (map_printLines [] es)
  simp only [List.getElem?_map, ← h.lines, hline, Option.map_some] at hget
  obtain ⟨e, he, heq⟩ := Option.map_eq_some_iff.mp hget.symm
  exact ⟨e, he, congrArg Prod.fst heq, congrArg Prod.snd heq⟩

/-- The modules are scheduled exactly when no element with a start or stop function shares its
status with one before it. -/
theorem modules_scheduled_iff (hdelay : NonnegativeDelays intOfString modules)
    (h : printPeriodicFunctions fl intOfString freq modules = some code) :
    Scheduled fl freq modules code ↔ StatusesSeparate modules := by
  obtain ⟨hcomplete, es, hes⟩ := printed hdelay h
  constructor
  · intro hscheduled k v start stop hk hshared
    rw [← hcomplete.2] at hk hshared
    have hquiet : Quiet (σ := Unit) fun _ m => m := fun _ _ => rfl
    constructor
    · by_contra hstart
      have honce := (hscheduled.start Unit (fun _ m => m)
        ⟨⟨fun _ => modulesStart, ()⟩, fun _ => 0, []⟩ k v start stop hquiet hk hstart rfl).1
      rw [(modulesPeriodicTask_byStatus hquiet hes hk _).1, if_neg fun h => h.2 hshared] at honce
      omega
    · by_contra hstop
      have honce := (hscheduled.stop Unit (fun _ m => m)
        ⟨⟨fun _ => modulesStop, ()⟩, fun _ => 0, []⟩ k v start stop hquiet hk hstop rfl).1
      rw [(modulesPeriodicTask_byStatus hquiet hes hk _).2.1, if_neg fun h => h.2 hshared] at honce
      omega
  · intro hseparate
    have hnot : ∀ k v start stop, code.startStop[k]? = some (.byStatus v start stop) →
        start ≠ "" ∨ stop ≠ "" → some v ∉ (code.startStop.take k).map statusOf := by
      intro k v start stop hk hne hmem
      rw [hcomplete.2] at hk hmem
      obtain ⟨hstart, hstop⟩ := hseparate k v start stop hk hmem
      exact hne.elim (· hstart) (· hstop)
    refine ⟨hcomplete, ?_, ?_, ?_, ?_⟩
    · intro σ env m before changes n line hline hlength hready
      obtain ⟨e, he, hbody, hmodulo⟩ := exists_entry hes hline
      rw [← hbody] at hready
      have hmem := List.mem_of_getElem? he
      obtain ⟨h0, hlt⟩ := hes.phase e hmem
      rw [calls_run env hes he changes hready, hlength, ← hmodulo,
        hits_self (hes.modulo e hmem) h0 hlt
          (counters_lt env hes before (fun m hm => hm.1) (hes.modulo e hmem))]
    · intro σ env w n line v hline hv hidle
      obtain ⟨e, he, hbody, -⟩ := exists_entry hes hline
      have hrunning : isRunning e.body (reached env code n w) = false := by
        rw [hbody, isRunning, hv, Option.all_some, hidle]
        rfl
      rw [calls_modulesPeriodicTask env hes he, hrunning]
      simp
    · intro σ env w k v start stop hquiet hk hstart hstatus
      obtain ⟨hstarted, -, hafter⟩ := modulesPeriodicTask_byStatus hquiet hes hk w
      rw [hstarted, hafter, if_pos ⟨hstatus, hnot k v start stop hk (.inl hstart)⟩, hstatus]
      exact ⟨rfl, rfl⟩
    · intro σ env w k v start stop hquiet hk hstop hstatus
      obtain ⟨-, hstopped, hafter⟩ := modulesPeriodicTask_byStatus hquiet hes hk w
      rw [hstopped, hafter, if_pos ⟨hstatus, hnot k v start stop hk (.inr hstop)⟩, hstatus]
      exact ⟨rfl, rfl⟩

end

/-! ### Examples -/

def periodicOf (function start : String) : Attribs :=
  [("fun", function), ("period", "1"), ("start", start), ("autorun", "TRUE")]

theorem modules_scheduled_one :
    Scheduled wholes 10 [⟨"nav", [periodicOf "turn(1)" "init()"]⟩]
        ⟨[10], [.byStatus "nav_turn_status" "init()" ""],
          [(some ⟨false, 10, 0⟩, ⟨"turn(1)", some "nav_turn_status"⟩)]⟩ ↔
      StatusesSeparate [⟨"nav", [periodicOf "turn(1)" "init()"]⟩] :=
  @modules_scheduled_iff Int wholes (fun _ => none) 10 [⟨"nav", [periodicOf "turn(1)" "init()"]⟩]
    _ (fun _ _ _ _ _ h => by cases h) (by decide)

/-- Two elements for one function with different arguments share their status: the start function
of the second one is never called. -/
theorem start_never_called :
    ¬ ∀ code, printPeriodicFunctions wholes (fun _ => none) 10
        [⟨"nav", [periodicOf "turn(1)" "init()", periodicOf "turn(2)" "reset()"]⟩] = some code →
      Scheduled wholes 10
        [⟨"nav", [periodicOf "turn(1)" "init()", periodicOf "turn(2)" "reset()"]⟩] code := by
  intro h
  have hcode := h
    ⟨[10], [.byStatus "nav_turn_status" "init()" "", .byStatus "nav_turn_status" "reset()" ""],
      [(some ⟨false, 10, 0⟩, ⟨"turn(1)", some "nav_turn_status"⟩),
        (some ⟨true, 10, 3⟩, ⟨"turn(2)", some "nav_turn_status"⟩)]⟩ (by decide)
  have honce := (hcode.start Unit (fun _ m => m) ⟨⟨fun _ => modulesStart, ()⟩, fun _ => 0, []⟩ 1
    "nav_turn_status" "reset()" "" (fun _ _ => rfl) rfl (by decide) rfl).1
  exact absurd honce (by decide)

end Paparazzi.Generator.Modules
