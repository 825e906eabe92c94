import Mathlib.Data.List.Find
import Paparazzi.Ground.Joystick

/-!
Which messages of the joystick are sent over a sequence of readings.
-/

namespace Paparazzi.Ground.Joystick

open Paparazzi.FlightPlan.ExprSyntax

variable {D : Type} {messages : List (Msg D)} {t : Tick} {s s' : State D}

def init (inputs : List (Ident × Input)) (vars : List (Ident × Var D)) : State D :=
  ⟨inputs, vars, fun _ => none⟩

/-- The readings one after the other, with everything that is done for messages. -/
def runActions (messages : List (Msg D)) (s : State D) : List Tick → State D × List Record
  | [] => (s, [])
  | t :: ts =>
      let (s', records) := executeActions messages s t
      let (s'', rest) := runActions messages s' ts
      (s'', records ++ rest)

/-- The pair that was recorded last under a name. -/
def lastRecorded (log : List Record) (msgName : Ident) : Pair :=
  ((log.reverse.find? fun r => r.msgName = msgName).map Record.pair).getD (false, [])

def lastOwn (log : List Record) (k : ℕ) : Pair :=
  ((log.reverse.find? fun r => r.index = k).map Record.pair).getD (false, [])

/-- No other message has the name of the one at this place. -/
def Unique (messages : List (Msg D)) (k : ℕ) : Prop :=
  ∀ j m m', messages[k]? = some m → messages[j]? = some m' → m'.msgName = m.msgName → j = k

/-! ### One message -/

theorem lastValues_send {m : Msg D} {values : List (Ident × ℤ)} {effect : Effect}
    (h : send t s m values = some (s', effect)) : s'.lastValues = s.lastValues := by
  rw [send] at h
  split at h
  · obtain ⟨rfl, -⟩ := Prod.mk.inj (Option.some.inj h)
    rfl
  · obtain ⟨rfl, -⟩ := Prod.mk.inj (Option.some.inj h)
    rfl
  · obtain ⟨inputs, -, heq⟩ := Option.map_eq_some_iff.mp h
    obtain ⟨rfl, -⟩ := Prod.mk.inj heq
    rfl
  · obtain ⟨inputs, -, heq⟩ := Option.map_eq_some_iff.mp h
    obtain ⟨rfl, -⟩ := Prod.mk.inj heq
    rfl
  · obtain ⟨rfl, -⟩ := Prod.mk.inj (Option.some.inj h)
    rfl

theorem executeAction_eq_some {m : Msg D} {pair : Pair} {effect : Option Effect}
    (h : executeAction t s m = some (s', pair, effect)) :
    evaluate t s m = some pair ∧
      (effect.isSome = true ↔
        pair.1 = true ∧ (m.sendAlways = true ∨ pair ≠ s.previousValues m.msgName)) ∧
      s'.lastValues = Function.update s.lastValues m.msgName (some pair) := by
  obtain ⟨⟨onEvent, values⟩, heval, hsend⟩ := Option.bind_eq_some_iff.mp h
  dsimp only at hsend
  split_ifs at hsend with hcond
  · obtain ⟨⟨sent, e⟩, hsend', hout⟩ := Option.bind_eq_some_iff.mp hsend
    obtain ⟨rfl, hrest⟩ := Prod.mk.inj (Option.some.inj hout)
    obtain ⟨rfl, rfl⟩ := Prod.mk.inj hrest
    refine ⟨heval, iff_of_true rfl ⟨hcond.2, hcond.1.symm⟩, ?_⟩
    rw [State.recordValues, lastValues_send hsend']
  · obtain ⟨rfl, hrest⟩ := Prod.mk.inj (Option.some.inj hsend)
    obtain ⟨rfl, rfl⟩ := Prod.mk.inj hrest
    exact ⟨heval, iff_of_false (by simp) fun hsent => hcond ⟨hsent.2.symm, hsent.1⟩, rfl⟩

/-! ### The table -/

/-- The table holds what was recorded last. -/
def Recorded (log : List Record) (s : State D) : Prop :=
  ∀ msgName, s.previousValues msgName = lastRecorded log msgName

theorem recorded_init (inputs : List (Ident × Input)) (vars : List (Ident × Var D)) :
    Recorded [] (init inputs vars) := fun _ => rfl

theorem lastRecorded_append (log : List Record) (r : Record) (msgName : Ident) :
    lastRecorded (log ++ [r]) msgName =
      if r.msgName = msgName then r.pair else lastRecorded log msgName := by
  rw [lastRecorded, List.reverse_append, List.reverse_singleton, List.singleton_append,
    List.find?_cons]
  split_ifs with hname
  · simp [hname]
  · simp [hname, lastRecorded]

theorem Recorded.append {log : List Record} (h : Recorded log s) {r : Record}
    (hs' : s'.lastValues = Function.update s.lastValues r.msgName (some r.pair)) :
    Recorded (log ++ [r]) s' := by
  intro msgName
  rw [lastRecorded_append, State.previousValues, hs']
  split_ifs with hname
  · rw [hname, Function.update_self, Option.getD_some]
  · rw [Function.update_of_ne (Ne.symm hname)]
    exact h msgName

/-! ### One reading -/

/-- A record for the message at its place, and whether that has been sent. -/
structure Executed (messages : List (Msg D)) (t : Tick) (log : List Record) (s : State D)
    (k : ℕ) (r : Record) : Prop where
  message : ∃ m, messages[k]? = some m ∧ r.msgName = m.msgName ∧ evaluate t s m = some r.pair ∧
    (r.effect.isSome = true ↔
      r.pair.1 = true ∧ (m.sendAlways = true ∨ r.pair ≠ lastRecorded log m.msgName))

theorem executeMessages_cons_none {m : Msg D} (i : ℕ) (h : executeAction t s m = none) :
    executeMessages t i (m :: messages) s = (s, []) := by
  rw [executeMessages, h]

theorem executeMessages_cons_some {m : Msg D} {pair : Pair} {effect : Option Effect} (i : ℕ)
    (h : executeAction t s m = some (s', pair, effect)) :
    executeMessages t i (m :: messages) s =
      ((executeMessages t (i + 1) messages s').1,
        ⟨i, m.msgName, pair, effect⟩ :: (executeMessages t (i + 1) messages s').2) := by
  rw [executeMessages, h]

theorem executeMessages_spec (messages : List (Msg D)) (t : Tick) (i : ℕ) {log : List Record}
    (hrecorded : Recorded log s) :
    Recorded (log ++ (executeMessages t i messages s).2) (executeMessages t i messages s).1 ∧
    (∀ k r, (executeMessages t i messages s).2[k]? = some r → r.index = i + k ∧
      Executed messages t (log ++ (executeMessages t i messages s).2.take k)
        (executeMessages t i (messages.take k) s).1 k r) ∧
    ∀ k m, messages[k]? = some m → (executeMessages t i messages s).2.length = k →
      executeAction t (executeMessages t i (messages.take k) s).1 m = none := by
  induction messages generalizing i s log with
  | nil =>
      refine ⟨by simpa [executeMessages] using hrecorded, fun k r hr => ?_, fun k m hm => ?_⟩
      · cases hr
      · cases hm
  | cons m ms ih =>
      cases haction : executeAction t s m with
      | none =>
          rw [executeMessages_cons_none i haction, List.append_nil]
          refine ⟨hrecorded, fun k r hr => absurd hr (by simp), fun k m' hm' hk => ?_⟩
          obtain rfl : 0 = k := hk
          obtain rfl := Option.some.inj hm'
          exact haction
      | some done =>
          obtain ⟨s₁, pair, effect⟩ := done
          obtain ⟨heval, hsent, htable⟩ := executeAction_eq_some haction
          rw [hrecorded] at hsent
          obtain ⟨hrecorded', hrecords, hstop⟩ :=
            ih (i + 1) (hrecorded.append (r := ⟨i, m.msgName, pair, effect⟩) htable)
          rw [executeMessages_cons_some i haction]
          refine ⟨?_, fun k r hr => ?_, fun k m' hm' hk => ?_⟩
          · rwa [List.append_assoc] at hrecorded'
          · cases k with
            | zero =>
                obtain rfl := Option.some.inj hr
                rw [List.take_zero, List.append_nil]
                exact ⟨rfl, m, rfl, rfl, heval, hsent⟩
            | succ k =>
                obtain ⟨hindex, hexecuted⟩ := hrecords k r hr
                refine ⟨by omega, ?_⟩
                rw [List.take_succ_cons, List.take_succ_cons, executeMessages_cons_some i haction]
                rw [List.append_assoc] at hexecuted
                exact ⟨hexecuted.message⟩
          · cases k with
            | zero => cases hk
            | succ k =>
                rw [List.take_succ_cons, executeMessages_cons_some i haction]
                exact hstop k m' hm' (Nat.succ.inj hk)

/-- The state in front of the message at a place. -/
def stateBefore (messages : List (Msg D)) (t : Tick) (s : State D) (k : ℕ) : State D :=
  (executeMessages t 0 (messages.take k) (updateVariables t s.events s).1).1

theorem lastValues_updateVariables (t : Tick) (events : List (Ident × ℤ × Expression D))
    (s : State D) : (updateVariables t events s).1.lastValues = s.lastValues := by
  induction events generalizing s with
  | nil => rfl
  | cons event events ih =>
      obtain ⟨name, value, expr⟩ := event
      rw [updateVariables]
      cases hupdate : updateVariable t s name value expr with
      | none => rfl
      | some s' =>
          refine (ih s').trans ?_
          obtain ⟨v, -, rfl⟩ := Option.map_eq_some_iff.mp hupdate
          split_ifs
          · rfl
          · rfl

theorem executeActions_spec {log : List Record} (hrecorded : Recorded log s) :
    Recorded (log ++ (executeActions messages s t).2) (executeActions messages s t).1 ∧
    (∀ k r, (executeActions messages s t).2[k]? = some r → r.index = k ∧
      Executed messages t (log ++ (executeActions messages s t).2.take k)
        (stateBefore messages t s k) k r) ∧
    ∀ k m, messages[k]? = some m → (executeActions messages s t).2.length = k →
      (updateVariables t s.events s).2 = false ∨
        executeAction t (stateBefore messages t s k) m = none := by
  have hrecorded' : Recorded log (updateVariables t s.events s).1 := by
    intro msgName
    rw [State.previousValues, lastValues_updateVariables]
    exact hrecorded msgName
  cases hok : (updateVariables t s.events s).2 with
  | false =>
      have heq : executeActions messages s t = ((updateVariables t s.events s).1, []) := by
        rw [executeActions, ← Prod.mk.eta (p := updateVariables t s.events s), hok]
      rw [heq, List.append_nil]
      exact ⟨hrecorded', fun k r hr => absurd hr (by simp), fun _ _ _ _ => Or.inl rfl⟩
  | true =>
      have heq : executeActions messages s t =
          executeMessages t 0 messages (updateVariables t s.events s).1 := by
        rw [executeActions, ← Prod.mk.eta (p := updateVariables t s.events s), hok]
      rw [heq]
      obtain ⟨hafter, hrecords, hstop⟩ := executeMessages_spec messages t 0 hrecorded'
      refine ⟨hafter, fun k r hr => ?_, fun k m hm hk => Or.inr (hstop k m hm hk)⟩
      obtain ⟨hindex, hexecuted⟩ := hrecords k r hr
      exact ⟨by omega, hexecuted⟩

/-! ### All readings -/

def Named (messages : List (Msg D)) (log : List Record) : Prop :=
  ∀ r ∈ log, ∃ m, messages[r.index]? = some m ∧ r.msgName = m.msgName

theorem named_executeActions {log : List Record} (hrecorded : Recorded log s) :
    Named messages (executeActions messages s t).2 := by
  intro r hr
  obtain ⟨k, hk⟩ := List.mem_iff_getElem?.mp hr
  obtain ⟨hindex, m, hm, hname, -⟩ := (executeActions_spec hrecorded).2.1 k r hk
  exact ⟨m, by rwa [hindex], hname⟩

theorem runActions_spec (ts : List Tick) {log : List Record} (hrecorded : Recorded log s) :
    Recorded (log ++ (runActions messages s ts).2) (runActions messages s ts).1 ∧
      Named messages (runActions messages s ts).2 := by
  induction ts generalizing s log with
  | nil => exact ⟨by rwa [runActions, List.append_nil], fun r hr => nomatch hr⟩
  | cons t ts ih =>
      obtain ⟨hafter, hrest⟩ := ih (executeActions_spec hrecorded).1
      rw [List.append_assoc] at hafter
      exact ⟨hafter, List.forall_mem_append.mpr ⟨named_executeActions hrecorded, hrest⟩⟩

/-- For a message whose name no other one has, the name stands for the message. -/
theorem lastRecorded_eq_lastOwn {log recent : List Record} {k : ℕ} {m : Msg D}
    (hm : messages[k]? = some m) (hunique : Unique messages k) (hlog : Named messages log)
    (hrecent : Named messages recent) (hother : ∀ r ∈ recent, r.index ≠ k) :
    lastRecorded (log ++ recent) m.msgName = lastOwn log k := by
  have hiff : ∀ records, Named messages records → ∀ r ∈ records.reverse,
      (r.msgName = m.msgName ↔ r.index = k) := by
    intro records hrecords r hr
    obtain ⟨m', hm', hname⟩ := hrecords r (List.mem_reverse.mp hr)
    constructor
    · exact fun heq => hunique r.index m m' hm hm' (hname.symm.trans heq)
    · intro hindex
      rw [hindex] at hm'
      rw [hname, Option.some.inj (hm'.symm.trans hm)]
  have hnone : recent.reverse.find? (fun r => r.msgName = m.msgName) = none := by
    rw [List.find?_eq_none]
    intro r hr
    rw [decide_eq_true_eq, hiff recent hrecent r hr]
    exact hother r (List.mem_reverse.mp hr)
  have hsame : log.reverse.find? (fun r => r.msgName = m.msgName) =
      log.reverse.find? fun r => r.index = k :=
    List.find?_congr fun r hr => decide_eq_decide.mpr (hiff log hlog r hr)
  rw [lastRecorded, lastOwn, List.reverse_append, List.find?_append, hnone, Option.none_or, hsame]

/-- Two buttons that order two blocks, in messages of one name. -/
def twoBlocks : List (Msg Unit) :=
  [⟨"JUMP_TO_BLOCK".toList, .ground, [("block_id".toList, .int 1)],
      some (.ident "first".toList), false, true⟩,
    ⟨"JUMP_TO_BLOCK".toList, .ground, [("block_id".toList, .int 2)],
      some (.ident "second".toList), false, true⟩]

def twoButtons : List (Ident × Input) := [("first".toList, .button 0), ("second".toList, .button 1)]

def held : List Tick := [⟨0, 1, ⟨1, 0, []⟩⟩, ⟨0, 1, ⟨1, 0, []⟩⟩]

end Paparazzi.Ground.Joystick
