import Mathlib.Data.List.Induction
import Paparazzi.Fixedwing.FlyByWire

/-!
Loss and recovery of the radio: `radio_control_periodic_task` and the `RadioControlEvent` of the PPM
receiver in any order.
-/

namespace Paparazzi.Radio.RcLoss

open Paparazzi.Library.Machine
open Paparazzi.Fixedwing.FlyByWire
  (RcStatus rcLostTime rcReallyLostTime rcOkCpt radioControlInit radioControlEvent)

/-- `struct RadioControl`, with the static counter of `radio_control_periodic_task`. -/
structure RadioControl (m : ℕ) extends Fixedwing.FlyByWire.RadioControl m where
  frameRate : ℕ
  frameCpt : ℕ
  oneHz : ℕ

variable {m : ℕ}

def init (m : ℕ) : RadioControl m :=
  { radioControlInit m with frameRate := 0, frameCpt := 0, oneHz := 0 }

/-- The bytes that count the frames wrap around. -/
def radioControlPeriodicTask (s : RadioControl m) : RadioControl m :=
  let oneHz := (s.oneHz + 1) % 256
  { Fixedwing.FlyByWire.radioControlPeriodicTask s.toRadioControl with
    oneHz := if oneHz ≥ 60 then 0 else oneHz
    frameRate := if oneHz ≥ 60 then s.frameCpt else s.frameRate
    frameCpt := if oneHz ≥ 60 then 0 else s.frameCpt }

inductive Event (m : ℕ) where
  | periodic
  /-- A call of `RadioControlEvent`, with the pulses of a frame if one is available. -/
  | event (pulses : Option (Fin m → UInt16))

/-- Whether a call of `RadioControlEvent` finds a frame. -/
def Event.IsFrame (e : Event m) : Prop := ∃ pulses, e = .event (some pulses)

section

-- `NormalizePpmIIR` of the radio: from the pulses and the values there are
variable (normalizePpmIIR : (Fin m → UInt16) → (Fin m → Int16) → Fin m → Int16)

/-- The macro, and whether the handler of the frame is called. -/
def step (s : RadioControl m) : Event m → RadioControl m × Bool
  | .periodic => (radioControlPeriodicTask s, false)
  | .event none => (s, false)
  | .event (some pulses) =>
      let (radio, handled) :=
        radioControlEvent .ppm (normalizePpmIIR pulses s.values) s.toRadioControl
      ({ radio with
          frameRate := s.frameRate, frameCpt := (s.frameCpt + 1) % 256, oneHz := s.oneHz }, handled)

def after (es : List (Event m)) : RadioControl m :=
  run (fun s e => (step normalizePpmIIR s e).1) (init m) es

end

/-! ### What has happened -/

/-- The calls of the periodic task since the last frame, or since the start. -/
def framelessCalls : List (Event m) → ℕ :=
  List.foldl (fun n e => match e with
    | .periodic => n + 1
    | .event none => n
    | .event (some _) => 0) 0

/-- The events end with `n` frames, of which neighbours are at most `RC_LOST_TIME` calls of the
periodic task apart, and with `calls` of these calls behind the last frame. -/
inductive Streak : ℕ → ℕ → List (Event m) → Prop where
  | start (es : List (Event m)) : Streak 0 0 es
  | frame {n calls : ℕ} {es : List (Event m)} (pulses : Fin m → UInt16) :
      Streak n calls es → Streak (n + 1) 0 (es ++ [.event (some pulses)])
  | periodic {n calls : ℕ} {es : List (Event m)} :
      Streak n calls es → calls < rcLostTime → Streak n (calls + 1) (es ++ [.periodic])
  | idle {n calls : ℕ} {es : List (Event m)} :
      Streak n calls es → Streak n calls (es ++ [.event none])

theorem Streak.calls_le {n calls : ℕ} {es : List (Event m)} (h : Streak n calls es) :
    calls ≤ rcLostTime := by
  induction h with
  | start es => exact Nat.zero_le _
  | frame pulses h ih => exact Nat.zero_le _
  | periodic h hlt ih => exact hlt
  | idle h ih => exact ih

theorem framelessCalls_append (es : List (Event m)) (e : Event m) :
    framelessCalls (es ++ [e]) = match e with
      | .periodic => framelessCalls es + 1
      | .event none => framelessCalls es
      | .event (some _) => 0 := by
  rw [framelessCalls, List.foldl_append]
  rfl

variable {normalizePpmIIR : (Fin m → UInt16) → (Fin m → Int16) → Fin m → Int16}

theorem after_append (es : List (Event m)) (e : Event m) :
    after normalizePpmIIR (es ++ [e]) = (step normalizePpmIIR (after normalizePpmIIR es) e).1 := by
  rw [after, run_append]
  rfl

/-! ### One step -/

section

variable (normalizePpmIIR)

theorem periodic_cases (s : RadioControl m) {s' : RadioControl m}
    (h : s' = (step normalizePpmIIR s .periodic).1) :
    (rcReallyLostTime ≤ s.timeSinceLastFrame ∧ s'.status = .reallyLost ∧
      s'.timeSinceLastFrame = s.timeSinceLastFrame ∧ s'.radioOkCpt = s.radioOkCpt) ∨
    ((rcLostTime ≤ s.timeSinceLastFrame ∧ s.timeSinceLastFrame < rcReallyLostTime) ∧
      s'.status = .lost ∧ s'.timeSinceLastFrame = s.timeSinceLastFrame + 1 ∧
      s'.radioOkCpt = rcOkCpt) ∨
    (s.timeSinceLastFrame < rcLostTime ∧ s'.status = s.status ∧
      s'.timeSinceLastFrame = s.timeSinceLastFrame + 1 ∧ s'.radioOkCpt = s.radioOkCpt) := by
  subst h
  simp only [step, radioControlPeriodicTask, Fixedwing.FlyByWire.radioControlPeriodicTask]
  split_ifs with hreally hlost
  · exact Or.inl ⟨hreally, rfl, rfl, rfl⟩
  · exact Or.inr (Or.inl ⟨⟨hlost, Nat.not_le.mp hreally⟩, rfl, rfl, rfl⟩)
  · exact Or.inr (Or.inr ⟨Nat.not_le.mp hlost, rfl, rfl, rfl⟩)

/-- A frame either counts towards the recovery, or is taken. -/
theorem frame_cases (s : RadioControl m) (pulses : Fin m → UInt16) {s' : RadioControl m}
    (h : s' = (step normalizePpmIIR s (.event (some pulses))).1) :
    s'.timeSinceLastFrame = 0 ∧
      ((0 < s.radioOkCpt ∧ s'.radioOkCpt = s.radioOkCpt - 1 ∧ s'.status = s.status) ∨
        (s.radioOkCpt = 0 ∧ s'.radioOkCpt = 0 ∧ s'.status = .ok)) := by
  subst h
  simp only [step, radioControlEvent]
  split_ifs with hcpt
  · exact ⟨rfl, Or.inl ⟨hcpt, rfl, rfl⟩⟩
  · exact ⟨rfl, Or.inr ⟨Nat.eq_zero_of_not_pos hcpt, Nat.eq_zero_of_not_pos hcpt, rfl⟩⟩

end

/-- The values and the handler belong to frames with which the status is `RC_OK`. -/
theorem isFrame_of_change {s : RadioControl m} {e : Event m}
    (h : (step normalizePpmIIR s e).2 = true ∨ (step normalizePpmIIR s e).1.values ≠ s.values) :
    e.IsFrame ∧ (step normalizePpmIIR s e).1.status = .ok := by
  rcases e with _ | (_ | pulses)
  · simp only [step, radioControlPeriodicTask, Fixedwing.FlyByWire.radioControlPeriodicTask] at h
    split_ifs at h <;> simp at h
  · simp [step] at h
  · refine ⟨⟨pulses, rfl⟩, ?_⟩
    simp only [step, radioControlEvent] at h ⊢
    split_ifs at h ⊢ <;> simp at h ⊢

/-! ### Runs -/

/-- What the state knows of the events so far. -/
structure Timed (es : List (Event m)) (s : RadioControl m) : Prop where
  time_le : s.timeSinceLastFrame ≤ rcReallyLostTime
  calls_le : min (framelessCalls es) rcReallyLostTime ≤ s.timeSinceLastFrame
  ok : s.status = .ok → (∃ e ∈ es, e.IsFrame) ∧ s.timeSinceLastFrame = framelessCalls es ∧
    framelessCalls es ≤ rcLostTime

theorem timed_step {es : List (Event m)} {s : RadioControl m} {e : Event m} (h : Timed es s) :
    Timed (es ++ [e]) (step normalizePpmIIR s e).1 := by
  obtain ⟨hle, hcalls, hok⟩ := h
  have hold : (∃ e ∈ es, Event.IsFrame e) → ∃ e' ∈ es ++ [e], Event.IsFrame e' :=
    fun ⟨e', he', hframe⟩ => ⟨e', List.mem_append_left _ he', hframe⟩
  rcases e with _ | (_ | pulses)
  · have hnext := framelessCalls_append es .periodic
    dsimp only at hnext
    obtain ⟨hreally, hstatus, htime, -⟩ | ⟨⟨hlost, hlt⟩, hstatus, htime, -⟩ |
        ⟨hlt, hstatus, htime, -⟩ := periodic_cases normalizePpmIIR s rfl
    · refine ⟨by omega, by omega, fun hok' => ?_⟩
      rw [hstatus] at hok'
      cases hok'
    · refine ⟨by omega, by omega, fun hok' => ?_⟩
      rw [hstatus] at hok'
      cases hok'
    · have horder : rcLostTime < rcReallyLostTime := by decide
      refine ⟨by omega, by omega, fun hok' => ?_⟩
      obtain ⟨hframe, heq, hle'⟩ := hok (hstatus ▸ hok')
      exact ⟨hold hframe, by omega, by omega⟩
  · have hnext := framelessCalls_append es (.event none)
    dsimp only at hnext
    refine ⟨hle, by rw [hnext]; exact hcalls, fun hok' => ?_⟩
    obtain ⟨hframe, heq, hle'⟩ := hok hok'
    rw [hnext]
    exact ⟨hold hframe, heq, hle'⟩
  · have hnext := framelessCalls_append es (.event (some pulses))
    dsimp only at hnext
    have htime := (frame_cases normalizePpmIIR s pulses rfl).1
    refine ⟨by omega, by omega, fun _ => ⟨?_, by omega, by omega⟩⟩
    exact ⟨_, List.mem_append_right _ (List.mem_singleton_self _), pulses, rfl⟩

theorem timed_after (normalizePpmIIR : (Fin m → UInt16) → (Fin m → Int16) → Fin m → Int16)
    (es : List (Event m)) : Timed es (after normalizePpmIIR es) :=
  run_history Timed (fun _ _ _ => timed_step)
    ⟨Nat.le_refl _, Nat.zero_le _, fun h => nomatch (show RcStatus.reallyLost = .ok from h)⟩ es

/-- The state on the way to a recovery, with the events since the loss. -/
structure Recovering (es : List (Event m)) (s : RadioControl m) : Prop where
  lost : s.status ≠ .ok
  reloaded : rcLostTime < s.timeSinceLastFrame → s.radioOkCpt = rcOkCpt
  streak : ∃ n calls, Streak n calls es ∧ n + s.radioOkCpt = rcOkCpt ∧
    (n = 0 ∨ calls = s.timeSinceLastFrame)

/-- A streak of no frame can be started anew. -/
theorem Recovering.streak_of_reload {es : List (Event m)} {s : RadioControl m}
    (h : s.radioOkCpt = rcOkCpt) :
    ∃ n calls, Streak n calls es ∧ n + s.radioOkCpt = rcOkCpt ∧
      (n = 0 ∨ calls = s.timeSinceLastFrame) :=
  ⟨0, 0, .start es, by rw [h, Nat.zero_add], Or.inl rfl⟩

theorem recovering_step {es : List (Event m)} {s : RadioControl m} {e : Event m}
    (h : Recovering es s) (hlost : (step normalizePpmIIR s e).1.status ≠ .ok) :
    Recovering (es ++ [e]) (step normalizePpmIIR s e).1 := by
  obtain ⟨-, hreloaded, n, calls, hstreak, hcount, hcalls⟩ := h
  rcases e with _ | (_ | pulses)
  · obtain ⟨hreally, -, htime, hcpt⟩ | ⟨-, -, htime, hcpt⟩ | ⟨hlt, -, htime, hcpt⟩ :=
      periodic_cases normalizePpmIIR s rfl
    · have hreload : s.radioOkCpt = rcOkCpt := hreloaded (lt_of_lt_of_le (by decide) hreally)
      rw [← hcpt] at hreload
      exact ⟨hlost, fun _ => hreload, Recovering.streak_of_reload hreload⟩
    · exact ⟨hlost, fun _ => hcpt, Recovering.streak_of_reload hcpt⟩
    · refine ⟨hlost, fun hgt => by omega, ?_⟩
      obtain rfl | hcalls := hcalls
      · exact Recovering.streak_of_reload (by omega)
      · exact ⟨n, calls + 1, hstreak.periodic (by omega), by omega, Or.inr (by omega)⟩
  · exact ⟨hlost, hreloaded, n, calls, hstreak.idle, hcount, hcalls⟩
  · obtain ⟨htime, ⟨hpos, hcpt, -⟩ | ⟨-, -, hok⟩⟩ :=
      frame_cases normalizePpmIIR s pulses rfl
    · exact ⟨hlost, fun hgt => by omega, n + 1, 0, hstreak.frame pulses, by omega,
        Or.inr htime.symm⟩
    · exact absurd hok hlost

/-- A run in which the status is not `RC_OK` in between. -/
theorem recovering_after {before es : List (Event m)}
    (hstart : Recovering [] (after normalizePpmIIR before))
    (hlost : ∀ es', es' <+: es → (after normalizePpmIIR (before ++ es')).status ≠ .ok) :
    Recovering es (after normalizePpmIIR (before ++ es)) := by
  induction es using List.reverseRecOn with
  | nil => rwa [List.append_nil]
  | append_singleton es e ih =>
      have hrest := ih fun es' h => hlost es' (h.trans (List.prefix_append es [e]))
      have hnext := hlost (es ++ [e]) (List.prefix_refl _)
      rw [← List.append_assoc, after_append] at hnext ⊢
      exact recovering_step hrest hnext

theorem recovering_of_loss {es : List (Event m)} (hok : (after normalizePpmIIR es).status = .ok)
    (hlost : (after normalizePpmIIR (es ++ [.periodic])).status ≠ .ok) :
    Recovering [] (after normalizePpmIIR (es ++ [.periodic])) := by
  have htimed := timed_after normalizePpmIIR es
  obtain ⟨-, htime, hcalls⟩ := htimed.ok hok
  rw [after_append] at hlost ⊢
  obtain ⟨hreally, -⟩ | ⟨-, -, -, hcpt⟩ | ⟨-, hstatus, -⟩ :=
    periodic_cases normalizePpmIIR (after normalizePpmIIR es) rfl
  · rw [rcReallyLostTime] at hreally
    rw [rcLostTime] at hcalls
    omega
  · exact ⟨hlost, fun _ => hcpt, Recovering.streak_of_reload hcpt⟩
  · exact absurd (hstatus.trans hok) hlost

theorem Recovering.isFrame_of_ok {es : List (Event m)} {s : RadioControl m} {e : Event m}
    (h : Recovering es s) (hok : (step normalizePpmIIR s e).1.status = .ok) :
    e.IsFrame ∧ ∃ calls, Streak rcOkCpt calls es := by
  obtain ⟨hlost, -, n, calls, hstreak, hcount, -⟩ := h
  rcases e with _ | (_ | pulses)
  · obtain ⟨-, hstatus, -⟩ | ⟨-, hstatus, -⟩ | ⟨-, hstatus, -⟩ :=
      periodic_cases normalizePpmIIR s rfl
    · rw [hstatus] at hok
      cases hok
    · rw [hstatus] at hok
      cases hok
    · exact absurd (hstatus.symm.trans hok) hlost
  · exact absurd hok hlost
  · obtain ⟨-, ⟨-, -, hstatus⟩ | ⟨hcpt, -⟩⟩ :=
      frame_cases normalizePpmIIR s pulses rfl
    · exact absurd (hstatus.symm.trans hok) hlost
    · rw [hcpt, Nat.add_zero] at hcount
      exact ⟨⟨pulses, rfl⟩, calls, hcount ▸ hstreak⟩

/-- Loss and recovery over every run. -/
theorem rc_loss_recovery (normalizePpmIIR : (Fin m → UInt16) → (Fin m → Int16) → Fin m → Int16)
    (es : List (Event m)) :
    ((after normalizePpmIIR es).status = .ok →
      (∃ e ∈ es, e.IsFrame) ∧ framelessCalls es ≤ rcLostTime) ∧
    (framelessCalls (es ++ [.periodic]) > rcReallyLostTime →
      (after normalizePpmIIR (es ++ [.periodic])).status = .reallyLost) ∧
    ((after normalizePpmIIR es).status = .ok →
      ∀ (since : List (Event m)) (e : Event m),
        (∀ es', es' <+: since →
          (after normalizePpmIIR (es ++ [.periodic] ++ es')).status ≠ .ok) →
        (after normalizePpmIIR (es ++ [.periodic] ++ since ++ [e])).status = .ok →
          e.IsFrame ∧ ∃ calls, Streak rcOkCpt calls since ∧ calls ≤ rcLostTime) ∧
    ∀ e : Event m, (step normalizePpmIIR (after normalizePpmIIR es) e).2 = true ∨
        (after normalizePpmIIR (es ++ [e])).values ≠ (after normalizePpmIIR es).values →
      e.IsFrame ∧ (after normalizePpmIIR (es ++ [e])).status = .ok := by
  have htimed := timed_after normalizePpmIIR es
  refine ⟨fun hok => ?_, fun hcalls => ?_, fun hok since e hlost hagain => ?_, fun e he => ?_⟩
  · obtain ⟨hframe, -, hle⟩ := htimed.ok hok
    exact ⟨hframe, hle⟩
  · have hnext := framelessCalls_append es .periodic
    dsimp only at hnext
    have hle := htimed.calls_le
    have hlt : rcLostTime < rcReallyLostTime := by decide
    rw [after_append]
    obtain ⟨-, hstatus, -⟩ | ⟨⟨-, hbound⟩, -⟩ | ⟨hbound, -⟩ :=
      periodic_cases normalizePpmIIR (after normalizePpmIIR es) rfl
    · exact hstatus
    · omega
    · omega
  · have hloss := hlost [] (List.nil_prefix)
    rw [List.append_nil] at hloss
    rw [after_append] at hagain
    obtain ⟨hframe, calls, hstreak⟩ :=
      (recovering_after (recovering_of_loss hok hloss) hlost).isFrame_of_ok hagain
    exact ⟨hframe, calls, hstreak, hstreak.calls_le⟩
  · rw [after_append] at he ⊢
    exact isFrame_of_change he

end Paparazzi.Radio.RcLoss
