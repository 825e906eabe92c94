import Mathlib
import Paparazzi.Library.Machine

/-!
The software timers of `sys_time`: registration, cancelling, change of the duration, and the
handler of the system tick. Durations are in ticks, as `sys_time_ticks_of_sec` gives them. To
say when the timers expire, the ticks are counted without a bound, and every timer has the tick
at which its current period began.
-/

namespace Paparazzi.McuPeriph.Timers

/-- `struct sys_time_timer`; `none` is the callback `NULL`. -/
structure SysTimeTimer (κ : Type*) where
  inUse : Bool
  cb : Option κ
  elapsed : Bool
  endTime : UInt32
  duration : UInt32

/-- `struct sys_time` with `n` timers; its fields that convert times are left out. -/
structure SysTime (n : Nat) (κ : Type*) where
  nbSec : UInt32
  nbSecRem : UInt32
  nbTick : UInt32
  timer : Fin n → SysTimeTimer κ
  resolutionCpuTicks : UInt32
  cpuTicksPerSec : UInt32

section

variable {n : Nat} {κ : Type*}

def freeTimer : SysTimeTimer κ := ⟨false, none, false, 0, 0⟩

def sysTimeInit (n : Nat) (κ : Type*) (resolutionCpuTicks cpuTicksPerSec : UInt32) :
    SysTime n κ :=
  ⟨0, 0, 0, fun _ => freeTimer, resolutionCpuTicks, cpuTicksPerSec⟩

def setTimer (s : SysTime n κ) (i : Fin n) (t : SysTimeTimer κ) : SysTime n κ :=
  { s with timer := Function.update s.timer i t }

/-- The first timer that is not in use. -/
def firstFree (s : SysTime n κ) : Option (Fin n) :=
  (List.finRange n).find? fun i => !(s.timer i).inUse

/-- `sys_time_register_timer`, with the timer that it returns. -/
def sysTimeRegisterTimer (s : SysTime n κ) (ticks : UInt32) (cb : Option κ) :
    SysTime n κ × Option (Fin n) :=
  match firstFree s with
  | some i => (setTimer s i ⟨true, cb, false, s.nbTick + ticks, ticks⟩, some i)
  | none => (s, none)

def sysTimeCancelTimer (s : SysTime n κ) (i : Fin n) : SysTime n κ := setTimer s i freeTimer

def sysTimeUpdateTimer (s : SysTime n κ) (i : Fin n) (ticks : UInt32) : SysTime n κ :=
  let t := s.timer i
  setTimer s i { t with endTime := t.endTime - (t.duration - ticks), duration := ticks }

def sysTimeCheckAndAckTimer (s : SysTime n κ) (i : Fin n) : SysTime n κ × Bool :=
  if (s.timer i).elapsed then (setTimer s i { s.timer i with elapsed := false }, true)
  else (s, false)

/-- The condition in the loop of the handler. -/
def expires (nbTick : UInt32) (t : SysTimeTimer κ) : Bool := t.inUse && t.endTime ≤ nbTick

/-- What the handler did: the timers whose flag it set, and the callbacks it ran. -/
structure Handled (n : Nat) (κ : Type*) where
  sysTime : SysTime n κ
  elapsed : List (Fin n)
  called : List (κ × Fin n)

def sysTickHandler (s : SysTime n κ) : Handled n κ :=
  let nbTick := s.nbTick + 1
  let nbSecRem := s.nbSecRem + s.resolutionCpuTicks
  let second := s.cpuTicksPerSec ≤ nbSecRem
  let expired := (List.finRange n).filter fun i => expires nbTick (s.timer i)
  { sysTime :=
      { s with
        nbTick := nbTick
        nbSec := if second then s.nbSec + 1 else s.nbSec
        nbSecRem := if second then nbSecRem - s.cpuTicksPerSec else nbSecRem
        timer := fun i =>
          let t := s.timer i
          if expires nbTick t then { t with endTime := t.endTime + t.duration, elapsed := true }
          else t }
    elapsed := expired
    called := expired.filterMap fun i => (s.timer i).cb.map fun cb => (cb, i) }

/-- The calls, and the interrupt of the system tick. -/
inductive Event (n : Nat) (κ : Type*) where
  | registerTimer (ticks : UInt32) (cb : Option κ)
  | cancelTimer (i : Fin n)
  | updateTimer (i : Fin n) (ticks : UInt32)
  | checkAndAckTimer (i : Fin n)
  | tick

def sysTimeStep (s : SysTime n κ) : Event n κ → SysTime n κ
  | .registerTimer ticks cb => (sysTimeRegisterTimer s ticks cb).1
  | .cancelTimer i => sysTimeCancelTimer s i
  | .updateTimer i ticks => sysTimeUpdateTimer s i ticks
  | .checkAndAckTimer i => (sysTimeCheckAndAckTimer s i).1
  | .tick => (sysTickHandler s).sysTime

end

end Paparazzi.McuPeriph.Timers

namespace Paparazzi.McuPeriph.Timers

open Paparazzi.Library.Machine

section

variable {n : Nat} {κ : Type*}

/-- The timers, the number of ticks so far, and for each timer the tick of its last expiry, or
of its registration if there was none. -/
structure Timeline (n : Nat) (κ : Type*) where
  sysTime : SysTime n κ
  now : Nat
  begun : Fin n → Nat

def start (n : Nat) (κ : Type*) (resolutionCpuTicks cpuTicksPerSec : UInt32) : Timeline n κ :=
  ⟨sysTimeInit n κ resolutionCpuTicks cpuTicksPerSec, 0, fun _ => 0⟩

def step (l : Timeline n κ) (e : Event n κ) : Timeline n κ where
  sysTime := sysTimeStep l.sysTime e
  now := match e with
    | .tick => l.now + 1
    | _ => l.now
  begun := match e with
    | .registerTimer ticks cb =>
        match (sysTimeRegisterTimer l.sysTime ticks cb).2 with
        | some i => Function.update l.begun i l.now
        | none => l.begun
    | .tick => fun i => if i ∈ (sysTickHandler l.sysTime).elapsed then l.now + 1 else l.begun i
    | _ => l.begun

/-- What is asked of a step: at a tick the flag of a timer is set, and its callback run, exactly
when its period ends, and a new duration lets the period end later than now. -/
def OnSchedule (l : Timeline n κ) : Event n κ → Prop
  | .tick => ∀ i, (l.sysTime.timer i).inUse = true →
      (i ∈ (sysTickHandler l.sysTime).elapsed ↔
        l.now + 1 = l.begun i + (l.sysTime.timer i).duration.toNat) ∧
      ∀ cb, (cb, i) ∈ (sysTickHandler l.sysTime).called ↔
        (l.sysTime.timer i).cb = some cb ∧
          l.now + 1 = l.begun i + (l.sysTime.timer i).duration.toNat
  | .updateTimer i ticks => (l.sysTime.timer i).inUse = true → l.now < l.begun i + ticks.toNat
  | _ => True

/-- No timer in use has its end below the next value of the tick counter; a new duration is longer
than what has elapsed of the period. -/
def Tame (s : SysTime n κ) : Event n κ → Prop
  | .tick => ∀ i, (s.timer i).inUse = true → s.nbTick + 1 ≤ (s.timer i).endTime
  | .updateTimer i ticks => (s.timer i).inUse = true →
      (s.timer i).duration - ((s.timer i).endTime - s.nbTick) < ticks
  | _ => True

instance (s : SysTime n κ) : (e : Event n κ) → Decidable (Tame s e)
  | .tick => inferInstanceAs (Decidable (∀ i, (s.timer i).inUse = true →
      s.nbTick + 1 ≤ (s.timer i).endTime))
  | .updateTimer i ticks => inferInstanceAs (Decidable ((s.timer i).inUse = true →
      (s.timer i).duration - ((s.timer i).endTime - s.nbTick) < ticks))
  | .registerTimer _ _ => isTrue trivial
  | .cancelTimer _ => isTrue trivial
  | .checkAndAckTimer _ => isTrue trivial

/-- The durations that are considered. -/
def ValidTicks (ticks : UInt32) : Prop := 1 ≤ ticks.toNat ∧ ticks.toNat < 2 ^ 31

def Valid : Event n κ → Prop
  | .registerTimer ticks _ => ValidTicks ticks
  | .updateTimer _ ticks => ValidTicks ticks
  | _ => True

/-- A timer whose period began at `begun` and ends after `now`. -/
structure Running (now begun : Nat) (t : SysTimeTimer κ) : Prop where
  valid : ValidTicks t.duration
  begun_le : begun ≤ now
  lt_end : now < begun + t.duration.toNat
  endTime : t.endTime.toNat = (begun + t.duration.toNat) % 2 ^ 32

structure Synchronous (l : Timeline n κ) : Prop where
  nbTick : l.sysTime.nbTick.toNat = l.now % 2 ^ 32
  running : ∀ i, (l.sysTime.timer i).inUse = true →
    Running l.now (l.begun i) (l.sysTime.timer i)

variable {l : Timeline n κ}

theorem mem_elapsed {s : SysTime n κ} {i : Fin n} :
    i ∈ (sysTickHandler s).elapsed ↔
      (s.timer i).inUse = true ∧ (s.timer i).endTime ≤ s.nbTick + 1 := by
  simp [sysTickHandler, expires]

theorem mem_called {s : SysTime n κ} {i : Fin n} {cb : κ} :
    (cb, i) ∈ (sysTickHandler s).called ↔
      i ∈ (sysTickHandler s).elapsed ∧ (s.timer i).cb = some cb := by
  constructor
  · intro h
    obtain ⟨j, hj, hcb⟩ := List.mem_filterMap.mp h
    obtain ⟨cb', hcb', heq⟩ := Option.map_eq_some_iff.mp hcb
    obtain ⟨rfl, rfl⟩ := Prod.mk.inj heq
    exact ⟨hj, hcb'⟩
  · rintro ⟨hi, hcb⟩
    exact List.mem_filterMap.mpr ⟨i, hi, by rw [hcb]; rfl⟩

theorem toNat_tick (h : Synchronous l) : (l.sysTime.nbTick + 1).toNat = (l.now + 1) % 2 ^ 32 := by
  have hnow := h.nbTick
  rw [UInt32.toNat_add, hnow]
  change (_ + 1) % _ = _
  omega

/-- The two values of the tick counter and of the end that are compared. -/
theorem endTime_le_iff (h : Synchronous l) {i : Fin n} (hi : (l.sysTime.timer i).inUse = true)
    (htame : l.sysTime.nbTick + 1 ≤ (l.sysTime.timer i).endTime) :
    (l.sysTime.timer i).endTime ≤ l.sysTime.nbTick + 1 ↔
      l.now + 1 = l.begun i + (l.sysTime.timer i).duration.toNat := by
  obtain ⟨⟨hpos, hlt⟩, hbegun, hend, hendTime⟩ := h.running i hi
  rw [UInt32.le_iff_toNat_le, toNat_tick h, hendTime] at htame ⊢
  omega

theorem endTime_of_period (h : Synchronous l) {i : Fin n}
    (hi : (l.sysTime.timer i).inUse = true)
    (hend : l.now + 1 = l.begun i + (l.sysTime.timer i).duration.toNat) :
    (l.sysTime.timer i).endTime = l.sysTime.nbTick + 1 := by
  apply UInt32.toNat_inj.mp
  rw [toNat_tick h, (h.running i hi).endTime, hend]

/-- The condition on the code is what is asked of the step, as long as all has gone well. -/
theorem onSchedule_iff_tame (h : Synchronous l) (e : Event n κ) :
    OnSchedule l e ↔ Tame l.sysTime e := by
  cases e with
  | tick =>
      constructor
      · intro hschedule i hi
        have hexpiry := (hschedule i hi).1
        rw [mem_elapsed] at hexpiry
        by_cases hend : l.now + 1 = l.begun i + (l.sysTime.timer i).duration.toNat
        · rw [endTime_of_period h hi hend]
          exact UInt32.le_refl _
        · have hlt : ¬(l.sysTime.timer i).endTime ≤ l.sysTime.nbTick + 1 :=
            fun hle => hend (hexpiry.mp ⟨hi, hle⟩)
          exact UInt32.le_of_lt (UInt32.not_le.mp hlt)
      · intro htame i hi
        have hexpiry : i ∈ (sysTickHandler l.sysTime).elapsed ↔
            l.now + 1 = l.begun i + (l.sysTime.timer i).duration.toNat := by
          rw [mem_elapsed, endTime_le_iff h hi (htame i hi)]
          exact and_iff_right hi
        refine ⟨hexpiry, ?_⟩
        intro cb
        rw [mem_called, hexpiry]
        exact and_comm
  | updateTimer i ticks =>
      refine forall_congr' fun hi => ?_
      obtain ⟨⟨hpos, hlt⟩, hbegun, hend, hendTime⟩ := h.running i hi
      have hnow := h.nbTick
      rw [UInt32.lt_iff_toNat_lt, UInt32.toNat_sub, UInt32.toNat_sub]
      omega
  | _ => exact Iff.rfl

theorem synchronous_start (n : Nat) (κ : Type*) (resolutionCpuTicks cpuTicksPerSec : UInt32) :
    Synchronous (start n κ resolutionCpuTicks cpuTicksPerSec) where
  nbTick := rfl
  running := by
    intro i hi
    cases hi

/-- A change of one timer. -/
theorem synchronous_setTimer (h : Synchronous l) (i : Fin n) {t : SysTimeTimer κ} {begun : Nat}
    (hrunning : t.inUse = true → Running l.now begun t) :
    Synchronous ⟨setTimer l.sysTime i t, l.now, Function.update l.begun i begun⟩ where
  nbTick := h.nbTick
  running := by
    intro j hj
    by_cases hji : j = i
    · subst hji
      simp only [setTimer, Function.update_self] at hj ⊢
      exact hrunning hj
    · simp only [setTimer, Function.update_of_ne hji] at hj ⊢
      exact h.running j hj

/-- A change of one timer in its period. -/
theorem synchronous_sameBegin (h : Synchronous l) (i : Fin n) {t : SysTimeTimer κ}
    (hrunning : t.inUse = true → Running l.now (l.begun i) t) :
    Synchronous ⟨setTimer l.sysTime i t, l.now, l.begun⟩ := by
  have hset := synchronous_setTimer h i hrunning
  rwa [Function.update_eq_self] at hset

theorem synchronous_tick (h : Synchronous l) (hschedule : OnSchedule l .tick) :
    Synchronous (step l .tick) where
  nbTick := toNat_tick h
  running := by
    intro i hi
    have huse : (l.sysTime.timer i).inUse = true := by
      simp only [step, sysTimeStep, sysTickHandler] at hi
      split_ifs at hi <;> exact hi
    obtain ⟨hvalid, hbegun, hend, hendTime⟩ := h.running i huse
    have hexpiry := (hschedule i huse).1
    have hpos := hvalid.1
    by_cases hnow : i ∈ (sysTickHandler l.sysTime).elapsed
    · have hexpires : expires (l.sysTime.nbTick + 1) (l.sysTime.timer i) = true := by
        simpa [expires] using mem_elapsed.mp hnow
      have hperiod := hexpiry.mp hnow
      simp only [step, sysTimeStep, if_pos hnow]
      simp only [sysTickHandler, if_pos hexpires]
      refine ⟨hvalid, le_rfl, by dsimp only; omega, ?_⟩
      dsimp only
      rw [UInt32.toNat_add, hendTime]
      omega
    · have hexpires : ¬expires (l.sysTime.nbTick + 1) (l.sysTime.timer i) = true := by
        intro hexpires
        exact hnow (mem_elapsed.mpr (by simpa [expires] using hexpires))
      have hperiod : ¬l.now + 1 = l.begun i + (l.sysTime.timer i).duration.toNat :=
        fun heq => hnow (hexpiry.mpr heq)
      simp only [step, sysTimeStep, if_neg hnow]
      simp only [sysTickHandler, if_neg hexpires]
      exact ⟨hvalid, by omega, by omega, hendTime⟩

theorem synchronous_step (h : Synchronous l) {e : Event n κ} (hvalid : Valid e)
    (hschedule : OnSchedule l e) : Synchronous (step l e) := by
  have hnow := h.nbTick
  cases e with
  | registerTimer ticks cb =>
      cases hfree : firstFree l.sysTime with
      | none =>
          simp only [step, sysTimeStep, sysTimeRegisterTimer, hfree]
          exact h
      | some i =>
          simp only [step, sysTimeStep, sysTimeRegisterTimer, hfree]
          obtain ⟨hpos, hlt⟩ := hvalid
          refine synchronous_setTimer h i fun _ => ⟨⟨hpos, hlt⟩, le_rfl, ?_, ?_⟩
          · dsimp only
            omega
          · dsimp only
            rw [UInt32.toNat_add, hnow]
            omega
  | cancelTimer i => exact synchronous_sameBegin h i nofun
  | updateTimer i ticks =>
      refine synchronous_sameBegin h i ?_
      intro hi
      obtain ⟨-, hbegun, hend, hendTime⟩ := h.running i hi
      obtain ⟨hpos, hlt⟩ := hvalid
      refine ⟨⟨hpos, hlt⟩, hbegun, hschedule hi, ?_⟩
      dsimp only
      rw [UInt32.toNat_sub, UInt32.toNat_sub, hendTime]
      have hduration := (l.sysTime.timer i).duration.toNat_lt
      omega
  | checkAndAckTimer i =>
      simp only [step, sysTimeStep, sysTimeCheckAndAckTimer]
      split_ifs
      · refine synchronous_sameBegin h i ?_
        intro hi
        obtain ⟨hticks, hbegun, hend, hendTime⟩ := h.running i hi
        exact ⟨hticks, hbegun, hend, hendTime⟩
      · exact h
  | tick => exact synchronous_tick h hschedule

/-- As long as the counter is far from its end, a tick is on schedule. -/
theorem tame_tick_of_lt (h : Synchronous l) (hnow : l.now < 2 ^ 31) : Tame l.sysTime .tick := by
  intro i hi
  obtain ⟨⟨hpos, hlt⟩, hbegun, hend, hendTime⟩ := h.running i hi
  rw [UInt32.le_iff_toNat_le, toNat_tick h, hendTime]
  omega

theorem runOk_onSchedule_iff (h : Synchronous l) {es : List (Event n κ)}
    (hvalid : ∀ e ∈ es, Valid e) :
    RunOk step OnSchedule l es ↔ RunOk sysTimeStep Tame l.sysTime es := by
  induction es generalizing l with
  | nil => exact Iff.rfl
  | cons e es ih =>
      have hrest : OnSchedule l e →
          (RunOk step OnSchedule (step l e) es ↔ RunOk sysTimeStep Tame (sysTimeStep l.sysTime e) es) :=
        fun hschedule => ih (synchronous_step h (hvalid e List.mem_cons_self) hschedule)
          fun e' he' => hvalid e' (List.mem_cons_of_mem e he')
      constructor
      · rintro ⟨hschedule, hrun⟩
        exact ⟨(onSchedule_iff_tame h e).mp hschedule, (hrest hschedule).mp hrun⟩
      · rintro ⟨htame, hrun⟩
        have hschedule := (onSchedule_iff_tame h e).mpr htame
        exact ⟨hschedule, (hrest hschedule).mpr hrun⟩

end

/-- Every expiry of a run is on schedule exactly when no tick finds an end below the counter and
no new duration is already over. -/
theorem timers_punctual_iff (n : Nat) (κ : Type*) (resolutionCpuTicks cpuTicksPerSec : UInt32)
    (es : List (Event n κ)) (hvalid : ∀ e ∈ es, Valid e) :
    RunOk step OnSchedule (start n κ resolutionCpuTicks cpuTicksPerSec) es ↔
      RunOk sysTimeStep Tame (sysTimeInit n κ resolutionCpuTicks cpuTicksPerSec) es :=
  runOk_onSchedule_iff (synchronous_start n κ resolutionCpuTicks cpuTicksPerSec) hvalid

theorem timers_punctual_two_periods :
    RunOk step OnSchedule (start 1 Unit 1 1)
      [.registerTimer 2 none, .tick, .tick, .updateTimer 0 1, .tick, .tick] :=
  (timers_punctual_iff 1 Unit 1 1 _ (by simp [Valid, ValidTicks])).mpr (by decide)

/-! ### A counter that wraps -/

section

variable {κ : Type*}

/-- No timer is in use. -/
structure Idle {n : Nat} (l : Timeline n κ) (k : Nat) : Prop where
  now : l.now = k
  nbTick : l.sysTime.nbTick.toNat = k % 2 ^ 32
  timer : ∀ i, (l.sysTime.timer i).inUse = false

theorem idle_ticks {n : Nat} {l : Timeline n κ} {now : Nat} (h : Idle l now) (k : Nat) :
    Idle (run step l (List.replicate k .tick)) (now + k) := by
  induction k generalizing l now with
  | zero => exact h
  | succ k ih =>
      have hnow := h.nbTick
      rw [List.replicate_succ, run_cons, ← Nat.add_assoc, Nat.add_right_comm]
      apply ih
      refine ⟨by simp only [step, h.now], ?_, ?_⟩
      · change (l.sysTime.nbTick + 1).toNat = _
        rw [UInt32.toNat_add, hnow]
        change (_ + 1) % _ = _
        omega
      · intro i
        simp only [step, sysTimeStep, sysTickHandler, expires, h.timer i, Bool.false_and,
          Bool.false_eq_true, if_false]

/-- A timer of ten ticks that is registered five ticks before the counter wraps. -/
theorem not_onSchedule_wrap {l : Timeline 1 κ} (h : Idle l (2 ^ 32 - 5)) :
    ¬RunOk step OnSchedule l [.registerTimer 10 none, .tick] := by
  rintro ⟨-, hschedule, -⟩
  have hfree : firstFree l.sysTime = some 0 := by
    simp [firstFree, List.finRange_succ, h.timer 0]
  have hnow := h.now
  have hnbTick : l.sysTime.nbTick = 4294967291 := UInt32.toNat_inj.mp h.nbTick
  have hexpiry := ((hschedule 0) (by
    simp [step, sysTimeStep, sysTimeRegisterTimer, hfree, setTimer])).1
  rw [mem_elapsed] at hexpiry
  simp [step, sysTimeStep, sysTimeRegisterTimer, hfree, setTimer, hnbTick, hnow] at hexpiry

end

/-- At the wrap a timer expires at once; and a duration that is cut below what has elapsed makes
a timer expire tick after tick. -/
theorem timers_not_punctual :
    ¬RunOk step OnSchedule (start 1 Unit 1 1)
        (List.replicate (2 ^ 32 - 5) .tick ++ [.registerTimer 10 none, .tick]) ∧
      (let s := run sysTimeStep (sysTimeInit 1 Unit 1 1)
          [.registerTimer 8 none, .tick, .tick, .tick, .tick, .tick, .tick, .updateTimer 0 2];
        (sysTickHandler s).elapsed = [0] ∧ (sysTickHandler (sysTickHandler s).sysTime).elapsed = [0]) := by
  constructor
  · intro hrun
    have hidle : Idle (start 1 Unit 1 1) 0 := ⟨rfl, rfl, fun _ => rfl⟩
    have hticks := idle_ticks hidle (2 ^ 32 - 5)
    rw [Nat.zero_add] at hticks
    exact not_onSchedule_wrap hticks (runOk_append.mp hrun).2
  · decide

end Paparazzi.McuPeriph.Timers
