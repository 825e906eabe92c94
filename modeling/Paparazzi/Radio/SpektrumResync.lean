import Mathlib
import Paparazzi.Radio.SpektrumBounds

/-!
The synchronisation of the Spektrum receivers: within how many frames of a transmitter the data
of the main receiver become available.
-/

namespace Paparazzi.Radio.Spektrum

open Paparazzi.Library.Machine

section

variable {signs : Nat → Int} {st : State} {e : Event} {events : List Event}

/-! ### Raising the flag -/

theorem raised_append (st : State) (es fs : List Event) :
    raised signs st (es ++ fs) =
      (raised signs st es || raised signs (run (step signs) st es) fs) := by
  induction es generalizing st with
  | nil => rfl
  | cons e es ih =>
      rw [List.cons_append, raised, ih, raised, run_cons, Bool.or_assoc]

/-! ### Between the bytes -/

/-- What stays while the main receiver gets no byte. -/
structure Kept (st st' : State) : Prop where
  reSync_eq : st'.primary.reSync = st.primary.reSync
  sync_eq : st'.primary.sync = st.primary.sync
  channelCnt_eq : st'.primary.channelCnt = st.primary.channelCnt
  frameCnt_eq : st'.primary.frameCnt = st.primary.frameCnt
  tmpExpFrames_eq : 2 ≤ st.primary.sync → st'.shared.tmpExpFrames = st.shared.tmpExpFrames

theorem Kept.refl (st : State) : Kept st st := ⟨rfl, rfl, rfl, rfl, fun _ => rfl⟩

theorem Kept.trans {a b c : State} (h : Kept a b) (h' : Kept b c) : Kept a c where
  reSync_eq := h'.reSync_eq.trans h.reSync_eq
  sync_eq := h'.sync_eq.trans h.sync_eq
  channelCnt_eq := h'.channelCnt_eq.trans h.channelCnt_eq
  frameCnt_eq := h'.frameCnt_eq.trans h.frameCnt_eq
  tmpExpFrames_eq hsync :=
    (h'.tmpExpFrames_eq (by rwa [h.sync_eq])).trans (h.tmpExpFrames_eq hsync)

/-- Only its own second byte makes the secondary receiver change what both share. -/
theorem shared_secondary {r : Receiver} (h : CountersOk r) (c : UInt8) (g : Shared) :
    (spektrumParser c true r g).2.1 = g ∨
      (r.reSync = false ∧ r.sync = 1 ∧ r.spektrumTimer ≠ 0 ∧
        (spektrumParser c true r g).2.1 = { g with tmpExpFrames := g.expectedFrames }) := by
  rcases parser_cases r h.sync_le with
    hreset | ⟨hresync, ⟨hsync, htimer⟩ | ⟨hsync, htimer⟩ | ⟨htimer, hsync | hsync | hsync⟩⟩
  · rw [parser_reset hreset]
    exact Or.inl rfl
  · rw [parser_first hresync hsync htimer]
    exact Or.inl rfl
  · rw [parser_timedOut hresync hsync htimer]
    exact Or.inl rfl
  · rw [parser_second hresync hsync htimer]
    exact Or.inr ⟨hresync, hsync, htimer, rfl⟩
  · rw [parser_high hresync hsync htimer]
    exact Or.inl rfl
  · by_cases hcnt : r.channelCnt + 1 < channelsPerFrame
    · rw [parser_low hresync hsync htimer hcnt]
      exact Or.inl rfl
    · rw [parser_last hresync hsync htimer (Nat.le_of_not_lt hcnt)]
      exact Or.inl rfl

theorem between_step (hok : StateOk st) (he : ∀ c, e ≠ .primary c) (hundisturbed : Undisturbed st e) :
    Kept st (step signs st e) ∧
      (step signs st e).primary.spektrumTimer =
        st.primary.spektrumTimer - ticks [e] ∧
      ((step signs st e).primary.rcAvailable = true → st.primary.rcAvailable = true) := by
  cases e with
  | primary c => exact absurd rfl (he c)
  | secondary c =>
      refine ⟨⟨rfl, rfl, rfl, rfl, fun hsync => ?_⟩, rfl, id⟩
      rw [step, stepAccesses]
      dsimp only
      rcases shared_secondary hok.secondary c st.shared with heq | ⟨hresync, hone, htimer, heq⟩
      · rw [heq]
      · rw [heq]
        exact hundisturbed hresync hone htimer hsync
  | tim6 => exact ⟨⟨rfl, rfl, rfl, rfl, fun _ => rfl⟩, rfl, id⟩
  | radioControlEvent =>
      rw [step, stepAccesses, radioControlEventImp]
      split_ifs with ha
      · dsimp only
        split_ifs <;> exact ⟨⟨rfl, rfl, rfl, rfl, fun _ => rfl⟩, rfl, by rintro ⟨⟩⟩
      · exact ⟨Kept.refl st, rfl, id⟩

theorem between_run (hok : StateOk st) (hbetween : Between events)
    (hrun : RunOk (step signs) Undisturbed st events) :
    Kept st (run (step signs) st events) ∧
      (run (step signs) st events).primary.spektrumTimer =
        st.primary.spektrumTimer - ticks events ∧
      raised signs st events = false := by
  induction events generalizing st with
  | nil => exact ⟨Kept.refl st, rfl, rfl⟩
  | cons e events ih =>
      obtain ⟨hundisturbed, hrest⟩ := hrun
      have he : ∀ c, e ≠ .primary c := fun c heq => hbetween c (heq ▸ List.mem_cons_self)
      obtain ⟨hkept, htimer, hrc⟩ := @between_step signs st e hok he hundisturbed
      obtain ⟨hkept', htimer', hraised⟩ := ih (stateOk_step hok e)
        (fun c hc => hbetween c (List.mem_cons_of_mem e hc)) hrest
      refine ⟨hkept.trans hkept', ?_, ?_⟩
      · rw [run_cons, htimer', htimer, ticks, ticks, ticks, Nat.sub_sub, ← List.count_append]
        rfl
      · rw [raised, hraised, Bool.or_false]
        cases hnow : st.primary.rcAvailable with
        | true => rfl
        | false =>
            rw [hnow] at hrc
            exact Bool.eq_false_iff.mpr fun h => Bool.false_ne_true (hrc h)

/-! ### A byte of the main receiver -/

/-- A byte and what happens behind it. -/
def byteEvents (b : UInt8 × List Event) : List Event := .primary b.1 :: b.2

theorem frameEvents_cons (b : UInt8 × List Event) (bytes : List (UInt8 × List Event)) :
    frameEvents (b :: bytes) = byteEvents b ++ frameEvents bytes := rfl

/-- What is known of a byte with what happens behind it. -/
theorem byte_run {b : UInt8 × List Event} (hok : StateOk st) (hbetween : Between b.2)
    (hrun : RunOk (step signs) Undisturbed st (byteEvents b)) :
    Kept (step signs st (.primary b.1)) (run (step signs) st (byteEvents b)) ∧
      (run (step signs) st (byteEvents b)).primary.spektrumTimer =
        (step signs st (.primary b.1)).primary.spektrumTimer - ticks b.2 ∧
      raised signs st (byteEvents b) =
        (!st.primary.rcAvailable && (step signs st (.primary b.1)).primary.rcAvailable) := by
  obtain ⟨hkept, htimer, hraised⟩ := between_run (stateOk_step hok _) hbetween hrun.2
  refine ⟨hkept, htimer, ?_⟩
  rw [byteEvents, raised, hraised, Bool.or_false]

/-! ### A frame that is lost -/

/-- The bytes up to the end of the frame that the parser is in. -/
def remaining (r : Receiver) : Nat :=
  if r.sync = 1 then 15 else if r.sync = 2 then 14 - 2 * r.channelCnt else 13 - 2 * r.channelCnt

/-- The parser waits for a pause, or it will, before the `k` bytes up to the next one are over. -/
def Lost (k : Nat) (r : Receiver) : Prop :=
  r.reSync = true ∨ (r.sync = 0 ∧ r.spektrumTimer ≠ 0) ∨ (r.sync ≠ 0 ∧ remaining r < k)

/-- The next byte is taken as the first one of a frame. -/
structure Ready (frameCnt : Nat) (r : Receiver) : Prop where
  reSync_eq : r.reSync = false
  sync_eq : r.sync = 0
  spektrumTimer_eq : r.spektrumTimer = 0
  frameCnt_eq : r.frameCnt = frameCnt

/-- A byte has been refused. -/
structure Waiting (r : Receiver) : Prop where
  reSync_eq : r.reSync = false
  sync_eq : r.sync = 0
  spektrumTimer_eq : r.spektrumTimer = minFrameSpace
  frameCnt_eq : r.frameCnt = 0

theorem waiting_reset (r : Receiver) : Waiting r.reset := ⟨rfl, rfl, rfl, rfl⟩

theorem remaining_pos {r : Receiver} (h : CountersOk r) : 0 < remaining r := by
  have hcnt := h.channelCnt_lt
  simp only [channelsPerFrame] at hcnt
  rw [remaining]
  split_ifs <;> omega

theorem remaining_congr {r r' : Receiver} (hsync : r'.sync = r.sync)
    (hcnt : r'.channelCnt = r.channelCnt) : remaining r' = remaining r := by
  rw [remaining, remaining, hsync, hcnt]

theorem lost_byte {r : Receiver} {g : Shared} {c : UInt8} {k : Nat} (hok : CountersOk r)
    (h : Lost (k + 1) r) :
    Waiting (spektrumParser c false r g).1 ∨
      (k ≠ 0 ∧ ((spektrumParser c false r g).1.reSync = true ∨
        ((spektrumParser c false r g).1.sync = 0 ∧
          (spektrumParser c false r g).1.spektrumTimer = minFrameSpace) ∨
        ((spektrumParser c false r g).1.sync ≠ 0 ∧
          remaining (spektrumParser c false r g).1 < k))) := by
  have hpos := remaining_pos hok
  rcases parser_cases r hok.sync_le with
    hreset | ⟨hresync, ⟨hsync, htimer⟩ | ⟨hsync, htimer⟩ | ⟨htimer, hsync⟩⟩
  · rw [parser_reset hreset]
    exact Or.inl (waiting_reset r)
  · exfalso
    rcases h with h | ⟨-, h⟩ | ⟨h, -⟩
    · rw [hresync] at h
      cases h
    · exact h htimer
    · exact h hsync
  · have hlt : remaining r < k + 1 := by
      rcases h with h | ⟨h, -⟩ | ⟨-, h⟩
      · rw [hresync] at h
        cases h
      · exact absurd h hsync
      · exact h
    rw [parser_timedOut hresync hsync htimer]
    exact Or.inr ⟨by omega, Or.inl rfl⟩
  · have hlt : remaining r < k + 1 := by
      rcases h with h | ⟨h, -⟩ | ⟨-, h⟩
      · rw [hresync] at h
        cases h
      · omega
      · exact h
    refine Or.inr ⟨by omega, ?_⟩
    rcases hsync with hsync | hsync | hsync
    · have hzero := hok.channelCnt_eq_zero (by omega)
      rw [parser_second hresync hsync htimer]
      refine Or.inr (Or.inr ⟨by simp, ?_⟩)
      rw [remaining, hsync, if_pos rfl] at hlt
      simp [remaining, hzero]
      omega
    · rw [parser_high hresync hsync htimer]
      refine Or.inr (Or.inr ⟨by simp, ?_⟩)
      have hcnt := hok.channelCnt_lt
      simp only [channelsPerFrame] at hcnt
      simp [remaining, hsync] at hlt ⊢
      omega
    · by_cases hcnt : r.channelCnt + 1 < channelsPerFrame
      · rw [parser_low hresync hsync htimer hcnt]
        refine Or.inr (Or.inr ⟨by simp [lowByte], ?_⟩)
        simp only [channelsPerFrame] at hcnt
        simp [remaining, hsync, lowByte] at hlt ⊢
        omega
      · rw [parser_last hresync hsync htimer (Nat.le_of_not_lt hcnt)]
        exact Or.inr (Or.inl ⟨rfl, rfl⟩)

/-- After a frame that is lost the parser is ready for the next one. -/
theorem ready_of_lost {bytes : List (UInt8 × List Event)} (hok : StateOk st) (hne : bytes ≠ [])
    (htimed : WellTimed bytes) (hrun : RunOk (step signs) Undisturbed st (frameEvents bytes))
    (h : Lost bytes.length st.primary) :
    Ready 0 (run (step signs) st (frameEvents bytes)).primary := by
  induction bytes generalizing st with
  | nil => exact absurd rfl hne
  | cons b bytes ih =>
      rw [frameEvents_cons, runOk_append] at hrun
      obtain ⟨hbyteRun, hrestRun⟩ := hrun
      rw [frameEvents_cons, run_append]
      have hbyte : Waiting (step signs st (.primary b.1)).primary ∨ _ :=
        @lost_byte st.primary st.shared b.1 bytes.length hok.primary h
      cases bytes with
      | nil =>
          obtain ⟨hbetween, hpause⟩ := htimed
          obtain ⟨hkept, htimer, -⟩ := byte_run hok hbetween hbyteRun
          rcases hbyte with hwaiting | ⟨hlen, -⟩
          · refine ⟨hkept.reSync_eq.trans hwaiting.reSync_eq, hkept.sync_eq.trans hwaiting.sync_eq,
              ?_, hkept.frameCnt_eq.trans hwaiting.frameCnt_eq⟩
            change (run (step signs) st (byteEvents b)).primary.spektrumTimer = 0
            rw [htimer, hwaiting.spektrumTimer_eq]
            omega
          · exact absurd rfl hlen
      | cons b' bytes =>
          obtain ⟨hbetween, hspace, htimed⟩ := htimed
          obtain ⟨hkept, htimer, -⟩ := byte_run hok hbetween hbyteRun
          refine ih (stateOk_run hok _) (List.cons_ne_nil _ _) htimed hrestRun ?_
          simp only [maxByteSpace] at hspace
          have hwait : (step signs st (.primary b.1)).primary.sync = 0 →
              (step signs st (.primary b.1)).primary.spektrumTimer = minFrameSpace →
              Lost (b' :: bytes).length (run (step signs) st (byteEvents b)).primary := by
            intro hsync htime
            refine Or.inr (Or.inl ⟨hkept.sync_eq.trans hsync, ?_⟩)
            rw [htimer, htime]
            simp only [minFrameSpace]
            omega
          rcases hbyte with hwaiting | ⟨-, hresync | ⟨hsync, htime⟩ | ⟨hsync, hlt⟩⟩
          · exact hwait hwaiting.sync_eq hwaiting.spektrumTimer_eq
          · exact Or.inl (hkept.reSync_eq.trans hresync)
          · exact hwait hsync htime
          · refine Or.inr (Or.inr ⟨?_, ?_⟩)
            · rw [hkept.sync_eq]
              exact hsync
            · rw [remaining_congr hkept.sync_eq hkept.channelCnt_eq]
              exact hlt

/-! ### A frame that is read -/

/-- The main receiver has read `n` bytes of a frame. -/
structure InFrame (expFrames frameCnt n : Nat) (st : State) : Prop where
  reSync_eq : st.primary.reSync = false
  spektrumTimer_ne : st.primary.spektrumTimer ≠ 0
  sync_eq : st.primary.sync = if n = 1 then 1 else 2 + n % 2
  channelCnt_eq : st.primary.channelCnt = (n - 2) / 2
  frameCnt_eq : st.primary.frameCnt = frameCnt
  tmpExpFrames_eq : 2 ≤ n → st.shared.tmpExpFrames = expFrames

/-- `InFrame` behind what happens after a byte. -/
theorem InFrame.kept {expFrames frameCnt n : Nat} {st st' : State}
    (h : InFrame expFrames frameCnt n st) (hkept : Kept st st')
    (htimer : st'.primary.spektrumTimer ≠ 0) : InFrame expFrames frameCnt n st' where
  reSync_eq := hkept.reSync_eq.trans h.reSync_eq
  spektrumTimer_ne := htimer
  sync_eq := hkept.sync_eq.trans h.sync_eq
  channelCnt_eq := hkept.channelCnt_eq.trans h.channelCnt_eq
  frameCnt_eq := hkept.frameCnt_eq.trans h.frameCnt_eq
  tmpExpFrames_eq hn := by
    refine (hkept.tmpExpFrames_eq ?_).trans (h.tmpExpFrames_eq hn)
    rw [h.sync_eq]
    split_ifs <;> omega

/-- The counter of the frames behind a frame. -/
def nextFrameCnt (expFrames frameCnt : Nat) : Nat :=
  if (frameCnt + 1) % 2 ^ 8 = expFrames then 0 else (frameCnt + 1) % 2 ^ 8

section

variable {expFrames frameCnt : Nat}

theorem first_byte (h : Ready frameCnt st.primary) (hok : CountersOk st.primary) (c : UInt8) :
    InFrame expFrames frameCnt 1 (step signs st (.primary c)) ∧
      (step signs st (.primary c)).primary.spektrumTimer = maxByteSpace ∧
      (step signs st (.primary c)).primary.rcAvailable = st.primary.rcAvailable := by
  obtain ⟨hresync, hsync, htimer, hframe⟩ := h
  have hzero := hok.channelCnt_eq_zero (by omega)
  simp only [step, stepAccesses, parser_first hresync hsync htimer]
  exact ⟨⟨hresync, (by decide : maxByteSpace ≠ 0), rfl, hzero, hframe,
    fun h => absurd h (by decide)⟩, trivial, trivial⟩

theorem inner_byte {n : Nat} (h : InFrame expFrames frameCnt n st) (hn : 1 ≤ n) (hlt : n < 15)
    (c : UInt8) (hinfo : n = 1 → c.toNat % 4 = expFrames) :
    InFrame expFrames frameCnt (n + 1) (step signs st (.primary c)) ∧
      (step signs st (.primary c)).primary.spektrumTimer = maxByteSpace ∧
      ((step signs st (.primary c)).primary.rcAvailable = true →
        st.primary.rcAvailable = true) := by
  obtain ⟨hresync, htimer, hsync, hcnt, hframe, htmp⟩ := h
  by_cases hone : n = 1
  · subst hone
    simp only [step, stepAccesses, parser_second hresync hsync htimer]
    exact ⟨⟨hresync, (by decide : maxByteSpace ≠ 0), rfl, hcnt, hframe, fun _ => hinfo rfl⟩,
      trivial, id⟩
  · rw [if_neg hone] at hsync
    rcases Nat.mod_two_eq_zero_or_one n with hmod | hmod
    · simp only [step, stepAccesses,
        @parser_high st.primary st.shared c false hresync (by omega) htimer]
      refine ⟨⟨hresync, (by decide : maxByteSpace ≠ 0), ?_, ?_, hframe,
        fun _ => htmp (by omega)⟩, trivial, id⟩
      · change 3 = if n + 1 = 1 then 1 else 2 + (n + 1) % 2
        rw [if_neg (by omega)]
        omega
      · change st.primary.channelCnt = (n + 1 - 2) / 2
        omega
    · have hroom : st.primary.channelCnt + 1 < channelsPerFrame := by
        simp only [channelsPerFrame]
        omega
      simp only [step, stepAccesses,
        @parser_low st.primary st.shared c false hresync (by omega) htimer hroom]
      refine ⟨⟨hresync, (by decide : maxByteSpace ≠ 0), ?_, ?_, hframe,
        fun _ => htmp (by omega)⟩, rfl, by rintro ⟨⟩⟩
      · change 2 = if n + 1 = 1 then 1 else 2 + (n + 1) % 2
        rw [if_neg (by omega)]
        omega
      · change st.primary.channelCnt + 1 = (n + 1 - 2) / 2
        omega

theorem last_byte (h : InFrame expFrames frameCnt 15 st) (c : UInt8) :
    (step signs st (.primary c)).primary.reSync = false ∧
      (step signs st (.primary c)).primary.sync = 0 ∧
      (step signs st (.primary c)).primary.spektrumTimer = minFrameSpace ∧
      (step signs st (.primary c)).primary.frameCnt = nextFrameCnt expFrames frameCnt ∧
      ((step signs st (.primary c)).primary.rcAvailable = true ↔
        (frameCnt + 1) % 2 ^ 8 = expFrames) := by
  obtain ⟨hresync, htimer, hsync, hcnt, hframe, htmp⟩ := h
  have hfull : channelsPerFrame ≤ st.primary.channelCnt + 1 := by
    simp only [channelsPerFrame]
    omega
  simp only [step, stepAccesses,
    @parser_last st.primary st.shared c false hresync hsync htimer hfull]
  refine ⟨hresync, rfl, rfl, ?_, ?_⟩
  · simp only [wholeFrame, lowByte, hframe, htmp (by decide), nextFrameCnt]
  · simp only [wholeFrame, lowByte, hframe, htmp (by decide)]
    split_ifs with hcomplete
    · exact iff_of_true rfl hcomplete
    · exact iff_of_false id hcomplete

/-- The rest of a frame behind its first `n` bytes. -/
theorem ready_of_inFrame {n : Nat} {bytes : List (UInt8 × List Event)} (hok : StateOk st)
    (h : InFrame expFrames frameCnt n st) (hn : 1 ≤ n) (hlength : bytes.length + n = 16)
    (hne : bytes ≠ []) (htimed : WellTimed bytes)
    (hinfo : n = 1 → ∀ b ∈ bytes.head?, b.1.toNat % 4 = expFrames)
    (hrun : RunOk (step signs) Undisturbed st (frameEvents bytes)) :
    Ready (nextFrameCnt expFrames frameCnt) (run (step signs) st (frameEvents bytes)).primary ∧
      (raised signs st (frameEvents bytes) = true ↔ (frameCnt + 1) % 2 ^ 8 = expFrames) := by
  induction bytes generalizing st n with
  | nil => exact absurd rfl hne
  | cons b bytes ih =>
      rw [frameEvents_cons, runOk_append] at hrun
      obtain ⟨hbyteRun, hrestRun⟩ := hrun
      rw [frameEvents_cons, run_append, raised_append]
      rw [List.length_cons] at hlength
      cases bytes with
      | nil =>
          obtain ⟨hbetween, hpause⟩ := htimed
          obtain ⟨hkept, htimer, hraised⟩ := byte_run hok hbetween hbyteRun
          obtain rfl : n = 15 := by
            rw [List.length_nil] at hlength
            omega
          obtain ⟨hresync, hsync, htime, hframe, hrc⟩ := @last_byte signs st _ _ h b.1
          refine ⟨⟨hkept.reSync_eq.trans hresync, hkept.sync_eq.trans hsync, ?_,
            hkept.frameCnt_eq.trans hframe⟩, ?_⟩
          · change (run (step signs) st (byteEvents b)).primary.spektrumTimer = 0
            rw [htimer, htime]
            omega
          · have hoff : st.primary.rcAvailable = false := by
              refine hok.primary.rcAvailable_eq_false ?_
              rw [h.channelCnt_eq]
              decide
            change (raised signs st (byteEvents b) || false) = true ↔ _
            rw [Bool.or_false, hraised, hoff, Bool.not_false, Bool.true_and]
            exact hrc
      | cons b' bytes =>
          obtain ⟨hbetween, hspace, htimed⟩ := htimed
          obtain ⟨hkept, htimer, hraised⟩ := byte_run hok hbetween hbyteRun
          rw [List.length_cons] at hlength
          obtain ⟨hin, htime, hrc⟩ := @inner_byte signs st _ _ n h hn (by omega) b.1
            fun hone => hinfo hone b rfl
          have hin' := hin.kept hkept (by
            rw [htimer, htime]
            omega)
          obtain ⟨hready, hiff⟩ := ih (stateOk_run hok _) hin' (by omega)
            (by rw [List.length_cons]; omega) (List.cons_ne_nil _ _) htimed (by omega) hrestRun
          refine ⟨hready, ?_⟩
          have hquiet : raised signs st (byteEvents b) = false := by
            rw [hraised]
            cases hnow : st.primary.rcAvailable with
            | true => rfl
            | false =>
                rw [hnow] at hrc
                exact Bool.eq_false_iff.mpr fun h => Bool.false_ne_true (hrc h)
          rw [hquiet, Bool.false_or]
          exact hiff

/-- A frame is read where the parser is ready for it. -/
theorem ready_frame {encType : Nat} {bytes : List (UInt8 × List Event)} (hok : StateOk st)
    (h : Ready frameCnt st.primary) (hgood : GoodFrame encType expFrames bytes)
    (hrun : RunOk (step signs) Undisturbed st (frameEvents bytes)) :
    Ready (nextFrameCnt expFrames frameCnt) (run (step signs) st (frameEvents bytes)).primary ∧
      (raised signs st (frameEvents bytes) = true ↔ (frameCnt + 1) % 2 ^ 8 = expFrames) := by
  obtain ⟨hlength, htimed, hinfo⟩ := hgood
  match bytes, hlength with
  | b :: b' :: bytes, hlength =>
      rw [frameEvents_cons, runOk_append] at hrun
      obtain ⟨hbyteRun, hrestRun⟩ := hrun
      obtain ⟨hbetween, hspace, htimed⟩ := htimed
      obtain ⟨hkept, htimer, hraised⟩ := byte_run hok hbetween hbyteRun
      obtain ⟨hin, htime, hrc⟩ := @first_byte signs st expFrames _ h hok.primary b.1
      have hin' := hin.kept hkept (by
        rw [htimer, htime]
        omega)
      obtain ⟨hready, hiff⟩ := ready_of_inFrame (stateOk_run hok _) hin' (Nat.le_refl 1)
        (by simpa using hlength) (List.cons_ne_nil _ _) htimed
        (fun _ x hx => by
          cases hx
          exact (hinfo b' rfl).2) hrestRun
      rw [frameEvents_cons, run_append, raised_append]
      refine ⟨hready, ?_⟩
      have hquiet : raised signs st (byteEvents b) = false := by
        rw [hraised, hrc]
        cases st.primary.rcAvailable <;> rfl
      rw [hquiet, Bool.false_or]
      exact hiff

/-! ### Frames -/

/-- The events of frames that come one after the other. -/
def framesEvents (frames : List (List (UInt8 × List Event))) : List Event :=
  frames.flatMap frameEvents

/-- The flag is raised by the frame that makes the counter equal, which wraps. -/
theorem raised_of_ready {encType : Nat} {frames : List (List (UInt8 × List Event))}
    (hok : StateOk st) (h : Ready frameCnt st.primary)
    (hgood : ∀ bytes ∈ frames, GoodFrame encType expFrames bytes)
    (hrun : RunOk (step signs) Undisturbed st (framesEvents frames)) :
    raised signs st (framesEvents frames) = true ↔
      ∃ k, 1 ≤ k ∧ k ≤ frames.length ∧ (frameCnt + k) % 2 ^ 8 = expFrames := by
  induction frames generalizing st frameCnt with
  | nil =>
      refine iff_of_false Bool.false_ne_true ?_
      rintro ⟨k, hlo, hhi, -⟩
      rw [List.length_nil] at hhi
      omega
  | cons bytes frames ih =>
      obtain ⟨hframe, hframes⟩ := List.forall_mem_cons.mp hgood
      rw [framesEvents, List.flatMap_cons, runOk_append] at hrun
      obtain ⟨hframeRun, hrestRun⟩ := hrun
      obtain ⟨hready, hiff⟩ := ready_frame hok h hframe hframeRun
      rw [framesEvents, List.flatMap_cons, raised_append, Bool.or_eq_true, hiff]
      have hrest := ih (stateOk_run hok _) hready hframes hrestRun
      rw [framesEvents] at hrest
      rw [hrest, nextFrameCnt]
      by_cases hcomplete : (frameCnt + 1) % 2 ^ 8 = expFrames
      · exact iff_of_true (Or.inl hcomplete) ⟨1, Nat.le_refl 1, by simp, hcomplete⟩
      · rw [if_neg hcomplete, or_iff_right hcomplete]
        constructor
        · rintro ⟨k, hlo, hhi, heq⟩
          exact ⟨k + 1, by omega, by simpa using hhi, by omega⟩
        · rintro ⟨k, hlo, hhi, heq⟩
          obtain rfl | hne := eq_or_ne k 1
          · exact absurd heq hcomplete
          · rw [List.length_cons] at hhi
            exact ⟨k - 1, by omega, by omega, by omega⟩

/-- Behind any run the data become available exactly when the next frame does not meet a counter
that is too high. -/
theorem raised_iff {encType : Nat} {frames : List (List (UInt8 × List Event))} (hok : StateOk st)
    (hexp : expFrames = 1 ∨ expFrames = 2) (hlength : frames.length = 2 * expFrames + 1)
    (hgood : ∀ bytes ∈ frames, GoodFrame encType expFrames bytes)
    (hrun : RunOk (step signs) Undisturbed st (framesEvents frames)) :
    raised signs st (framesEvents frames) = true ↔ Resynchronises expFrames st.primary := by
  by_cases hready : st.primary.reSync = false ∧ st.primary.sync = 0 ∧
      st.primary.spektrumTimer = 0
  · obtain ⟨hresync, hsync, htimer⟩ := hready
    have hcnt := hok.primary.frameCnt_lt
    rw [raised_of_ready hok ⟨hresync, hsync, htimer, rfl⟩ hgood hrun, hlength, Resynchronises,
      hresync, hsync, htimer]
    constructor
    · rintro ⟨k, hlo, hhi, heq⟩
      omega
    · rintro (h | h | h | h | h)
      · cases h
      · exact absurd rfl h
      · exact absurd rfl h
      · exact ⟨expFrames - st.primary.frameCnt, by omega, by omega, by omega⟩
      · exact ⟨256 + expFrames - st.primary.frameCnt, by omega, by omega, by omega⟩
  · have hlost : Lost 16 st.primary := by
      rw [Lost]
      cases hresync : st.primary.reSync with
      | true => exact Or.inl rfl
      | false =>
          refine Or.inr ?_
          obtain hsync | hsync := eq_or_ne st.primary.sync 0
          · exact Or.inl ⟨hsync, fun htimer => hready ⟨hresync, hsync, htimer⟩⟩
          · refine Or.inr ⟨hsync, ?_⟩
            rw [remaining]
            split_ifs <;> omega
    have hright : Resynchronises expFrames st.primary := by
      rw [Resynchronises]
      cases hresync : st.primary.reSync with
      | true => exact Or.inl rfl
      | false =>
          obtain hsync | hsync := eq_or_ne st.primary.sync 0
          · exact Or.inr (Or.inr (Or.inl fun htimer => hready ⟨hresync, hsync, htimer⟩))
          · exact Or.inr (Or.inl hsync)
    refine iff_of_true ?_ hright
    cases frames with
    | nil =>
        rw [List.length_nil] at hlength
        omega
    | cons bytes frames =>
        obtain ⟨hframe, hframes⟩ := List.forall_mem_cons.mp hgood
        rw [framesEvents, List.flatMap_cons, runOk_append] at hrun
        obtain ⟨hframeRun, hrestRun⟩ := hrun
        have hne : bytes ≠ [] := by
          rintro rfl
          exact absurd hframe.length_eq (by decide)
        have hready := ready_of_lost hok hne hframe.wellTimed hframeRun
          (by rwa [hframe.length_eq])
        have hrest := raised_of_ready (stateOk_run hok _) hready hframes hrestRun
        rw [framesEvents, List.flatMap_cons, raised_append, Bool.or_eq_true]
        refine Or.inr (hrest.mpr ⟨expFrames, by omega, ?_, by omega⟩)
        rw [List.length_cons] at hlength
        omega

/-- The two receivers index within the arrays exactly in the runs that decode decodable data only,
and behind any run the frames of a transmitter make the data of the main receiver available exactly
when its first byte resynchronises. -/
theorem receivers_ok_iff (signs : Nat → Int) :
    (∀ events, InBounds signs events ↔ RunOk (step signs) EventOk initial events) ∧
      ∀ past encType expFrames frames, (expFrames = 1 ∨ expFrames = 2) →
        frames.length = 2 * expFrames + 1 →
        (∀ bytes ∈ frames, GoodFrame encType expFrames bytes) →
        RunOk (step signs) Undisturbed (run (step signs) initial past) (framesEvents frames) →
        (raised signs (run (step signs) initial past) (framesEvents frames) = true ↔
          Resynchronises expFrames (run (step signs) initial past).primary) :=
  ⟨inBounds_iff signs, fun past _ _ _ hexp hlength hgood hrun =>
    raised_iff (stateOk_run stateOk_initial past) hexp hlength hgood hrun⟩

end

end

/-! ### A transmitter behind another one -/

theorem undisturbed_of_no_secondary {signs : Nat → Int} {events : List Event}
    (h : ∀ c, Event.secondary c ∉ events) (st : State) :
    RunOk (step signs) Undisturbed st events := by
  induction events generalizing st with
  | nil => trivial
  | cons e events ih =>
      refine ⟨?_, ih (fun c hc => h c (List.mem_cons_of_mem e hc)) _⟩
      cases e with
      | secondary c => exact absurd List.mem_cons_self (h c)
      | _ => trivial

/-- A frame whose channels are all zero. -/
def zeroFrame (info : UInt8) : List (UInt8 × List Event) :=
  (0, []) :: (info, []) :: (List.replicate 13 (0, []) ++ [(0, List.replicate 70 .tim6)])

theorem wellTimed_pause (n : Nat) :
    WellTimed (List.replicate n (0, []) ++ [(0, List.replicate 70 .tim6)]) := by
  induction n with
  | zero =>
      refine ⟨fun c hc => ?_, by decide⟩
      cases List.eq_of_mem_replicate hc
  | succ n ih =>
      cases n with
      | zero => exact ⟨nofun, by decide, ih⟩
      | succ n => exact ⟨nofun, by decide, ih⟩

theorem goodFrame_zeroFrame (info : UInt8) :
    GoodFrame (info.toNat / 0x10 % 2) (info.toNat % 4) (zeroFrame info) where
  length_eq := rfl
  wellTimed := ⟨nofun, by decide, nofun, (by decide : 0 < 3), wellTimed_pause 13⟩
  info b hb := by
    cases hb
    exact ⟨rfl, rfl⟩

def threeFrames : List (List (UInt8 × List Event)) := List.replicate 3 (zeroFrame 1)

theorem no_secondary_threeFrames (c : UInt8) : Event.secondary c ∉ framesEvents threeFrames := by
  have hall : ∀ e ∈ framesEvents threeFrames, e = .tim6 ∨ e = .primary 0 ∨ e = .primary 1 := by
    decide +kernel
  intro hmem
  obtain h | h | h := hall _ hmem <;> cases h

/-- The first transmitter after power on. -/
theorem raised_at_start :
    raised (fun _ => 1) (run (step fun _ => 1) initial []) (framesEvents threeFrames) = true :=
  ((receivers_ok_iff fun _ => 1).2 [] 0 1 threeFrames (Or.inl rfl) rfl
    (fun _ hbytes => List.eq_of_mem_replicate hbytes ▸ goodFrame_zeroFrame 1)
    (undisturbed_of_no_secondary no_secondary_threeFrames _)).mpr (Or.inl rfl)

/-- A frame of a transmitter with two frames, which is then replaced by one with one frame. -/
def oneOfTwo : List Event :=
  .primary 0 :: (List.replicate 70 .tim6 ++ frameEvents (zeroFrame 2))

theorem not_raised_after_oneOfTwo :
    (∀ bytes ∈ threeFrames, GoodFrame 0 1 bytes) ∧ threeFrames.length = 2 * 1 + 1 ∧
      raised (fun _ => 1) (run (step fun _ => 1) initial oneOfTwo) (framesEvents threeFrames) =
        false :=
  ⟨fun _ hbytes => List.eq_of_mem_replicate hbytes ▸ goodFrame_zeroFrame 1, rfl,
    by decide +kernel⟩

end Paparazzi.Radio.Spektrum
