import Mathlib
import Paparazzi.Radio.Spektrum

/-!
The indices of the Spektrum receivers: the parser stays in its array, and the decoding exactly when
the data are those of at most two frames with channels that the aircraft has.
-/

namespace Paparazzi.Radio.Spektrum

open Paparazzi.Library.Machine

/-! ### The branches of the parser -/

section

variable {r : Receiver} {g : Shared} {c : UInt8} {secondary : Bool}

/-- The synchronisation starts again. -/
def Receiver.reset (r : Receiver) : Receiver :=
  { r with
    reSync := false
    spektrumTimer := minFrameSpace
    sync := 0
    channelCnt := 0
    frameCnt := 0
    secondFrame := 0 }

theorem parser_reset (h : r.reSync = true ∨ (r.sync = 0 ∧ r.spektrumTimer ≠ 0)) :
    spektrumParser c secondary r g = (r.reset, g, []) :=
  if_pos h

theorem parser_first (hresync : r.reSync = false) (hsync : r.sync = 0)
    (htimer : r.spektrumTimer = 0) : spektrumParser c secondary r g =
      ({ r with
          lostFrameCnt := if secondary then c.toNat * 2 ^ 8 else c.toNat
          sync := 1
          spektrumTimer := maxByteSpace }, g, []) := by
  simp [spektrumParser, hresync, hsync, htimer]

theorem parser_timedOut (hresync : r.reSync = false) (hsync : r.sync ≠ 0)
    (htimer : r.spektrumTimer = 0) : spektrumParser c secondary r g =
      ({ r with reSync := true, spektrumTimer := minFrameSpace }, g, []) := by
  simp [spektrumParser, hresync, hsync, htimer]

theorem parser_second (hresync : r.reSync = false) (hsync : r.sync = 1)
    (htimer : r.spektrumTimer ≠ 0) : spektrumParser c secondary r g =
      ({ r with
          sync := 2
          spektrumTimer := maxByteSpace
          lostFrameCnt :=
            if secondary then (r.lostFrameCnt + c.toNat) % 2 ^ 16 else r.lostFrameCnt },
        if secondary then { g with tmpExpFrames := g.expectedFrames }
        else { g with tmpEncType := c.toNat / 0x10 % 2, tmpExpFrames := c.toNat % 4 }, []) := by
  cases secondary with
  | false => simp [spektrumParser, hresync, hsync, htimer]
  | true => simp [spektrumParser, hresync, hsync, htimer]

theorem parser_high (hresync : r.reSync = false) (hsync : r.sync = 2)
    (htimer : r.spektrumTimer ≠ 0) : spektrumParser c secondary r g =
      ({ r with
          highByte := c
          secondFrame :=
            if r.channelCnt = 0 then if c.toNat ≥ 0x80 then 1 else 0 else r.secondFrame
          sync := 3
          spektrumTimer := maxByteSpace }, g, []) := by
  simp [spektrumParser, hresync, hsync, htimer]

theorem parser_low (hresync : r.reSync = false) (hsync : r.sync = 3)
    (htimer : r.spektrumTimer ≠ 0) (hcnt : r.channelCnt + 1 < channelsPerFrame) :
    spektrumParser c secondary r g = ((lowByte c r).1, g, (lowByte c r).2) := by
  have hlt : ¬(lowByte c r).1.channelCnt ≥ channelsPerFrame := Nat.not_le.mpr hcnt
  simp [spektrumParser, hresync, hsync, htimer, hlt]

theorem parser_last (hresync : r.reSync = false) (hsync : r.sync = 3)
    (htimer : r.spektrumTimer ≠ 0) (hcnt : channelsPerFrame ≤ r.channelCnt + 1) :
    spektrumParser c secondary r g =
      ((wholeFrame secondary (lowByte c r).1 g).1, (wholeFrame secondary (lowByte c r).1 g).2,
        (lowByte c r).2) := by
  have hge : (lowByte c r).1.channelCnt ≥ channelsPerFrame := hcnt
  simp [spektrumParser, hresync, hsync, htimer, hge]

/-- The branches that there are. -/
theorem parser_cases (r : Receiver) (hsync : r.sync ≤ 3) :
    (r.reSync = true ∨ (r.sync = 0 ∧ r.spektrumTimer ≠ 0)) ∨
      (r.reSync = false ∧
        ((r.sync = 0 ∧ r.spektrumTimer = 0) ∨ (r.sync ≠ 0 ∧ r.spektrumTimer = 0) ∨
          (r.spektrumTimer ≠ 0 ∧ (r.sync = 1 ∨ r.sync = 2 ∨ r.sync = 3)))) := by
  cases r.reSync with
  | true => exact Or.inl (Or.inl rfl)
  | false =>
      simp only [Bool.false_eq_true, false_or, true_and]
      omega

/-! ### The counters -/

/-- The counters of a receiver, whatever it has received. -/
structure CountersOk (r : Receiver) : Prop where
  sync_le : r.sync ≤ 3
  channelCnt_lt : r.channelCnt < channelsPerFrame
  secondFrame_le : r.secondFrame ≤ 1
  channelCnt_eq_zero : r.sync ≤ 1 → r.channelCnt = 0
  rcAvailable_eq_false : r.channelCnt ≠ 0 → r.rcAvailable = false
  frameCnt_lt : r.frameCnt < 2 ^ 8

theorem countersOk_initial : CountersOk .initial where
  sync_le := by decide
  channelCnt_lt := by decide
  secondFrame_le := by decide
  channelCnt_eq_zero _ := rfl
  rcAvailable_eq_false _ := rfl
  frameCnt_lt := by decide

theorem countersOk_wholeFrame : CountersOk (wholeFrame secondary r g).1 where
  sync_le := by simp [wholeFrame]
  channelCnt_lt := by simp [wholeFrame, channelsPerFrame]
  secondFrame_le := by simp [wholeFrame]
  channelCnt_eq_zero _ := rfl
  rcAvailable_eq_false h := absurd rfl h
  frameCnt_lt := by
    simp only [wholeFrame]
    split_ifs <;> omega

theorem inBounds_lowByte (h : CountersOk r) : ∀ a ∈ (lowByte c r).2, a.InBounds := by
  intro a ha
  obtain rfl := List.mem_singleton.mp ha
  have hcnt := h.channelCnt_lt
  have hsecond := h.secondFrame_le
  simp only [Access.InBounds, channelsPerFrame, maxSpektrumFrames] at hcnt ⊢
  omega

theorem parser_ok (h : CountersOk r) : CountersOk (spektrumParser c secondary r g).1 ∧
    ∀ a ∈ (spektrumParser c secondary r g).2.2, a.InBounds := by
  rcases parser_cases r h.sync_le with
    hreset | ⟨hresync, ⟨hsync, htimer⟩ | ⟨hsync, htimer⟩ | ⟨htimer, hsync | hsync | hsync⟩⟩
  · rw [parser_reset hreset]
    exact ⟨⟨Nat.zero_le _, (by decide : 0 < channelsPerFrame), Nat.zero_le _, fun _ => rfl,
      fun h => absurd rfl h, (by decide : 0 < 2 ^ 8)⟩, nofun⟩
  · rw [parser_first hresync hsync htimer]
    exact ⟨{ h with
      sync_le := (by decide : 1 ≤ 3)
      channelCnt_eq_zero := fun _ => h.channelCnt_eq_zero (by omega) }, nofun⟩
  · rw [parser_timedOut hresync hsync htimer]
    exact ⟨{ h with }, nofun⟩
  · rw [parser_second hresync hsync htimer]
    exact ⟨{ h with
      sync_le := (by decide : 2 ≤ 3)
      channelCnt_eq_zero := fun _ => h.channelCnt_eq_zero (by omega) }, nofun⟩
  · rw [parser_high hresync hsync htimer]
    refine ⟨{ h with
      sync_le := (by decide : 3 ≤ 3)
      secondFrame_le := ?_
      channelCnt_eq_zero := fun h => absurd (show 3 ≤ 1 from h) (by decide) }, nofun⟩
    have hsecond := h.secondFrame_le
    dsimp only
    split_ifs <;> omega
  · by_cases hcnt : r.channelCnt + 1 < channelsPerFrame
    · rw [parser_low hresync hsync htimer hcnt]
      exact ⟨{ h with
        sync_le := (by decide : 2 ≤ 3)
        channelCnt_lt := hcnt
        channelCnt_eq_zero := fun h => absurd (show 2 ≤ 1 from h) (by decide)
        rcAvailable_eq_false := fun _ => rfl }, @inBounds_lowByte r c h⟩
    · rw [parser_last hresync hsync htimer (Nat.le_of_not_lt hcnt)]
      exact ⟨@countersOk_wholeFrame _ g secondary, @inBounds_lowByte r c h⟩

end

/-! ### The decoding -/

section

variable {encodingType : Nat} {signs : Nat → Int} {st : State}

/-- What the loop knows of the channels behind it. -/
structure Seen (encodingType : Nat) (seen : List UInt16) (d : Decoding) : Prop where
  channelCnt_eq : d.channelCnt =
    ((seen.map (channelNum encodingType)).filter (· < radioControlNbChannel)).length
  maxChannelNum_eq : d.maxChannelNum = highestChannel (seen.map (channelNum encodingType))
  accesses_inBounds : ∀ a ∈ d.accesses, a.InBounds

theorem highestChannel_append (l : List Nat) (n : Nat) :
    highestChannel (l ++ [n]) = if n ≠ 0x0f then max (highestChannel l) n else highestChannel l := by
  rw [highestChannel, List.filter_append, List.foldl_append, highestChannel]
  split_ifs with hn
  · rw [List.filter_cons_of_pos (by simpa using hn)]
    rfl
  · rw [List.filter_cons_of_neg (by simpa using hn)]
    rfl

theorem seen_decodeWord {seen : List UInt16} {d : Decoding} (h : Seen encodingType seen d)
    (w : UInt16) : Seen encodingType (seen ++ [w]) (decodeWord encodingType d w) := by
  obtain ⟨hcnt, hmax, haccesses⟩ := h
  have hmap : (seen ++ [w]).map (channelNum encodingType) =
      seen.map (channelNum encodingType) ++ [channelNum encodingType w] := by simp
  generalize hn : channelNum encodingType w = n at hmap
  have hcounted : (((seen ++ [w]).map (channelNum encodingType)).filter
      (· < radioControlNbChannel)).length =
        d.channelCnt + if n < radioControlNbChannel then 1 else 0 := by
    rw [hmap, List.filter_append, List.length_append, ← hcnt]
    split_ifs with hlt
    · rw [List.filter_cons_of_pos (by simpa using hlt)]
      rfl
    · rw [List.filter_cons_of_neg (by simpa using hlt)]
      rfl
  have hhighest : highestChannel ((seen ++ [w]).map (channelNum encodingType)) =
      if n ≠ 0x0f ∧ n > d.maxChannelNum then n else d.maxChannelNum := by
    rw [hmap, highestChannel_append, ← hmax]
    split_ifs <;> omega
  refine ⟨?_, ?_, ?_⟩
  · rw [hcounted, decodeWord, hn]
    split_ifs <;> rfl
  · rw [hhighest, decodeWord, hn]
    split_ifs <;> rfl
  · have hbuf : n < radioControlNbChannel →
        ∀ a ∈ d.accesses ++ [Access.spektrumBuf n], a.InBounds := by
      intro hlt a ha
      rcases List.mem_append.mp ha with ha | ha
      · exact haccesses a ha
      · obtain rfl := List.mem_singleton.mp ha
        simp only [Access.InBounds, channelsPerFrame, maxSpektrumFrames,
          radioControlNbChannel] at hlt ⊢
        omega
    rw [decodeWord, hn]
    split_ifs with hlt
    · exact hbuf hlt
    · exact hbuf hlt
    · exact haccesses
    · exact haccesses

theorem seen_foldl {seen l : List UInt16} {d : Decoding} (h : Seen encodingType seen d) :
    Seen encodingType (seen ++ l) (l.foldl (decodeWord encodingType) d) := by
  induction l generalizing seen d with
  | nil => simpa using h
  | cons w l ih =>
      have hrest := ih (seen_decodeWord h w)
      rwa [List.append_assoc] at hrest

theorem seen_decode (st : State) : Seen st.shared.encodingType (words st) (decode st) := by
  have h : Seen st.shared.encodingType []
      { spektrumBuf := st.spektrumBuf, channelCnt := 0, maxChannelNum := 0, accesses := [] } :=
    ⟨rfl, rfl, nofun⟩
  exact seen_foldl h

theorem length_channels (st : State) :
    (channels st).length = channelsPerFrame * st.shared.expectedFrames := by
  simp [channels, words, indices]

/-- As many channels as the data name reach at most the one behind those that the aircraft has. -/
theorem event_inBounds_iff (ha : available st = true) :
    (∀ a ∈ (radioControlEventImp signs st).2, a.InBounds) ↔ Decodable st := by
  obtain ⟨hcnt, hmax, haccesses⟩ := seen_decode st
  have hvalues : (∀ i ∈ indices st, (Access.values i).InBounds) ↔
      st.shared.expectedFrames ≤ 2 := by
    simp only [indices, List.mem_range, Access.InBounds, channelsPerFrame, maxSpektrumFrames]
    constructor
    · intro h
      by_contra hlt
      have h14 := h 14 (by omega)
      omega
    · intro hle i hi
      omega
  have hreads : (∀ a ∈ (indices st).map Access.values ++ (decode st).accesses, a.InBounds) ↔
      st.shared.expectedFrames ≤ 2 := by
    rw [List.forall_mem_append, List.forall_mem_map, hvalues]
    exact and_iff_left haccesses
  have hlength := length_channels st
  have hcount := List.length_filter_le (fun n => decide (n < radioControlNbChannel)) (channels st)
  have hhighest : (decode st).maxChannelNum = highestChannel (channels st) := hmax
  have hcounted : (decode st).channelCnt =
      ((channels st).filter (· < radioControlNbChannel)).length := hcnt
  have houts : (∀ a ∈ (List.range ((decode st).maxChannelNum + 1)).flatMap fun i =>
      [Access.radioControlValues i, .spektrumBuf i, .spektrumSigns i], a.InBounds) ↔
        highestChannel (channels st) < radioControlNbChannel := by
    rw [← hhighest]
    constructor
    · intro h
      have hlast := h (.radioControlValues (decode st).maxChannelNum)
        (List.mem_flatMap.mpr ⟨_, List.mem_range.mpr (Nat.lt_succ_self _), List.mem_cons_self⟩)
      exact hlast
    · intro hlt a ha
      obtain ⟨i, hi, ha⟩ := List.mem_flatMap.mp ha
      have hi := List.mem_range.mp hi
      simp only [radioControlNbChannel] at hlt
      simp only [List.mem_cons, List.not_mem_nil, or_false] at ha
      rcases ha with rfl | rfl | rfl
      · simp only [Access.InBounds, radioControlNbChannel]
        omega
      · simp only [Access.InBounds, channelsPerFrame, maxSpektrumFrames]
        omega
      · simp only [Access.InBounds, radioControlNbChannel]
        omega
  rw [radioControlEventImp, if_pos ha]
  dsimp only
  split_ifs with hvalid
  · rw [List.forall_mem_append, hreads, houts, Decodable]
    have hnot : ¬((channels st).filter (· < radioControlNbChannel)).length ≤
        highestChannel (channels st) := by omega
    rw [or_iff_left hnot]
  · rw [hreads, Decodable]
    have hle : ((channels st).filter (· < radioControlNbChannel)).length ≤
        highestChannel (channels st) := by omega
    exact (and_iff_left (Or.inr hle)).symm

end

/-! ### Runs -/

section

variable {signs : Nat → Int}

/-- The counters of both receivers. -/
structure StateOk (st : State) : Prop where
  primary : CountersOk st.primary
  secondary : CountersOk st.secondary

theorem stateOk_initial : StateOk initial := ⟨countersOk_initial, countersOk_initial⟩

theorem countersOk_tick {r : Receiver} (h : CountersOk r) : CountersOk (tick r) := { h with }

theorem countersOk_unavailable {r : Receiver} (h : CountersOk r) :
    CountersOk { r with rcAvailable := false } :=
  { h with rcAvailable_eq_false := fun _ => rfl }

theorem stateOk_event {st : State} (h : StateOk st) :
    StateOk (radioControlEventImp signs st).1 := by
  rw [radioControlEventImp]
  split_ifs
  · dsimp only
    split_ifs <;> exact ⟨countersOk_unavailable h.primary, countersOk_unavailable h.secondary⟩
  · exact h

theorem stateOk_step {st : State} (h : StateOk st) (e : Event) : StateOk (step signs st e) := by
  cases e with
  | primary c => exact ⟨(parser_ok h.primary).1, h.secondary⟩
  | secondary c => exact ⟨h.primary, (parser_ok h.secondary).1⟩
  | tim6 => exact ⟨countersOk_tick h.primary, countersOk_tick h.secondary⟩
  | radioControlEvent => exact stateOk_event h

theorem stateOk_run {st : State} (h : StateOk st) (events : List Event) :
    StateOk (run (step signs) st events) :=
  run_history (fun _ st => StateOk st) (fun _ _ e h => stateOk_step h e) h events

theorem stepInBounds_iff {st : State} (h : StateOk st) (e : Event) :
    StepInBounds signs st e ↔ EventOk st e := by
  cases e with
  | primary c => exact iff_of_true (parser_ok h.primary).2 trivial
  | secondary c => exact iff_of_true (parser_ok h.secondary).2 trivial
  | tim6 => exact iff_of_true nofun trivial
  | radioControlEvent =>
      rw [StepInBounds, EventOk, stepAccesses]
      cases ha : available st with
      | true => simpa using event_inBounds_iff ha
      | false =>
          rw [radioControlEventImp, ha]
          exact iff_of_true nofun nofun

/-- A run indexes within the arrays exactly when the data that it decodes are decodable. -/
theorem inBounds_iff (signs : Nat → Int) (events : List Event) :
    InBounds signs events ↔ RunOk (step signs) EventOk initial events :=
  runOk_congr_of_inv StateOk (fun _ e h _ => stateOk_step h e) (fun _ e h => stepInBounds_iff h e)
    stateOk_initial events

end

end Paparazzi.Radio.Spektrum
