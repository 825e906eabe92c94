import Paparazzi.Library.Numerals
import Paparazzi.Radio.Joby

/-!
Frames of the Joby receiver: good ones, interrupted ones, and two in a row from any state of the
parser.
-/

namespace Paparazzi.Radio.Joby

open Paparazzi.Library.Machine

attribute [local instance] Library.Numerals.neZero_nine

variable {n : ℕ} {signs : Fin (n + 1) → Int16} {s s' : State n}

/-! ### One tuple -/

theorem tuple_inj {w w' : Bytes} (h : tuple w = tuple w') : w = w' := by
  simp only [tuple, List.cons.injEq] at h
  exact congrArg₂ Bytes.mk h.1 h.2.1

theorem Begun.length_le {bytes : List UInt8} (h : Begun s bytes) : bytes.length ≤ 3 := by
  cases h with
  | none => exact Nat.zero_le 3
  | high => exact Nat.le_add_left 1 2
  | normal => exact Nat.le_succ 2
  | inverted => exact Nat.le_refl 3

/-- The state behind bytes that have not ended a tuple. -/
structure Reading (s s' : State n) (bytes : List UInt8) : Prop where
  begun : Begun s' bytes
  channel : s'.parser.currentChannel = s.parser.currentChannel
  radio : s'.radio = s.radio

theorem Reading.refl (hs : AtBoundary s) : Reading s s [] := ⟨.none hs, rfl, rfl⟩

theorem Reading.next (signs : Fin (n + 1) → Int16) {bytes : List UInt8}
    (h : Reading s s' bytes) (hlength : bytes.length < 3) (c : UInt8)
    (hread : bytes ≠ [] ∨ s.parser.currentChannel ≠ none ∨ c = magicHigh) :
    Reading s (rcJobyParse signs s' c) (bytes ++ [c]) ∧
      (rcJobyParse signs s' c).called = false := by
  have hparsed := parsed_rcJobyParse signs c h.begun
  generalize rcJobyParse signs s' c = t at hparsed
  cases hparsed with
  | skipped hnone hc =>
      rw [h.channel] at hnone
      obtain hne | hne | heq := hread
      · exact absurd rfl hne
      · exact absurd hnone hne
      · exact absurd heq hc
  | more bytes hbegun hchannel hradio hcalled =>
      exact ⟨⟨hbegun, hchannel.trans h.channel, hradio.trans h.radio⟩, hcalled⟩
  | ended bytes hthree => omega

theorem Handled.of_reading {bytes : List UInt8} {t : State n} {value : Int16}
    (h : Handled signs value s' t) (hreading : Reading s s' bytes) : Handled signs value s t := by
  obtain ⟨-, hchannel, hradio⟩ := hreading
  cases h with
  | start hstart hsome hradio' hcalled => exact .start hstart hsome (hradio'.trans hradio) hcalled
  | passed hvalue hnone hnone' hradio' hcalled =>
      exact .passed hvalue (hchannel ▸ hnone) hnone' (hradio'.trans hradio) hcalled
  | next hvalue i hsome hlt hsome' hradio' hcalled =>
      exact .next hvalue i (hchannel ▸ hsome) hlt hsome' (hradio ▸ hradio') hcalled
  | last hvalue i hsome hlast hnone hradio' hcalled =>
      exact .last hvalue i (hchannel ▸ hsome) hlast hnone (hradio ▸ hradio') hcalled

theorem Finished.of_reading {bytes rest : List UInt8} {t : State n}
    (h : Finished signs s' t bytes) (hreading : Reading s s' rest) : Finished signs s t bytes := by
  cases h with
  | good w hhandled => exact .good w (hhandled.of_reading hreading)
  | corrupted bytes hnone hradio hcalled hne =>
      exact .corrupted _ hnone (hradio.trans hreading.radio) hcalled hne

theorem Reading.last (signs : Fin (n + 1) → Int16) {bytes : List UInt8}
    (h : Reading s s' bytes) (hlength : bytes.length = 3) (c : UInt8) :
    AtBoundary (rcJobyParse signs s' c) ∧
      Finished signs s (rcJobyParse signs s' c) (bytes ++ [c]) := by
  have hparsed := parsed_rcJobyParse signs c h.begun
  generalize rcJobyParse signs s' c = t at hparsed
  cases hparsed with
  | skipped => cases hlength
  | more bytes hbegun =>
      have hle := hbegun.length_le
      rw [List.length_append, List.length_singleton] at hle
      omega
  | ended bytes hthree hboundary hfinished => exact ⟨hboundary, hfinished.of_reading h⟩

theorem run_tuple (signs : Fin (n + 1) → Int16) (hs : AtBoundary s) (b₁ b₂ b₃ b₄ : UInt8)
    (hread : s.parser.currentChannel ≠ none ∨ b₁ = magicHigh) :
    AtBoundary (run (rcJobyParse signs) s [b₁, b₂, b₃, b₄]) ∧
      Finished signs s (run (rcJobyParse signs) s [b₁, b₂, b₃, b₄]) [b₁, b₂, b₃, b₄] ∧
      outputs (rcJobyParse signs) State.called s [b₁, b₂, b₃, b₄] =
        [false, false, false, (run (rcJobyParse signs) s [b₁, b₂, b₃, b₄]).called] := by
  obtain ⟨hfirst, hcalled₁⟩ := (Reading.refl hs).next signs (by simp) b₁ (Or.inr hread)
  obtain ⟨hsecond, hcalled₂⟩ := hfirst.next signs (by simp) b₂ (Or.inl (by simp))
  obtain ⟨hthird, hcalled₃⟩ := hsecond.next signs (by simp) b₃ (Or.inl (by simp))
  obtain ⟨hboundary, hfinished⟩ := hthird.last signs (by simp) b₄
  refine ⟨hboundary, hfinished, ?_⟩
  simp only [outputs, run, hcalled₁, hcalled₂, hcalled₃]

theorem run_good (signs : Fin (n + 1) → Int16) (hs : AtBoundary s) (w : Bytes)
    (hread : s.parser.currentChannel ≠ none ∨ w.high = magicHigh) :
    AtBoundary (run (rcJobyParse signs) s (tuple w)) ∧
      Handled signs w.value s (run (rcJobyParse signs) s (tuple w)) ∧
      outputs (rcJobyParse signs) State.called s (tuple w) =
        [false, false, false, (run (rcJobyParse signs) s (tuple w)).called] := by
  obtain ⟨hboundary, hfinished, houtputs⟩ :=
    run_tuple signs hs w.high w.low (~~~ w.high) (~~~ w.low) hread
  refine ⟨hboundary, ?_, houtputs⟩
  generalize hbytes : [w.high, w.low, ~~~ w.high, ~~~ w.low] = bytes at hfinished
  cases hfinished with
  | good w' hhandled =>
      obtain rfl := tuple_inj hbytes
      exact hbytes ▸ hhandled
  | corrupted bytes _ _ _ hne => exact absurd hbytes.symm (hne w)

/-! ### Frames -/

/-- The values of the first channels, as they come from these tuples. -/
def stored (signs : Fin (n + 1) → Int16) (ws : List Bytes) (radio : RcLoss.RadioControl (n + 1)) :
    RcLoss.RadioControl (n + 1) :=
  { radio with
    values := fun i => match ws[i.val]? with
      | some w => signs i * w.value
      | none => radio.values i }

theorem storeChannel_stored {ws : List Bytes} {w : Bytes} {i : Fin (n + 1)} (hi : i.val = ws.length)
    (radio : RcLoss.RadioControl (n + 1)) :
    storeChannel signs i w.value (stored signs ws radio) = stored signs (ws ++ [w]) radio := by
  have hvalues : Function.update (stored signs ws radio).values i (signs i * w.value) =
      (stored signs (ws ++ [w]) radio).values := by
    funext j
    rcases eq_or_ne j i with rfl | hne
    · simp [stored, hi]
    · have hj : j.val ≠ ws.length := fun h => hne (Fin.ext (h.trans hi.symm))
      rw [Function.update_of_ne hne]
      rcases Nat.lt_or_gt_of_ne hj with hlt | hgt
      · simp [stored, List.getElem?_append_left hlt]
      · simp [stored, List.getElem?_append_right hgt.le, List.getElem?_eq_none hgt.le,
          List.getElem?_eq_none (show [w].length ≤ j.val - ws.length by simp; omega)]
  rw [storeChannel, hvalues]
  rfl

theorem frame_append (ws : List Bytes) (w : Bytes) : frame (ws ++ [w]) = frame ws ++ tuple w := by
  rw [frame, frame, List.flatMap_append, List.flatMap_singleton, List.append_assoc]

/-- The state behind a start tuple and the tuples of the first channels. -/
structure Within (signs : Fin (n + 1) → Int16) (ws : List Bytes) (s s' : State n) : Prop where
  boundary : AtBoundary s'
  channel : ∃ i : Fin (n + 1), s'.parser.currentChannel = some i ∧ i.val = ws.length
  radio : s'.radio = stored signs ws s.radio

theorem run_start (signs : Fin (n + 1) → Int16) (hs : AtBoundary s) :
    Within signs [] s (run (rcJobyParse signs) s (frame [])) ∧
      outputs (rcJobyParse signs) State.called s (frame []) = [false, false, false, false] := by
  have hstart : start.value = magicStart := by decide
  obtain ⟨hboundary, hhandled, houtputs⟩ := run_good signs hs start (Or.inr rfl)
  rw [show frame [] = tuple start from List.append_nil _, houtputs]
  cases hhandled with
  | start _ hchannel hradio hcalled =>
      exact ⟨⟨hboundary, ⟨0, hchannel, rfl⟩, hradio⟩, by rw [hcalled]⟩
  | passed hvalue => exact absurd hstart hvalue
  | next hvalue => exact absurd hstart hvalue
  | last hvalue => exact absurd hstart hvalue

theorem Within.tuple {ws : List Bytes} (h : Within signs ws s s') {w : Bytes}
    (hw : w.value ≠ magicStart) :
    (ws.length < n → Within signs (ws ++ [w]) s (run (rcJobyParse signs) s' (tuple w)) ∧
      outputs (rcJobyParse signs) State.called s' (tuple w) = [false, false, false, false]) ∧
    (ws.length = n → AtBoundary (run (rcJobyParse signs) s' (tuple w)) ∧
      (run (rcJobyParse signs) s' (tuple w)).radio =
        finishFrame (stored signs (ws ++ [w]) s.radio) ∧
      (run (rcJobyParse signs) s' (tuple w)).called = true) := by
  obtain ⟨hboundary, ⟨i, hsome, hi⟩, hradio⟩ := h
  have hne : s'.parser.currentChannel ≠ none := fun hnone => nomatch hnone.symm.trans hsome
  obtain ⟨hboundary', hhandled, houtputs⟩ := run_good signs hboundary w (Or.inl hne)
  rw [houtputs]
  cases hhandled with
  | start hstart => exact absurd hstart hw
  | passed _ hnone => exact absurd hnone hne
  | next _ j hsome' hlt hchannel hradio' hcalled =>
      obtain rfl := Option.some.inj (hsome.symm.trans hsome')
      rw [hradio, storeChannel_stored hi] at hradio'
      refine ⟨fun _ => ⟨⟨hboundary', ⟨_, hchannel, ?_⟩, hradio'⟩, by rw [hcalled]⟩, fun heq => ?_⟩
      · rw [List.length_append, ← hi]
        rfl
      · omega
  | last _ j hsome' hlast hchannel hradio' hcalled =>
      obtain rfl := Option.some.inj (hsome.symm.trans hsome')
      rw [hradio, storeChannel_stored hi] at hradio'
      exact ⟨fun hlt => by omega, fun _ => ⟨hboundary', hradio', hcalled⟩⟩

/-- The tuples of a frame but the last. -/
theorem run_within (signs : Fin (n + 1) → Int16) (hs : AtBoundary s) {ws : List Bytes}
    (hvalues : ∀ w ∈ ws, w.value ≠ magicStart) (hlength : ws.length ≤ n) :
    Within signs ws s (run (rcJobyParse signs) s (frame ws)) ∧
      ∀ called ∈ outputs (rcJobyParse signs) State.called s (frame ws), called = false := by
  induction ws using List.reverseRecOn with
  | nil =>
      obtain ⟨hwithin, houtputs⟩ := run_start signs hs
      rw [houtputs]
      exact ⟨hwithin, by decide⟩
  | append_singleton ws w ih =>
      rw [List.length_append, List.length_singleton] at hlength
      obtain ⟨hrest, hw⟩ := List.forall_mem_append.mp hvalues
      obtain ⟨hwithin, hfalse⟩ := ih hrest (by omega)
      obtain ⟨hwithin', houtputs⟩ := (hwithin.tuple (hw w (List.mem_singleton_self w))).1 (by omega)
      rw [frame_append, run_append, outputs_append, houtputs]
      exact ⟨hwithin', List.forall_mem_append.mpr ⟨hfalse, by decide⟩⟩

theorem run_frame (hs : AtBoundary s) {ws : List Bytes} (hvalues : ∀ w ∈ ws, w.value ≠ magicStart)
    (hlength : ws.length = n + 1) :
    AtBoundary (run (rcJobyParse signs) s (frame ws)) ∧
      (run (rcJobyParse signs) s (frame ws)).radio = finishFrame (stored signs ws s.radio) ∧
      (run (rcJobyParse signs) s (frame ws)).called = true := by
  obtain ⟨ws, w, rfl⟩ : ∃ ws' w, ws = ws' ++ [w] := by
    rcases List.eq_nil_or_concat ws with rfl | ⟨ws', w, rfl⟩
    · cases hlength
    · exact ⟨ws', w, List.concat_eq_append⟩
  rw [List.length_append, List.length_singleton] at hlength
  obtain ⟨hrest, hw⟩ := List.forall_mem_append.mp hvalues
  obtain ⟨hwithin, -⟩ := run_within signs hs hrest (by omega)
  rw [frame_append, run_append]
  exact (hwithin.tuple (hw w (List.mem_singleton_self w))).2 (by omega)

/-- A corrupted tuple behind some tuples of a frame. -/
theorem run_corrupted (signs : Fin (n + 1) → Int16) (hs : AtBoundary s) {ws : List Bytes}
    (hvalues : ∀ w ∈ ws, w.value ≠ magicStart) (hlength : ws.length ≤ n) {b₁ b₂ b₃ b₄ : UInt8}
    (hcorrupted : ∀ w, [b₁, b₂, b₃, b₄] ≠ tuple w) :
    AtBoundary (run (rcJobyParse signs) s (frame ws ++ [b₁, b₂, b₃, b₄])) ∧
      (run (rcJobyParse signs) s (frame ws ++ [b₁, b₂, b₃, b₄])).radio = stored signs ws s.radio ∧
      ∀ called ∈ outputs (rcJobyParse signs) State.called s (frame ws ++ [b₁, b₂, b₃, b₄]),
        called = false := by
  obtain ⟨⟨hboundary, ⟨i, hsome, hi⟩, hradio⟩, hfalse⟩ :=
    run_within signs hs hvalues hlength
  have hne : (run (rcJobyParse signs) s (frame ws)).parser.currentChannel ≠ none :=
    fun hnone => nomatch hnone.symm.trans hsome
  obtain ⟨hboundary', hfinished, houtputs⟩ := run_tuple signs hboundary b₁ b₂ b₃ b₄ (Or.inl hne)
  rw [run_append, outputs_append, houtputs]
  generalize [b₁, b₂, b₃, b₄] = bytes at hboundary' hfinished hcorrupted ⊢
  cases hfinished with
  | good w => exact absurd rfl (hcorrupted w)
  | corrupted _ hnone hradio' hcalled =>
      refine ⟨hboundary', hradio'.trans hradio, List.forall_mem_append.mpr ⟨hfalse, ?_⟩⟩
      rw [hcalled]
      decide

/-! ### From any state -/

structure Idle (s : State n) : Prop where
  boundary : AtBoundary s
  channel : s.parser.currentChannel = none

/-- No byte of these tuples begins a start tuple. -/
def NoStartByte (ws : List Bytes) : Prop := ∀ b ∈ ws.flatMap tuple, b ≠ magicHigh

theorem Idle.run {bytes : List UInt8} (h : Idle s) (hbytes : ∀ b ∈ bytes, b ≠ magicHigh) :
    Idle (run (rcJobyParse signs) s bytes) := by
  induction bytes generalizing s with
  | nil => exact h
  | cons b bytes ih =>
      obtain ⟨hb, hbytes⟩ := List.forall_mem_cons.mp hbytes
      refine ih ?_ hbytes
      rw [parse_skip h.boundary h.channel hb]
      exact ⟨⟨h.boundary.byte, h.boundary.inverted⟩, h.channel⟩

theorem NoStartByte.cons {w : Bytes} {ws : List Bytes} (h : NoStartByte (w :: ws)) :
    (w.high ≠ magicHigh ∧ w.low ≠ magicHigh ∧ ~~~ w.high ≠ magicHigh ∧ ~~~ w.low ≠ magicHigh) ∧
      NoStartByte ws := by
  rw [NoStartByte, List.flatMap_cons, List.forall_mem_append] at h
  refine ⟨⟨?_, ?_, ?_, ?_⟩, h.2⟩
  · exact h.1 _ (by simp [tuple])
  · exact h.1 _ (by simp [tuple])
  · exact h.1 _ (by simp [tuple])
  · exact h.1 _ (by simp [tuple])

/-- A frame that is read one byte early: its shifted tuples may look good, but there are enough of
them to fill all channels. -/
theorem idle_of_shifted {b : UInt8} {ws : List Bytes} (hs : AtBoundary s) (hb : b ≠ magicHigh)
    (hws : NoStartByte ws)
    (hchannel : ∀ i, s.parser.currentChannel = some i → n + 1 ≤ i.val + ws.length) :
    Idle (run (rcJobyParse signs) s (b :: ws.flatMap tuple)) := by
  induction ws generalizing s b with
  | nil =>
      refine Idle.run ⟨hs, ?_⟩ (by simpa using hb)
      cases hnone : s.parser.currentChannel with
      | none => rfl
      | some i =>
          have hle := hchannel i hnone
          have hlt := i.isLt
          rw [List.length_nil] at hle
          omega
  | cons w ws ih =>
      cases hnone : s.parser.currentChannel with
      | none => exact Idle.run ⟨hs, hnone⟩ (List.forall_mem_cons.mpr ⟨hb, hws⟩)
      | some i =>
          obtain ⟨⟨-, -, -, hlow⟩, hrest⟩ := hws.cons
          have hle := hchannel i hnone
          rw [List.length_cons] at hle
          have hne : s.parser.currentChannel ≠ none := fun h => nomatch h.symm.trans hnone
          obtain ⟨hboundary, hfinished, -⟩ :=
            run_tuple signs hs b w.high w.low (~~~ w.high) (Or.inl hne)
          rw [show b :: (w :: ws).flatMap tuple =
            [b, w.high, w.low, ~~~ w.high] ++ ~~~ w.low :: ws.flatMap tuple from rfl, run_append]
          refine ih hboundary hlow hrest fun j hj => ?_
          generalize hbytes : [b, w.high, w.low, ~~~ w.high] = bytes at hfinished hj
          cases hfinished with
          | good w' hhandled =>
              cases hhandled with
              | start hstart =>
                  rw [value_eq_magicStart_iff.mp hstart] at hbytes
                  exact absurd (List.cons.inj hbytes).1 hb
              | passed _ hnone' => exact absurd hnone' hne
              | next _ k hsome hlt hsome' =>
                  obtain rfl := Option.some.inj (hnone.symm.trans hsome)
                  obtain rfl := Option.some.inj (hsome'.symm.trans hj)
                  dsimp only
                  omega
              | last _ k _ _ hnone' => exact nomatch hnone'.symm.trans hj
          | corrupted _ hnone' => exact nomatch hnone'.symm.trans hj

/-- Four bytes that are no tuple leave the parser idle. -/
theorem idle_of_corrupted (hs : AtBoundary s) {b₁ b₂ b₃ b₄ : UInt8} {bytes : List UInt8}
    (hcorrupted : ∀ w, [b₁, b₂, b₃, b₄] ≠ tuple w)
    (hbytes : ∀ b ∈ [b₁, b₂, b₃, b₄] ++ bytes, b ≠ magicHigh) :
    Idle (run (rcJobyParse signs) s ([b₁, b₂, b₃, b₄] ++ bytes)) := by
  cases hnone : s.parser.currentChannel with
  | none => exact Idle.run ⟨hs, hnone⟩ hbytes
  | some i =>
      have hne : s.parser.currentChannel ≠ none := fun h => nomatch h.symm.trans hnone
      obtain ⟨hboundary, hfinished, -⟩ := run_tuple signs hs b₁ b₂ b₃ b₄ (Or.inl hne)
      rw [run_append]
      refine Idle.run ⟨hboundary, ?_⟩ (List.forall_mem_append.mp hbytes).2
      generalize [b₁, b₂, b₃, b₄] = tupleBytes at hfinished hcorrupted
      cases hfinished with
      | good w => exact absurd rfl (hcorrupted w)
      | corrupted _ hnone' => exact hnone'

theorem NoStartByte.value_ne {ws : List Bytes} (h : NoStartByte ws) :
    ∀ w ∈ ws, w.value ≠ magicStart := by
  intro w hw hstart
  refine h magicHigh (List.mem_flatMap.mpr ⟨w, hw, ?_⟩) rfl
  rw [value_eq_magicStart_iff.mp hstart]
  decide

/-- Wherever the parser is, it is between two tuples behind a frame without the first byte of a
start tuple in its channels. -/
theorem atBoundary_frame {bytes : List UInt8} (hs : Begun s bytes) {ws : List Bytes}
    (hlength : ws.length = n + 1) (hws : NoStartByte ws) :
    AtBoundary (run (rcJobyParse signs) s (frame ws)) := by
  have hreading : Reading s s bytes := ⟨hs, rfl, rfl⟩
  obtain ⟨w, rest, rfl⟩ : ∃ w rest, ws = w :: rest :=
    List.exists_cons_of_length_pos (by omega)
  obtain ⟨⟨hhigh, hlow, hnhigh, hnlow⟩, hrest⟩ := hws.cons
  have hbehind : ∀ b ∈ ~~~ w.high :: ~~~ w.low :: rest.flatMap tuple, b ≠ magicHigh :=
    List.forall_mem_cons.mpr ⟨hnhigh, List.forall_mem_cons.mpr ⟨hnlow, hrest⟩⟩
  cases hs with
  | none hboundary => exact (run_frame hboundary hws.value_ne hlength).1
  | high hbyte hinverted =>
      obtain ⟨hsecond, -⟩ := hreading.next signs (by simp) 0x36 (Or.inl (by simp))
      obtain ⟨hthird, -⟩ := hsecond.next signs (by simp) 0xAF (Or.inl (by simp))
      obtain ⟨hboundary, -⟩ := hthird.last signs (by simp) 0xC9
      rw [show frame (w :: rest) = [0x36, 0xAF, 0xC9] ++ 0x50 :: (w :: rest).flatMap tuple from rfl,
        run_append]
      exact (idle_of_shifted hboundary (by decide) hws fun i _ => by omega).boundary
  | normal high low hbyte hinverted hword =>
      obtain ⟨hthird, -⟩ := hreading.next signs (by simp) 0x36 (Or.inl (by simp))
      obtain ⟨hboundary, -⟩ := hthird.last signs (by simp) 0xAF
      rw [show frame (w :: rest) = [0x36, 0xAF] ++ ([0xC9, 0x50, w.high, w.low] ++
        ~~~ w.high :: ~~~ w.low :: rest.flatMap tuple) from rfl, run_append]
      refine (idle_of_corrupted hboundary (fun w' heq => ?_) ?_).boundary
      · simp only [tuple, List.cons.injEq] at heq
        obtain ⟨hhigh', -, hnhigh', -⟩ := heq
        rw [← hhigh'] at hnhigh'
        exact hhigh hnhigh'
      · exact List.forall_mem_append.mpr ⟨by simp [hhigh, hlow]; decide, hbehind⟩
  | inverted high low hbyte hinverted hword =>
      obtain ⟨hboundary, -⟩ := hreading.last signs (by simp) 0x36
      rw [show frame (w :: rest) = [0x36] ++ ([0xAF, 0xC9, 0x50, w.high] ++
        w.low :: ~~~ w.high :: ~~~ w.low :: rest.flatMap tuple) from rfl, run_append]
      refine (idle_of_corrupted hboundary (fun w' heq => ?_) ?_).boundary
      · simp only [tuple, List.cons.injEq] at heq
        obtain ⟨-, hlow', -, hnlow', -⟩ := heq
        rw [← hlow'] at hnlow'
        exact hhigh hnlow'
      · exact List.forall_mem_append.mpr
          ⟨by simp [hhigh]; decide, List.forall_mem_cons.mpr ⟨hlow, hbehind⟩⟩

/-! ### Streams -/

theorem length_frame (ws : List Bytes) : (frame ws).length = 4 * (ws.length + 1) := by
  have hflat : (ws.flatMap tuple).length = 4 * ws.length := by
    induction ws with
    | nil => rfl
    | cons w ws ih =>
        rw [List.flatMap_cons, List.length_append, ih, List.length_cons]
        simp only [tuple, List.length_cons, List.length_nil]
        omega
  rw [frame, List.length_append, hflat]
  simp only [tuple, List.length_cons, List.length_nil]
  omega

section

variable {s₀ : State n}

theorem called_of_framed {bytes : List UInt8} {ws : List Bytes} (h : Framed signs s₀ bytes ws)
    (hlength : ws.length = n + 1) : (after signs s₀ bytes).called = true := by
  obtain ⟨before, rfl, hboundary, hvalues⟩ := h
  rw [after_append]
  exact (run_frame hboundary hvalues hlength).2.2

/-- The second of two frames is received if and only if the parser is between two tuples in front of
it. -/
theorem called_frame_iff {bytes : List UInt8} {ws : List Bytes}
    (hvalues : ∀ w ∈ ws, w.value ≠ magicStart) (hlength : ws.length = n + 1) :
    (after signs s₀ (bytes ++ frame ws)).called = true ↔ AtBoundary (after signs s₀ bytes) := by
  constructor
  · intro hcalled
    obtain ⟨ws', ⟨before, heq, hboundary, -⟩, hlength'⟩ := (past_after signs s₀ _).called hcalled
    obtain ⟨rfl, -⟩ := List.append_inj' heq (by rw [length_frame, length_frame, hlength, hlength'])
    exact hboundary
  · exact fun hboundary => called_of_framed ⟨bytes, rfl, hboundary, hvalues⟩ hlength

theorem atBoundary_after_frame (bytes : List UInt8) {ws : List Bytes} (hlength : ws.length = n + 1)
    (hws : NoStartByte ws) : AtBoundary (after signs s₀ (bytes ++ frame ws)) := by
  obtain ⟨⟨done, rest, -, -, hbegun, -⟩, -⟩ := past_after signs s₀ bytes
  rw [after_append]
  exact atBoundary_frame hbegun hlength hws

end

/-- The receiver over every stream: the callback runs behind the frames that are read from between
two tuples, a corrupted tuple ends a frame of which the channels so far are stored, and of two
frames in a row the second is received where the first leaves the parser between two tuples. -/
theorem joby_stream (signs : Fin (n + 1) → Int16) (s₀ : State n) :
    (∀ bytes, (after signs s₀ bytes).called = true ↔
      ∃ ws, Framed signs s₀ bytes ws ∧ ws.length = n + 1) ∧
    (∀ before ws b₁ b₂ b₃ b₄, AtBoundary (after signs s₀ before) →
      (∀ w ∈ ws, w.value ≠ magicStart) → ws.length ≤ n → (∀ w, [b₁, b₂, b₃, b₄] ≠ tuple w) →
        (after signs s₀ (before ++ (frame ws ++ [b₁, b₂, b₃, b₄]))).radio =
          stored signs ws (after signs s₀ before).radio ∧
        ∀ called ∈ outputs (rcJobyParse signs) State.called (after signs s₀ before)
          (frame ws ++ [b₁, b₂, b₃, b₄]), called = false) ∧
    ∀ bytes ws ws', ws.length = n + 1 → ws'.length = n + 1 →
      (∀ w ∈ ws', w.value ≠ magicStart) →
        ((after signs s₀ (bytes ++ frame ws ++ frame ws')).called = true ↔
          AtBoundary (after signs s₀ (bytes ++ frame ws))) ∧
        (AtBoundary (after signs s₀ (bytes ++ frame ws)) →
          (after signs s₀ (bytes ++ frame ws ++ frame ws')).radio =
            finishFrame (stored signs ws' (after signs s₀ (bytes ++ frame ws)).radio)) ∧
        (NoStartByte ws → AtBoundary (after signs s₀ (bytes ++ frame ws))) := by
  refine ⟨fun bytes => ⟨(past_after signs s₀ bytes).called, ?_⟩, ?_, ?_⟩
  · rintro ⟨ws, hframed, hlength⟩
    exact called_of_framed hframed hlength
  · intro before ws b₁ b₂ b₃ b₄ hboundary hvalues hlength hcorrupted
    obtain ⟨-, hradio, hfalse⟩ :=
      run_corrupted signs hboundary hvalues hlength hcorrupted
    rw [after_append]
    exact ⟨hradio, hfalse⟩
  · intro bytes ws ws' hlength hlength' hvalues'
    refine ⟨called_frame_iff hvalues' hlength', fun hboundary => ?_,
      atBoundary_after_frame bytes hlength⟩
    rw [after_append]
    exact (run_frame hboundary hvalues' hlength').2.1

/-- Nine channels, as in `joby_9ch.h`, before the first initialisation. -/
def nineChannels : State 8 :=
  { parser := ⟨.readingLowByte, .readingNormal, some 0, 0, 0, 0, 0, 0⟩
    radio := RcLoss.init 9
    called := false }

/-- A tuple in front of a corrupted one is stored, and a frame whose last byte is the first of a
start tuple, read by a parser out of step, makes the next frame be lost. -/
theorem joby_stored_and_lost :
    (nineChannels.radio.values 0 = 0 ∧
      (after (fun _ => 1) nineChannels (frame [⟨0, 100⟩] ++ [0, 0, 0, 0])).radio.values 0 = 100) ∧
    (after (fun _ => 1) nineChannels ([0x36] ++ frame (List.replicate 8 ⟨0, 0⟩ ++ [⟨0, 0xC9⟩]) ++
      frame (List.replicate 9 ⟨0, 0⟩))).called = false := by
  decide +kernel

end Paparazzi.Radio.Joby
