import Mathlib
import Paparazzi.Library.Machine

/-!
The PPM decoder, `DecodePpmFrame` of `ppm.h`: a frame is a synchro blank, one data length for every
channel and a synchro blank.
-/

namespace Paparazzi.Radio.Ppm

open Paparazzi.Library.Machine

/-- The ranges of `radio.h` in ticks; both ends are left out. -/
structure Ranges where
  dataMinLen : UInt32
  dataMaxLen : UInt32
  syncMinLen : UInt32
  syncMaxLen : UInt32

def Ranges.isSync (r : Ranges) (length : UInt32) : Bool :=
  r.syncMinLen < length && length < r.syncMaxLen

def Ranges.isData (r : Ranges) (length : UInt32) : Bool :=
  r.dataMinLen < length && length < r.dataMaxLen

structure Config extends Ranges where
  /-- `PPM_NB_CHANNEL` -/
  nbChannel : Nat
  /-- `ppm_cur_pulse` is a byte. -/
  nbChannel_lt : nbChannel < 256

structure State where
  curPulse : Nat
  lastPulseTime : UInt32
  dataValid : Bool
  pulses : Nat → UInt16
  frameAvailable : Bool

variable (cfg : Config)

/-- `ppm_arch_init` -/
def init : State where
  curPulse := cfg.nbChannel
  lastPulseTime := 0
  dataValid := false
  pulses _ := 0
  frameAvailable := false

def decodePpmFrame (rssiValid : Bool) (time : UInt32) (s : State) : State :=
  let length := time - s.lastPulseTime
  if s.curPulse = cfg.nbChannel then
    if cfg.isSync length then
      if s.dataValid && rssiValid then
        { s with lastPulseTime := time, frameAvailable := true, dataValid := false, curPulse := 0 }
      else { s with lastPulseTime := time, curPulse := 0 }
    else { s with lastPulseTime := time, dataValid := false }
  else if cfg.isData length then
    { s with
      lastPulseTime := time
      pulses := Function.update s.pulses s.curPulse length.toUInt16
      curPulse := s.curPulse + 1
      dataValid := if s.curPulse + 1 = cfg.nbChannel then true else s.dataValid }
  else { s with lastPulseTime := time, curPulse := cfg.nbChannel, dataValid := false }

inductive Event where
  | pulse (time : UInt32)
  /-- `RadioControlEvent` takes the frame. -/
  | handled
  deriving DecidableEq, Repr

/-- `RssiValid()` is true, as it is by default. -/
def step (s : State) : Event → State
  | .pulse time => decodePpmFrame cfg true time s
  | .handled => { s with frameAvailable := false }

/-- The lengths of the pulses, the first one since the start. -/
def lengths : UInt32 → List Event → List UInt32
  | _, [] => []
  | last, .pulse time :: events => (time - last) :: lengths time events
  | last, .handled :: events => lengths last events

/-! ### What is asked -/

/-- The last pulse lengths are a synchro blank, the data lengths and a synchro blank, behind
`past`. -/
structure EndsInFrame (ls past frame : List UInt32) : Prop where
  eq : ∃ blank blank', cfg.isSync blank = true ∧ cfg.isSync blank' = true ∧
    ls = past ++ blank :: frame ++ [blank']
  length_eq : frame.length = cfg.nbChannel
  isData : ∀ d ∈ frame, cfg.isData d = true

/-- A pulse after the events sets `ppm_frame_available`. -/
def Sets (events : List Event) (time : UInt32) : Prop :=
  (decodePpmFrame cfg true time
    { run (step cfg) (init cfg) events with frameAvailable := false }).frameAvailable = true

/-- A pulse sets `ppm_frame_available` if and only if it ends a frame, and `ppm_pulses` then has
its lengths. -/
def RightAt (events : List Event) (time : UInt32) : Prop :=
  let ls := lengths 0 (events ++ [.pulse time])
  (Sets cfg events time ↔ ∃ past frame, EndsInFrame cfg ls past frame) ∧
    ∀ past frame, EndsInFrame cfg ls past frame → Sets cfg events time →
      ∀ i d, frame[i]? = some d →
        ((run (step cfg) (init cfg) (events ++ [.pulse time])).pulses i).toNat = d.toNat

/-- `ppm_cur_pulse` after a pulse of a length. -/
def nextPulse (cur : Nat) (length : UInt32) : Nat :=
  if cur = cfg.nbChannel then if cfg.isSync length then 0 else cfg.nbChannel
  else if cfg.isData length then cur + 1 else cfg.nbChannel

/-- The decoder waits for a blank. -/
def Waits (past : List UInt32) : Prop := past.foldl (nextPulse cfg) cfg.nbChannel = cfg.nbChannel

/-- The decoder waited for a blank when that in front of the frame came, and the lengths fit in the
16 bits of `ppm_pulses`. -/
def WaitedFor (ls : List UInt32) : Prop :=
  ∀ past frame, EndsInFrame cfg ls past frame →
    Waits cfg past ∧ 0 < cfg.nbChannel ∧ ∀ d ∈ frame, d.toNat < 2 ^ 16

/-! ### The decoder and the lengths -/

section

variable {cfg}

/-- The time of the last pulse. -/
def lastTime : UInt32 → List Event → UInt32
  | last, [] => last
  | _, .pulse time :: events => lastTime time events
  | last, .handled :: events => lastTime last events

theorem lengths_append (last : UInt32) (events events' : List Event) :
    lengths last (events ++ events') =
      lengths last events ++ lengths (lastTime last events) events' := by
  induction events generalizing last with
  | nil => rfl
  | cons event events ih =>
      cases event with
      | pulse time => exact congrArg ((time - last) :: ·) (ih time)
      | handled => exact ih last

theorem lastTime_append (last : UInt32) (events events' : List Event) :
    lastTime last (events ++ events') = lastTime (lastTime last events) events' := by
  induction events generalizing last with
  | nil => rfl
  | cons event events ih =>
      cases event with
      | pulse time => exact ih time
      | handled => exact ih last

/-- Data lengths are counted. -/
theorem foldl_nextPulse {ds : List UInt32} (hdata : ∀ d ∈ ds, cfg.isData d = true) {cur : Nat}
    (hlength : cur + ds.length ≤ cfg.nbChannel) :
    ds.foldl (nextPulse cfg) cur = cur + ds.length := by
  induction ds generalizing cur with
  | nil => rfl
  | cons d ds ih =>
      obtain ⟨hd, hds⟩ := List.forall_mem_cons.mp hdata
      rw [List.length_cons] at hlength
      have hnext : nextPulse cfg cur d = cur + 1 := by
        rw [nextPulse, if_neg (by omega), if_pos hd]
      rw [List.foldl_cons, hnext, ih hds (by omega), List.length_cons]
      omega

/-- The pulses that were stored are those since the last blank, for which the decoder waited. -/
def Collected (cfg : Config) (ls : List UInt32) (s : State) : Prop :=
  ∃ past blank ds, ls = past ++ blank :: ds ∧ cfg.isSync blank = true ∧ Waits cfg past ∧
    (∀ d ∈ ds, cfg.isData d = true) ∧ ds.length = s.curPulse ∧
      ∀ i d, ds[i]? = some d → s.pulses i = d.toUInt16

/-- The decoder after pulses of these lengths. -/
structure Good (cfg : Config) (ls : List UInt32) (s : State) : Prop where
  cur_eq : s.curPulse = ls.foldl (nextPulse cfg) cfg.nbChannel
  cur_le : s.curPulse ≤ cfg.nbChannel
  cur_of_valid : s.dataValid = true → s.curPulse = cfg.nbChannel
  valid_iff : s.dataValid = true ↔ ∃ front d, ls = front ++ [d] ∧ cfg.isData d = true ∧
    front.foldl (nextPulse cfg) cfg.nbChannel + 1 = cfg.nbChannel
  collected : s.curPulse < cfg.nbChannel ∨ s.dataValid = true → Collected cfg ls s

theorem good_init : Good cfg [] (init cfg) where
  cur_eq := rfl
  cur_le := Nat.le_refl _
  cur_of_valid h := rfl
  valid_iff := by
    refine iff_of_false Bool.false_ne_true ?_
    rintro ⟨front, d, heq, -⟩
    exact List.append_ne_nil_of_right_ne_nil front (List.cons_ne_nil d []) heq.symm
  collected h := by
    rcases h with h | h
    · exact absurd h (Nat.lt_irrefl _)
    · exact absurd h Bool.false_ne_true

/-- Without a data length that fills the frame there are no valid data. -/
theorem not_filled {ls : List UInt32} {length : UInt32}
    (h : cfg.isData length = true → ls.foldl (nextPulse cfg) cfg.nbChannel + 1 ≠ cfg.nbChannel) :
    ¬∃ front d, ls ++ [length] = front ++ [d] ∧ cfg.isData d = true ∧
      front.foldl (nextPulse cfg) cfg.nbChannel + 1 = cfg.nbChannel := by
  rintro ⟨front, d, heq, hdata, hfill⟩
  obtain ⟨rfl, hd⟩ := List.append_inj' heq rfl
  obtain rfl := List.singleton_inj.mp hd
  exact h hdata hfill

section

variable {s : State} {time : UInt32}

theorem decode_sync (hcur : s.curPulse = cfg.nbChannel)
    (hsync : cfg.isSync (time - s.lastPulseTime) = true) :
    decodePpmFrame cfg true time s =
      { s with
        lastPulseTime := time
        frameAvailable := s.dataValid || s.frameAvailable
        dataValid := false
        curPulse := 0 } := by
  rw [decodePpmFrame, if_pos hcur, if_pos hsync, Bool.and_true]
  cases hvalid : s.dataValid with
  | true => rfl
  | false => rfl

theorem decode_noise (hcur : s.curPulse = cfg.nbChannel)
    (hsync : cfg.isSync (time - s.lastPulseTime) = false) :
    decodePpmFrame cfg true time s = { s with lastPulseTime := time, dataValid := false } := by
  rw [decodePpmFrame, if_pos hcur, hsync, if_neg Bool.false_ne_true]

theorem decode_data (hcur : s.curPulse ≠ cfg.nbChannel)
    (hdata : cfg.isData (time - s.lastPulseTime) = true) :
    decodePpmFrame cfg true time s =
      { s with
        lastPulseTime := time
        pulses := Function.update s.pulses s.curPulse (time - s.lastPulseTime).toUInt16
        curPulse := s.curPulse + 1
        dataValid := if s.curPulse + 1 = cfg.nbChannel then true else s.dataValid } := by
  rw [decodePpmFrame, if_neg hcur, if_pos hdata]

theorem decode_bad (hcur : s.curPulse ≠ cfg.nbChannel)
    (hdata : cfg.isData (time - s.lastPulseTime) = false) :
    decodePpmFrame cfg true time s =
      { s with lastPulseTime := time, curPulse := cfg.nbChannel, dataValid := false } := by
  rw [decodePpmFrame, if_neg hcur, hdata, if_neg Bool.false_ne_true]

/-- The decoder waits, or falls back to waiting. -/
theorem good_waiting {ls : List UInt32} {length : UInt32} {s' : State}
    (hcur : s'.curPulse = cfg.nbChannel) (hvalid : s'.dataValid = false)
    (hfold : (ls ++ [length]).foldl (nextPulse cfg) cfg.nbChannel = cfg.nbChannel)
    (hfill : cfg.isData length = true →
      ls.foldl (nextPulse cfg) cfg.nbChannel + 1 ≠ cfg.nbChannel) :
    Good cfg (ls ++ [length]) s' where
  cur_eq := hcur.trans hfold.symm
  cur_le := Nat.le_of_eq hcur
  cur_of_valid _ := hcur
  valid_iff := by
    rw [hvalid]
    exact iff_of_false Bool.false_ne_true (not_filled hfill)
  collected h := by
    rcases h with h | h
    · exact absurd hcur (Nat.ne_of_lt h)
    · rw [hvalid] at h
      exact absurd h Bool.false_ne_true

theorem good_sync {ls : List UInt32} (h : Good cfg ls s) (hcur : s.curPulse = cfg.nbChannel)
    (hsync : cfg.isSync (time - s.lastPulseTime) = true) :
    Good cfg (ls ++ [time - s.lastPulseTime]) (decodePpmFrame cfg true time s) := by
  rw [decode_sync hcur hsync]
  have hwaits : ls.foldl (nextPulse cfg) cfg.nbChannel = cfg.nbChannel := h.cur_eq.symm.trans hcur
  refine ⟨?_, Nat.zero_le _, fun hvalid => absurd hvalid Bool.false_ne_true, ?_, fun _ => ?_⟩
  · rw [List.foldl_append, hwaits, List.foldl_cons, List.foldl_nil, nextPulse, if_pos rfl,
      if_pos hsync]
  · refine iff_of_false Bool.false_ne_true (not_filled fun _ => ?_)
    rw [hwaits]
    omega
  · exact ⟨ls, _, [], rfl, hsync, hwaits, fun d hd => absurd hd List.not_mem_nil, rfl,
      fun i d hd => by simp at hd⟩

theorem good_data {ls : List UInt32} (h : Good cfg ls s) (hcur : s.curPulse ≠ cfg.nbChannel)
    (hdata : cfg.isData (time - s.lastPulseTime) = true) :
    Good cfg (ls ++ [time - s.lastPulseTime]) (decodePpmFrame cfg true time s) := by
  rw [decode_data hcur hdata]
  have hlt : s.curPulse < cfg.nbChannel := Nat.lt_of_le_of_ne h.cur_le hcur
  have hinvalid : s.dataValid = false :=
    Bool.eq_false_iff.mpr fun hvalid => hcur (h.cur_of_valid hvalid)
  obtain ⟨past, blank, ds, hls, hblank, hwaits, hds, hlength, hpulses⟩ := h.collected (Or.inl hlt)
  refine ⟨?_, hlt, ?_, ?_, fun _ => ?_⟩
  · rw [List.foldl_append, ← h.cur_eq, List.foldl_cons, List.foldl_nil, nextPulse, if_neg hcur,
      if_pos hdata]
  · rw [hinvalid]
    intro hvalid
    split at hvalid
    · next hfull => exact hfull
    · exact absurd hvalid Bool.false_ne_true
  · rw [hinvalid]
    constructor
    · intro hvalid
      split at hvalid
      · next hfull => exact ⟨ls, _, rfl, hdata, h.cur_eq ▸ hfull⟩
      · exact absurd hvalid Bool.false_ne_true
    · rintro ⟨front, d, heq, -, hfill⟩
      obtain ⟨rfl, -⟩ := List.append_inj' heq rfl
      rw [← h.cur_eq] at hfill
      exact if_pos hfill
  · refine ⟨past, blank, ds ++ [time - s.lastPulseTime], ?_, hblank, hwaits, ?_, ?_, ?_⟩
    · rw [hls, List.append_assoc, List.cons_append]
    · intro d hd
      rcases List.mem_append.mp hd with hd | hd
      · exact hds d hd
      · rw [List.mem_singleton.mp hd]
        exact hdata
    · rw [List.length_append, hlength, List.length_singleton]
    · intro i d hd
      rcases Nat.lt_trichotomy i ds.length with hi | rfl | hi
      · rw [List.getElem?_append_left hi] at hd
        exact (Function.update_of_ne (by omega) _ _).trans (hpulses i d hd)
      · rw [List.getElem?_concat_length] at hd
        rw [hlength, ← Option.some.inj hd]
        exact Function.update_self _ _ _
      · rw [List.getElem?_eq_none (by rw [List.length_append, List.length_singleton]; omega)] at hd
        exact absurd hd.symm (Option.some_ne_none d)

theorem good_pulse {ls : List UInt32} (h : Good cfg ls s) (time : UInt32) :
    Good cfg (ls ++ [time - s.lastPulseTime]) (decodePpmFrame cfg true time s) := by
  have hfold : (ls ++ [time - s.lastPulseTime]).foldl (nextPulse cfg) cfg.nbChannel =
      nextPulse cfg s.curPulse (time - s.lastPulseTime) := by
    rw [List.foldl_append, ← h.cur_eq]
    rfl
  rcases Decidable.em (s.curPulse = cfg.nbChannel) with hcur | hcur
  · cases hsync : cfg.isSync (time - s.lastPulseTime) with
    | true => exact good_sync h hcur hsync
    | false =>
        rw [decode_noise hcur hsync]
        refine good_waiting hcur rfl ?_ fun _ => ?_
        · rw [hfold, nextPulse, if_pos hcur, hsync, if_neg Bool.false_ne_true]
        · rw [← h.cur_eq]
          omega
  · cases hdata : cfg.isData (time - s.lastPulseTime) with
    | true => exact good_data h hcur hdata
    | false =>
        rw [decode_bad hcur hdata]
        refine good_waiting rfl rfl ?_ fun hdata' => ?_
        · rw [hfold, nextPulse, if_neg hcur, hdata, if_neg Bool.false_ne_true]
        · rw [hdata] at hdata'
          exact absurd hdata' Bool.false_ne_true

end

/-- The decoder in a run. -/
theorem good_run (cfg : Config) (events : List Event) :
    Good cfg (lengths 0 events) (run (step cfg) (init cfg) events) ∧
      (run (step cfg) (init cfg) events).lastPulseTime = lastTime 0 events := by
  refine run_history (fun events s => Good cfg (lengths 0 events) s ∧
    s.lastPulseTime = lastTime 0 events) ?_ ⟨good_init, rfl⟩ events
  rintro events s event ⟨h, htime⟩
  rw [lengths_append, lastTime_append]
  cases event with
  | pulse time =>
      refine ⟨?_, ?_⟩
      · rw [← htime]
        exact good_pulse h time
      · change (decodePpmFrame cfg true time s).lastPulseTime = time
        rw [decodePpmFrame]
        split_ifs <;> rfl
  | handled =>
      rw [lengths, lengths, List.append_nil]
      exact ⟨⟨h.cur_eq, h.cur_le, h.cur_of_valid, h.valid_iff, h.collected⟩, htime⟩

end

/-! ### Frames -/

section

variable {cfg}

theorem endsInFrame_append {ls past frame : List UInt32} {length : UInt32} :
    EndsInFrame cfg (ls ++ [length]) past frame ↔
      (∃ blank, cfg.isSync blank = true ∧ ls = past ++ blank :: frame) ∧
        cfg.isSync length = true ∧ frame.length = cfg.nbChannel ∧
          ∀ d ∈ frame, cfg.isData d = true := by
  constructor
  · rintro ⟨⟨blank, blank', hblank, hblank', heq⟩, hlength, hdata⟩
    obtain ⟨rfl, hlast⟩ := List.append_inj' heq rfl
    obtain rfl := List.singleton_inj.mp hlast
    exact ⟨⟨blank, hblank, rfl⟩, hblank', hlength, hdata⟩
  · rintro ⟨⟨blank, hblank, rfl⟩, hsync, hlength, hdata⟩
    exact ⟨⟨blank, length, hblank, hsync, rfl⟩, hlength, hdata⟩

/-- Where the decoder waited, a blank and a full frame leave valid data. -/
theorem Good.dataValid {s : State} {past frame : List UInt32} {blank : UInt32}
    (h : Good cfg (past ++ blank :: frame) s) (hblank : cfg.isSync blank = true)
    (hwaits : Waits cfg past) (hpos : 0 < cfg.nbChannel) (hlength : frame.length = cfg.nbChannel)
    (hdata : ∀ d ∈ frame, cfg.isData d = true) : s.dataValid = true := by
  have hne : frame ≠ [] := List.ne_nil_of_length_pos (by omega)
  obtain ⟨front, d, rfl⟩ := (List.eq_nil_or_concat' frame).resolve_left hne
  rw [List.length_append, List.length_singleton] at hlength
  refine h.valid_iff.mpr ⟨past ++ blank :: front, d, by rw [List.append_assoc, List.cons_append],
    hdata d (List.mem_append_right _ (List.mem_singleton_self d)), ?_⟩
  have hfront : front.foldl (nextPulse cfg) 0 = 0 + front.length :=
    foldl_nextPulse (fun d hd => hdata d (List.mem_append_left _ hd)) (by omega)
  rw [List.foldl_append, List.foldl_cons, hwaits, nextPulse, if_pos rfl, if_pos hblank, hfront]
  omega

theorem sets_iff {events : List Event} {time : UInt32} :
    Sets cfg events time ↔
      (run (step cfg) (init cfg) events).curPulse = cfg.nbChannel ∧
        cfg.isSync (time - lastTime 0 events) = true ∧
          (run (step cfg) (init cfg) events).dataValid = true := by
  rw [← (good_run cfg events).2, Sets, decodePpmFrame]
  split_ifs <;> simp_all

theorem right_iff (events : List Event) (time : UInt32) :
    RightAt cfg events time ↔ WaitedFor cfg (lengths 0 (events ++ [.pulse time])) := by
  obtain ⟨h, htime⟩ := good_run cfg events
  have hls : lengths 0 (events ++ [.pulse time]) =
      lengths 0 events ++ [time - lastTime 0 events] := lengths_append 0 events [.pulse time]
  have hcollected : Sets cfg events time → ∃ past ds,
      EndsInFrame cfg (lengths 0 events ++ [time - lastTime 0 events]) past ds ∧
        Waits cfg past ∧
        ∀ i d, ds[i]? = some d → (run (step cfg) (init cfg) events).pulses i = d.toUInt16 := by
    intro hsets
    obtain ⟨hcur, hsync, hvalid⟩ := sets_iff.mp hsets
    obtain ⟨past, blank, ds, heq, hblank, hwaits, hdata, hlength, hpulses⟩ :=
      h.collected (Or.inr hvalid)
    exact ⟨past, ds, endsInFrame_append.mpr ⟨⟨blank, hblank, heq⟩, hsync, hlength.trans hcur,
      hdata⟩, hwaits, hpulses⟩
  have hunique : ∀ {past frame past' frame' : List UInt32},
      EndsInFrame cfg (lengths 0 events ++ [time - lastTime 0 events]) past frame →
      EndsInFrame cfg (lengths 0 events ++ [time - lastTime 0 events]) past' frame' →
      past = past' ∧ frame = frame' := by
    intro past frame past' frame' hframe hframe'
    obtain ⟨⟨blank, -, heq⟩, -, hlength, -⟩ := endsInFrame_append.mp hframe
    obtain ⟨⟨blank', -, heq'⟩, -, hlength', -⟩ := endsInFrame_append.mp hframe'
    obtain ⟨rfl, hcons⟩ := List.append_inj' (heq.symm.trans heq') (by simp [hlength, hlength'])
    exact ⟨rfl, (List.cons.inj hcons).2⟩
  have hkept : Sets cfg events time →
      (run (step cfg) (init cfg) (events ++ [.pulse time])).pulses =
        (run (step cfg) (init cfg) events).pulses := by
    intro hsets
    obtain ⟨hcur, hsync, -⟩ := sets_iff.mp hsets
    rw [← htime] at hsync
    rw [run_append, run_cons, run_nil, step, decode_sync hcur hsync]
  rw [RightAt, hls]
  constructor
  · rintro ⟨hiff, hpulses⟩ past frame hframe
    have hsets := hiff.mpr ⟨past, frame, hframe⟩
    obtain ⟨past', frame', hframe', hwaits, -⟩ := hcollected hsets
    obtain ⟨rfl, rfl⟩ := hunique hframe hframe'
    obtain ⟨front, d, -, -, hfill⟩ := h.valid_iff.mp (sets_iff.mp hsets).2.2
    refine ⟨hwaits, by omega, fun d hd => ?_⟩
    obtain ⟨i, hi⟩ := List.getElem?_of_mem hd
    rw [← hpulses past frame hframe hsets i d hi]
    exact UInt16.toNat_lt _
  · intro hwaited
    refine ⟨⟨fun hsets => ?_, ?_⟩, fun past frame hframe hsets i d hd => ?_⟩
    · obtain ⟨past, frame, hframe, -⟩ := hcollected hsets
      exact ⟨past, frame, hframe⟩
    · rintro ⟨past, frame, hframe⟩
      obtain ⟨hwaits, hpos, -⟩ := hwaited past frame hframe
      obtain ⟨⟨blank, hblank, heq⟩, hsync, hlength, hdata⟩ := endsInFrame_append.mp hframe
      rw [heq] at h
      have hvalid := h.dataValid hblank hwaits hpos hlength hdata
      exact sets_iff.mpr ⟨h.cur_of_valid hvalid, hsync, hvalid⟩
    · obtain ⟨past', frame', hframe', -, hpulses⟩ := hcollected hsets
      obtain ⟨rfl, rfl⟩ := hunique hframe hframe'
      obtain ⟨-, -, hfits⟩ := hwaited past frame hframe
      rw [hkept hsets, hpulses i d hd, UInt32.toNat_toUInt16]
      exact Nat.mod_eq_of_lt (hfits d (List.mem_of_getElem? hd))

end

/-- A pulse is decoded rightly, in every run, if and only if the decoder waited for a blank when
the frame that ends with it began. -/
theorem ppm_right_iff (events : List Event) (time : UInt32) :
    (run (step cfg) (init cfg) events).curPulse ≤ cfg.nbChannel ∧
      (RightAt cfg events time ↔ WaitedFor cfg (lengths 0 (events ++ [.pulse time]))) :=
  ⟨(good_run cfg events).1.cur_le, right_iff events time⟩

theorem twoChannels_lt : 2 < 256 := by decide

/-- Two channels, with the ranges of a radio at one tick for a microsecond. -/
def twoChannels : Config where
  dataMinLen := 900
  dataMaxLen := 2100
  syncMinLen := 5000
  syncMaxLen := 15000
  nbChannel := 2
  nbChannel_lt := twoChannels_lt

/-- A frame with one channel only, and a frame whose first blank ends the short one. -/
def shortAndGood : List Event := [.pulse 6000, .pulse 7000, .pulse 13000, .pulse 14000, .pulse 15500]

/-- The good frame is lost. -/
theorem frame_lost_after_short : ¬RightAt twoChannels shortAndGood 21500 := by
  intro h
  have hframe : EndsInFrame twoChannels (lengths 0 (shortAndGood ++ [.pulse 21500])) [6000, 1000]
      [1000, 1500] :=
    ⟨⟨6000, 6000, by decide, by decide, by decide⟩, by decide,
      List.forall_mem_cons.mpr ⟨by decide, List.forall_mem_singleton.mpr (by decide)⟩⟩
  have hsets : Sets twoChannels shortAndGood 21500 := h.1.mpr ⟨_, _, hframe⟩
  have hnot : ¬Sets twoChannels shortAndGood 21500 := by
    rw [Sets]
    decide
  exact hnot hsets

end Paparazzi.Radio.Ppm
