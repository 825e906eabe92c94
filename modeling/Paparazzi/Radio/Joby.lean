import Paparazzi.Radio.RcLoss

/-!
The Joby receiver, `joby.c`: a frame is a start tuple and a tuple for every channel, and a tuple is
a 16-bit value and its complement, with the high bytes first.
-/

namespace Paparazzi.Radio.Joby

open Paparazzi.Library.Machine

/-- `(high << 8) | low`, as an `int16_t`. -/
def word (high low : UInt8) : Int16 := .ofBitVec (high.toBitVec ++ low.toBitVec)

def magicStart : Int16 := 13999

def magicHigh : UInt8 := 0x36

inductive ParserByte where
  | readingLowByte
  | readingHighByte
  deriving DecidableEq, Repr

inductive ParserInverted where
  | readingNormal
  | readingInverted
  deriving DecidableEq, Repr

/-- `struct rc_joby_parser_state` for `n + 1` channels; the channel -1 is `none`. -/
structure Parser (n : ℕ) where
  currentByte : ParserByte
  currentInverted : ParserInverted
  currentChannel : Option (Fin (n + 1))
  parserInvertedBuf : Int16
  parserNormalBuf : Int16
  highByteBuf : UInt8
  lowByteBuf : UInt8
  errorCounter : UInt32

/-- `called`: the last byte made the callback run. -/
structure State (n : ℕ) where
  parser : Parser n
  radio : RcLoss.RadioControl (n + 1)
  called : Bool

variable {n : ℕ}

def radioControlImplInit (s : State n) : State n :=
  { s with
    parser := { s.parser with
      currentByte := .readingHighByte
      currentInverted := .readingNormal
      currentChannel := none }
    called := false }

section

variable (signs : Fin (n + 1) → Int16)

/-- What is done with the values of the radio when the last channel has been stored. -/
def finishFrame (radio : RcLoss.RadioControl (n + 1)) : RcLoss.RadioControl (n + 1) :=
  { radio with frameCpt := (radio.frameCpt + 1) % 256, status := .ok, timeSinceLastFrame := 0 }

def storeChannel (i : Fin (n + 1)) (value : Int16) (radio : RcLoss.RadioControl (n + 1)) :
    RcLoss.RadioControl (n + 1) :=
  { radio with values := Function.update radio.values i (signs i * value) }

def handleChannel (s : State n) : State n :=
  if s.parser.parserNormalBuf = magicStart then
    { s with parser := { s.parser with currentChannel := some 0 } }
  else
    match s.parser.currentChannel with
    | none =>
        { s with parser := { s.parser with
            currentByte := .readingHighByte, currentInverted := .readingNormal } }
    | some i =>
        let radio := storeChannel signs i s.parser.parserNormalBuf s.radio
        if h : i.val + 1 < n + 1 then
          { s with
            parser := { s.parser with currentChannel := some ⟨i.val + 1, h⟩ }
            radio := radio }
        else
          { s with
            parser := { s.parser with currentChannel := none }
            radio := finishFrame radio
            called := true }

def handleTuple (s : State n) : State n :=
  match s.parser.currentInverted with
  | .readingNormal =>
      { s with parser := { s.parser with
          parserNormalBuf := word s.parser.highByteBuf s.parser.lowByteBuf
          currentInverted := .readingInverted } }
  | .readingInverted =>
      let inverted := word s.parser.highByteBuf s.parser.lowByteBuf
      if s.parser.parserNormalBuf = ~~~ inverted then
        handleChannel signs { s with parser := { s.parser with
          parserInvertedBuf := inverted, currentInverted := .readingNormal } }
      else
        { s with parser := { s.parser with
            parserInvertedBuf := inverted
            currentInverted := .readingNormal
            currentByte := .readingHighByte
            currentChannel := none
            errorCounter := s.parser.errorCounter + 1 } }

/-- `rc_joby_parse`; the byte is kept as an `uint8_t`. -/
def rcJobyParse (s : State n) (c : UInt8) : State n :=
  match s.parser.currentByte with
  | .readingHighByte =>
      let p := { s.parser with highByteBuf := c }
      if p.currentChannel ≠ none ∨ c = magicHigh ∨ p.currentInverted = .readingInverted then
        { s with parser := { p with currentByte := .readingLowByte }, called := false }
      else { s with parser := p, called := false }
  | .readingLowByte =>
      handleTuple signs { s with
        parser := { s.parser with lowByteBuf := c, currentByte := .readingHighByte }
        called := false }

end

/-! ### Words and tuples -/

theorem word_inj {h l h' l' : UInt8} : word h l = word h' l' ↔ h = h' ∧ l = l' := by
  constructor
  · intro heq
    have hbits : h.toBitVec ++ l.toBitVec = h'.toBitVec ++ l'.toBitVec :=
      congrArg Int16.toBitVec heq
    have hhigh := congrArg (BitVec.extractLsb' 8 8) hbits
    have hlow := congrArg (BitVec.extractLsb' 0 8) hbits
    rw [BitVec.extractLsb'_append_eq_left, BitVec.extractLsb'_append_eq_left] at hhigh
    rw [BitVec.extractLsb'_append_eq_right, BitVec.extractLsb'_append_eq_right] at hlow
    exact ⟨UInt8.toBitVec_inj.mp hhigh, UInt8.toBitVec_inj.mp hlow⟩
  · rintro ⟨rfl, rfl⟩
    rfl

theorem not_word (h l : UInt8) : ~~~ word h l = word (~~~ h) (~~~ l) := by
  apply Int16.toBitVec_inj.mp
  simp only [word, Int16.toBitVec_not, UInt8.toBitVec_not]
  exact BitVec.not_append

theorem word_eq_not_word_iff {h l h' l' : UInt8} :
    word h l = ~~~ word h' l' ↔ h' = ~~~ h ∧ l' = ~~~ l := by
  rw [not_word, word_inj]
  constructor
  · rintro ⟨rfl, rfl⟩
    exact ⟨UInt8.not_not.symm, UInt8.not_not.symm⟩
  · rintro ⟨rfl, rfl⟩
    exact ⟨UInt8.not_not.symm, UInt8.not_not.symm⟩

structure Bytes where
  high : UInt8
  low : UInt8
  deriving DecidableEq, Repr

def Bytes.value (w : Bytes) : Int16 := word w.high w.low

def start : Bytes := ⟨magicHigh, 0xAF⟩

def tuple (w : Bytes) : List UInt8 := [w.high, w.low, ~~~ w.high, ~~~ w.low]

/-- A start tuple and the tuples of these values. -/
def frame (ws : List Bytes) : List UInt8 := tuple start ++ ws.flatMap tuple

theorem value_eq_magicStart_iff {w : Bytes} : w.value = magicStart ↔ w = start := by
  have hstart : magicStart = word start.high start.low := by decide
  rw [hstart, Bytes.value, word_inj]
  constructor
  · rintro ⟨hhigh, hlow⟩
    exact congrArg₂ Bytes.mk hhigh hlow
  · rintro rfl
    exact ⟨rfl, rfl⟩

/-! ### One byte -/

structure AtBoundary (s : State n) : Prop where
  byte : s.parser.currentByte = .readingHighByte
  inverted : s.parser.currentInverted = .readingNormal

section

variable {signs : Fin (n + 1) → Int16} {s : State n} {c : UInt8}

theorem parse_high (hbyte : s.parser.currentByte = .readingHighByte)
    (hread : s.parser.currentChannel ≠ none ∨ c = magicHigh ∨
      s.parser.currentInverted = .readingInverted) :
    rcJobyParse signs s c =
      { s with
        parser := { s.parser with highByteBuf := c, currentByte := .readingLowByte }
        called := false } := by
  rw [rcJobyParse, hbyte]
  exact if_pos hread

/-- Between frames everything but the first byte of a start tuple is passed over. -/
theorem parse_skip (hs : AtBoundary s) (hchannel : s.parser.currentChannel = none)
    (hc : c ≠ magicHigh) :
    rcJobyParse signs s c =
      { s with parser := { s.parser with highByteBuf := c }, called := false } := by
  rw [rcJobyParse, hs.byte]
  refine if_neg ?_
  rintro (hne | heq | hinverted)
  · exact hne hchannel
  · exact hc heq
  · exact nomatch hs.inverted.symm.trans hinverted

theorem parse_low_normal (hbyte : s.parser.currentByte = .readingLowByte)
    (hinverted : s.parser.currentInverted = .readingNormal) :
    rcJobyParse signs s c =
      { s with
        parser := { s.parser with
          lowByteBuf := c
          currentByte := .readingHighByte
          parserNormalBuf := word s.parser.highByteBuf c
          currentInverted := .readingInverted }
        called := false } := by
  rw [rcJobyParse, hbyte]
  simp only [handleTuple, hinverted]

/-- The parser behind a tuple of which the second word is the complement of the first. -/
def loaded (s : State n) (c : UInt8) : State n :=
  { s with
    parser := { s.parser with
      lowByteBuf := c
      currentByte := .readingHighByte
      parserInvertedBuf := word s.parser.highByteBuf c
      currentInverted := .readingNormal }
    called := false }

/-- The parser behind another tuple. -/
def failed (s : State n) (c : UInt8) : State n :=
  { s with
    parser := { s.parser with
      lowByteBuf := c
      currentByte := .readingHighByte
      parserInvertedBuf := word s.parser.highByteBuf c
      currentInverted := .readingNormal
      currentChannel := none
      errorCounter := s.parser.errorCounter + 1 }
    called := false }

theorem parse_low_inverted (hbyte : s.parser.currentByte = .readingLowByte)
    (hinverted : s.parser.currentInverted = .readingInverted) :
    rcJobyParse signs s c =
      if s.parser.parserNormalBuf = ~~~ word s.parser.highByteBuf c then
        handleChannel signs (loaded s c)
      else failed s c := by
  rw [rcJobyParse, hbyte]
  simp only [handleTuple, hinverted]
  rfl

/-- What a good tuple with this value comes to: a start, a value that nothing waits for, the value
of a channel, or that of the last one. -/
inductive Handled (signs : Fin (n + 1) → Int16) (value : Int16) (s s' : State n) : Prop where
  | start (hstart : value = magicStart) (hchannel : s'.parser.currentChannel = some 0)
      (hradio : s'.radio = s.radio) (hcalled : s'.called = false)
  | passed (hvalue : value ≠ magicStart) (hnone : s.parser.currentChannel = none)
      (hchannel : s'.parser.currentChannel = none) (hradio : s'.radio = s.radio)
      (hcalled : s'.called = false)
  | next (hvalue : value ≠ magicStart) (i : Fin (n + 1))
      (hsome : s.parser.currentChannel = some i) (h : i.val + 1 < n + 1)
      (hchannel : s'.parser.currentChannel = some ⟨i.val + 1, h⟩)
      (hradio : s'.radio = storeChannel signs i value s.radio) (hcalled : s'.called = false)
  | last (hvalue : value ≠ magicStart) (i : Fin (n + 1))
      (hsome : s.parser.currentChannel = some i) (h : i.val + 1 = n + 1)
      (hchannel : s'.parser.currentChannel = none)
      (hradio : s'.radio = finishFrame (storeChannel signs i value s.radio))
      (hcalled : s'.called = true)

theorem handled_handleChannel (signs : Fin (n + 1) → Int16) (s : State n) (c : UInt8) :
    AtBoundary (handleChannel signs (loaded s c)) ∧
      Handled signs s.parser.parserNormalBuf s (handleChannel signs (loaded s c)) := by
  rcases Decidable.em (s.parser.parserNormalBuf = magicStart) with hstart | hstart
  · have heq : handleChannel signs (loaded s c) =
        { loaded s c with parser := { (loaded s c).parser with currentChannel := some 0 } } :=
      if_pos hstart
    rw [heq]
    exact ⟨⟨rfl, rfl⟩, .start hstart rfl rfl rfl⟩
  · rw [handleChannel, if_neg (show (loaded s c).parser.parserNormalBuf ≠ magicStart from hstart)]
    have hloaded : (loaded s c).parser.currentChannel = s.parser.currentChannel := rfl
    rw [hloaded]
    cases hchannel : s.parser.currentChannel with
    | none => exact ⟨⟨rfl, rfl⟩, .passed hstart hchannel (hloaded.trans hchannel) rfl rfl⟩
    | some i =>
        dsimp only
        split_ifs with h
        · exact ⟨⟨rfl, rfl⟩, .next hstart i hchannel h rfl rfl rfl⟩
        · exact ⟨⟨rfl, rfl⟩, .last hstart i hchannel (by omega) rfl rfl rfl⟩

/-! ### The bytes of a tuple -/

/-- The bytes of the tuple that has been begun. -/
inductive Begun (s : State n) : List UInt8 → Prop where
  | none : AtBoundary s → Begun s []
  | high : s.parser.currentByte = .readingLowByte → s.parser.currentInverted = .readingNormal →
      Begun s [s.parser.highByteBuf]
  | normal (high low : UInt8) : s.parser.currentByte = .readingHighByte →
      s.parser.currentInverted = .readingInverted → s.parser.parserNormalBuf = word high low →
      Begun s [high, low]
  | inverted (high low : UInt8) : s.parser.currentByte = .readingLowByte →
      s.parser.currentInverted = .readingInverted → s.parser.parserNormalBuf = word high low →
      Begun s [high, low, s.parser.highByteBuf]

/-- The last byte of a tuple: its value is handled, or it is corrupted. -/
inductive Finished (signs : Fin (n + 1) → Int16) (s s' : State n) : List UInt8 → Prop where
  | good (w : Bytes) : Handled signs w.value s s' → Finished signs s s' (tuple w)
  | corrupted (bytes : List UInt8) (hchannel : s'.parser.currentChannel = none)
      (hradio : s'.radio = s.radio) (hcalled : s'.called = false) :
      (∀ w, bytes ≠ tuple w) → Finished signs s s' bytes

/-- One byte behind these bytes of a tuple: it is passed over, it goes on with the tuple, or it ends
it. -/
inductive Parsed (signs : Fin (n + 1) → Int16) (s s' : State n) (c : UInt8) :
    List UInt8 → Prop where
  | skipped (hnone : s.parser.currentChannel = none) (hc : c ≠ magicHigh)
      (hboundary : AtBoundary s') (hchannel : s'.parser.currentChannel = none)
      (hradio : s'.radio = s.radio) (hcalled : s'.called = false) : Parsed signs s s' c []
  | more (bytes : List UInt8) (hbegun : Begun s' (bytes ++ [c]))
      (hchannel : s'.parser.currentChannel = s.parser.currentChannel)
      (hradio : s'.radio = s.radio) (hcalled : s'.called = false) : Parsed signs s s' c bytes
  | ended (bytes : List UInt8) (hlength : bytes.length = 3) (hboundary : AtBoundary s')
      (hfinished : Finished signs s s' (bytes ++ [c])) : Parsed signs s s' c bytes

theorem parsed_rcJobyParse (signs : Fin (n + 1) → Int16) (c : UInt8) {bytes : List UInt8}
    (hs : Begun s bytes) :
    Parsed signs s (rcJobyParse signs s c) c bytes := by
  cases hs with
  | none hboundary =>
      rcases Decidable.em (s.parser.currentChannel ≠ none ∨ c = magicHigh) with hread | hskip
      · rw [parse_high hboundary.byte (hread.imp_right Or.inl)]
        exact .more [] (.high rfl hboundary.inverted) rfl rfl rfl
      · rw [not_or, not_not] at hskip
        rw [parse_skip hboundary hskip.1 hskip.2]
        exact .skipped hskip.1 hskip.2 ⟨hboundary.byte, hboundary.inverted⟩ hskip.1 rfl rfl
  | high hbyte hinverted =>
      rw [parse_low_normal hbyte hinverted]
      exact .more _ (.normal _ _ rfl rfl rfl) rfl rfl rfl
  | normal high low hbyte hinverted hword =>
      rw [parse_high hbyte (Or.inr (Or.inr hinverted))]
      exact .more _ (.inverted _ _ rfl hinverted hword) rfl rfl rfl
  | inverted high low hbyte hinverted hword =>
      have hmatch : s.parser.parserNormalBuf = ~~~ word s.parser.highByteBuf c ↔
          s.parser.highByteBuf = ~~~ high ∧ c = ~~~ low := by
        rw [hword, word_eq_not_word_iff]
      rw [parse_low_inverted hbyte hinverted]
      split_ifs with hcomplement
      · obtain ⟨hboundary, hhandled⟩ := handled_handleChannel signs s c
        have htuple : [high, low, s.parser.highByteBuf] ++ [c] = tuple ⟨high, low⟩ := by
          rw [(hmatch.mp hcomplement).1, (hmatch.mp hcomplement).2]
          rfl
        rw [hword] at hhandled
        exact .ended _ rfl hboundary (htuple ▸ .good ⟨high, low⟩ hhandled)
      · refine .ended _ rfl ⟨rfl, rfl⟩ (.corrupted _ rfl rfl rfl fun w heq => hcomplement ?_)
        simp only [tuple, List.cons_append, List.nil_append, List.cons.injEq, and_true] at heq
        obtain ⟨rfl, rfl, hhigh, hlow⟩ := heq
        exact hmatch.mpr ⟨hhigh, hlow⟩

end

/-! ### The callback -/

section

variable (signs : Fin (n + 1) → Int16) (s₀ : State n)

def after (bytes : List UInt8) : State n :=
  run (rcJobyParse signs) (radioControlImplInit s₀) bytes

/-- A frame of values other than the start value, behind bytes that end with a tuple. -/
def Framed (bytes : List UInt8) (ws : List Bytes) : Prop :=
  ∃ before, bytes = before ++ frame ws ∧ AtBoundary (after signs s₀ before) ∧
    ∀ w ∈ ws, w.value ≠ magicStart

/-- What the parser knows of the bytes so far. -/
structure Past (bytes : List UInt8) (s : State n) : Prop where
  begun : ∃ done rest, bytes = done ++ rest ∧ AtBoundary (after signs s₀ done) ∧ Begun s rest ∧
    ∀ i, s.parser.currentChannel = some i → ∃ ws, Framed signs s₀ done ws ∧ ws.length = i
  called : s.called = true → ∃ ws, Framed signs s₀ bytes ws ∧ ws.length = n + 1

variable {signs s₀}

theorem after_append (bytes rest : List UInt8) :
    after signs s₀ (bytes ++ rest) = run (rcJobyParse signs) (after signs s₀ bytes) rest :=
  run_append _ _ _ _

theorem Framed.tuple {bytes : List UInt8} {ws : List Bytes} (h : Framed signs s₀ bytes ws)
    {w : Bytes} (hw : w.value ≠ magicStart) : Framed signs s₀ (bytes ++ tuple w) (ws ++ [w]) := by
  obtain ⟨before, rfl, hboundary, hvalues⟩ := h
  refine ⟨before, ?_, hboundary, ?_⟩
  · rw [frame, frame, List.flatMap_append, List.flatMap_singleton, List.append_assoc,
      List.append_assoc]
  · exact List.forall_mem_append.mpr ⟨hvalues, List.forall_mem_singleton.mpr hw⟩

theorem framed_start {bytes : List UInt8} (h : AtBoundary (after signs s₀ bytes)) {w : Bytes}
    (hw : w.value = magicStart) : Framed signs s₀ (bytes ++ tuple w) [] := by
  rw [value_eq_magicStart_iff.mp hw]
  exact ⟨bytes, by rw [frame, List.flatMap_nil, List.append_nil], h, fun _ hw => nomatch hw⟩

theorem past_of_boundary {bytes : List UInt8} {s : State n} (hs : after signs s₀ bytes = s)
    (h : AtBoundary s)
    (hchannel : ∀ i, s.parser.currentChannel = some i →
      ∃ ws, Framed signs s₀ bytes ws ∧ ws.length = i)
    (hcalled : s.called = true → ∃ ws, Framed signs s₀ bytes ws ∧ ws.length = n + 1) :
    Past signs s₀ bytes s :=
  ⟨⟨bytes, [], (List.append_nil _).symm, hs ▸ h, .none h, hchannel⟩, hcalled⟩

/-- Behind a tuple nothing is known of a channel or of a call that are not there. -/
theorem past_of_none {bytes : List UInt8} {s : State n} (hs : after signs s₀ bytes = s)
    (h : AtBoundary s) (hnone : s.parser.currentChannel = none) (hcalled : s.called = false) :
    Past signs s₀ bytes s := by
  refine past_of_boundary hs h (fun i hi => ?_) fun htrue => ?_
  · exact nomatch hnone.symm.trans hi
  · exact nomatch hcalled.symm.trans htrue

theorem past_of_finished {done bytes : List UInt8} {s s' : State n}
    (hs' : after signs s₀ (done ++ bytes) = s') (hdone : AtBoundary (after signs s₀ done))
    (hchannel : ∀ i, s.parser.currentChannel = some i →
      ∃ ws, Framed signs s₀ done ws ∧ ws.length = i)
    (hboundary : AtBoundary s') (h : Finished signs s s' bytes) :
    Past signs s₀ (done ++ bytes) s' := by
  cases h with
  | good w hhandled =>
      cases hhandled with
      | start hstart hsome hradio hcalled =>
          refine past_of_boundary hs' hboundary (fun i hi => ?_) fun htrue => ?_
          · obtain rfl := Option.some.inj (hsome.symm.trans hi)
            exact ⟨[], framed_start hdone hstart, rfl⟩
          · exact nomatch hcalled.symm.trans htrue
      | passed hvalue hnone hnone' hradio hcalled => exact past_of_none hs' hboundary hnone' hcalled
      | next hvalue i hsome hlt hsome' hradio hcalled =>
          refine past_of_boundary hs' hboundary (fun j hj => ?_) fun htrue => ?_
          · obtain ⟨ws, hframed, hlength⟩ := hchannel i hsome
            obtain rfl := Option.some.inj (hsome'.symm.trans hj)
            exact ⟨ws ++ [w], hframed.tuple hvalue, by rw [List.length_append, hlength]; rfl⟩
          · exact nomatch hcalled.symm.trans htrue
      | last hvalue i hsome hlast hnone hradio hcalled =>
          refine past_of_boundary hs' hboundary (fun j hj => ?_) fun _ => ?_
          · exact nomatch hnone.symm.trans hj
          · obtain ⟨ws, hframed, hlength⟩ := hchannel i hsome
            refine ⟨ws ++ [w], hframed.tuple hvalue, ?_⟩
            rw [List.length_append, hlength]
            exact hlast
  | corrupted bytes hnone hradio hcalled _ => exact past_of_none hs' hboundary hnone hcalled

theorem past_after (signs : Fin (n + 1) → Int16) (s₀ : State n) (bytes : List UInt8) :
    Past signs s₀ bytes (after signs s₀ bytes) := by
  induction bytes using List.reverseRecOn with
  | nil => exact past_of_none rfl ⟨rfl, rfl⟩ rfl rfl
  | append_singleton bytes c ih =>
      obtain ⟨⟨done, rest, rfl, hdone, hbegun, hchannel⟩, -⟩ := ih
      have hnext : after signs s₀ (done ++ rest ++ [c]) =
          rcJobyParse signs (after signs s₀ (done ++ rest)) c := after_append _ _
      have hparsed := parsed_rcJobyParse signs c hbegun
      rw [← hnext] at hparsed
      cases hparsed with
      | skipped hnone hc hboundary hnone' hradio hcalled =>
          exact past_of_none rfl hboundary hnone' hcalled
      | more bytes hbegun' hchannel' hradio hcalled =>
          refine ⟨⟨done, rest ++ [c], List.append_assoc _ _ _, hdone, hbegun', ?_⟩, fun htrue => ?_⟩
          · rw [hchannel']
            exact hchannel
          · exact nomatch hcalled.symm.trans htrue
      | ended bytes hlength hboundary hfinished =>
          rw [List.append_assoc] at hboundary hfinished ⊢
          exact past_of_finished rfl hdone hchannel hboundary hfinished

end

end Paparazzi.Radio.Joby
