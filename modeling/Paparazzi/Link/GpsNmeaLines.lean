import Mathlib
import Paparazzi.Link.GpsNmea

/-!
What the NMEA parser does with every line: its reads stay in the buffer, and an incomplete
sentence changes nothing exactly where it ends before the first field that is stored.
-/

namespace Paparazzi.Link.Nmea

open Paparazzi.Library
open Paparazzi.Library.EarlyReturn
open Paparazzi.Library.Machine

/-! ### Scanning a line -/

/-- The fields that are still complete from `i` on. -/
def commas (chars : List UInt8) (i : Nat) : Nat := (chars.drop i).count comma

/-- The buffer holds the line and the terminating zero. -/
structure Loaded (chars : List UInt8) (s : GpsNmea) : Prop where
  msgLen : s.msgLen = chars.length
  length_lt : chars.length < nmeaMaxLen
  msgBuf : ∀ i (h : i < chars.length), s.msgBuf i = chars[i]
  terminator : s.msgBuf chars.length = 0

section

variable {chars : List UInt8} {s : GpsNmea}

theorem commas_cons {i : Nat} (h : i < chars.length) :
    commas chars i = (if chars[i] = comma then 1 else 0) + commas chars (i + 1) := by
  rw [commas, List.drop_eq_getElem_cons h, List.count_cons, commas, Nat.add_comm]
  simp

theorem commas_of_length_le {i : Nat} (h : chars.length ≤ i) : commas chars i = 0 := by
  rw [commas, List.drop_eq_nil_of_le h]
  rfl

/-- A scan ends behind the next comma, or the line is incomplete. -/
theorem scan_spec (h : Loaded chars s) {i : Nat} (hi : i ≤ chars.length) :
    match scan s.msgBuf s.msgLen i with
    | .ok j => j ≤ chars.length ∧ commas chars j + 1 = commas chars i
    | .error stop => stop = .incomplete ∧ commas chars i = 0 := by
  have hlt := h.length_lt
  induction hrest : chars.length - i generalizing i with
  | zero =>
      obtain rfl : i = chars.length := by omega
      have hnot : s.msgBuf chars.length ≠ comma := by
        rw [h.terminator]
        decide
      rw [scan, if_pos hlt, if_neg hnot, if_pos (by have := h.msgLen; omega)]
      exact ⟨rfl, commas_of_length_le (Nat.le_refl _)⟩
  | succ rest ih =>
      have hin : i < chars.length := by omega
      rw [scan, if_pos (by omega), h.msgBuf i hin]
      by_cases hcomma : chars[i] = comma
      · rw [if_pos hcomma]
        refine ⟨hin, ?_⟩
        rw [commas_cons hin, if_pos hcomma, Nat.add_comm]
      · have hsame : commas chars i = commas chars (i + 1) := by
          rw [commas_cons hin, if_neg hcomma, Nat.zero_add]
        rw [if_neg hcomma, hsame]
        by_cases hlast : s.msgLen ≤ i + 1
        · rw [if_pos hlast]
          exact ⟨rfl, commas_of_length_le (h.msgLen ▸ hlast)⟩
        · rw [if_neg hlast]
          exact ih (by omega) (by omega)

/-- The zero behind the line ends every string in it. -/
theorem cString_spec (h : Loaded chars s) {i : Nat} (hi : i ≤ chars.length) :
    ∃ bytes, cString s.msgBuf i = .ok bytes := by
  have hlt := h.length_lt
  induction hrest : chars.length - i generalizing i with
  | zero =>
      obtain rfl : i = chars.length := by omega
      exact ⟨[], by rw [cString, if_pos hlt, if_pos h.terminator]⟩
  | succ rest ih =>
      rw [cString, if_pos (by omega)]
      by_cases hzero : s.msgBuf i = 0
      · exact ⟨[], by rw [if_pos hzero]⟩
      · obtain ⟨bytes, hbytes⟩ := ih (i := i + 1) (by omega) (by omega)
        exact ⟨s.msgBuf i :: bytes, by rw [if_neg hzero, hbytes]; rfl⟩

/-- The first two fields are empty. -/
def StartsEmpty (chars : List UInt8) : Prop := chars[6]? = some comma ∧ chars[7]? = some comma

theorem msgBuf_eq_comma_iff (h : Loaded chars s) {i : Nat} (hi : i ≤ chars.length) :
    s.msgBuf i = comma ↔ chars[i]? = some comma := by
  by_cases hin : i < chars.length
  · rw [h.msgBuf i hin, List.getElem?_eq_getElem hin, Option.some_inj]
  · obtain rfl : i = chars.length := by omega
    rw [h.terminator, List.getElem?_eq_none (Nat.le_refl _)]
    exact iff_of_false (by decide) (by simp)

end

/-! ### Triples of the parsers -/

section

variable {R : Type} {num : Numbers R} {useLatLong : Bool} {navUtmZone0 : UInt8}
  {chars : List UInt8} {nmea : GpsNmea} {p : World → Prop}
  {stop : Stop → World → Prop} {α : Type} {result : α → World → Prop}

/-- The line and its length are those of `nmea`, and `p` holds. -/
def AtLine (nmea : GpsNmea) (p : World → Prop) (w : World) : Prop :=
  w.nmea.msgBuf = nmea.msgBuf ∧ w.nmea.msgLen = nmea.msgLen ∧ p w

theorem Loaded.of_atLine (h : Loaded chars nmea) {w : World} (hw : AtLine nmea p w) :
    Loaded chars w.nmea := by
  obtain ⟨hbuf, hlen, -⟩ := hw
  exact ⟨hlen.trans h.msgLen, h.length_lt, by rw [hbuf]; exact h.msgBuf,
    by rw [hbuf]; exact h.terminator⟩

theorem nextField_bind (h : Loaded chars nmea) {i : Nat} (hi : i ≤ chars.length)
    {f : Nat → Parse α} (hstop : commas chars i = 0 → ∀ w, p w → stop .incomplete w)
    (hf : ∀ j, j ≤ chars.length → commas chars j + 1 = commas chars i →
      scan nmea.msgBuf nmea.msgLen i = .ok j → Triple (AtLine nmea p) (f j) result stop) :
    Triple (AtLine nmea p) (nextField i >>= f) result stop := by
  have hscan := scan_spec h hi
  apply Triple.bind fun j w => scan nmea.msgBuf nmea.msgLen i = .ok j ∧ AtLine nmea p w
  · apply Triple.reading
    intro w hw
    rw [hw.1, hw.2.1]
    rcases hread : scan nmea.msgBuf nmea.msgLen i with e | j
    · rw [hread] at hscan
      obtain ⟨rfl, hzero⟩ := hscan
      exact hstop hzero w hw.2.2
    · exact ⟨rfl, hw⟩
  · rintro j w ⟨hread, hw⟩
    rw [hread] at hscan
    exact hf j hscan.1 hscan.2 hread w hw

theorem text_bind (h : Loaded chars nmea) {i : Nat} (hi : i ≤ chars.length)
    {f : List UInt8 → Parse α}
    (hf : ∀ bytes, cString nmea.msgBuf i = .ok bytes →
      Triple (AtLine nmea p) (f bytes) result stop) :
    Triple (AtLine nmea p) (text i >>= f) result stop := by
  obtain ⟨bytes, hbytes⟩ := cString_spec h hi
  apply Triple.bind fun b w => b = bytes ∧ AtLine nmea p w
  · apply Triple.reading
    intro w hw
    rw [hw.1, hbytes]
    exact ⟨rfl, hw⟩
  · rintro b w ⟨rfl, hw⟩
    exact hf _ hbytes w hw

theorem charAt_bind (h : Loaded chars nmea) {i : Nat} (hi : i ≤ chars.length)
    {f : UInt8 → Parse α} (hf : ∀ c, Triple (AtLine nmea p) (f c) result stop) :
    Triple (AtLine nmea p) (charAt i >>= f) result stop := by
  have hlt := h.length_lt
  apply Triple.bind fun _ => AtLine nmea p
  · apply Triple.reading
    intro w hw
    rw [charOf, if_pos (by omega)]
    exact hw
  · exact hf

theorem setGps_bind {q : World → Prop} {g : GpsState → GpsState} {f : Unit → Parse α}
    (hg : ∀ w, p w → q { w with gps := g w.gps })
    (hf : Triple (AtLine nmea q) (f ()) result stop) :
    Triple (AtLine nmea p) (setGps g >>= f) result stop := by
  apply Triple.bind fun _ => AtLine nmea q
  · exact Triple.writing fun w hw => ⟨hw.1, hw.2.1, hg w hw.2.2⟩
  · exact fun _ => hf

theorem setPosAvailable_bind {q : World → Prop} {available : Bool} {f : Unit → Parse α}
    (hg : ∀ w, p w → q { w with nmea := { w.nmea with posAvailable := available } })
    (hf : Triple (AtLine nmea q) (f ()) result stop) :
    Triple (AtLine nmea p) (setPosAvailable available >>= f) result stop := by
  apply Triple.bind fun _ => AtLine nmea q
  · exact Triple.writing fun w hw => ⟨hw.1, hw.2.1, hg w hw.2.2⟩
  · exact fun _ => hf

theorem setGps_triple {g : GpsState → GpsState} {result : Unit → World → Prop}
    (hg : ∀ w, p w → result () { w with gps := g w.gps }) :
    Triple (AtLine nmea p) (setGps g) result stop :=
  Triple.writing fun w hw => hg w hw.2.2

theorem skipEmpty_bind (h : Loaded chars nmea) (hlen : 6 ≤ chars.length) {f : Unit → Parse α}
    (hstop : StartsEmpty chars → ∀ w, p w → stop .empty w)
    (hf : ¬ StartsEmpty chars → Triple (AtLine nmea p) (f ()) result stop) :
    Triple (AtLine nmea p) (skipEmpty 6 >>= f) result stop := by
  apply Triple.bind fun _ w => ¬ StartsEmpty chars ∧ AtLine nmea p w
  · apply Triple.reading
    intro w hw
    have hloaded := h.of_atLine hw
    have hsix := msgBuf_eq_comma_iff hloaded hlen
    have hread (i : Nat) (hi : i < nmeaMaxLen) : charOf w.nmea i = .ok (w.nmea.msgBuf i) :=
      if_pos hi
    rw [hread 6 (by decide), hread 7 (by decide)]
    dsimp only
    by_cases hfirst : w.nmea.msgBuf 6 = comma
    · have hin : 7 ≤ chars.length := by
        have hsome := hsix.mp hfirst
        have := (List.getElem?_eq_some_iff.mp hsome).1
        omega
      have hseven := msgBuf_eq_comma_iff hloaded hin
      rw [if_pos hfirst]
      by_cases hsecond : w.nmea.msgBuf 7 = comma
      · rw [if_pos hsecond]
        exact hstop ⟨hsix.mp hfirst, hseven.mp hsecond⟩ w hw.2.2
      · rw [if_neg hsecond]
        exact ⟨fun hempty => hsecond (hseven.mpr hempty.2), hw⟩
    · rw [if_neg hfirst]
      exact ⟨fun hempty => hfirst (hsix.mpr hempty.1), hw⟩
  · rintro _ w ⟨hnot, hw⟩
    exact hf hnot w hw

/-- The parser reads in bounds and keeps what its writes keep. -/
theorem parsePosition_keeps (h : Loaded chars nmea) (hlen : 6 ≤ chars.length) (tow : UInt32) :
    Triple (AtLine nmea fun w => w.gps.tow = tow) (parsePosition num useLatLong navUtmZone0 6)
      (fun _ w => w.gps.tow = tow) (fun e w => e ≠ .outOfBounds ∧ w.gps.tow = tow) := by
  have hstop : ∀ w : World, w.gps.tow = tow →
      (Stop.incomplete ≠ .outOfBounds ∧ w.gps.tow = tow) := fun w hw => ⟨by decide, hw⟩
  unfold parsePosition
  refine nextField_bind h hlen (fun _ => hstop) fun lat hlat _ _ => ?_
  refine text_bind h hlat fun _ _ => ?_
  refine nextField_bind h hlat (fun _ => hstop) fun ns hns _ _ => ?_
  refine charAt_bind h hns fun _ => ?_
  refine setGps_bind (q := fun w => w.gps.tow = tow) (fun _ hw => hw) ?_
  refine nextField_bind h hns (fun _ => hstop) fun lon hlon _ _ => ?_
  refine text_bind h hlon fun _ _ => ?_
  refine nextField_bind h hlon (fun _ => hstop) fun ew hew _ _ => ?_
  refine charAt_bind h hew fun _ => ?_
  refine setGps_bind (q := fun w => w.gps.tow = tow) (fun _ hw => hw) ?_
  refine nextField_bind h hew (fun _ => hstop) fun status hstatus _ _ => ?_
  refine charAt_bind h hstatus fun _ => ?_
  refine setPosAvailable_bind (q := fun w => w.gps.tow = tow) (fun _ hw => hw) ?_
  refine nextField_bind h hstatus (fun _ => hstop) fun sats hsats _ _ => ?_
  refine text_bind h hsats fun _ _ => ?_
  refine setGps_bind (q := fun w => w.gps.tow = tow) (fun _ hw => hw) ?_
  refine nextField_bind h hsats (fun _ => hstop) fun hdop hhdop _ _ => ?_
  refine text_bind h hhdop fun _ _ => ?_
  refine setGps_bind (q := fun w => w.gps.tow = tow) (fun _ hw => hw) ?_
  refine nextField_bind h hhdop (fun _ => hstop) fun alt halt _ _ => ?_
  refine text_bind h halt fun _ _ => ?_
  refine setGps_bind (q := fun w => w.gps.tow = tow) (fun _ hw => hw) ?_
  refine nextField_bind h halt (fun _ => hstop) fun units hunits _ _ => ?_
  refine nextField_bind h hunits (fun _ => hstop) fun geoid hgeoid _ _ => ?_
  refine nextField_bind h hgeoid (fun _ => hstop) fun separation hseparation _ _ => ?_
  refine nextField_bind h hseparation (fun _ => hstop) fun age hage _ _ => ?_
  refine nextField_bind h hage (fun _ => hstop) fun _ _ _ _ => ?_
  refine setGps_bind (q := fun w => w.gps.tow = tow) (fun w hw => ?_) ?_
  · cases useLatLong <;> exact hw
  · exact setGps_triple fun _ hw => hw

def Unwritten (gps : GpsState) (pos : Bool) (w : World) : Prop :=
  w.gps = gps ∧ w.nmea.posAvailable = pos

/-- Under the condition nothing is written, else the field has got the value. -/
def Writes {β : Type} (skips : Prop) (field : GpsState → β) (value : β) (gps : GpsState)
    (pos : Bool) (w : World) : Prop :=
  (skips → Unwritten gps pos w) ∧ (¬ skips → field w.gps = value)

/-- The parser reads in bounds, and does the writes. -/
def Parses {β : Type} (nmea : GpsNmea) (m : Parse Unit) (skips : Prop) (field : GpsState → β)
    (value : β) : Prop :=
  ∀ gps pos, Triple (AtLine nmea (Unwritten gps pos)) m
    (fun _ => Writes skips field value gps pos)
    (fun e w => e ≠ .outOfBounds ∧ Writes skips field value gps pos w)

/-- Only the empty packet leaves the time of week as it is. -/
theorem parses_parseNmeaGPGGA (num : Numbers R) (useLatLong : Bool) (navUtmZone0 : UInt8)
    (h : Loaded chars nmea) (hlen : 6 ≤ chars.length) :
    ∃ tow, Parses nmea (parseNmeaGPGGA num useLatLong navUtmZone0) (StartsEmpty chars)
      GpsState.tow tow := by
  obtain ⟨bytes, hbytes⟩ := cString_spec h hlen
  refine ⟨num.tow (num.strtod bytes), fun gps pos => ?_⟩
  unfold parseNmeaGPGGA
  refine skipEmpty_bind h hlen (fun hempty w hw => ⟨by decide, fun _ => hw,
    fun hnot => absurd hempty hnot⟩) fun hnot => ?_
  refine text_bind h hlen fun field hfield => ?_
  obtain rfl : bytes = field := Except.ok.inj (hbytes.symm.trans hfield)
  refine setGps_bind (q := fun w => w.gps.tow = num.tow (num.strtod bytes)) (fun _ _ => rfl) ?_
  intro w hw
  have hkeeps : Triple _ (parsePosition num useLatLong navUtmZone0 6) _ _ :=
    parsePosition_keeps h hlen (num.tow (num.strtod bytes))
  have hrest := hkeeps w hw
  rcases hrun : runProg (parsePosition num useLatLong navUtmZone0 6) w with ⟨e | a, w'⟩
  · rw [hrun] at hrest
    exact ⟨hrest.1, fun hempty => absurd hempty hnot, fun _ => hrest.2⟩
  · rw [hrun] at hrest
    exact ⟨fun hempty => absurd hempty hnot, fun _ => hrest⟩

/-- The field behind the sixth comma. -/
def speedField (s : GpsNmea) : Except Stop (List UInt8) := do
  let i ← scan s.msgBuf s.msgLen 6
  let i ← scan s.msgBuf s.msgLen i
  let i ← scan s.msgBuf s.msgLen i
  let i ← scan s.msgBuf s.msgLen i
  let i ← scan s.msgBuf s.msgLen i
  let i ← scan s.msgBuf s.msgLen i
  cString s.msgBuf i

/-- Nothing is stored unless the sixth comma is there, and then the speed is. -/
theorem parses_parseNmeaGPRMC (num : Numbers R) (h : Loaded chars nmea)
    (hlen : 6 ≤ chars.length) :
    ∃ gspeed, Parses nmea (parseNmeaGPRMC num) (StartsEmpty chars ∨ commas chars 6 < 6)
      GpsState.gspeed gspeed := by
  refine ⟨match speedField nmea with
    | .ok bytes => num.gspeed (num.strtod bytes)
    | .error _ => 0, fun gps pos => ?_⟩
  have hstop (hfew : commas chars 6 < 6) (w : World) (hw : Unwritten gps pos w) :
      Stop.incomplete ≠ .outOfBounds ∧
        Writes (StartsEmpty chars ∨ commas chars 6 < 6) GpsState.gspeed
          (match speedField nmea with
            | .ok bytes => num.gspeed (num.strtod bytes)
            | .error _ => 0) gps pos w :=
    ⟨by decide, fun _ => hw, fun hnot => absurd (.inr hfew) hnot⟩
  unfold parseNmeaGPRMC
  refine skipEmpty_bind h hlen (fun hempty w hw => ⟨by decide, fun _ => hw,
    fun hnot => absurd (.inl hempty) hnot⟩) fun hnot => ?_
  refine nextField_bind h hlen (fun hzero w hw => hstop (by omega) w hw)
    fun warning hwarning hc1 hs1 => ?_
  refine nextField_bind h hwarning (fun hzero w hw => hstop (by omega) w hw)
    fun lat hlat hc2 hs2 => ?_
  refine nextField_bind h hlat (fun hzero w hw => hstop (by omega) w hw)
    fun ns hns hc3 hs3 => ?_
  refine nextField_bind h hns (fun hzero w hw => hstop (by omega) w hw)
    fun lon hlon hc4 hs4 => ?_
  refine nextField_bind h hlon (fun hzero w hw => hstop (by omega) w hw)
    fun ew hew hc5 hs5 => ?_
  refine nextField_bind h hew (fun hzero w hw => hstop (by omega) w hw)
    fun speed hspeed hc6 hs6 => ?_
  refine text_bind h hspeed fun field hfield => ?_
  have hvalue : speedField nmea = .ok field := by
    simp only [speedField, bind, Except.bind, hs1, hs2, hs3, hs4, hs5, hs6]
    exact hfield
  have hstored : ¬ (StartsEmpty chars ∨ commas chars 6 < 6) := by
    rintro (hempty | hfew)
    · exact hnot hempty
    · omega
  simp only [hvalue]
  refine setGps_bind (q := fun w => w.gps.gspeed = num.gspeed (num.strtod field))
    (fun _ _ => rfl) ?_
  refine nextField_bind h hspeed (fun _ w hw => ⟨by decide, fun hun => absurd hun hstored,
    fun _ => hw⟩) fun course hcourse _ _ => ?_
  refine text_bind h hcourse fun _ _ => ?_
  exact setGps_triple fun _ hw => ⟨fun hun => absurd hun hstored, fun _ => hw⟩

theorem parseNmeaGPGSA_keeps (h : Loaded chars nmea) (hlen : 6 ≤ chars.length) :
    Triple (AtLine nmea fun _ => True) (parseNmeaGPGSA num) (fun _ _ => True)
      (fun e _ => e ≠ .outOfBounds ∧ True) := by
  have hstop : Stop.incomplete ≠ .outOfBounds ∧ True := ⟨by decide, trivial⟩
  unfold parseNmeaGPGSA
  refine skipEmpty_bind h hlen (fun _ _ _ => ⟨by decide, trivial⟩) fun _ => ?_
  refine nextField_bind h hlen (fun _ _ _ => hstop) fun fix hfix _ _ => ?_
  refine text_bind h hfix fun _ _ => ?_
  refine setGps_bind (q := fun _ => True) (fun _ _ => trivial) ?_
  refine nextField_bind h hfix (fun _ _ _ => hstop) fun _ _ _ _ => ?_
  exact Triple.pure fun _ _ => trivial

end

/-! ### A line -/

section

variable {R : Type} {num : Numbers R} {useLatLong : Bool} {navUtmZone0 : UInt8} {nmea : GpsNmea}

/-- A sentence that ends before the last field that its parser asks for. -/
def Incomplete (chars : List UInt8) : Prop :=
  chars.take 5 = gpgga ∧ commas chars 6 < 13 ∨ chars.take 5 = gprmc ∧ commas chars 6 < 7

/-- No parser, an empty packet, or an end before the first field that is stored. -/
def Harmless (chars : List UInt8) : Prop :=
  chars.length ≤ 5 ∨ StartsEmpty chars ∨ chars.take 5 = gprmc ∧ commas chars 6 < 6

/-- With any contents of `gps` and `pos_available`, parsing the line leaves them. -/
def LeavesUnchanged (num : Numbers R) (useLatLong : Bool) (navUtmZone0 : UInt8)
    (nmea : GpsNmea) : Prop :=
  ∀ gps pos, ∃ w, nmeaParseMsg num useLatLong navUtmZone0
    ⟨gps, { nmea with posAvailable := pos }⟩ = some w ∧ Unwritten gps pos w

@[simp] theorem length_line (s : GpsNmea) : s.line.length = s.msgLen := by simp [GpsNmea.line]

theorem loaded_terminated (h : nmea.msgLen < nmeaMaxLen) : Loaded nmea.line nmea.terminated := by
  refine ⟨(length_line nmea).symm, by rwa [length_line], fun i hi => ?_, ?_⟩
  · rw [length_line] at hi
    simp [GpsNmea.terminated, GpsNmea.line, Function.update_of_ne (Nat.ne_of_lt hi)]
  · rw [length_line]
    exact Function.update_self _ _ _

theorem isSentence_iff {tag : List UInt8} :
    nmea.isSentence tag = true ↔ 5 < nmea.line.length ∧ nmea.line.take 5 = tag := by
  rw [GpsNmea.isSentence, length_line, Bool.and_eq_true, decide_eq_true_iff, decide_eq_true_iff]
  refine and_congr_right fun hlen => ?_
  rw [GpsNmea.line, ← List.map_take, List.take_range, Nat.min_eq_left (by omega)]

/-- The state in which the parser starts. -/
def started (nmea : GpsNmea) (gps : GpsState) (pos : Bool) : World :=
  ⟨gps, { nmea.terminated with posAvailable := pos }⟩

theorem atLine_started {p : World → Prop} (gps : GpsState) (pos : Bool)
    (h : p (started nmea gps pos)) : AtLine nmea.terminated p (started nmea gps pos) :=
  ⟨rfl, rfl, h⟩

theorem nmeaParseMsg_of_run {w w' : World} {r : Except Stop Unit}
    (h : w.nmea.msgLen < nmeaMaxLen)
    (hrun : runProg (sentenceParser num useLatLong navUtmZone0 w.nmea)
      { w with nmea := w.nmea.terminated } = (r, w')) (hr : r ≠ .error .outOfBounds) :
    nmeaParseMsg num useLatLong navUtmZone0 w =
      some { w' with nmea := { w'.nmea with msgLen := 0 } } := by
  rw [nmeaParseMsg, if_pos h, hrun]
  cases r with
  | ok a => rfl
  | error e =>
      cases e with
      | outOfBounds => exact absurd rfl hr
      | empty => rfl
      | incomplete => rfl

theorem nmeaParseMsg_of_triple (h : nmea.msgLen < nmeaMaxLen) (gps : GpsState) (pos : Bool)
    {p q : World → Prop}
    (htriple : Triple (AtLine nmea.terminated p) (sentenceParser num useLatLong navUtmZone0 nmea)
      (fun _ => q) (fun e w => e ≠ .outOfBounds ∧ q w)) (hp : p (started nmea gps pos)) :
    ∃ w, nmeaParseMsg num useLatLong navUtmZone0 ⟨gps, { nmea with posAvailable := pos }⟩ =
      some { w with nmea := { w.nmea with msgLen := 0 } } ∧ q w := by
  have hrun := htriple _ (atLine_started gps pos hp)
  rcases hend : runProg (sentenceParser num useLatLong navUtmZone0 nmea) (started nmea gps pos) with
    ⟨e | a, w⟩ <;> rw [hend] at hrun
  · exact ⟨w, nmeaParseMsg_of_run h hend fun he => hrun.1 (Except.error.inj he), hrun.2⟩
  · exact ⟨w, nmeaParseMsg_of_run h hend (by rintro ⟨⟩), hrun⟩

/-- What a line does to `gps` is seen in one field. -/
theorem leavesUnchanged_iff_of_parses {β : Type} (h : nmea.msgLen < nmeaMaxLen) {skips : Prop}
    {field : GpsState → β} {value : β} (hne : ∃ gps, field gps ≠ value)
    (hparses : Parses nmea.terminated (sentenceParser num useLatLong navUtmZone0 nmea) skips field
      value) : LeavesUnchanged num useLatLong navUtmZone0 nmea ↔ skips := by
  constructor
  · intro hleaves
    by_contra hskips
    obtain ⟨gps, hgps⟩ := hne
    obtain ⟨w, hw, hwrites⟩ := nmeaParseMsg_of_triple h gps false (hparses gps false) ⟨rfl, rfl⟩
    obtain ⟨w', hw', hsame, -⟩ := hleaves gps false
    obtain rfl := Option.some.inj (hw.symm.trans hw')
    apply hgps
    rw [← hwrites.2 hskips]
    exact congrArg field hsame.symm
  · intro hskips gps pos
    obtain ⟨w, hw, hwrites⟩ := nmeaParseMsg_of_triple h gps pos (hparses gps pos) ⟨rfl, rfl⟩
    exact ⟨_, hw, hwrites.1 hskips⟩

def resetGps : GpsState := ⟨⟨0, 0, 0⟩, ⟨0, 0, 0⟩, ⟨0, 0, 0, 0⟩, 0, 0, 0, 0, 0, 0, 0, 0, 0⟩

/-- An incomplete sentence is harmless exactly where it ends before what is stored. -/
theorem leavesUnchanged_iff (h : nmea.msgLen < nmeaMaxLen) (hincomplete : Incomplete nmea.line) :
    LeavesUnchanged num useLatLong navUtmZone0 nmea ↔ Harmless nmea.line := by
  have hloaded := loaded_terminated h
  by_cases hlen : nmea.line.length ≤ 5
  · have hno (tag : List UInt8) : nmea.isSentence tag = false :=
      Bool.eq_false_iff.mpr fun htag => by
        have := (isSentence_iff.mp htag).1
        omega
    refine iff_of_true (fun gps pos => ?_) (.inl hlen)
    have hnone : sentenceParser num useLatLong navUtmZone0 nmea = pure () := by
      simp [sentenceParser, hno]
    obtain ⟨w, hw, hkept⟩ := nmeaParseMsg_of_triple (p := Unwritten gps pos)
      (q := Unwritten gps pos) h gps pos
      (by rw [hnone]; exact Triple.pure fun _ hw => hw.2.2) ⟨rfl, rfl⟩
    exact ⟨_, hw, hkept⟩
  · have hmore : 6 ≤ nmea.line.length := by omega
    rcases hincomplete with ⟨htag, -⟩ | ⟨htag, -⟩
    · have hother : nmea.line.take 5 ≠ gprmc := by
        rw [htag]
        decide
      have hparser : sentenceParser num useLatLong navUtmZone0 nmea =
          parseNmeaGPGGA num useLatLong navUtmZone0 := by
        have hno : ¬ nmea.isSentence gprmc = true := fun hrmc => hother (isSentence_iff.mp hrmc).2
        rw [sentenceParser, if_neg hno, if_pos (isSentence_iff.mpr ⟨by omega, htag⟩)]
      obtain ⟨tow, hparses⟩ := parses_parseNmeaGPGGA num useLatLong navUtmZone0 hloaded hmore
      rw [← hparser] at hparses
      rw [leavesUnchanged_iff_of_parses h ⟨{ resetGps with tow := tow + 1 }, by simp⟩ hparses]
      constructor
      · exact fun hempty => .inr (.inl hempty)
      · rintro (hshort | hempty | ⟨hrmc, -⟩)
        · omega
        · exact hempty
        · exact absurd hrmc hother
    · have hparser : sentenceParser num useLatLong navUtmZone0 nmea = parseNmeaGPRMC num := by
        rw [sentenceParser, if_pos (isSentence_iff.mpr ⟨by omega, htag⟩)]
      obtain ⟨gspeed, hparses⟩ := parses_parseNmeaGPRMC num hloaded hmore
      rw [← hparser] at hparses
      rw [leavesUnchanged_iff_of_parses h ⟨{ resetGps with gspeed := gspeed + 1 }, by simp⟩
        hparses]
      constructor
      · rintro (hempty | hfew)
        · exact .inr (.inl hempty)
        · exact .inr (.inr ⟨htag, hfew⟩)
      · rintro (hshort | hempty | ⟨-, hfew⟩)
        · omega
        · exact .inl hempty
        · exact .inr hfew

/-- No line makes a parser read behind the buffer. -/
theorem nmeaParseMsg_eq_some (num : Numbers R) (useLatLong : Bool) (navUtmZone0 : UInt8)
    (h : nmea.msgLen < nmeaMaxLen) (gps : GpsState) :
    ∃ w, nmeaParseMsg num useLatLong navUtmZone0 ⟨gps, nmea⟩ = some w ∧ w.nmea.msgLen = 0 := by
  have hloaded := loaded_terminated h
  have hfits : ∃ p q, Triple (AtLine nmea.terminated p)
      (sentenceParser num useLatLong navUtmZone0 nmea) (fun _ => q)
      (fun e w => e ≠ .outOfBounds ∧ q w) ∧ p (started nmea gps nmea.posAvailable) := by
    have hmore {tag : List UInt8} (htag : nmea.isSentence tag = true) : 6 ≤ nmea.line.length :=
      (isSentence_iff.mp htag).1
    unfold sentenceParser
    split_ifs with hrmc hgga hgsa
    · obtain ⟨gspeed, hparses⟩ := parses_parseNmeaGPRMC num hloaded (hmore hrmc)
      exact ⟨_, _, hparses gps nmea.posAvailable, rfl, rfl⟩
    · obtain ⟨tow, hparses⟩ := parses_parseNmeaGPGGA num useLatLong navUtmZone0 hloaded (hmore hgga)
      exact ⟨_, _, hparses gps nmea.posAvailable, rfl, rfl⟩
    · exact ⟨fun _ => True, fun _ => True, parseNmeaGPGSA_keeps hloaded (hmore hgsa), trivial⟩
    · exact ⟨fun _ => True, fun _ => True, Triple.pure fun _ _ => trivial, trivial⟩
  obtain ⟨p, q, htriple, hp⟩ := hfits
  obtain ⟨w, hw, -⟩ := nmeaParseMsg_of_triple h gps nmea.posAvailable htriple hp
  exact ⟨_, hw, rfl⟩

end

/-! ### Lines in the stream -/

/-- The buffer holds bytes that came one after the other, without an end of line between. -/
def OneLine (consumed : List UInt8) (s : GpsNmea) : Prop :=
  (∀ c ∈ s.line, isEol c = false) ∧ s.line <:+: consumed

structure Holding (consumed : List UInt8) (s : GpsNmea) : Prop where
  msgLen_lt : s.msgLen < nmeaMaxLen
  full : s.msgLen = nmeaMaxLen - 1 → s.msgAvailable = true
  oneLine : OneLine consumed s
  recent : s.msgAvailable = false → s.line <:+ consumed

section

variable {consumed : List UInt8} {s : GpsNmea}

theorem line_store (c : UInt8) :
    GpsNmea.line { s with
      msgBuf := Function.update s.msgBuf s.msgLen c, msgLen := s.msgLen + 1 } = s.line ++ [c] := by
  have hold : (List.range s.msgLen).map (Function.update s.msgBuf s.msgLen c) = s.line := by
    apply List.map_congr_left
    intro i hi
    exact Function.update_of_ne (Nat.ne_of_lt (List.mem_range.mp hi)) _ _
  simp [GpsNmea.line, List.range_succ, hold]

theorem isInfix_concat {chars : List UInt8} (h : chars <:+: consumed) (c : UInt8) :
    chars <:+: consumed ++ [c] := h.trans ⟨[], [c], by simp⟩

theorem isSuffix_concat {chars : List UInt8} (h : chars <:+ consumed) (c : UInt8) :
    chars ++ [c] <:+ consumed ++ [c] := by
  obtain ⟨earlier, rfl⟩ := h
  exact ⟨earlier, by simp⟩

theorem holding_of_empty (hlen : s.msgLen = 0) (consumed : List UInt8) : Holding consumed s := by
  have hline : s.line = [] := by simp [GpsNmea.line, hlen]
  constructor
  · rw [hlen]
    decide
  · rw [hlen]
    intro h
    cases h
  · simp [OneLine, hline]
  · simp [hline]

/-- The byte is stored. -/
def GpsNmea.stored (s : GpsNmea) (c : UInt8) : GpsNmea :=
  { s with msgBuf := Function.update s.msgBuf s.msgLen c, msgLen := s.msgLen + 1 }

theorem nmeaParseChar_eq (hroom : s.msgLen < nmeaMaxLen - 1) (c : UInt8) :
    nmeaParseChar c s =
      if s.msgLen = 0 ∧ (isEol c || c = '$'.toUInt8) then s
      else if isEol c then { s with msgAvailable := true }
      else if nmeaMaxLen - 1 ≤ s.msgLen + 1 then { s.stored c with msgAvailable := true }
      else s.stored c := by
  unfold nmeaParseChar
  split_ifs with hskip heol hfull
  · rfl
  · exact if_neg (Nat.not_le.mpr hroom)
  · exact if_pos hfull
  · exact if_neg hfull

/-- A byte is skipped before a line, ends the line or is stored behind it. -/
theorem holding_nmeaParseChar (h : Holding consumed s) (hfree : s.msgAvailable = false)
    (c : UInt8) : Holding (consumed ++ [c]) (nmeaParseChar c s) := by
  have hroom : s.msgLen < nmeaMaxLen - 1 := by
    have hlt := h.msgLen_lt
    have hnot : s.msgLen ≠ nmeaMaxLen - 1 := fun heq => by
      rw [h.full heq] at hfree
      cases hfree
    omega
  have hsuffix := isSuffix_concat (h.recent hfree) c
  have hstored (heol : isEol c = false) : OneLine (consumed ++ [c]) (s.stored c) := by
    refine ⟨?_, ?_⟩
    · rw [GpsNmea.stored, line_store]
      intro d hd
      rcases List.mem_append.mp hd with hold | hnew
      · exact h.oneLine.1 d hold
      · rwa [List.mem_singleton.mp hnew]
    · rw [GpsNmea.stored, line_store]
      exact hsuffix.isInfix
  have hlen : (s.stored c).msgLen = s.msgLen + 1 := rfl
  rw [nmeaParseChar_eq hroom]
  split_ifs with hskip heol hfull
  · exact holding_of_empty hskip.1 _
  · exact ⟨h.msgLen_lt, fun _ => rfl, ⟨h.oneLine.1, isInfix_concat h.oneLine.2 c⟩,
      fun hno => by cases hno⟩
  · exact ⟨Nat.add_lt_of_lt_sub hroom, fun _ => rfl, hstored (Bool.eq_false_iff.mpr heol),
      fun hno => by cases hno⟩
  · refine ⟨Nat.add_lt_of_lt_sub hroom, fun heq => absurd (Nat.le_of_eq heq.symm) hfull,
      hstored (Bool.eq_false_iff.mpr heol), fun _ => ?_⟩
    rw [GpsNmea.stored, line_store]
    exact hsuffix

end

/-! ### Runs -/

section

variable {R : Type}

theorem received_append (es fs : List Event) :
    received (es ++ fs) = received es ++ received fs := by
  induction es with
  | nil => rfl
  | cons e es ih =>
      cases e with
      | receive c => exact congrArg (c :: ·) ih
      | readChar => exact ih
      | parseMsg nbSecRem nbSec => exact ih

/-- What holds after the events: no access behind the buffer, and a buffer with one line of the
bytes taken from the device. -/
def Collecting (es : List Event) (s : Option Receiver) : Prop :=
  ∃ r, s = some r ∧ ∃ consumed, received es = consumed ++ r.device ∧ Holding consumed r.world.nmea

theorem collecting_step (num : Numbers R) (useLatLong : Bool) (navUtmZone0 : UInt8)
    (es : List Event) (s : Option Receiver) (e : Event) (h : Collecting es s) :
    Collecting (es ++ [e]) (receiverStep num useLatLong navUtmZone0 s e) := by
  obtain ⟨⟨⟨gps, nmea⟩, device⟩, rfl, consumed, hdevice, hholding⟩ := h
  simp only [Collecting, received_append, hdevice]
  cases e with
  | receive c =>
      exact ⟨_, rfl, consumed, List.append_assoc _ _ _, hholding⟩
  | readChar =>
      cases device with
      | nil => exact ⟨⟨⟨gps, nmea⟩, []⟩, rfl, consumed, by simp [received], hholding⟩
      | cons c device =>
          cases hfree : nmea.msgAvailable with
          | true =>
              refine ⟨⟨⟨gps, nmea⟩, c :: device⟩, ?_, consumed, ?_, hholding⟩
              · simp [receiverStep, hfree]
              · simp [received]
          | false =>
              refine ⟨⟨⟨gps, nmeaParseChar c nmea⟩, device⟩, ?_, consumed ++ [c], ?_,
                holding_nmeaParseChar hholding hfree c⟩
              · simp [receiverStep, hfree]
              · simp [received]
  | parseMsg nbSecRem nbSec =>
      cases hfree : nmea.msgAvailable with
      | true =>
          obtain ⟨w, hw, hlen⟩ := nmeaParseMsg_eq_some num useLatLong navUtmZone0
            hholding.msgLen_lt gps
          have hempty : (afterMsg nbSecRem nbSec w).nmea.msgLen = 0 := hlen
          refine ⟨⟨afterMsg nbSecRem nbSec w, device⟩, ?_, consumed, ?_, holding_of_empty hempty _⟩
          · simp [receiverStep, hfree, hw]
          · simp [received]
      | false =>
          refine ⟨⟨⟨gps, nmea⟩, device⟩, ?_, consumed, ?_, hholding⟩
          · simp [receiverStep, hfree]
          · simp [received]

/-- After any events the parser has stayed in its buffer, which holds bytes of one line; and an
incomplete sentence in it changes nothing exactly where it is harmless. -/
theorem incomplete_unchanged_iff (num : Numbers R) (useLatLong : Bool) (navUtmZone0 : UInt8)
    (gps : GpsState) (nmea : GpsNmea) (es : List Event) :
    ∃ r, run (receiverStep num useLatLong navUtmZone0)
        (some ⟨⟨gps, gpsImplInit nmea⟩, []⟩) es = some r ∧
      (∃ consumed, received es = consumed ++ r.device ∧ OneLine consumed r.world.nmea) ∧
      (Incomplete r.world.nmea.line →
        (LeavesUnchanged num useLatLong navUtmZone0 r.world.nmea ↔
          Harmless r.world.nmea.line)) := by
  have hstart : Collecting [] (some ⟨⟨gps, gpsImplInit nmea⟩, []⟩) :=
    ⟨⟨⟨gps, gpsImplInit nmea⟩, []⟩, rfl, [], rfl, holding_of_empty rfl _⟩
  obtain ⟨r, hr, consumed, hdevice, hholding⟩ :=
    run_history Collecting (collecting_step num useLatLong navUtmZone0) hstart es
  exact ⟨r, hr, ⟨consumed, hdevice, hholding.oneLine⟩, leavesUnchanged_iff hholding.msgLen_lt⟩

/-- The line `GPGGA,123519` is received. -/
def truncatedGGA : List Event :=
  (['$', 'G', 'P', 'G', 'G', 'A', ',', '1', '2', '3', '5', '1', '9', '\r'].map Char.toUInt8).flatMap
    fun c => [.receive c, .readChar]

def clearedNmea : GpsNmea := ⟨false, false, 0, fun _ => 0, 0⟩

/-- Conversions of natural numbers without fractions. -/
def decimal : Numbers Nat where
  strtod bytes := (bytes.takeWhile fun c => '0'.toUInt8 ≤ c && c ≤ '9'.toUInt8).foldl
    (fun n c => 10 * n + (c.toNat - 48)) 0
  strtof bytes := (bytes.takeWhile fun c => '0'.toUInt8 ≤ c && c ≤ '9'.toUInt8).foldl
    (fun n c => 10 * n + (c.toNat - 48)) 0
  atoi bytes := (bytes.takeWhile fun c => '0'.toUInt8 ≤ c && c ≤ '9'.toUInt8).foldl
    (fun n c => 10 * n + (c - 48)) 0
  tow time := UInt32.ofNat ((time + 1) * 1000)
  pureDegrees x := x / 100
  neg x := x
  radOfDeg x := x
  fixed7 x := Int32.ofNat x
  pdop x := UInt16.ofNat (x * 100)
  hmsl x := Int32.ofNat (x * 1000)
  gspeed x := Int16.ofNat x
  course x := Int32.ofNat x
  utmOfLla _ _ _ _ := (0, 0)
  ecefOfLla _ _ _ := ⟨0, 0, 0⟩

/-- The time of week is stored before the end of the sentence is noticed. -/
theorem truncatedGGA_changes :
    ∃ r, run (receiverStep decimal false 0) (some ⟨⟨resetGps, clearedNmea⟩, []⟩) truncatedGGA =
        some r ∧
      r.world.nmea.msgAvailable = true ∧ Incomplete r.world.nmea.line ∧
      ¬ LeavesUnchanged decimal false 0 r.world.nmea := by
  obtain ⟨r, hr⟩ : ∃ r, run (receiverStep decimal false 0)
      (some ⟨⟨resetGps, clearedNmea⟩, []⟩) truncatedGGA = some r := ⟨_, rfl⟩
  have hline : r.world.nmea.line =
      ['G', 'P', 'G', 'G', 'A', ',', '1', '2', '3', '5', '1', '9'].map Char.toUInt8 := by
    cases hr
    decide
  have hlen : r.world.nmea.msgLen < nmeaMaxLen := by
    rw [← length_line, hline]
    decide
  have hincomplete : Incomplete r.world.nmea.line := by
    rw [hline]
    unfold Incomplete
    decide
  refine ⟨r, hr, by cases hr; rfl, hincomplete, ?_⟩
  rw [leavesUnchanged_iff hlen hincomplete, hline]
  unfold Harmless StartsEmpty
  decide

end

end Paparazzi.Link.Nmea
