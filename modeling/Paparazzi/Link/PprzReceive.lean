import Paparazzi.Link.PprzTransport

/-!
`PprzCheckAndParse` in the main loop: the bytes of the device go to `parse_pprz`, and a received
message is copied to `dl_buffer`.
-/

namespace Paparazzi.Link.PprzTransport

open Paparazzi.Library
open Paparazzi.Library.Machine

def transportPayloadLen : Nat := 256

/-- The size of `dl_buffer`. -/
def msgSize : Nat := 128

/-- `pprz_tp`, the bytes that wait in the device, and what datalink messages are taken from. -/
structure Datalink where
  tp : Parser
  device : List UInt8
  dlBuffer : List UInt8
  dlMsgAvailable : Bool

/-- `pprz_parse_payload`; `none` where it writes behind `dl_buffer`. -/
def pprzParsePayload (t : Transport) (s : Datalink) : Option Datalink :=
  if t.contents.length > msgSize then none
  else
    some
      { s with
        dlBuffer := t.contents ++ s.dlBuffer.drop t.contents.length
        dlMsgAvailable := true }

/-- The loop of `ReadPprzBuffer`. -/
def readPprzBuffer : Parser → List UInt8 → Parser × List UInt8
  | t, [] => (t, [])
  | t, c :: device =>
      if t.trans.msgReceived then (t, c :: device) else readPprzBuffer (parsePprz t c) device

/-- `msg_received = FALSE`. -/
def Parser.taken (t : Parser) : Parser := { t with trans := { t.trans with msgReceived := false } }

def pprzCheckAndParse (s : Datalink) : Option Datalink :=
  if s.device = [] then some s
  else
    let (tp, device) := readPprzBuffer s.tp s.device
    if tp.trans.msgReceived then
      pprzParsePayload tp.trans { s with tp := tp.taken, device := device }
    else some { s with tp := tp, device := device }

inductive DatalinkEvent where
  /-- The device receives a byte. -/
  | receive (c : UInt8)
  | checkAndParse
  deriving DecidableEq, Repr

/-- After a write behind `dl_buffer` nothing more is said. -/
def datalinkStep (s : Option Datalink) (e : DatalinkEvent) : Option Datalink :=
  s.bind fun s =>
    match e with
    | .receive c => some { s with device := s.device ++ [c] }
    | .checkAndParse => pprzCheckAndParse s

def received : List DatalinkEvent → List UInt8
  | [] => []
  | .receive c :: es => c :: received es
  | .checkAndParse :: es => received es

/-- A byte is parsed and, if it completes a message, the message is taken. -/
def consume (t : Parser) (c : UInt8) : Parser := (parsePprz t c).taken

/-- A byte that completes a frame completes one that `dl_buffer` can hold. -/
def Copyable (t : Parser) (c : UInt8) : Prop :=
  t.status = .gotCrc1 → c = t.ckB → t.trans.payloadLen.toNat ≤ msgSize

/-! ### What a call consumes -/

section

variable {t : Parser} {c : UInt8}

theorem taken_eq_self (h : t.trans.msgReceived = false) : t.taken = t := by
  obtain ⟨⟨payload, payloadLen, msgReceived, ovrn, error⟩, status, payloadIdx, ckA, ckB⟩ := t
  cases h
  rfl

theorem length_contents (t : Transport) : t.contents.length = t.payloadLen.toNat := by
  simp [Transport.contents]

/-- The flag rises with the last byte of a frame only, whose length stays. -/
theorem payloadLen_of_received (ht : t.trans.msgReceived = false)
    (h : (parsePprz t c).trans.msgReceived = true) :
    t.status = .gotCrc1 ∧ c = t.ckB ∧
      (parsePprz t c).trans.payloadLen = t.trans.payloadLen := by
  obtain ⟨hstatus, rfl⟩ := status_of_accepts ⟨ht, h⟩
  exact ⟨hstatus, rfl, by rw [parse_ckB hstatus]⟩

theorem received_of_last (hstatus : t.status = .gotCrc1) :
    (parsePprz t t.ckB).trans.msgReceived = true ∧
      (parsePprz t t.ckB).trans.payloadLen = t.trans.payloadLen := by
  rw [parse_ckB hstatus]
  exact ⟨rfl, rfl⟩

/-- The loop consumes a first part of the bytes; it leaves some only with a message received,
and then the last consumed byte has completed a frame. -/
theorem readPprzBuffer_spec (ht : t.trans.msgReceived = false) (device : List UInt8) :
    ∃ consumed, device = consumed ++ (readPprzBuffer t device).2 ∧
      (readPprzBuffer t device).1.taken = run consume t consumed ∧
      ((readPprzBuffer t device).1.trans.msgReceived = true →
        ∃ earlier c, consumed = earlier ++ [c] ∧ (run consume t earlier).status = .gotCrc1 ∧
          c = (run consume t earlier).ckB ∧
          (readPprzBuffer t device).1.trans.payloadLen =
            (run consume t earlier).trans.payloadLen) := by
  induction device generalizing t with
  | nil =>
      refine ⟨[], rfl, taken_eq_self ht, fun h => ?_⟩
      rw [readPprzBuffer, ht] at h
      cases h
  | cons c device ih =>
      have hread : readPprzBuffer t (c :: device) = readPprzBuffer (parsePprz t c) device := by
        rw [readPprzBuffer, if_neg (by simp [ht])]
      rw [hread]
      cases hflag : (parsePprz t c).trans.msgReceived with
      | true =>
          have hstop : readPprzBuffer (parsePprz t c) device = (parsePprz t c, device) := by
            cases device with
            | nil => rfl
            | cons d device => rw [readPprzBuffer, if_pos hflag]
          obtain ⟨hstatus, hck, hlen⟩ := payloadLen_of_received ht hflag
          rw [hstop]
          exact ⟨[c], rfl, rfl, fun _ => ⟨[], c, rfl, hstatus, hck, hlen⟩⟩
      | false =>
          have hnext : consume t c = parsePprz t c := taken_eq_self hflag
          obtain ⟨consumed, hdevice, hrun, hreceived⟩ := ih hflag
          refine ⟨c :: consumed, ?_, ?_, fun h => ?_⟩
          · rw [List.cons_append, ← hdevice]
          · rw [run_cons, hnext, hrun]
          · obtain ⟨earlier, d, rfl, hstatus, hck, hlen⟩ := hreceived h
            refine ⟨c :: earlier, d, rfl, ?_⟩
            rw [run_cons, hnext]
            exact ⟨hstatus, hck, hlen⟩

end

/-! ### The copy -/

section

variable {s s' : Datalink}

theorem pprzParsePayload_eq (t : Transport) (s : Datalink) (h : t.payloadLen.toNat ≤ msgSize) :
    pprzParsePayload t s =
      some { s with
        dlBuffer := t.contents ++ s.dlBuffer.drop t.contents.length
        dlMsgAvailable := true } := by
  rw [pprzParsePayload, length_contents, if_neg (by omega)]

/-- A call either writes behind the buffer, or has consumed a first part of the bytes. -/
theorem pprzCheckAndParse_spec (hs : s.tp.trans.msgReceived = false)
    (hbuffer : s.dlBuffer.length = msgSize) (h : pprzCheckAndParse s = some s') :
    s'.dlBuffer.length = msgSize ∧ s'.tp.trans.msgReceived = false ∧
      ∃ consumed, s.device = consumed ++ s'.device ∧ s'.tp = run consume s.tp consumed := by
  rw [pprzCheckAndParse] at h
  split_ifs at h with hempty
  · cases h
    exact ⟨hbuffer, hs, [], rfl, rfl⟩
  · obtain ⟨consumed, hdevice, hrun, -⟩ := readPprzBuffer_spec hs s.device
    dsimp only at h
    split_ifs at h with hflag
    · rw [pprzParsePayload] at h
      split_ifs at h with hlong
      cases h
      refine ⟨?_, rfl, consumed, hdevice, hrun⟩
      simp only [List.length_append, List.length_drop, hbuffer]
      omega
    · cases h
      have hflag' := Bool.eq_false_iff.mpr hflag
      rw [taken_eq_self hflag'] at hrun
      exact ⟨hbuffer, hflag', consumed, hdevice, hrun⟩

theorem pprzCheckAndParse_ne_none (hs : s.tp.trans.msgReceived = false)
    (hok : RunOk consume Copyable s.tp s.device) : pprzCheckAndParse s ≠ none := by
  obtain ⟨consumed, hdevice, -, hreceived⟩ := readPprzBuffer_spec hs s.device
  rw [pprzCheckAndParse]
  split_ifs with hempty
  · exact Option.some_ne_none _
  · dsimp only
    split_ifs with hflag
    · obtain ⟨earlier, c, rfl, hstatus, hck, hlen⟩ := hreceived hflag
      rw [hdevice, runOk_append, runOk_append] at hok
      have hfits := hok.1.2.1 hstatus hck
      rw [pprzParsePayload_eq _ _ (by rw [hlen]; exact hfits)]
      exact Option.some_ne_none _
    · exact Option.some_ne_none _

end

/-! ### Runs of the main loop -/

theorem run_none (es : List DatalinkEvent) : run datalinkStep none es = none := by
  induction es with
  | nil => rfl
  | cons e es ih => exact ih

/-- Bytes that complete only frames for `dl_buffer` are copied in bounds by any run. -/
theorem run_ne_none {s : Datalink} (hs : s.tp.trans.msgReceived = false)
    (hbuffer : s.dlBuffer.length = msgSize) (es : List DatalinkEvent)
    (hok : RunOk consume Copyable s.tp (s.device ++ received es)) :
    run datalinkStep (some s) es ≠ none := by
  induction es generalizing s with
  | nil => exact Option.some_ne_none _
  | cons e es ih =>
      cases e with
      | receive c =>
          refine ih (s := { s with device := s.device ++ [c] }) hs hbuffer ?_
          rwa [List.append_assoc]
      | checkAndParse =>
          change run datalinkStep (pprzCheckAndParse s) es ≠ none
          rw [received] at hok
          obtain ⟨hnow, hlater⟩ := runOk_append.mp hok
          cases hcall : pprzCheckAndParse s with
          | none => exact absurd hcall (pprzCheckAndParse_ne_none hs hnow)
          | some s' =>
              obtain ⟨hbuffer', hs', consumed, hdevice, htp⟩ :=
                pprzCheckAndParse_spec hs hbuffer hcall
              apply ih hs' hbuffer'
              rw [hdevice, List.append_assoc, runOk_append] at hok
              rw [htp]
              exact hok.2

theorem run_spec {s s' : Datalink} (hs : s.tp.trans.msgReceived = false)
    (hbuffer : s.dlBuffer.length = msgSize) (es : List DatalinkEvent)
    (h : run datalinkStep (some s) es = some s') :
    s'.dlBuffer.length = msgSize ∧
      ∃ consumed, s.device ++ received es = consumed ++ s'.device ∧
        s'.tp = run consume s.tp consumed := by
  induction es generalizing s with
  | nil =>
      cases h
      exact ⟨hbuffer, [], by simp [received], rfl⟩
  | cons e es ih =>
      cases e with
      | receive c =>
          obtain ⟨hbuffer', consumed, hdevice, htp⟩ :=
            ih (s := { s with device := s.device ++ [c] }) hs hbuffer h
          exact ⟨hbuffer', consumed, by rw [← hdevice, received, List.append_assoc]; rfl, htp⟩
      | checkAndParse =>
          change run datalinkStep (pprzCheckAndParse s) es = some s' at h
          cases hcall : pprzCheckAndParse s with
          | none =>
              rw [hcall, run_none] at h
              cases h
          | some s₁ =>
              rw [hcall] at h
              obtain ⟨hbuffer₁, hs₁, consumed₁, hdevice₁, htp₁⟩ :=
                pprzCheckAndParse_spec hs hbuffer hcall
              obtain ⟨hbuffer', consumed, hdevice, htp⟩ := ih hs₁ hbuffer₁ h
              refine ⟨hbuffer', consumed₁ ++ consumed, ?_, ?_⟩
              · rw [received, hdevice₁, List.append_assoc, hdevice, List.append_assoc]
              · rw [htp, htp₁, run_append]

/-- A call of the main loop after each byte. -/
def byteByByte (bytes : List UInt8) : List DatalinkEvent :=
  bytes.flatMap fun c => [.receive c, .checkAndParse]

theorem received_byteByByte (bytes : List UInt8) : received (byteByByte bytes) = bytes := by
  induction bytes with
  | nil => rfl
  | cons c bytes ih => exact congrArg (c :: ·) ih

theorem runOk_of_byteByByte {s : Datalink} (hs : s.tp.trans.msgReceived = false)
    (hdevice : s.device = []) (bytes : List UInt8)
    (h : run datalinkStep (some s) (byteByByte bytes) ≠ none) :
    RunOk consume Copyable s.tp bytes := by
  induction bytes generalizing s with
  | nil => trivial
  | cons c bytes ih =>
      have hread : readPprzBuffer s.tp ([] ++ [c]) = (parsePprz s.tp c, []) := by
        rw [List.nil_append, readPprzBuffer, if_neg (by simp [hs])]
        rfl
      have hcall : datalinkStep (datalinkStep (some s) (.receive c)) .checkAndParse =
          if (parsePprz s.tp c).trans.msgReceived then
            pprzParsePayload (parsePprz s.tp c).trans { s with tp := consume s.tp c }
          else some { s with tp := parsePprz s.tp c } := by
        change pprzCheckAndParse { s with device := s.device ++ [c] } = _
        rw [pprzCheckAndParse, hdevice, if_neg (by simp), hread]
        rfl
      change run datalinkStep (datalinkStep (datalinkStep (some s) (.receive c)) .checkAndParse)
        (byteByByte bytes) ≠ none at h
      rw [hcall] at h
      cases hflag : (parsePprz s.tp c).trans.msgReceived with
      | true =>
          obtain ⟨hstatus, hck, hlen⟩ := payloadLen_of_received hs hflag
          rw [if_pos hflag] at h
          by_cases hlong : (parsePprz s.tp c).trans.payloadLen.toNat ≤ msgSize
          · rw [pprzParsePayload_eq _ _ hlong] at h
            exact ⟨fun _ _ => by rwa [hlen] at hlong,
              ih (s := { s with
                tp := consume s.tp c
                dlBuffer := (parsePprz s.tp c).trans.contents ++
                  s.dlBuffer.drop (parsePprz s.tp c).trans.contents.length
                dlMsgAvailable := true }) rfl hdevice h⟩
          · rw [pprzParsePayload, length_contents, if_pos (by omega), run_none] at h
            exact absurd rfl h
      | false =>
          rw [if_neg (by simp [hflag])] at h
          have hnext : consume s.tp c = parsePprz s.tp c := taken_eq_self hflag
          refine ⟨fun hstatus hck => ?_, ?_⟩
          · rw [hck, (received_of_last hstatus).1] at hflag
            cases hflag
          · rw [hnext]
            exact ih (s := { s with tp := parsePprz s.tp c }) hflag hdevice h

/-! ### Recovery -/

/-- The bytes up to the end of the frame that is being read, at the most. -/
def toIdle (t : Parser) : Nat :=
  match t.status with
  | .uninit => 0
  | .gotStx => 259
  | .gotLength => expected (t.trans.payloadLen - t.payloadIdx) + 2
  | .gotPayload => 2
  | .gotCrc1 => 1

theorem expected_le (payloadLen : UInt8) : expected payloadLen ≤ 256 := by
  have hlt := payloadLen.toNat_lt
  unfold expected
  split_ifs <;> omega

theorem expected_sub_one {n : UInt8} (h : n ≠ 1) : expected (n - 1) < expected n := by
  have hlt := n.toNat_lt
  have hsub : (n - 1).toNat = (n.toNat + 255) % 256 := by
    rw [UInt8.toNat_sub]
    simp
    omega
  rw [Ne, ← UInt8.toNat_inj] at h
  simp at h
  simp only [expected, ← UInt8.toNat_inj, hsub, UInt8.toNat_zero]
  split_ifs <;> omega

/-- Each byte of a frame brings its end nearer. -/
theorem toIdle_consume {t : Parser} (h : t.status ≠ .uninit) (c : UInt8) :
    toIdle (consume t c) < toIdle t := by
  cases hstatus : t.status with
  | uninit => exact absurd hstatus h
  | gotStx =>
      have hle := expected_le (c - 4 - 0)
      cases hflag : t.trans.msgReceived with
      | true => simp [toIdle, consume, Parser.taken, parsePprz, parseError, hstatus, hflag]
      | false =>
          simp only [toIdle, consume, Parser.taken, parsePprz, hstatus, hflag]
          simp only [Bool.false_eq_true, if_false]
          omega
  | gotLength =>
      have hpos := expected_pos (t.trans.payloadLen - t.payloadIdx)
      by_cases hlast : t.payloadIdx + 1 = t.trans.payloadLen
      · simp only [toIdle, consume, Parser.taken, parsePprz, hstatus, if_pos hlast]
        omega
      · have hsub : t.trans.payloadLen - (t.payloadIdx + 1) =
            t.trans.payloadLen - t.payloadIdx - 1 := by grind
        have hne : t.trans.payloadLen - t.payloadIdx ≠ 1 := by grind
        have hless := expected_sub_one hne
        simp only [toIdle, consume, Parser.taken, parsePprz, hstatus, if_neg hlast, hsub]
        omega
  | gotPayload =>
      by_cases hc : c = t.ckA <;>
        simp [toIdle, consume, Parser.taken, parsePprz, parseError, hstatus, hc]
  | gotCrc1 =>
      by_cases hc : c = t.ckB <;>
        simp [toIdle, consume, Parser.taken, parsePprz, parseError, hstatus, hc]

theorem idle_of_toIdle_le {t : Parser} (h : t.status ≠ .uninit) {bytes : List UInt8}
    (hlen : toIdle t ≤ bytes.length) :
    ∃ part, part ≠ [] ∧ part <+: bytes ∧ (run consume t part).status = .uninit := by
  induction bytes generalizing t with
  | nil =>
      have hpos : 0 < toIdle t := Nat.lt_of_le_of_lt (Nat.zero_le _) (toIdle_consume h 0)
      simp at hlen
      omega
  | cons c bytes ih =>
      by_cases hidle : (consume t c).status = .uninit
      · exact ⟨[c], by simp, by simp, hidle⟩
      · have hless := toIdle_consume h c
        obtain ⟨part, -, hpart, hstatus⟩ := ih hidle (by simp at hlen; omega)
        exact ⟨c :: part, by simp, by simpa using hpart, hstatus⟩

/-- A frame takes 260 bytes at the most. -/
theorem idle_within (t : Parser) {bytes : List UInt8} (hlen : 260 ≤ bytes.length) :
    ∃ part, part ≠ [] ∧ part <+: bytes ∧ (run consume t part).status = .uninit := by
  obtain ⟨c, bytes, rfl⟩ : ∃ c rest, bytes = c :: rest := by
    cases bytes with
    | nil => simp at hlen
    | cons c rest => exact ⟨c, rest, rfl⟩
  by_cases hidle : (consume t c).status = .uninit
  · exact ⟨[c], by simp, by simp, hidle⟩
  · have hle : toIdle (consume t c) ≤ 259 := by
      cases hstatus : (consume t c).status with
      | uninit => exact absurd hstatus hidle
      | gotStx => simp [toIdle, hstatus]
      | gotLength =>
          have hexp := expected_le ((consume t c).trans.payloadLen - (consume t c).payloadIdx)
          simp only [toIdle, hstatus]
          omega
      | gotPayload => simp [toIdle, hstatus]
      | gotCrc1 => simp [toIdle, hstatus]
    have henough : toIdle (consume t c) ≤ bytes.length := by
      simp at hlen
      omega
    obtain ⟨part, -, hpart, hstatus⟩ := idle_of_toIdle_le hidle henough
    exact ⟨c :: part, by simp, by simpa using hpart, hstatus⟩

/-- The copies of all runs in which the bytes are received stay in `dl_buffer` exactly where no
byte completes a frame with more than `MSG_SIZE` bytes; the index and the recovery are right for
all bytes. -/
theorem datalink_in_bounds_iff (s : Datalink) (hs : s.tp.trans.msgReceived = false)
    (hdevice : s.device = []) (hbuffer : s.dlBuffer.length = msgSize) (bytes : List UInt8) :
    ((∀ es, received es = bytes → run datalinkStep (some s) es ≠ none) ↔
        RunOk consume Copyable s.tp bytes) ∧
      (∀ es s', received es = bytes → run datalinkStep (some s) es = some s' →
        s'.tp.payloadIdx.toNat < transportPayloadLen ∧ s'.dlBuffer.length = msgSize ∧
          ∃ consumed, bytes = consumed ++ s'.device ∧ s'.tp = run consume s.tp consumed) ∧
      ∀ earlier window later, bytes = earlier ++ window ++ later → window.length = 262 →
        ∃ part, part ≠ [] ∧ part <+: window ∧
          (run consume s.tp (earlier ++ part)).status = .uninit := by
  refine ⟨⟨fun h => ?_, fun hok es hes => ?_⟩, ?_, ?_⟩
  · exact runOk_of_byteByByte hs hdevice bytes (h _ (received_byteByByte bytes))
  · apply run_ne_none hs hbuffer es
    rwa [hdevice, hes]
  · rintro es s' rfl hrun
    obtain ⟨hbuffer', consumed, hconsumed, htp⟩ := run_spec hs hbuffer es hrun
    rw [hdevice] at hconsumed
    exact ⟨s'.tp.payloadIdx.toNat_lt, hbuffer', consumed, hconsumed, htp⟩
  · rintro earlier window later - hlen
    obtain ⟨part, hne, hpart, hstatus⟩ :=
      idle_within (run consume s.tp earlier) (Nat.le_of_lt (hlen.symm ▸ (by decide : 260 < 262)))
    exact ⟨part, hne, hpart, by rw [run_append]; exact hstatus⟩

def initialDatalink : Datalink := ⟨initialParser, [], List.replicate msgSize 0, false⟩

theorem datalink_in_bounds_oneByte :
    run datalinkStep (some initialDatalink) (byteByByte (airborneFrame [7])) ≠ none :=
  ((datalink_in_bounds_iff initialDatalink rfl rfl List.length_replicate
    (airborneFrame [7])).1).mpr
    (by unfold Copyable; decide +kernel) (byteByByte (airborneFrame [7])) (by decide)

/-- A well-formed frame with one payload byte more than `dl_buffer` has. -/
theorem datalink_out_of_bounds :
    run datalinkStep (some initialDatalink)
      (byteByByte (airborneFrame (List.replicate 129 0))) = none := by
  decide +kernel

end Paparazzi.Link.PprzTransport
