import Mathlib
import Paparazzi.Link.W5100

/-!
Which packets the W5100 datalink receives without a loss: the packets of a call, the bytes that
its loop passes to the parser, and the frames that arrive.
-/

namespace Paparazzi.Link.W5100

open Paparazzi.Library
open Paparazzi.Library.Machine
open Paparazzi.Link.PprzTransport (Parser Status parsePprz feed feed_append feed_cons feed_nil
  toIdle stx Idle Reading frameOf airborneFrame airborneFrame_eq expected feed_start feed_data
  parse_ckA parse_ckB parse_stx)

/-! ### The receive memory -/

/-- The chip holds these bytes from its read pointer on. -/
structure Holds (chip : Chip) (bytes : List UInt8) : Prop where
  rsr : chip.rsr = bytes.length
  room : bytes.length ≤ rsize
  mem : ∀ i (h : i < bytes.length), chip.mem ((chip.rxRd.toNat + i) % rsize) = bytes[i]

section

variable {chip : Chip} {bytes more : List UInt8} {p : Packet}

@[simp] theorem length_bytes (p : Packet) : p.bytes.length = p.data.length + 8 := by
  simp only [Packet.bytes, List.length_append, p.source_length, List.length_cons, List.length_nil]
  omega

theorem holds_store (h : Holds chip bytes) (hroom : bytes.length + p.bytes.length ≤ rsize) :
    Holds (chip.store p) (bytes ++ p.bytes) := by
  have hrsr := h.rsr
  refine ⟨by simp [Chip.store, hrsr], by simpa using hroom, fun i hi => ?_⟩
  rw [List.length_append] at hi
  have hlt : (chip.rxRd.toNat + i) % rsize < rsize := Nat.mod_lt _ (by decide)
  simp only [Chip.store, hrsr]
  by_cases hold : i < bytes.length
  · have hindex : ((chip.rxRd.toNat + i) % rsize + 2 * rsize -
        (chip.rxRd.toNat + bytes.length) % rsize) % rsize = rsize + i - bytes.length := by
      simp only [rsize] at *
      omega
    rw [if_neg (by rw [hindex]; omega), h.mem i hold, List.getElem_append_left hold]
  · have hindex : ((chip.rxRd.toNat + i) % rsize + 2 * rsize -
        (chip.rxRd.toNat + bytes.length) % rsize) % rsize = i - bytes.length := by
      simp only [rsize] at *
      omega
    rw [hindex, if_pos ⟨hlt, by omega⟩, List.getElem_append_right (by omega),
      List.getD_eq_getElem _ _ (by omega)]

theorem holds_foldl_store (packets : List Packet) (h : Holds chip bytes)
    (hroom : bytes.length + (packets.flatMap Packet.bytes).length ≤ rsize) :
    Holds (packets.foldl Chip.store chip) (bytes ++ packets.flatMap Packet.bytes) := by
  induction packets generalizing chip bytes with
  | nil => simpa using h
  | cons p packets ih =>
      rw [List.flatMap_cons, List.length_append] at hroom
      rw [List.foldl_cons, List.flatMap_cons, ← List.append_assoc]
      apply ih (holds_store h (by omega))
      rw [List.length_append]
      omega

/-- A read, wrapped around or not, takes the bytes from the address on. -/
theorem w5100ReadData_eq (mem : Nat → UInt8) (src : UInt16) {len : Nat} (hlen : len ≤ rsize) :
    w5100ReadData mem src len = (List.range len).map fun i => mem ((src.toNat + i) % rsize) := by
  unfold w5100ReadData
  dsimp only
  split_ifs with hwrap
  · have hsplit : len = (rsize - src.toNat % rsize) + (len - (rsize - src.toNat % rsize)) := by
      have hlt : src.toNat % rsize < rsize := Nat.mod_lt _ (by decide)
      omega
    conv_rhs => rw [hsplit, List.range_add, List.map_append, List.map_map]
    simp only [w5100Read]
    congr 1
    · apply List.map_congr_left
      intro i hi
      have hlt := List.mem_range.mp hi
      congr 1
      simp only [rsize] at *
      omega
    · apply List.map_congr_left
      intro i hi
      have hlt := List.mem_range.mp hi
      simp only [Function.comp_apply]
      congr 1
      simp only [rsize] at *
      omega
  · apply List.map_congr_left
    intro i hi
    have hlt := List.mem_range.mp hi
    congr 1
    simp only [rsize] at *
    omega

theorem w5100ReadData_of_holds (h : Holds chip (bytes ++ more)) :
    w5100ReadData chip.mem chip.rxRd bytes.length = bytes := by
  have hroom := h.room
  rw [List.length_append] at hroom
  rw [w5100ReadData_eq _ _ (by omega)]
  apply List.ext_getElem
  · simp
  · intro i hi hi'
    rw [List.getElem_map, List.getElem_range, h.mem i (by rw [List.length_append]; omega),
      List.getElem_append_left hi']

/-- The rest is held by the chip with an advanced pointer. -/
theorem Holds.advance (h : Holds chip (bytes ++ more)) (ptr : UInt16)
    (hptr : ptr.toNat % rsize = (chip.rxRd.toNat + bytes.length) % rsize) :
    Holds { chip with rxRd := ptr, rsr := chip.rsr - bytes.length } more := by
  have hrsr := h.rsr
  have hroom := h.room
  rw [List.length_append] at hrsr hroom
  refine ⟨by simp [hrsr], by omega, fun i hi => ?_⟩
  have hmem := h.mem (bytes.length + i) (by rw [List.length_append]; omega)
  rw [List.getElem_append_right (by omega)] at hmem
  simp only [Nat.add_sub_cancel_left] at hmem
  rw [← hmem]
  change chip.mem ((ptr.toNat + i) % rsize) = _
  congr 1
  rw [Nat.add_mod, hptr, ← Nat.add_mod, Nat.add_assoc]

/-- The eight bytes in front of the data. -/
def Packet.header (p : Packet) : List UInt8 :=
  p.source ++ [UInt8.ofNat (p.data.length / 2 ^ 8), UInt8.ofNat p.data.length]

theorem length_header (p : Packet) : p.header.length = 8 := by
  simp [Packet.header, p.source_length]

theorem getD_header (p : Packet) (hsmall : p.data.length < 2 ^ 16) :
    (p.header.getD 6 0).toNat * 2 ^ 8 + (p.header.getD 7 0).toNat = p.data.length := by
  have hsource := p.source_length
  rw [Packet.header, List.getD_append_right _ _ _ _ (by omega),
    List.getD_append_right _ _ _ _ (by omega), hsource]
  simp only [Nat.sub_self, Nat.reduceSub, List.getD_cons_zero, List.getD_cons_succ,
    UInt8.toNat_ofNat']
  omega

/-- `w5100_receive` takes the first packet. -/
theorem w5100Receive_eq (h : Holds chip (p.bytes ++ more)) (buf : Nat → UInt8) :
    ∃ rxBuf chip', w5100Receive chip buf = (p.data.length, rxBuf, chip') ∧
      (List.range p.data.length).map rxBuf = p.data ∧ Holds chip' more := by
  have hroom := h.room
  simp only [List.length_append, length_bytes, rsize] at hroom
  have hsmall : p.data.length < 2 ^ 16 := by omega
  have hheader := length_header p
  have hbytes : p.bytes ++ more = p.header ++ (p.data ++ more) := by
    simp [Packet.bytes, Packet.header]
  rw [hbytes] at h
  have hhead := w5100ReadData_of_holds h
  rw [hheader] at hhead
  have hdata := h.advance (chip.rxRd + 8) (by
    rw [hheader, UInt16.toNat_add]
    simp [rsize])
  have hread := w5100ReadData_of_holds hdata
  have hrest := hdata.advance (chip.rxRd + 8 + UInt16.ofNat p.data.length) (by
    rw [UInt16.toNat_add, UInt16.toNat_ofNat']
    simp only [rsize]
    omega)
  refine ⟨fun i => if i < p.data.length then p.data.getD i 0 else buf i, _, ?_, ?_, hrest⟩
  · simp only [w5100Receive, hhead, getD_header p hsmall]
    simp only at hread
    rw [hread, hheader, Nat.sub_sub]
  · apply List.ext_getElem
    · simp
    · intro i hi hi'
      rw [List.getElem_map, List.getElem_range, if_pos hi', List.getD_eq_getElem _ _ hi']

end

/-! ### The inner loop -/

/-- The loop does not go on. -/
def Stopped (t : Parser) : Prop := t.status = .uninit ∨ t.trans.msgReceived = true

/-- The loop takes exactly these bytes. -/
def Exact : Parser → List UInt8 → Prop
  | _, [] => False
  | t, c :: data =>
      (data = [] ∧ Stopped (parseW5100 t c)) ∨
        (¬ Stopped (parseW5100 t c) ∧ Exact (parseW5100 t c) data)

theorem continue_iff {t : Parser} :
    (t.status ≠ .uninit ∧ t.trans.msgReceived = false) ↔ ¬ Stopped t := by
  rw [Stopped, not_or, Bool.not_eq_true]

theorem lt_parseLoop (rxBuf : Nat → UInt8) (t : Parser) (k : Nat) :
    k < (parseLoop rxBuf t k).2 := by
  fun_induction parseLoop rxBuf t k with
  | case1 t k hgo ih => omega
  | case2 t k hstop => exact Nat.lt_succ_self k

section

variable {rxBuf : Nat → UInt8} {t : Parser} {data : List UInt8} {k : Nat}

theorem parseLoop_of_exact (h : Exact t data)
    (hbuf : ∀ i (hi : i < data.length), rxBuf (k + i) = data[i]) :
    parseLoop rxBuf t k = (feed t data, k + data.length) := by
  induction data generalizing t k with
  | nil => exact h.elim
  | cons c data ih =>
      have hc : rxBuf k = c := hbuf 0 (Nat.zero_lt_succ _)
      rw [parseLoop, hc]
      obtain ⟨rfl, hstop⟩ | ⟨hgo, hexact⟩ := h
      · rw [dif_neg (mt continue_iff.mp (not_not_intro hstop))]
        rfl
      · have hdata : ∀ i (hi : i < data.length), rxBuf (k + 1 + i) = data[i] := by
          intro i hi
          have hnext := hbuf (i + 1) (Nat.succ_lt_succ hi)
          rwa [List.getElem_cons_succ, ← Nat.add_assoc, Nat.add_right_comm] at hnext
        rw [dif_pos (continue_iff.mpr hgo), ih hexact hdata, List.length_cons, Nat.add_assoc,
          Nat.add_comm 1]
        rfl

/-- The loop takes as many bytes as the packet has in no other case. -/
theorem exact_of_parseLoop (hbuf : ∀ i (hi : i < data.length), rxBuf (k + i) = data[i])
    (h : (parseLoop rxBuf t k).2 = k + data.length) : Exact t data := by
  induction data generalizing t k with
  | nil => exact absurd h (Nat.ne_of_gt (lt_parseLoop rxBuf t k))
  | cons c data ih =>
      have hc : rxBuf k = c := hbuf 0 (Nat.zero_lt_succ _)
      rw [parseLoop, hc, List.length_cons] at h
      by_cases hstop : Stopped (parseW5100 t c)
      · rw [dif_neg (mt continue_iff.mp (not_not_intro hstop))] at h
        simp only at h
        exact Or.inl ⟨List.length_eq_zero_iff.mp (by omega), hstop⟩
      · rw [dif_pos (continue_iff.mpr hstop)] at h
        refine Or.inr ⟨hstop, ih (k := k + 1) (fun i hi => ?_) (by omega)⟩
        have hnext := hbuf (i + 1) (Nat.succ_lt_succ hi)
        rwa [List.getElem_cons_succ, ← Nat.add_assoc, Nat.add_right_comm] at hnext

end

/-! ### Calls -/

/-- The loop takes each of these packets exactly. -/
def ExactAll : Parser → List (List UInt8) → Prop
  | _, [] => True
  | t, data :: packets => Exact t data ∧ ExactAll (feed t data) packets

/-- Each of these calls takes its packets exactly, and a message that is there after it. -/
def ExactRun : Parser → List (List (List UInt8)) → Prop
  | _, [] => True
  | t, call :: calls => ExactAll t call ∧ ExactRun (feed t call.flatten).taken calls

/-- The messages that are there after the calls. -/
def deliveries : Parser → List (List (List UInt8)) → List (List UInt8)
  | _, [] => []
  | t, call :: calls =>
      (if (feed t call.flatten).trans.msgReceived then [(feed t call.flatten).trans.contents]
        else []) ++ deliveries (feed t call.flatten).taken calls

/-- A packet and the bytes that the parser should get for it. -/
def intact (data : List UInt8) : List UInt8 × List UInt8 := (data, data)

section

variable {s : Datalink} {p : Packet} {more : List UInt8}

theorem readPacket_spec (h : Holds s.chip (p.bytes ++ more)) :
    ∃ bytes, (readPacket s).passed = s.passed ++ [(p.data, bytes)] ∧
      Holds (readPacket s).chip more ∧ (readPacket s).delivered = s.delivered ∧
      (bytes = p.data ↔ Exact s.tp p.data) ∧
      (Exact s.tp p.data → (readPacket s).tp = feed s.tp p.data) := by
  obtain ⟨rxBuf, chip', hreceive, hdata, hchip⟩ := w5100Receive_eq h s.rxBuf
  have hbuf : ∀ i (hi : i < p.data.length), rxBuf (0 + i) = p.data[i] := by
    intro i hi
    have hget := congrArg (fun bytes => bytes[i]?) hdata
    simpa [hi] using hget
  refine ⟨(List.range (parseLoop rxBuf s.tp 0).2).map rxBuf, ?_, ?_, rfl, ⟨fun heq => ?_, ?_⟩, ?_⟩
  · simp only [readPacket, hreceive, hdata]
  · simpa only [readPacket, hreceive] using hchip
  · apply exact_of_parseLoop hbuf
    have hlen := congrArg List.length heq
    simpa using hlen
  · intro hexact
    rw [parseLoop_of_exact hexact hbuf, Nat.zero_add, hdata]
  · intro hexact
    simp only [readPacket, hreceive, parseLoop_of_exact hexact hbuf]

theorem w5100ReadBuffer_nil (h : Holds s.chip []) : w5100ReadBuffer s = s := by
  rw [w5100ReadBuffer, dif_neg]
  simp [w5100ChAvailable, h.rsr]

theorem available_of_holds (h : Holds s.chip (p.bytes ++ more)) :
    w5100ChAvailable s.chip = true := by
  simp only [w5100ChAvailable, h.rsr, List.length_append, length_bytes, decide_eq_true_eq]
  omega

theorem w5100ReadBuffer_spec (packets : List Packet)
    (h : Holds s.chip (packets.flatMap Packet.bytes)) :
    ∃ entries, (w5100ReadBuffer s).passed = s.passed ++ entries ∧
      entries.length = packets.length ∧ Holds (w5100ReadBuffer s).chip [] ∧
      (w5100ReadBuffer s).delivered = s.delivered ∧
      (entries = (packets.map Packet.data).map intact ↔
        ExactAll s.tp (packets.map Packet.data)) ∧
      (ExactAll s.tp (packets.map Packet.data) →
        (w5100ReadBuffer s).tp = feed s.tp (packets.map Packet.data).flatten) := by
  induction packets generalizing s with
  | nil =>
      rw [w5100ReadBuffer_nil h]
      exact ⟨[], by simp, rfl, h, rfl, iff_of_true rfl trivial, fun _ => rfl⟩
  | cons p packets ih =>
      rw [List.flatMap_cons] at h
      obtain ⟨bytes, hpassed, hchip, hdelivered, hiff, htp⟩ := readPacket_spec h
      obtain ⟨entries, hpassed', hlen, hchip', hdelivered', hiff', htp'⟩ := ih hchip
      rw [w5100ReadBuffer, dif_pos (available_of_holds h)]
      refine ⟨(p.data, bytes) :: entries, ?_, congrArg (· + 1) hlen, hchip', ?_, ?_, ?_⟩
      · rw [hpassed', hpassed, List.append_assoc, List.singleton_append]
      · rw [hdelivered', hdelivered]
      · rw [List.map_cons, List.map_cons, List.cons.injEq, intact, Prod.mk.injEq]
        simp only [true_and, hiff, ExactAll]
        apply and_congr_right
        intro hexact
        rw [hiff', htp hexact]
      · rintro ⟨hexact, hall⟩
        rw [← htp hexact] at hall
        rw [htp' hall, htp hexact, List.map_cons, List.flatten_cons, feed_append]

/-- A call that finds these packets. -/
theorem mainLoop_spec (packets : List Packet) (h : Holds s.chip [])
    (hidle : s.tp.trans.msgReceived = false)
    (hroom : (packets.flatMap Packet.bytes).length ≤ rsize) :
    ∃ entries, (mainLoop s packets).passed = s.passed ++ entries ∧
      entries.length = packets.length ∧ Holds (mainLoop s packets).chip [] ∧
      (mainLoop s packets).tp.trans.msgReceived = false ∧
      (entries = (packets.map Packet.data).map intact ↔
        ExactAll s.tp (packets.map Packet.data)) ∧
      (ExactAll s.tp (packets.map Packet.data) →
        (mainLoop s packets).tp = (feed s.tp (packets.map Packet.data).flatten).taken ∧
        (mainLoop s packets).delivered = s.delivered ++
          if (feed s.tp (packets.map Packet.data).flatten).trans.msgReceived then
            [(feed s.tp (packets.map Packet.data).flatten).trans.contents] else []) := by
  have hstore := holds_foldl_store packets h (by simpa using hroom)
  rw [List.nil_append] at hstore
  cases packets with
  | nil =>
      have hcall : mainLoop s [] = s := by
        simp [mainLoop, w5100CheckAndParse, w5100ChAvailable, h.rsr]
      rw [hcall]
      refine ⟨[], by simp, rfl, h, hidle, iff_of_true rfl trivial, fun _ => ?_⟩
      simp [PprzTransport.taken_eq_self hidle, hidle]
  | cons p packets =>
      have hmany := hstore
      rw [List.flatMap_cons] at hmany
      obtain ⟨entries, hpassed, hlen, hchip, hdelivered, hiff, htp⟩ :=
        w5100ReadBuffer_spec (s := { s with chip := (p :: packets).foldl Chip.store s.chip })
          (p :: packets) hstore
      rw [mainLoop, w5100CheckAndParse, if_pos (available_of_holds hmany)]
      dsimp only at hpassed hdelivered hiff htp ⊢
      generalize w5100ReadBuffer _ = s' at *
      cases hflag : s'.tp.trans.msgReceived with
      | true =>
          rw [if_pos rfl]
          refine ⟨entries, hpassed, hlen, hchip, rfl, hiff, fun hall => ?_⟩
          rw [← htp hall, if_pos hflag, ← hdelivered]
          exact ⟨rfl, rfl⟩
      | false =>
          rw [if_neg Bool.false_ne_true]
          refine ⟨entries, hpassed, hlen, hchip, hflag, hiff, fun hall => ?_⟩
          rw [← htp hall, if_neg (by simp [hflag]), PprzTransport.taken_eq_self hflag,
            hdelivered, List.append_nil]
          exact ⟨rfl, rfl⟩

/-- The contents of the packets of the calls. -/
def contents (calls : List (List Packet)) : List (List (List UInt8)) :=
  calls.map fun call => call.map Packet.data

/-- The calls pass each packet to the parser as it is if and only if they are exact, and then
these are the messages. -/
theorem run_mainLoop_spec (calls : List (List Packet)) (h : Holds s.chip [])
    (hidle : s.tp.trans.msgReceived = false)
    (hroom : ∀ call ∈ calls, (call.flatMap Packet.bytes).length ≤ rsize) :
    ∃ entries, (run mainLoop s calls).passed = s.passed ++ entries ∧
      (entries = (contents calls).flatten.map intact ↔ ExactRun s.tp (contents calls)) ∧
      (ExactRun s.tp (contents calls) →
        (run mainLoop s calls).delivered = s.delivered ++ deliveries s.tp (contents calls)) := by
  induction calls generalizing s with
  | nil => exact ⟨[], by simp, iff_of_true rfl trivial, fun _ => by simp [contents, deliveries]⟩
  | cons call calls ih =>
      obtain ⟨entries, hpassed, hlen, hchip, hidle', hiff, hexact⟩ :=
        mainLoop_spec call h hidle (hroom call List.mem_cons_self)
      obtain ⟨entries', hpassed', hiff', hexact'⟩ :=
        ih hchip hidle' fun call' hmem => hroom call' (List.mem_cons_of_mem _ hmem)
      have hcontents : contents (call :: calls) = call.map Packet.data :: contents calls := rfl
      rw [hcontents, run_cons]
      refine ⟨entries ++ entries', ?_, ?_, ?_⟩
      · rw [hpassed', hpassed, List.append_assoc]
      · have hsame : entries.length = ((call.map Packet.data).map intact).length := by
          simp [hlen]
        have hsplit (rest : List (List UInt8 × List UInt8)) :
            entries ++ entries' = (call.map Packet.data).map intact ++ rest ↔
              entries = (call.map Packet.data).map intact ∧ entries' = rest :=
          ⟨fun heq => List.append_inj heq hsame, fun ⟨heq, heq'⟩ => by rw [heq, heq']⟩
        rw [List.flatten_cons, List.map_append, hsplit, hiff]
        apply and_congr_right
        intro hall
        rw [hiff', (hexact hall).1]
      · rintro ⟨hall, hrun⟩
        obtain ⟨htp, hdelivered⟩ := hexact hall
        rw [← htp] at hrun
        rw [hexact' hrun, hdelivered, deliveries, htp, List.append_assoc]

end

end Paparazzi.Link.W5100
