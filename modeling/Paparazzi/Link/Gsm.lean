import Mathlib

/-!
The lines of the GSM modem, `gsm.c`: `gsm_parse` assembles them in `gsm_buf`, behind which the
numbers of a line are read as C strings.
-/

namespace Paparazzi.Link.Gsm

def gsmMaxPayload : ℕ := 160

def maxlenCmtiAnswer : ℕ := 32

def maxlenSmsContent : ℕ := 128

def bytesOf (s : String) : List UInt8 := s.toList.map Char.toUInt8

def prompt : UInt8 := '>'.toUInt8

/-- What the build sets. The two characters are labels of one `switch`, next to the prompt. -/
structure Modem where
  lineTermination : UInt8
  responseFormating : UInt8
  gcsNumber1 : Option String
  gcsNumber2 : Option String
  termination_ne_formating : lineTermination ≠ responseFormating
  termination_ne_prompt : lineTermination ≠ prompt
  formating_ne_prompt : responseFormating ≠ prompt

/-! ### The buffer -/

abbrev Payload := { bytes : List UInt8 // bytes.length = gsmMaxPayload }

def Payload.zero : Payload := ⟨List.replicate gsmMaxPayload 0, List.length_replicate⟩

/-- A write, which has no value outside the buffer. -/
def Payload.write (buf : Payload) (i : ℕ) (c : UInt8) : Option Payload :=
  if i < gsmMaxPayload then some ⟨buf.1.set i c, by rw [List.length_set, buf.2]⟩ else none

def Payload.bytes (buf : Payload) (n : ℕ) : Option (List UInt8) :=
  if n ≤ gsmMaxPayload then some (buf.1.take n) else none

/-- The C string at `gsm_buf + i`; without a terminator up to the end there is none. -/
def Payload.cString (buf : Payload) (i : ℕ) : Option (List UInt8) :=
  if 0 ∈ buf.1.drop i then some ((buf.1.drop i).takeWhile (· ≠ 0)) else none

/-- `indexn`; `none` is `NULL`. -/
def indexn (s : List UInt8) (c : UInt8) : ℕ → Option ℕ
  | 0 => none
  | n + 1 =>
      match s with
      | [] => none
      | d :: s => if d = c then some 0 else (indexn s c n).map (· + 1)

/-- `strncmp(string, gsm_buf, strlen(string)) == 0`. -/
def Payload.startsWith (buf : Payload) (string : List UInt8) : Bool := string.isPrefixOf buf.1

/-! ### Numbers -/

def isSpace (c : UInt8) : Bool := c = 32 || (9 ≤ c && c ≤ 13)

def isDigit (c : UInt8) : Bool := 48 ≤ c && c ≤ 57

def digits (s : List UInt8) : ℕ :=
  (s.takeWhile isDigit).foldl (fun n c => 10 * n + (c.toNat - 48)) 0

/-- `atoi`: spaces, a sign and digits, cut at the limits of an `int`. -/
def atoi (s : List UInt8) : ℤ :=
  let value : ℤ :=
    match s.dropWhile isSpace with
    | [] => 0
    | c :: rest =>
        if c = '-'.toUInt8 then -digits rest
        else if c = '+'.toUInt8 then digits rest
        else digits (c :: rest)
  max (-2 ^ 31) (min (2 ^ 31 - 1) value)

def atoiU8 (s : List UInt8) : UInt8 := UInt8.ofNat (atoi s % 256).toNat

/-! ### The line assembler -/

structure Assembler where
  buf : Payload
  bufIdx : ℕ
  bufLen : ℕ
  lineReceived : Bool
  promptReceived : Bool

def Assembler.init : Assembler where
  buf := Payload.zero
  bufIdx := 0
  bufLen := 0
  lineReceived := false
  promptReceived := false

/-- `gsm_parse`; there is no value where it writes outside `gsm_buf`. -/
def gsmParse (modem : Modem) (a : Assembler) (c : UInt8) : Option Assembler :=
  if c = modem.lineTermination then some a
  else if c = prompt then some { a with promptReceived := true }
  else if c = modem.responseFormating then
    (a.buf.write a.bufIdx 0).map fun buf =>
      { a with buf := buf, lineReceived := true, bufLen := a.bufIdx, bufIdx := 0 }
  else if a.bufIdx < gsmMaxPayload then
    (a.buf.write a.bufIdx c).map fun buf => { a with buf := buf, bufIdx := a.bufIdx + 1 }
  else
    -- extra characters are ignored
    some a

/-- `ReadGSMBuffer`, with the characters it takes from the port. -/
def readGSMBuffer (modem : Modem) : List UInt8 → Assembler → Option (Assembler × List UInt8)
  | [], a => some (a, [])
  | c :: port, a =>
      if a.lineReceived then some (a, [])
      else do
        let a' ← gsmParse modem a c
        let (a'', read) ← readGSMBuffer modem port a'
        some (a'', c :: read)

/-! ### Lines -/

/-- What a line says: the characters between two ends of lines, terminations aside. -/
def content (modem : Modem) (line : List UInt8) : List UInt8 :=
  line.filter (· ≠ modem.lineTermination)

/-- What is stored of it. -/
def stored (modem : Modem) (line : List UInt8) : List UInt8 :=
  (content modem line).filter (· ≠ prompt)

variable {modem : Modem}

theorem stored_append (line line' : List UInt8) :
    stored modem (line ++ line') = stored modem line ++ stored modem line' := by
  rw [stored, content, List.filter_append, List.filter_append]
  rfl

theorem stored_eq_content {line : List UInt8} (h : prompt ∉ line) :
    stored modem line = content modem line := by
  rw [stored, List.filter_eq_self]
  intro c hc
  exact decide_eq_true fun heq => h (heq ▸ (List.mem_filter.mp hc).1)

/-- The state of the assembler after the characters of a line that has not ended. -/
structure Holds (modem : Modem) (a : Assembler) (line : List UInt8) : Prop where
  lineReceived_eq : a.lineReceived = false
  formating_notMem : modem.responseFormating ∉ line
  bufIdx_le : a.bufIdx ≤ gsmMaxPayload
  take_eq : a.buf.1.take a.bufIdx = (stored modem line).take gsmMaxPayload
  /-- Only a character that fills the buffer is ever stored in the last place. -/
  last_eq : a.bufIdx < gsmMaxPayload → a.buf.1[gsmMaxPayload - 1]? = some 0

theorem holds_init : Holds modem Assembler.init [] where
  lineReceived_eq := rfl
  formating_notMem := List.not_mem_nil
  bufIdx_le := Nat.zero_le _
  take_eq := rfl
  last_eq _ := rfl

theorem Holds.bufIdx_eq {a : Assembler} {line : List UInt8} (h : Holds modem a line) :
    a.bufIdx = min gsmMaxPayload (stored modem line).length := by
  have hlength := congrArg List.length h.take_eq
  rw [List.length_take, List.length_take, a.buf.2, min_eq_left h.bufIdx_le] at hlength
  exact hlength

theorem Holds.skip {a a' : Assembler} {line : List UInt8} {c : UInt8} (h : Holds modem a line)
    (hc : c ≠ modem.responseFormating) (hreceived : a'.lineReceived = a.lineReceived)
    (hidx : a'.bufIdx = a.bufIdx) (hbuf : a'.buf = a.buf)
    (hstored : (stored modem (line ++ [c])).take gsmMaxPayload =
      (stored modem line).take gsmMaxPayload) : Holds modem a' (line ++ [c]) where
  lineReceived_eq := hreceived.trans h.lineReceived_eq
  formating_notMem := by
    rw [List.mem_append, List.mem_singleton]
    exact not_or_intro h.formating_notMem hc.symm
  bufIdx_le := hidx ▸ h.bufIdx_le
  take_eq := by rw [hstored, hidx, hbuf, h.take_eq]
  last_eq hlt := by
    rw [hidx] at hlt
    rw [hbuf, h.last_eq hlt]

/-- A character within a line is stored as long as there is room, and never outside. -/
theorem gsmParse_char {a : Assembler} {line : List UInt8} {c : UInt8} (h : Holds modem a line)
    (hc : c ≠ modem.responseFormating) :
    ∃ a', gsmParse modem a c = some a' ∧ Holds modem a' (line ++ [c]) ∧
      a'.promptReceived = (a.promptReceived || decide (c = prompt)) := by
  rw [gsmParse]
  split_ifs with hterm hprompt hroom
  · refine ⟨a, rfl, h.skip hc rfl rfl rfl ?_, ?_⟩
    · rw [stored_append]
      simp [stored, content, hterm]
    · simp [hterm, modem.termination_ne_prompt]
  · refine ⟨_, rfl, h.skip hc rfl rfl rfl ?_, ?_⟩
    · rw [stored_append]
      simp [stored, content, hprompt, modem.termination_ne_prompt.symm]
    · simp [hprompt]
  all_goals
    have hstored : stored modem (line ++ [c]) = stored modem line ++ [c] := by
      rw [stored_append]
      simp [stored, content, hterm, hprompt]
    have hidx := h.bufIdx_eq
  · rw [Payload.write, if_pos hroom]
    refine ⟨_, rfl, ⟨h.lineReceived_eq, ?_, hroom, ?_, ?_⟩, ?_⟩
    · rw [List.mem_append, List.mem_singleton]
      exact not_or_intro h.formating_notMem hc.symm
    · have hlength : (stored modem line).length = a.bufIdx := by omega
      have htake := h.take_eq
      rw [List.take_of_length_le (l := stored modem line) (by omega)] at htake
      rw [hstored, List.take_of_length_le (l := stored modem line ++ [c]) (by simp; omega),
        List.take_add_one, List.take_set_of_le le_rfl, htake]
      simp [a.buf.2, hroom]
    · intro hlt
      dsimp only at hlt ⊢
      rw [List.getElem?_set_ne (by omega)]
      exact h.last_eq hroom
    · simp [hprompt]
  · refine ⟨a, rfl, h.skip hc rfl rfl rfl ?_, ?_⟩
    · rw [hstored, List.take_append_of_le_length (by omega)]
    · simp [hprompt]

theorem readGSMBuffer_open {port : List UInt8} (hport : modem.responseFormating ∉ port)
    {a : Assembler} {line : List UInt8} (h : Holds modem a line) :
    ∃ a', readGSMBuffer modem port a = some (a', port) ∧ Holds modem a' (line ++ port) ∧
      a'.promptReceived = (a.promptReceived || decide (prompt ∈ port)) := by
  induction port generalizing a line with
  | nil =>
      refine ⟨a, rfl, ?_, by simp⟩
      rwa [List.append_nil]
  | cons c port ih =>
      have hc : c ≠ modem.responseFormating := fun heq => hport (by simp [heq])
      obtain ⟨a₁, hparse, hholds₁, hprompt₁⟩ := gsmParse_char h hc
      obtain ⟨a₂, hread, hholds₂, hprompt₂⟩ := ih (fun hmem => hport (by simp [hmem])) hholds₁
      refine ⟨a₂, ?_, ?_, ?_⟩
      · rw [readGSMBuffer, if_neg (by simp [h.lineReceived_eq]), hparse]
        simp [hread]
      · rwa [List.append_assoc, List.singleton_append] at hholds₂
      · rw [hprompt₂, hprompt₁, Bool.or_assoc]
        simp [eq_comm]

/-- A line in the buffer, behind it its terminator and old characters. -/
structure Terminated (a : Assembler) (line : List UInt8) : Prop where
  lineReceived_eq : a.lineReceived = true
  bufIdx_eq : a.bufIdx = 0
  bufLen_eq : a.bufLen = line.length
  length_lt : line.length < gsmMaxPayload
  buf_eq : ∃ old, a.buf.1 = line ++ 0 :: old
  last_eq : a.buf.1[gsmMaxPayload - 1]? = some 0

theorem gsmParse_end {a : Assembler} {line : List UInt8} (h : Holds modem a line)
    (hlt : (stored modem line).length < gsmMaxPayload) :
    ∃ a', gsmParse modem a modem.responseFormating = some a' ∧
      Terminated a' (stored modem line) ∧ a'.promptReceived = a.promptReceived := by
  have hidx : a.bufIdx = (stored modem line).length := by
    rw [h.bufIdx_eq, min_eq_right hlt.le]
  rw [gsmParse, if_neg modem.termination_ne_formating.symm, if_neg modem.formating_ne_prompt,
    if_pos rfl, Payload.write, if_pos (by omega)]
  refine ⟨_, rfl, ⟨rfl, rfl, hidx, hlt, ⟨a.buf.1.drop (a.bufIdx + 1), ?_⟩, ?_⟩, rfl⟩
  · have hset : a.bufIdx < a.buf.1.length := by
      rw [a.buf.2]
      omega
    have htake := h.take_eq
    rw [List.take_of_length_le hlt.le] at htake
    rw [← htake]
    exact List.set_eq_take_append_cons_drop.trans (if_pos hset)
  · rw [List.getElem?_set]
    split_ifs with heq
    · rfl
    · exact absurd a.buf.2 (by omega)
    · exact h.last_eq (by omega)

theorem readGSMBuffer_line {body port : List UInt8} (hbody : modem.responseFormating ∉ body)
    {a : Assembler} {line : List UInt8} (h : Holds modem a line)
    (hlt : (stored modem (line ++ body)).length < gsmMaxPayload) :
    ∃ a', readGSMBuffer modem (body ++ modem.responseFormating :: port) a =
        some (a', body ++ [modem.responseFormating]) ∧
      Terminated a' (stored modem (line ++ body)) ∧
      a'.promptReceived = (a.promptReceived || decide (prompt ∈ body)) := by
  induction body generalizing a line with
  | nil =>
      rw [List.append_nil] at hlt ⊢
      obtain ⟨a₁, hparse, hterminated, hprompt⟩ := gsmParse_end h hlt
      refine ⟨a₁, ?_, hterminated, by simp [hprompt]⟩
      rw [List.nil_append, readGSMBuffer, if_neg (by simp [h.lineReceived_eq]), hparse]
      cases port <;> simp [readGSMBuffer, hterminated.lineReceived_eq]
  | cons c body ih =>
      have hc : c ≠ modem.responseFormating := fun heq => hbody (by simp [heq])
      obtain ⟨a₁, hparse, hholds₁, hprompt₁⟩ := gsmParse_char h hc
      obtain ⟨a₂, hread, hterminated, hprompt₂⟩ := ih (fun hmem => hbody (by simp [hmem])) hholds₁
        (by simpa using hlt)
      refine ⟨a₂, ?_, ?_, ?_⟩
      · rw [List.cons_append, readGSMBuffer, if_neg (by simp [h.lineReceived_eq]), hparse]
        simp [hread]
      · rwa [List.append_assoc, List.singleton_append] at hterminated
      · rw [hprompt₂, hprompt₁, Bool.or_assoc]
        simp [eq_comm]

theorem Terminated.holds {a a' : Assembler} {line : List UInt8} (h : Terminated a line)
    (hreceived : a'.lineReceived = false) (hbuf : a'.buf = a.buf) (hidx : a'.bufIdx = a.bufIdx) :
    Holds modem a' [] where
  lineReceived_eq := hreceived
  formating_notMem := List.not_mem_nil
  bufIdx_le := by
    rw [hidx, h.bufIdx_eq]
    exact Nat.zero_le _
  take_eq := by
    rw [hidx, h.bufIdx_eq]
    rfl
  last_eq _ := by rw [hbuf, h.last_eq]

/-! ### Scans -/

/-- A scan that begins in the buffer ends at the last place, if not before. -/
theorem isSome_cString {buf : Payload} (h : buf.1[gsmMaxPayload - 1]? = some 0) {i : ℕ}
    (hi : i < gsmMaxPayload) : (buf.cString i).isSome := by
  have hmem : (0 : UInt8) ∈ buf.1.drop i := by
    refine List.mem_iff_getElem?.mpr ⟨gsmMaxPayload - 1 - i, ?_⟩
    rw [List.getElem?_drop, ← h]
    congr 1
    omega
  rw [Payload.cString, if_pos hmem]
  rfl

/-- A scan that begins in the line sees nothing behind it. -/
theorem cString_eq {buf : Payload} {line old : List UInt8} (h : buf.1 = line ++ 0 :: old) {i : ℕ}
    (hi : i ≤ line.length) :
    buf.cString i = some ((line.drop i).takeWhile (· ≠ 0)) := by
  have hdrop : buf.1.drop i = line.drop i ++ 0 :: old := by
    rw [h, List.drop_append_of_le_length hi]
  rw [Payload.cString, if_pos (by simp [hdrop]), hdrop, List.takeWhile_append]
  split_ifs with hall
  · rw [List.takeWhile_cons_of_neg (by simp), List.append_nil]
    exact congrArg some (List.takeWhile_eq_self_iff.mpr fun c hc =>
      List.takeWhile_eq_self_iff.mp ((List.takeWhile_prefix _).eq_of_length hall) c hc).symm
  · rfl

theorem indexn_lt {s : List UInt8} {c : UInt8} {n i : ℕ} (h : indexn s c n = some i) :
    i < n ∧ i < s.length := by
  induction n generalizing s i with
  | zero => simp [indexn] at h
  | succ n ih =>
      cases s with
      | nil => simp [indexn] at h
      | cons d s =>
          rw [indexn] at h
          split_ifs at h with hd
          · cases h
            exact ⟨Nat.succ_pos n, Nat.succ_pos _⟩
          · obtain ⟨j, hj, rfl⟩ := Option.map_eq_some_iff.mp h
            have := ih hj
            exact ⟨Nat.succ_lt_succ this.1, Nat.succ_lt_succ this.2⟩

theorem isSome_indexn_iff {s : List UInt8} {c : UInt8} {n : ℕ} :
    (indexn s c n).isSome ↔ c ∈ s.take n := by
  induction n generalizing s with
  | zero => simp [indexn]
  | succ n ih =>
      cases s with
      | nil => simp [indexn]
      | cons d s =>
          rw [indexn, List.take_succ_cons, List.mem_cons]
          split_ifs with hd
          · simp [hd]
          · rw [Option.isSome_map, ih]
            exact (or_iff_right fun heq => hd heq.symm).symm

theorem indexn_append {line old : List UInt8} {c : UInt8} {n : ℕ} (h : c ∈ line.take n) :
    indexn (line ++ old) c n = indexn line c n := by
  induction n generalizing line with
  | zero => simp at h
  | succ n ih =>
      cases line with
      | nil => simp at h
      | cons d line =>
          rw [List.cons_append, indexn, indexn]
          split_ifs with hd
          · rfl
          · rw [List.take_succ_cons, List.mem_cons] at h
            rw [ih (h.resolve_left fun heq => hd heq.symm)]

end Paparazzi.Link.Gsm
