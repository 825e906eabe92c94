import Paparazzi.Library.Fallible
import Paparazzi.Link.Gsm

/-!
The dialogue of `gsm.c` with the modem, and that the commands it carries out are those of the SMS
that it has asked for.
-/

namespace Paparazzi.Link.Gsm

open Paparazzi.Library.FallibleRun

/-! ### The state -/

inductive Status where
  | none
  | csq
  | requestingMessage
  | sendAt
  | sendCmgf
  | sendCnmi
  | sendCpms
  | receptionSms2
  | waitingData
  | idle
  | waitingPrompt
  | deleteSms
  | poweron
  deriving DecidableEq, Repr

structure State where
  status : Status
  line : Assembler
  waitingForReply : Bool
  expectedAck : List UInt8
  indexMsg : UInt8
  dataToSend : List UInt8
  gcsIndex : ℕ
  /-- What the modem has sent and `ReadGSMBuffer` has not taken. -/
  port : List UInt8

def statics : State where
  status := .none
  line := .init
  waitingForReply := false
  expectedAck := []
  indexMsg := 0
  dataToSend := []
  gcsIndex := 0
  port := []

/-- What the module does, in order; `V` are the values of `atof`. -/
inductive Obs (V : Type) where
  | read (c : UInt8)
  | debug (bytes : List UInt8)
  | sent (string : List UInt8)
  | navGotoBlock (block : UInt8)
  | dlSetting (index : UInt8) (value : V)
  deriving DecidableEq, Repr

def Obs.IsCommand {V : Type} : Obs V → Prop
  | navGotoBlock _ => True
  | dlSetting _ _ => True
  | _ => False

structure Report where
  east : ℤ
  north : ℤ
  course : ℤ
  hmsl : ℤ
  gspeed : ℤ
  nedVelZ : ℤ
  vsupply : ℤ
  flightTime : ℤ

inductive Input where
  /-- `gsm_event`, at which these bytes have come since the last one. -/
  | event (bytes : List UInt8) (report : Report)
  | sendReport
  | initReport

section

variable {V : Type} (modem : Modem) (atof : List UInt8 → V)

/-! ### Requests -/

def State.expect (s : State) (ack : String) : State :=
  { s with expectedAck := bytesOf ack, waitingForReply := true }

def sendAt (s : State) : State × List (Obs V) := (s.expect "OK", [.sent (bytesOf "ATE0")])

def sendCmgf (s : State) : State × List (Obs V) := (s.expect "OK", [.sent (bytesOf "AT+CMGF=1")])

def sendCsq (s : State) : State × List (Obs V) := (s.expect "OK", [.sent (bytesOf "AT+CSQ")])

def sendCnmi (s : State) : State × List (Obs V) :=
  (s.expect "OK", [.sent (bytesOf "AT+CNMI=1,1,0,0,0")])

def sendCpms (s : State) : State × List (Obs V) :=
  (s.expect "+CPMS:", [.sent (bytesOf "AT+CPMS=\"SM\"")])

def readRequest (index : UInt8) : List UInt8 :=
  bytesOf "AT+CMGR=" ++ bytesOf (toString index.toNat)

def requestForMsg (s : State) : State × List (Obs V) :=
  (s.expect "+CMGR", [.sent (readRequest s.indexMsg)])

def supprSms (index : UInt8) (s : State) : State × List (Obs V) :=
  (s.expect "OK", [.sent (bytesOf "AT+CMGD=" ++ bytesOf (toString index.toNat))])

def Modem.gcsIndexMax : ℕ := modem.gcsNumber1.toList.length + modem.gcsNumber2.toList.length

def messageTo (number : String) : List UInt8 := bytesOf ("AT+CMGS=\"" ++ number ++ "\"")

def gsmSendReportContinue (report : Report) (s : State) : Option (State × List (Obs V)) := do
  let rssi := atoiU8 (← s.line.buf.cString 6)
  let values := [report.east, report.north, report.course, report.hmsl, report.gspeed,
    -report.nedVelZ, report.vsupply, report.flightTime, rssi.toNat]
  let number :=
    match s.gcsIndex with
    | 0 => modem.gcsNumber1
    | 1 => modem.gcsNumber2
    | _ => none
  let gcsIndex := (if number.isSome then s.gcsIndex else 0) + 1
  some ({ s with
      dataToSend := bytesOf (" ".intercalate (values.map toString))
      gcsIndex := if gcsIndex = modem.gcsIndexMax then 0 else gcsIndex },
    number.toList.map fun number => .sent (messageTo number))

/-! ### Answers -/

/-- `gsm_receive_content`; there is no value where `gsm_buf` is left or `NULL` is used. -/
def gsmReceiveContent (buf : Payload) : Option (List (Obs V)) :=
  if buf.1.head? = some 'B'.toUInt8 then do
    let blockIndex := atoiU8 (← buf.cString 1)
    some (if 0 < blockIndex then [.navGotoBlock blockIndex] else [])
  else if buf.1.head? = some 'S'.toUInt8 then do
    let varIndex := atoiU8 (← buf.cString 1)
    if 0 < varIndex then
      let space ← indexn buf.1 ' '.toUInt8 maxlenSmsContent
      let value ← buf.cString (space + 1)
      some [.dlSetting varIndex (atof value)]
    else some []
  else some []

/-- The `switch` of `gsm_got_line`. -/
def gsmGotAnswer (report : Report) (s : State) : Option (State × List (Obs V)) :=
  match s.status with
  | .csq => do
      let (s', sent) ← gsmSendReportContinue modem report s
      some ({ s' with status := .waitingPrompt }, sent)
  | .requestingMessage => some ({ s with status := .waitingData }, [])
  | .sendAt =>
      let (s', sent) := sendCmgf s
      some ({ s' with status := .sendCmgf }, sent)
  | .sendCmgf =>
      let (s', sent) := sendCnmi s
      some ({ s' with status := .sendCnmi }, sent)
  | .sendCnmi =>
      let (s', sent) := sendCpms s
      some ({ s' with status := .sendCpms }, sent)
  | .sendCpms => some ({ s with status := .idle }, [])
  | .deleteSms => some ({ s with status := .idle }, [])
  | _ => some (s, [])

def gsmGotLine (report : Report) (s : State) : Option (State × List (Obs V)) :=
  if s.status = .waitingData then do
    let obs ← gsmReceiveContent atof s.line.buf
    let (s', sent) := supprSms s.indexMsg s
    some ({ s' with status := .deleteSms }, obs ++ sent)
  else if s.status = .idle ∧ s.line.buf.startsWith (bytesOf "+CMTI:") then
    match indexn s.line.buf.1 ','.toUInt8 maxlenCmtiAnswer with
    | none => some (s, [])
    | some firstComma => do
        let number ← s.line.buf.cString (firstComma + 1)
        let (s', sent) := requestForMsg { s with indexMsg := atoiU8 number }
        some ({ s' with status := .requestingMessage }, sent)
  else if s.waitingForReply = true ∧ s.line.buf.startsWith s.expectedAck then
    gsmGotAnswer modem report { s with waitingForReply := false }
  else some (s, [])

def gsmGotPrompt (s : State) : State × List (Obs V) :=
  ({ s with status := .idle },
    if s.status = .waitingPrompt then [.sent (s.dataToSend ++ [0x1A])] else [])

/-! ### The calls -/

def gsmInit (s : State) : State :=
  { s with status := if s.status = .none then .poweron else s.status, gcsIndex := 0 }

def gsmEvent (bytes : List UInt8) (report : Report) (s : State) :
    Option (State × List (Obs V)) := do
  let port := s.port ++ bytes
  let (line, read) ← readGSMBuffer modem port s.line
  let s := { s with line := line, port := port.drop read.length }
  let obs := read.map .read
  if line.lineReceived then
    let debug ← line.buf.bytes line.bufLen
    let (s', sent) ← gsmGotLine modem atof report s
    some ({ s' with line := { s'.line with lineReceived := false } },
      obs ++ (if 0 < line.bufLen then [.debug debug] else []) ++ sent)
  else if line.promptReceived then
    let (s', sent) := gsmGotPrompt s
    some ({ s' with line := { s'.line with promptReceived := false } },
      obs ++ [.debug [prompt]] ++ sent)
  else some (s, obs)

def gsmSendReport (s : State) : State × List (Obs V) :=
  let (s', sent) := sendCsq { s with status := .idle }
  ({ s' with status := .csq }, sent)

def gsmInitReport (s : State) : State × List (Obs V) :=
  if s.status ≠ .none then
    let (s', sent) := sendAt { s with line := { s.line with bufIdx := 0, lineReceived := false } }
    ({ s' with status := .sendAt }, sent)
  else (s, [])

def step (s : State) : Input → Option (State × List (Obs V))
  | .event bytes report => gsmEvent modem atof bytes report s
  | .sendReport => some (gsmSendReport s)
  | .initReport => some (gsmInitReport s)

/-- A call and what has been done up to it. -/
def update (w : State × List (Obs V)) (input : Input) : Option (State × List (Obs V)) :=
  (step modem atof w.1 input).map fun r => (r.1, w.2 ++ r.2)

/-! ### What is asked -/

/-- The command that a text gives, by the conversions of the C library. -/
def command (text : List UInt8) : Option (Obs V) :=
  let index := atoiU8 ((text.drop 1).takeWhile (· ≠ 0))
  if index = 0 then none
  else if text.head? = some 'B'.toUInt8 then some (.navGotoBlock index)
  else if text.head? = some 'S'.toUInt8 then
    (indexn text ' '.toUInt8 maxlenSmsContent).map fun space =>
      .dlSetting index (atof ((text.drop (space + 1)).takeWhile (· ≠ 0)))
  else none

def IsAnswer (line : List UInt8) : Prop := bytesOf "+CMGR" <+: stored modem line

def linesBytes (lines : List (List UInt8)) : List UInt8 :=
  lines.flatMap (· ++ [modem.responseFormating])

/-- Messages for debugging aside. -/
def dialogue (log : List (Obs V)) : List (Obs V) :=
  log.filter fun o =>
    match o with
    | .debug _ => false
    | _ => true

/-- Behind a read request all that has happened is that lines have been received: some that are no
answer, the answer, and the text that gives the command. -/
def Follows (before : List (Obs V)) (c : Obs V) : Prop :=
  ∃ earlier index lines header text,
    before = earlier ++ .sent (readRequest index) ::
      (linesBytes modem (lines ++ [header, text])).map .read ∧
    (∀ line ∈ lines ++ [header, text], modem.responseFormating ∉ line) ∧
    (∀ line ∈ lines, ¬IsAnswer modem line) ∧ IsAnswer modem header ∧
    command atof (content modem text) = some c

def CommandsFollow (log : List (Obs V)) : Prop :=
  ∀ before c later, log = before ++ c :: later → c.IsCommand → Follows modem atof before c

/-- A setting has a blank where `indexn` looks for it. -/
def HasBlank (text : List UInt8) : Prop :=
  text.head? = some 'S'.toUInt8 → atoiU8 ((text.drop 1).takeWhile (· ≠ 0)) ≠ 0 →
    ' '.toUInt8 ∈ text.take maxlenSmsContent

instance (text : List UInt8) : Decidable (HasBlank text) :=
  inferInstanceAs (Decidable (_ → _ → _))

/-- A line that ends, and one that `gsm_init_report` cuts off, leaves room for the terminator; an
SMS has no prompt character, and a setting has its blank. -/
def Fine (w : State × List (Obs V)) : Input → Prop
  | .event bytes _ =>
      modem.responseFormating ∈ w.1.port ++ bytes →
        let body := (w.1.port ++ bytes).takeWhile (· ≠ modem.responseFormating)
        let line := w.1.line.buf.1.take w.1.line.bufIdx ++ stored modem body
        line.length < gsmMaxPayload ∧
          (w.1.status = .waitingData → prompt ∉ body ∧ HasBlank line)
  | .sendReport => True
  | .initReport => w.1.line.bufIdx < gsmMaxPayload

instance (w : State × List (Obs V)) : (input : Input) → Decidable (Fine modem w input)
  | .event _ _ => inferInstanceAs (Decidable (_ → _ ∧ (_ → _ ∧ _)))
  | .sendReport => inferInstanceAs (Decidable True)
  | .initReport => inferInstanceAs (Decidable (_ < _))

end

variable {V : Type} {modem : Modem} {atof : List UInt8 → V}

/-! ### Logs -/

theorem dialogue_append (log log' : List (Obs V)) :
    dialogue (log ++ log') = dialogue log ++ dialogue log' :=
  List.filter_append _ _

@[simp] theorem dialogue_read (bytes : List UInt8) :
    dialogue (bytes.map (Obs.read (V := V))) = bytes.map .read := by
  simp [dialogue]

theorem CommandsFollow.append {log new : List (Obs V)} (h : CommandsFollow modem atof log)
    (hnew : ∀ before c later, new = before ++ c :: later → c.IsCommand →
      Follows modem atof (log ++ before) c) : CommandsFollow modem atof (log ++ new) := by
  intro before c later heq hc
  rcases List.append_eq_append_iff.mp heq with ⟨more, rfl, hmore⟩ | ⟨more, rfl, hmore⟩
  · exact hnew more c later hmore hc
  · cases more with
    | nil =>
        rw [List.append_nil] at *
        simpa using hnew [] c later hmore.symm hc
    | cons d more =>
        obtain ⟨rfl, -⟩ := List.cons.inj hmore
        exact h before c more rfl hc

theorem CommandsFollow.append_of_forall {log new : List (Obs V)}
    (h : CommandsFollow modem atof log) (hnew : ∀ o ∈ new, ¬o.IsCommand) :
    CommandsFollow modem atof (log ++ new) :=
  h.append fun before c later heq hc => absurd hc (hnew c (by simp [heq]))

theorem CommandsFollow.concat {log : List (Obs V)} (h : CommandsFollow modem atof log) {c : Obs V}
    (hc : Follows modem atof log c) : CommandsFollow modem atof (log ++ [c]) := by
  refine h.append fun before c' later heq _ => ?_
  cases before with
  | nil =>
      obtain ⟨rfl, -⟩ := List.cons.inj heq
      rwa [List.append_nil]
  | cons d before => simp at heq

/-- Since a read request nothing has happened but that these lines, and a part of a further one,
have been received. -/
def Requested (modem : Modem) (log : List (Obs V)) (lines : List (List UInt8))
    (line : List UInt8) : Prop :=
  ∃ earlier index, log = earlier ++ .sent (readRequest index) ::
    (linesBytes modem lines ++ line).map .read

theorem Requested.read {log : List (Obs V)} {lines : List (List UInt8)} {line : List UInt8}
    (h : Requested modem log lines line) (bytes : List UInt8) :
    Requested modem (log ++ bytes.map .read) lines (line ++ bytes) := by
  obtain ⟨earlier, index, rfl⟩ := h
  exact ⟨earlier, index, by simp⟩

theorem Requested.endLine {log : List (Obs V)} {lines : List (List UInt8)} {line : List UInt8}
    (h : Requested modem log lines line) (body : List UInt8) :
    Requested modem (log ++ (body ++ [modem.responseFormating]).map .read)
      (lines ++ [line ++ body]) [] := by
  obtain ⟨earlier, index, rfl⟩ := h
  exact ⟨earlier, index, by simp [linesBytes]⟩

/-! ### One line -/

theorem Terminated.startsWith_iff {a : Assembler} {line string : List UInt8}
    (h : Terminated a line) (hstring : 0 ∉ string) :
    a.buf.startsWith string = true ↔ string <+: line := by
  obtain ⟨old, hold⟩ := h.buf_eq
  rw [Payload.startsWith, List.isPrefixOf_iff_prefix, hold]
  constructor
  · intro hprefix
    rcases List.prefix_or_prefix_of_prefix hprefix (List.prefix_append line _) with hle | hle
    · exact hle
    · obtain ⟨t, rfl⟩ := hle
      rw [List.prefix_append_right_inj] at hprefix
      cases t with
      | nil => simp
      | cons c t =>
          obtain ⟨rfl, -⟩ := List.cons_prefix_cons.mp hprefix
          exact absurd (by simp) hstring
  · exact fun hprefix => hprefix.trans (List.prefix_append _ _)

/-- The commands of a text are those of the line in the buffer, if a setting has its blank. -/
theorem Terminated.gsmReceiveContent_eq {a : Assembler} {text : List UInt8}
    (h : Terminated a text) (hblank : HasBlank text) :
    gsmReceiveContent atof a.buf = some (command atof text).toList := by
  obtain ⟨old, hold⟩ := h.buf_eq
  cases text with
  | nil =>
      have hhead : a.buf.1.head? = some 0 := by rw [hold, List.nil_append, List.head?_cons]
      rw [gsmReceiveContent, hhead, if_neg (by decide), if_neg (by decide), command]
      rfl
  | cons c text =>
      have hhead : a.buf.1.head? = some c := by rw [hold, List.cons_append, List.head?_cons]
      have hindex := cString_eq hold (i := 1) (Nat.le_add_left 1 _)
      rw [gsmReceiveContent, hhead, command, List.head?_cons, hindex]
      dsimp only [Option.bind_eq_bind, Option.bind_some]
      rw [HasBlank, List.head?_cons] at hblank
      generalize hn : atoiU8 (((c :: text).drop 1).takeWhile (· ≠ 0)) = index at hblank ⊢
      rcases eq_or_ne index 0 with rfl | hpos
      · simp
      have hlt : 0 < index := UInt8.pos_iff_ne_zero.mpr hpos
      rw [if_neg hpos, if_pos hlt, if_pos hlt]
      split_ifs with hb hs
      · rfl
      · have hmem := hblank hs hpos
        obtain ⟨space, hspace⟩ := Option.isSome_iff_exists.mp (isSome_indexn_iff.mpr hmem)
        have hvalue := cString_eq hold (i := space + 1) (indexn_lt hspace).2
        rw [hold, indexn_append hmem, hspace, Option.bind_some, hvalue]
        rfl
      · rfl

/-! ### Answers -/

/-- Neither waiting for the answer to a read request nor for the text behind it. -/
def Status.Plain (status : Status) : Prop := status ≠ .requestingMessage ∧ status ≠ .waitingData

theorem not_isCommand_sent {string : List UInt8} :
    ∀ o ∈ [Obs.sent (V := V) string], ¬o.IsCommand := by
  intro o ho
  obtain rfl := List.mem_singleton.mp ho
  exact id

theorem gsmGotAnswer_cases (report : Report) {s : State} (hdata : s.status ≠ .waitingData)
    (hlast : s.line.buf.1[gsmMaxPayload - 1]? = some 0) :
    ∃ s' obs, gsmGotAnswer modem report s = some (s', obs) ∧ s'.line = s.line ∧
      (∀ o : Obs V, o ∈ obs → ¬o.IsCommand) ∧
      (s.status = .requestingMessage ∧ s'.status = .waitingData ∧ obs = [] ∨ s'.status.Plain) := by
  rw [gsmGotAnswer]
  cases hstatus : s.status with
  | csq =>
      obtain ⟨string, hstring⟩ := Option.isSome_iff_exists.mp
        (isSome_cString hlast (i := 6) (by decide))
      rw [gsmSendReportContinue, hstring]
      refine ⟨_, _, rfl, rfl, ?_, .inr ⟨by simp, by simp⟩⟩
      intro o ho
      obtain ⟨number, -, rfl⟩ := List.mem_map.mp ho
      exact id
  | requestingMessage => exact ⟨_, _, rfl, rfl, by simp, .inl ⟨rfl, rfl, rfl⟩⟩
  | waitingData => exact absurd hstatus hdata
  | sendAt | sendCmgf | sendCnmi =>
      exact ⟨_, _, rfl, rfl, not_isCommand_sent, .inr ⟨by simp, by simp⟩⟩
  | sendCpms | deleteSms =>
      exact ⟨_, _, rfl, rfl, by simp, .inr ⟨by simp, by simp⟩⟩
  | none | receptionSms2 | idle | waitingPrompt | poweron =>
      exact ⟨_, _, rfl, rfl, by simp, .inr ⟨by simp [hstatus], by simp [hstatus]⟩⟩

/-- What a line brings about, by the state that it comes in. -/
inductive LineResult (atof : List UInt8 → V) (text : List UInt8) (s s' : State) :
    List (Obs V) → Prop where
  | text {sent : List (Obs V)} (before : s.status = .waitingData) (after : s'.status.Plain)
      (hsent : ∀ o ∈ sent, ¬o.IsCommand) :
      LineResult atof text s s' ((command atof text).toList ++ sent)
  | request (index : UInt8) (after : s'.status = .requestingMessage)
      (waiting : s'.waitingForReply = true) (ack : s'.expectedAck = bytesOf "+CMGR") :
      LineResult atof text s s' [.sent (readRequest index)]
  | answer (before : s.status = .requestingMessage) (after : s'.status = .waitingData)
      (hack : s.line.buf.startsWith s.expectedAck = true) : LineResult atof text s s' []
  | noAnswer (before : s.status = .requestingMessage) (same : s' = s)
      (hack : s.waitingForReply = true → s.line.buf.startsWith s.expectedAck = false) :
      LineResult atof text s s' []
  | other {sent : List (Obs V)} (after : s'.status.Plain) (hsent : ∀ o ∈ sent, ¬o.IsCommand) :
      LineResult atof text s s' sent

theorem gsmGotLine_cases (report : Report) {s : State} {text : List UInt8}
    (h : Terminated s.line text) (hblank : s.status = .waitingData → HasBlank text) :
    ∃ s' obs, gsmGotLine modem atof report s = some (s', obs) ∧ s'.line = s.line ∧
      LineResult atof text s s' obs := by
  rw [gsmGotLine]
  split_ifs with hdata hcmti hack
  · rw [h.gsmReceiveContent_eq (hblank hdata)]
    exact ⟨_, _, rfl, rfl, .text hdata ⟨by simp, by simp⟩ not_isCommand_sent⟩
  · cases hcomma : indexn s.line.buf.1 ','.toUInt8 maxlenCmtiAnswer with
    | none =>
        exact ⟨_, _, rfl, rfl, .other ⟨by simp [hcmti.1], by simp [hcmti.1]⟩ (by simp)⟩
    | some firstComma =>
        have hlt : firstComma + 1 < gsmMaxPayload :=
          (Nat.succ_le_of_lt (indexn_lt hcomma).1).trans_lt (by decide)
        obtain ⟨number, hnumber⟩ := Option.isSome_iff_exists.mp (isSome_cString h.last_eq hlt)
        dsimp only
        rw [hnumber]
        exact ⟨_, _, rfl, rfl, .request _ rfl rfl rfl⟩
  · obtain ⟨s', obs, heq, hline, hobs, hresult⟩ :=
      gsmGotAnswer_cases report (s := { s with waitingForReply := false }) hdata h.last_eq
    refine ⟨s', obs, heq, hline, ?_⟩
    rcases hresult with ⟨before, after, rfl⟩ | after
    · exact .answer before after hack.2
    · exact .other after hobs
  · refine ⟨_, _, rfl, rfl, ?_⟩
    rcases eq_or_ne s.status .requestingMessage with hrequesting | hrequesting
    · refine .noAnswer hrequesting rfl fun hwaiting => ?_
      exact Bool.eq_false_iff.mpr fun hstarts => hack ⟨hwaiting, hstarts⟩
    · exact .other ⟨hrequesting, hdata⟩ (by simp)

/-! ### The invariant -/

/-- How far the receiving of an SMS has come, by the characters of the line that has not ended. -/
structure Receiving (modem : Modem) (s : State) (log : List (Obs V)) (line : List UInt8) :
    Prop where
  requesting : s.status = .requestingMessage →
    s.waitingForReply = true ∧ s.expectedAck = bytesOf "+CMGR" ∧
      ∃ lines, Requested modem log lines line ∧
        (∀ l ∈ lines, modem.responseFormating ∉ l) ∧ ∀ l ∈ lines, ¬IsAnswer modem l
  answered : s.status = .waitingData →
    prompt ∉ line ∧
      ∃ lines header, Requested modem log (lines ++ [header]) line ∧
        (∀ l ∈ lines ++ [header], modem.responseFormating ∉ l) ∧
        (∀ l ∈ lines, ¬IsAnswer modem l) ∧ IsAnswer modem header

theorem Status.Plain.receiving {s : State} (h : s.status.Plain) (log : List (Obs V))
    (line : List UInt8) : Receiving modem s log line :=
  ⟨fun hrequesting => absurd hrequesting h.1, fun hdata => absurd hdata h.2⟩

structure Inv (modem : Modem) (atof : List UInt8 → V) (w : State × List (Obs V)) : Prop where
  receiving : ∃ line, Holds modem w.1.line line ∧ Receiving modem w.1 (dialogue w.2) line
  commandsFollow : CommandsFollow modem atof (dialogue w.2)

theorem inv_init : Inv modem atof (gsmInit statics, []) where
  receiving :=
    ⟨[], holds_init,
      Status.Plain.receiving ⟨by simp [gsmInit, statics], by simp [gsmInit, statics]⟩ _ _⟩
  commandsFollow before c later heq := by simp [dialogue] at heq

/-- A call that leaves the receiving of an SMS. -/
theorem Inv.leave {w : State × List (Obs V)} (h : Inv modem atof w) {s' : State}
    {obs : List (Obs V)} {line : List UInt8} (hholds : Holds modem s'.line line)
    (hplain : s'.status.Plain) (hobs : ∀ o ∈ obs, ¬o.IsCommand) :
    Inv modem atof (s', w.2 ++ obs) where
  receiving := ⟨line, hholds, hplain.receiving _ _⟩
  commandsFollow := by
    rw [dialogue_append]
    exact h.commandsFollow.append_of_forall fun o ho => hobs o (List.mem_of_mem_filter ho)

theorem not_isCommand_read {bytes : List UInt8} :
    ∀ o ∈ bytes.map (Obs.read (V := V)), ¬o.IsCommand := by
  intro o ho
  obtain ⟨c, -, rfl⟩ := List.mem_map.mp ho
  exact id

theorem not_isCommand_gsmGotPrompt {s : State} :
    ∀ o ∈ (gsmGotPrompt s : State × List (Obs V)).2, ¬o.IsCommand := by
  intro o ho
  rw [gsmGotPrompt] at ho
  split_ifs at ho with hwaiting
  · exact not_isCommand_sent o ho
  · cases ho

theorem inv_event_open {w : State × List (Obs V)} (h : Inv modem atof w) (bytes : List UInt8)
    (report : Report) (hport : modem.responseFormating ∉ w.1.port ++ bytes) :
    ∃ w', update modem atof w (.event bytes report) = some w' ∧ Inv modem atof w' := by
  obtain ⟨line, hholds, hreceiving⟩ := h.receiving
  obtain ⟨a, hread, hholds', hprompt⟩ := readGSMBuffer_open hport hholds
  rw [update, step, gsmEvent]
  dsimp only
  rw [hread]
  dsimp only [Option.bind_eq_bind, Option.bind_some]
  rw [if_neg (by simp [hholds'.lineReceived_eq])]
  split_ifs with hp
  · have hreset : Holds modem { a with promptReceived := false } (line ++ (w.1.port ++ bytes)) :=
      ⟨hholds'.lineReceived_eq, hholds'.formating_notMem, hholds'.bufIdx_le, hholds'.take_eq,
        hholds'.last_eq⟩
    refine ⟨_, rfl, h.leave hreset ⟨by simp [gsmGotPrompt], by simp [gsmGotPrompt]⟩ ?_⟩
    rw [List.forall_mem_append, List.forall_mem_append]
    exact ⟨⟨not_isCommand_read, by simp [Obs.IsCommand]⟩, not_isCommand_gsmGotPrompt⟩
  · refine ⟨_, rfl, ⟨_, hholds', ?_⟩, ?_⟩
    · rw [dialogue_append, dialogue_read]
      refine ⟨fun hrequesting => ?_, fun hdata => ?_⟩
      · obtain ⟨hwaiting, hack, lines, hreq, hlines⟩ := hreceiving.requesting hrequesting
        exact ⟨hwaiting, hack, lines, hreq.read _, hlines⟩
      · obtain ⟨hline, lines, header, hreq, hlines⟩ := hreceiving.answered hdata
        refine ⟨?_, lines, header, hreq.read _, hlines⟩
        rw [List.mem_append]
        refine not_or_intro hline fun hmem => hp ?_
        rw [hprompt, decide_eq_true hmem, Bool.or_true]
    · rw [dialogue_append, dialogue_read]
      exact h.commandsFollow.append_of_forall not_isCommand_read

theorem dialogue_command {text : List UInt8} :
    dialogue (command atof text).toList = (command atof text).toList := by
  rw [command]
  split_ifs
  · rfl
  · rfl
  · cases indexn text ' '.toUInt8 maxlenSmsContent <;> rfl
  · rfl

theorem LineResult.inv {w : State × List (Obs V)} (h : Inv modem atof w) {line body : List UInt8}
    (hbody : modem.responseFormating ∉ body) (hholds : Holds modem w.1.line line)
    (hreceiving : Receiving modem w.1 (dialogue w.2) line) {debug obs : List (Obs V)}
    (hdebug : dialogue debug = []) {a : Assembler} {port : List UInt8}
    (hterminated : Terminated a (stored modem (line ++ body)))
    (hprompt : w.1.status = .waitingData → prompt ∉ body) {s' : State}
    (hresult : LineResult atof (stored modem (line ++ body)) { w.1 with line := a, port := port }
      s' obs) :
    CommandsFollow modem atof (dialogue (w.2 ++
      ((body ++ [modem.responseFormating]).map .read ++ debug ++ obs))) ∧
    Receiving modem s' (dialogue (w.2 ++
      ((body ++ [modem.responseFormating]).map .read ++ debug ++ obs))) [] := by
  have hlog : dialogue (w.2 ++ ((body ++ [modem.responseFormating]).map .read ++ debug ++ obs)) =
      dialogue w.2 ++ (body ++ [modem.responseFormating]).map .read ++ dialogue obs := by
    simp only [dialogue_append, dialogue_read, hdebug, List.nil_append, List.append_assoc]
  have hline : modem.responseFormating ∉ line ++ body := by
    rw [List.mem_append]
    exact not_or_intro hholds.formating_notMem hbody
  have hreads : CommandsFollow modem atof
      (dialogue w.2 ++ (body ++ [modem.responseFormating]).map .read) :=
    h.commandsFollow.append_of_forall not_isCommand_read
  have hsilent : ∀ {new : List (Obs V)}, (∀ o ∈ new, ¬o.IsCommand) →
      ∀ o ∈ dialogue new, ¬o.IsCommand :=
    fun hnew o ho => hnew o (List.mem_of_mem_filter ho)
  rw [hlog]
  cases hresult with
  | text before after hsent =>
      obtain ⟨hnone, lines, header, hreq, hlines, hno, hheader⟩ :=
        hreceiving.answered before
      have hclean : prompt ∉ line ++ body := by
        rw [List.mem_append]
        exact not_or_intro hnone (hprompt before)
      refine ⟨?_, after.receiving _ _⟩
      rw [dialogue_append, dialogue_command, ← List.append_assoc]
      refine CommandsFollow.append_of_forall ?_ (hsilent hsent)
      cases hc : command atof (stored modem (line ++ body)) with
      | none => rwa [Option.toList_none, List.append_nil]
      | some c =>
          obtain ⟨earlier, index, heq⟩ := hreq.endLine body
          refine hreads.concat
            ⟨earlier, index, lines, header, line ++ body, ?_, ?_, hno, hheader, ?_⟩
          · rw [heq, List.append_nil, List.append_assoc]
            rfl
          · intro l hl
            rw [← List.singleton_append, ← List.append_assoc, List.mem_append,
              List.mem_singleton] at hl
            rcases hl with hl | rfl
            · exact hlines l hl
            · exact hline
          · rw [← stored_eq_content hclean, hc]
  | request index after waiting ack =>
      refine ⟨hreads.append_of_forall (by simp [dialogue, Obs.IsCommand]), ?_, ?_⟩
      · exact fun _ => ⟨waiting, ack, [], ⟨_, index, rfl⟩, by simp, by simp⟩
      · intro hdata
        rw [after] at hdata
        cases hdata
  | answer before after hstarts =>
      obtain ⟨-, hexpected, lines, hreq, hlines, hno⟩ :=
        hreceiving.requesting before
      dsimp only at hstarts
      rw [hexpected, hterminated.startsWith_iff (by decide)] at hstarts
      refine ⟨by simpa [dialogue] using hreads, ?_,
        fun _ => ⟨List.not_mem_nil, lines, line ++ body, ?_, ?_, hno, hstarts⟩⟩
      · intro hrequesting
        rw [after] at hrequesting
        cases hrequesting
      · simpa [dialogue] using hreq.endLine body
      · rw [List.forall_mem_append]
        exact ⟨hlines, by simpa using hline⟩
  | noAnswer before same hstarts =>
      obtain ⟨hreply, hexpected, lines, hreq, hlines, hno⟩ :=
        hreceiving.requesting before
      have hnot := hstarts hreply
      dsimp only at hnot
      rw [hexpected, ← Bool.not_eq_true, hterminated.startsWith_iff (by decide)] at hnot
      refine ⟨by simpa [dialogue] using hreads, fun _ => ?_, ?_⟩
      · refine ⟨same ▸ hreply, same ▸ hexpected, lines ++ [line ++ body],
          by simpa [dialogue] using hreq.endLine body, ?_, ?_⟩
        · rw [List.forall_mem_append]
          exact ⟨hlines, by simpa using hline⟩
        · rw [List.forall_mem_append]
          exact ⟨hno, by simpa [IsAnswer] using hnot⟩
      · intro hdata
        rw [same, before] at hdata
        cases hdata
  | other after hsent =>
      exact ⟨hreads.append_of_forall (hsilent hsent), after.receiving _ _⟩

/-- What is in the buffer is what a line has stored so far, if there is room. -/
theorem Holds.pending_eq {a : Assembler} {line body : List UInt8} (h : Holds modem a line)
    (hlt : (a.buf.1.take a.bufIdx ++ stored modem body).length < gsmMaxPayload) :
    a.buf.1.take a.bufIdx ++ stored modem body = stored modem (line ++ body) := by
  rw [h.take_eq, List.length_append, List.length_take] at hlt
  rw [h.take_eq, stored_append, List.take_of_length_le (by omega)]

theorem exists_line {port : List UInt8} (h : modem.responseFormating ∈ port) :
    ∃ rest,
      port = port.takeWhile (· ≠ modem.responseFormating) ++ modem.responseFormating :: rest ∧
      modem.responseFormating ∉ port.takeWhile (· ≠ modem.responseFormating) := by
  obtain ⟨body, rest, rfl, hbody⟩ := List.eq_append_cons_of_mem h
  have htake : (body ++ modem.responseFormating :: rest).takeWhile (· ≠ modem.responseFormating) =
      body := by
    rw [List.takeWhile_append_of_pos, List.takeWhile_cons_of_neg (by simp), List.append_nil]
    exact fun c hc => decide_eq_true fun heq => hbody (heq ▸ hc)
  rw [htake]
  exact ⟨rest, rfl, hbody⟩

theorem inv_event_line {w : State × List (Obs V)} (h : Inv modem atof w) {bytes : List UInt8}
    {report : Report} (hport : modem.responseFormating ∈ w.1.port ++ bytes)
    (hfine : Fine modem w (.event bytes report)) :
    ∃ w', update modem atof w (.event bytes report) = some w' ∧ Inv modem atof w' := by
  obtain ⟨line, hholds, hreceiving⟩ := h.receiving
  obtain ⟨hlt, htext⟩ := hfine hport
  obtain ⟨port, hsplit, hbody⟩ := exists_line hport
  generalize (w.1.port ++ bytes).takeWhile (· ≠ modem.responseFormating) = body at *
  have hpending := hholds.pending_eq hlt
  rw [hpending] at hlt htext
  obtain ⟨a, hread, hterminated, -⟩ := readGSMBuffer_line hbody hholds hlt
  have hlen : a.buf.bytes a.bufLen = some (a.buf.1.take a.bufLen) :=
    if_pos (hterminated.bufLen_eq ▸ hlt.le)
  rw [update, step, gsmEvent]
  dsimp only
  rw [hsplit, hread]
  dsimp only [Option.bind_eq_bind, Option.bind_some]
  rw [if_pos hterminated.lineReceived_eq, hlen, Option.bind_some]
  obtain ⟨s', obs, hgot, hline, hresult⟩ := gsmGotLine_cases report
    (s := { w.1 with
      line := a
      port := (body ++ modem.responseFormating :: port).drop
        (body ++ [modem.responseFormating]).length })
    hterminated fun hdata => (htext hdata).2
  rw [hgot]
  have hdebug : dialogue (V := V)
      (if 0 < a.bufLen then [.debug (a.buf.1.take a.bufLen)] else []) = [] := by
    split_ifs <;> rfl
  obtain ⟨hcommands, hreceiving'⟩ := hresult.inv h hbody hholds hreceiving hdebug hterminated
    fun hdata => (htext hdata).1
  refine ⟨_, rfl, ⟨[], hterminated.holds rfl ?_ ?_, ?_⟩, hcommands⟩
  · rw [hline]
  · rw [hline]
  · exact ⟨hreceiving'.requesting, hreceiving'.answered⟩

theorem inv_gsmSendReport {w : State × List (Obs V)} (h : Inv modem atof w) :
    ∃ w', update modem atof w .sendReport = some w' ∧ Inv modem atof w' := by
  obtain ⟨line, hholds, -⟩ := h.receiving
  have hplain : (gsmSendReport w.1 : State × List (Obs V)).1.status.Plain :=
    ⟨by simp [gsmSendReport], by simp [gsmSendReport]⟩
  exact ⟨_, rfl, h.leave hholds hplain not_isCommand_sent⟩

/-- The first line after a restart begins within a line of the modem. -/
theorem inv_gsmInitReport {w : State × List (Obs V)} (h : Inv modem atof w)
    (hfine : w.1.line.bufIdx < gsmMaxPayload) :
    ∃ w', update modem atof w .initReport = some w' ∧ Inv modem atof w' := by
  obtain ⟨line, hholds, hreceiving⟩ := h.receiving
  rw [update, step, gsmInitReport]
  split_ifs with hstatus
  · have hcut : Holds modem { w.1.line with bufIdx := 0, lineReceived := false } [] :=
      ⟨rfl, List.not_mem_nil, Nat.zero_le _, rfl, fun _ => hholds.last_eq hfine⟩
    exact ⟨_, rfl, h.leave hcut ⟨by simp, by simp⟩ not_isCommand_sent⟩
  · refine ⟨_, rfl, ⟨line, hholds, ?_⟩, ?_⟩
    · simpa using hreceiving
    · simpa using h.commandsFollow

theorem inv_update {w : State × List (Obs V)} {input : Input} (h : Inv modem atof w)
    (hfine : Fine modem w input) :
    ∃ w', update modem atof w input = some w' ∧ Inv modem atof w' := by
  cases input with
  | event bytes report =>
      rcases em (modem.responseFormating ∈ w.1.port ++ bytes) with hport | hport
      · exact inv_event_line h hport hfine
      · exact inv_event_open h bytes report hport
  | sendReport => exact inv_gsmSendReport h
  | initReport => exact inv_gsmInitReport h hfine

/-- Whatever the modem sends and whenever the module is called, if the lines are as `Fine` asks, the
buffer is never left and `NULL` never used, and each command is the one of the text that comes first
behind the answer to a read request. -/
theorem run_safe {inputs : List Input}
    (h : Meets (update modem atof) (Fine modem) (gsmInit statics, []) inputs) :
    ∃ s log, inputs.foldlM (update modem atof) (gsmInit statics, []) = some (s, log) ∧
      CommandsFollow modem atof (dialogue log) := by
  obtain ⟨w, hrun, hinv⟩ := exists_of_meets (fun w input => inv_update) inv_init h
  exact ⟨w.1, w.2, hrun, hinv.commandsFollow⟩

def lineFeedModem : Modem where
  lineTermination := 13
  responseFormating := 10
  gcsNumber1 := none
  gcsNumber2 := none
  termination_ne_formating := by decide
  termination_ne_prompt := by decide
  formating_ne_prompt := by decide

def lineEvent (line : String) : Input := .event (bytesOf line ++ [10]) ⟨0, 0, 0, 0, 0, 0, 0, 0⟩

/-- The dialogue up to the read request. -/
def untilRequest : List Input :=
  [.initReport, lineEvent "OK", lineEvent "OK", lineEvent "OK", lineEvent "+CPMS:",
    lineEvent "+CMTI:,7"]

def commands (inputs : List Input) : Option (List (Obs (List UInt8))) :=
  (inputs.foldlM (update lineFeedModem id) (gsmInit statics, [])).map fun w =>
    w.2.filter fun o =>
      match o with
      | .navGotoBlock _ => true
      | .dlSetting _ _ => true
      | _ => false

theorem run_safe_setting :
    Meets (update lineFeedModem id) (Fine lineFeedModem) (gsmInit statics, [])
        (untilRequest ++ [lineEvent "+CMGR: 1", lineEvent "S3 2.5"]) ∧
      commands (untilRequest ++ [lineEvent "+CMGR: 1", lineEvent "S3 2.5"]) =
        some [.dlSetting 3 (bytesOf "2.5")] ∧
      ∃ s log, (untilRequest ++ [lineEvent "+CMGR: 1", lineEvent "S3 2.5"]).foldlM
          (update lineFeedModem (id : List UInt8 → List UInt8)) (gsmInit statics, []) =
            some (s, log) ∧
        CommandsFollow lineFeedModem id (dialogue log) :=
  ⟨by decide +kernel, by decide +kernel, run_safe (by decide +kernel)⟩

/-- A line that fills the buffer, and a setting without a blank; a value that is left from the
answer, and a block number that a prompt character has been dropped from. -/
theorem run_unsafe :
    commands [lineEvent (String.ofList (List.replicate 160 'a'))] = none ∧
    commands (untilRequest ++ [lineEvent "+CMGR", lineEvent "S3"]) = none ∧
    commands (untilRequest ++ [lineEvent "+CMGR: 8.5", lineEvent "S3"]) =
      some [.dlSetting 3 (bytesOf "8.5")] ∧
    commands (untilRequest ++ [lineEvent "+CMGR", lineEvent "B4>2"]) = some [.navGotoBlock 42] := by
  decide +kernel

end Paparazzi.Link.Gsm
