import Paparazzi.Link.UdpLink

/-!
Which frames of a datagram the UDP link forwards, and as what text.
-/

namespace Paparazzi.Link.UdpForwarding

open Paparazzi.Library
open Paparazzi.Link.UdpLink

/-! ### Frames -/

/-- A frame of the Pprz transport, with or without a timestamp. Its contents are any bytes, its
length byte is right. -/
structure Frame where
  timestamp : List UInt8
  length : UInt8
  acId : UInt8
  msgId : UInt8
  payload : List UInt8
  ckA : UInt8
  ckB : UInt8
  timestamp_length : timestamp = [] ∨ timestamp.length = 4
  length_eq : length.toNat = timestamp.length + payload.length + 6

namespace Frame

def startByte (f : Frame) : UInt8 := if f.timestamp = [] then stx else stxTs

/-- The frame without its checksum. -/
def body (f : Frame) : List UInt8 :=
  f.startByte :: f.length :: (f.timestamp ++ f.acId :: f.msgId :: f.payload)

def bytes (f : Frame) : List UInt8 := f.body ++ [f.ckA, f.ckB]

def Good (f : Frame) : Bool := calculateChecksum f.body = (f.ckA, f.ckB)

end Frame

def datagram (fs : List Frame) : List UInt8 := fs.flatMap Frame.bytes

/-! ### The layout of the messages -/

/-- The texts with commas between them. -/
def commas : List String → String
  | [] => ""
  | [x] => x
  | x :: y :: xs => x ++ "," ++ commas (y :: xs)

def concat : List String → String
  | [] => ""
  | x :: xs => x ++ concat xs

section

variable (env : Env)

/-- A value at the start of some bytes, and the bytes behind it. -/
def decodeScalar (type : String) (bytes : List UInt8) : Option (Value × List UInt8) := do
  let (format, size) ← dataTypes type
  let value ← env.unpack format (bytes.take size)
  return (value, bytes.drop size)

def decodeValues (type : String) : Nat → List UInt8 → Option (List Value × List UInt8)
  | 0, bytes => some ([], bytes)
  | n + 1, bytes => do
      let (value, bytes) ← decodeScalar env type bytes
      let (values, bytes) ← decodeValues type n bytes
      return (value :: values, bytes)

/-- The values of a field: an array is preceded by their number. -/
def decodeField (field : String) (bytes : List UInt8) : Option (List Value × List UInt8) :=
  if isArray field then
    match bytes with
    | [] => none
    | n :: bytes => decodeValues env (baseType field) n.toNat bytes
  else (decodeScalar env field bytes).map fun x => ([x.1], x.2)

/-- The fields of a message, which fill the bytes. -/
def decodeFields : List String → List UInt8 → Option (List (List Value))
  | [], bytes => if bytes = [] then some [] else none
  | field :: rest, bytes => do
      let (values, bytes) ← decodeField env field bytes
      let fields ← decodeFields rest bytes
      return values :: fields

def fieldText (values : List Value) : String := commas (values.map env.str)

def ivyText (acId : UInt8) (name : String) (fields : List (List Value)) : String :=
  toString acId.toNat ++ " " ++ name ++ concat (fields.map fun values => " " ++ fieldText env values)

/-- The name and the fields of a frame that is laid out as its message says. -/
def layout (f : Frame) : Option (String × List (List Value)) := do
  let (name, types) ← env.messages f.msgId.toNat
  let fields ← decodeFields env types f.payload
  return (name, fields)

/-- The text of a frame that is laid out as its message says. -/
def text (f : Frame) : Option String := (layout env f).map fun x => ivyText env f.acId x.1 x.2

/-- The frames with a right checksum are sent on in their order, with their values, and the datagram
is walked to its end without an exception. -/
def Forwards (fs : List Frame) : Prop :=
  let result := processPacket env (datagram fs) start
  result.2 = true ∧ result.1.sent.map some = (fs.filter Frame.Good).map (text env)

/-- The walk by the description of the message ends where the frame ends. -/
def Aligned (f : Frame) : Prop :=
  (f.timestamp = [] ∨ env.sizeofLong = 4) ∧ (layout env f).isSome = true

def HasEmptyArray (f : Frame) : Prop := ∃ x, layout env f = some x ∧ [] ∈ x.2

/-- The walk ends where the frame ends, and no array of a frame that is sent on is empty. -/
def Readable (f : Frame) : Prop := Aligned env f ∧ (f.Good = true → ¬HasEmptyArray env f)

/-- What the walk writes for a field: nothing for an empty array. -/
def walkedField (values : List Value) : String :=
  if values = [] then "" else fieldText env values ++ " "

/-- The text that the walk comes to for a frame. -/
def walked (f : Frame) : Option String :=
  (layout env f).map fun x =>
    String.ofList (header f.acId x.1 ++ concat (x.2.map (walkedField env))).toList.dropLast

end

/-! ### Places in the datagram -/

/-- At the offset, these bytes are left. -/
def At (msg : List UInt8) (off : Nat) (bytes : List UInt8) : Prop :=
  ∃ pre, msg = pre ++ bytes ∧ pre.length = off

section

variable {msg a b bytes after : List UInt8} {off : Nat} {x : UInt8}

theorem At.skip (h : At msg off (a ++ b)) : At msg (off + a.length) b := by
  obtain ⟨pre, rfl, rfl⟩ := h
  exact ⟨pre ++ a, (List.append_assoc pre a b).symm, List.length_append⟩

theorem At.skipByte (h : At msg off (x :: b)) : At msg (off + 1) b := @At.skip msg [x] b off h

theorem At.getElem? (h : At msg off (x :: b)) : msg[off]? = some x := by
  obtain ⟨pre, rfl, rfl⟩ := h
  simp

theorem At.slice (h : At msg off bytes) (n : Nat) :
    LittleEndian.slice msg off n = bytes.take n := by
  obtain ⟨pre, rfl, rfl⟩ := h
  simp [LittleEndian.slice]

theorem At.slice_left (h : At msg off (a ++ b)) : LittleEndian.slice msg off a.length = a := by
  rw [h.slice, List.take_left]

theorem At.le (h : At msg off bytes) : off ≤ msg.length := by
  obtain ⟨pre, rfl, rfl⟩ := h
  simp

theorem At.unpackByte (h : At msg off (x :: b)) : unpackByte msg off = some x := by
  rw [UdpLink.unpackByte, h.slice]
  rfl

/-! ### The walk of a frame -/

variable {env : Env}

theorem mem_dataTypes {type : String} {x : Char × Nat} (h : dataTypes type = some x) :
    x ∈ [('f', 4), ('B', 1), ('H', 2), ('L', 4), ('b', 1), ('h', 2), ('l', 4)] := by
  obtain ⟨before, after, heq, -⟩ := List.lookup_eq_some_iff.1 h
  have hmem := congrArg (List.map Prod.snd) heq
  rw [List.map_append, List.map_cons] at hmem
  change _ = _ at hmem
  rw [show [('f', 4), ('B', 1), ('H', 2), ('L', 4), ('b', 1), ('h', 2), ('l', 4)] =
    before.map Prod.snd ++ x :: after.map Prod.snd from hmem]
  exact List.mem_append_right _ List.mem_cons_self

/-- What is unpacked has the size of its type: the few bytes that are taken are all there. -/
theorem length_of_unpack {type : String} {format : Char} {size : Nat} {value : Value}
    (htype : dataTypes type = some (format, size)) (hvalue : env.unpack format a = some value)
    (hle : a.length ≤ size) : a.length = size := by
  have hlong := env.sizeofLong_eq
  have hmem := mem_dataTypes htype
  simp only [List.mem_cons, Prod.mk.injEq, List.not_mem_nil, or_false] at hmem
  rcases hmem with ⟨rfl, rfl⟩ | ⟨rfl, rfl⟩ | ⟨rfl, rfl⟩ | ⟨rfl, rfl⟩ | ⟨rfl, rfl⟩ | ⟨rfl, rfl⟩ |
    ⟨rfl, rfl⟩ <;>
  · simp only [Env.unpack] at hvalue
    split_ifs at hvalue
    omega

theorem scalar_decode {type : String} {value : Value}
    (h : decodeScalar env type bytes = some (value, b)) (hat : At msg off (bytes ++ after)) :
    ∃ off', scalar env msg type off = some (value, off') ∧ At msg off' (b ++ after) := by
  obtain ⟨⟨format, size⟩, htype, h⟩ := Option.bind_eq_some_iff.1 h
  obtain ⟨value', hvalue, h⟩ := Option.bind_eq_some_iff.1 h
  cases h
  have hsize := length_of_unpack htype hvalue (List.length_take_le _ _)
  have hle : size ≤ bytes.length := by
    rw [List.length_take] at hsize
    omega
  refine ⟨off + size, ?_, ?_⟩
  · have hslice : env.unpack format (LittleEndian.slice msg off size) = some value := by
      rw [hat.slice, List.take_append_of_le_length hle, hvalue]
    simp [scalar, htype, hslice]
  · have hsplit : bytes ++ after = bytes.take size ++ (bytes.drop size ++ after) := by
      rw [← List.append_assoc, List.take_append_drop]
    rw [hsplit] at hat
    have hskip := hat.skip
    rwa [hsize] at hskip

theorem commas_cons (x : String) {xs : List String} (h : xs ≠ []) :
    commas (x :: xs) = x ++ "," ++ commas xs := by
  cases xs with
  | nil => exact absurd rfl h
  | cons y ys => rfl

theorem fieldText_cons (value : Value) {values : List Value} (h : values ≠ []) :
    fieldText env (value :: values) = env.str value ++ "," ++ fieldText env values :=
  commas_cons _ fun hmap => h (List.map_eq_nil_iff.1 hmap)

theorem ne_nil_of_decodeValues {type : String} {n : Nat} {values : List Value}
    (h : decodeValues env type (n + 1) bytes = some (values, b)) : values ≠ [] := by
  obtain ⟨⟨value, b'⟩, -, h⟩ := Option.bind_eq_some_iff.1 h
  obtain ⟨⟨values', b''⟩, -, h⟩ := Option.bind_eq_some_iff.1 h
  cases h
  exact List.cons_ne_nil _ _

theorem arrayValues_decode {type : String} {n : Nat} {values : List Value} (ivyMsg : String)
    (h : decodeValues env type (n + 1) bytes = some (values, b))
    (hat : At msg off (bytes ++ after)) :
    ∃ off', arrayValues env msg type (n + 1) off ivyMsg =
        some (off', ivyMsg ++ (fieldText env values ++ " ")) ∧ At msg off' (b ++ after) := by
  induction n generalizing off bytes values ivyMsg with
  | zero =>
      obtain ⟨⟨value, b'⟩, hscalar, h⟩ := Option.bind_eq_some_iff.1 h
      cases h
      obtain ⟨off', hoff, hat'⟩ := scalar_decode hscalar hat
      refine ⟨off', ?_, hat'⟩
      simp [arrayValues, hoff, fieldText, commas, String.append_assoc]
  | succ n ih =>
      obtain ⟨⟨value, b'⟩, hscalar, h⟩ := Option.bind_eq_some_iff.1 h
      obtain ⟨⟨values', b''⟩, hvalues, h⟩ := Option.bind_eq_some_iff.1 h
      cases h
      obtain ⟨off', hoff, hat'⟩ := scalar_decode hscalar hat
      obtain ⟨off'', hoff', hat''⟩ := ih (ivyMsg ++ env.str value ++ ",") hvalues hat'
      refine ⟨off'', ?_, hat''⟩
      rw [arrayValues, hoff]
      refine hoff'.trans ?_
      rw [fieldText_cons value (ne_nil_of_decodeValues hvalues)]
      simp [String.append_assoc]

theorem oneField_decode {field : String} {values : List Value} (ivyMsg : String)
    (h : decodeField env field bytes = some (values, b)) (hat : At msg off (bytes ++ after)) :
    ∃ off', oneField env msg field off ivyMsg = some (off', ivyMsg ++ walkedField env values) ∧
      At msg off' (b ++ after) := by
  unfold decodeField at h
  unfold oneField
  split_ifs at h ⊢ with harray
  · cases bytes with
    | nil => cases h
    | cons n bytes =>
        have hbyte : unpackByte msg off = some n := hat.unpackByte
        rw [hbyte]
        dsimp only at h
        cases hn : n.toNat with
        | zero =>
            rw [hn] at h
            cases h
            refine ⟨off + 1, ?_, hat.skipByte⟩
            simp [arrayValues, hn, walkedField]
        | succ m =>
            rw [hn] at h
            obtain ⟨off', hoff, hat'⟩ := arrayValues_decode ivyMsg h hat.skipByte
            refine ⟨off', ?_, hat'⟩
            rw [walkedField, if_neg (ne_nil_of_decodeValues h), ← hoff, ← hn]
            rfl
  · obtain ⟨⟨value, b'⟩, hscalar, h⟩ := Option.map_eq_some_iff.1 h
    cases h
    obtain ⟨off', hoff, hat'⟩ := scalar_decode hscalar hat
    refine ⟨off', ?_, hat'⟩
    rw [hoff]
    simp [walkedField, fieldText, commas, String.append_assoc]

theorem fields_decode {types : List String} {values : List (List Value)} (ivyMsg : String)
    (h : decodeFields env types bytes = some values) (hat : At msg off (bytes ++ after)) :
    ∃ off', fields env msg types off ivyMsg =
        some (off', ivyMsg ++ concat (values.map (walkedField env))) ∧ At msg off' after := by
  induction types generalizing off bytes values ivyMsg with
  | nil =>
      unfold decodeFields at h
      split_ifs at h with hbytes
      cases h
      subst hbytes
      exact ⟨off, by simp [fields, concat], hat⟩
  | cons field rest ih =>
      obtain ⟨⟨v, b'⟩, hfield, h⟩ := Option.bind_eq_some_iff.1 h
      obtain ⟨vs, hrest, h⟩ := Option.bind_eq_some_iff.1 h
      cases h
      obtain ⟨off', hoff, hat'⟩ := oneField_decode ivyMsg hfield hat
      obtain ⟨off'', hoff', hat''⟩ := ih (ivyMsg ++ walkedField env v) hrest hat'
      refine ⟨off'', ?_, hat''⟩
      have hinside : ¬off' > msg.length := Nat.not_lt_of_le hat'.le
      rw [fields, hoff]
      refine (if_neg hinside).trans (hoff'.trans ?_)
      simp [concat, String.append_assoc]

/-! ### The text -/

theorem concat_spaces (texts : List String) :
    " " ++ concat (texts.map fun x => x ++ " ") = concat (texts.map fun x => " " ++ x) ++ " " := by
  induction texts with
  | nil => rfl
  | cons x xs ih =>
      rw [List.map_cons, List.map_cons, concat, concat, String.append_assoc, ih]
      simp [String.append_assoc]

/-- Without empty arrays the text of the walk has one blank too many, at its end. -/
theorem header_append (acId : UInt8) (name : String) {values : List (List Value)}
    (h : [] ∉ values) :
    header acId name ++ concat (values.map (walkedField env)) =
      ivyText env acId name values ++ " " := by
  have hwalked : values.map (walkedField env) =
      (values.map (fieldText env)).map fun x => x ++ " " := by
    rw [List.map_map]
    refine List.map_congr_left fun v hv => ?_
    rw [walkedField, if_neg fun hempty : v = [] => h (hempty ▸ hv)]
    rfl
  have hspaces := concat_spaces (values.map (fieldText env))
  rw [← hwalked, List.map_map] at hspaces
  rw [ivyText, header, String.append_assoc, hspaces]
  simp [Function.comp_def, String.append_assoc]

theorem length_concat (values : List (List Value)) :
    (concat (values.map (walkedField env))).length + values.count [] =
      (concat (values.map fun v => " " ++ fieldText env v)).length := by
  induction values with
  | nil => rfl
  | cons v vs ih =>
      have hblank : " ".length = 1 := rfl
      rw [List.map_cons, List.map_cons, concat, concat, String.length_append,
        String.length_append, ← ih, List.count_cons, walkedField]
      cases v with
      | nil =>
          simp [fieldText, commas]
          omega
      | cons value values =>
          simp
          omega

theorem dropLast_append_blank (x : String) : String.ofList (x ++ " ").toList.dropLast = x := by
  simp

/-- The walk writes the right text exactly where no array is empty. -/
theorem walked_eq_iff {f : Frame} {x : String × List (List Value)} (h : layout env f = some x) :
    walked env f = text env f ↔ [] ∉ x.2 := by
  rw [walked, text, h, Option.map_some, Option.map_some, Option.some_inj]
  constructor
  · intro heq hmem
    have hlength := congrArg String.length heq
    have hconcat := @length_concat env x.2
    have hcount := List.count_pos_iff.2 hmem
    have hblank : " ".length = 1 := rfl
    simp only [header, ivyText, String.length_ofList, List.length_dropLast, String.length_toList,
      String.length_append] at hlength
    omega
  · intro hmem
    rw [header_append f.acId x.1 hmem, dropLast_append_blank]

/-! ### The loop -/

theorem At.length_eq (h : At msg off bytes) : off + bytes.length = msg.length := by
  obtain ⟨pre, rfl, rfl⟩ := h
  exact List.length_append.symm

/-- What a frame that is walked to its end does. -/
def afterFrame (env : Env) (pong : Nat) (s : State) (f : Frame) : State :=
  if f.Good then
    { s with
      sent := s.sent ++ (walked env f).toList
      updates := s.updates ++ [(f.acId, f.length, decide (f.msgId.toNat = pong))] }
  else s

theorem skipTimestamp_frame {f : Frame} (hlong : f.timestamp = [] ∨ env.sizeofLong = 4)
    (hat : At msg off (f.timestamp ++ b)) :
    skipTimestamp env msg f.startByte off = some (off + f.timestamp.length) := by
  unfold skipTimestamp Frame.startByte
  by_cases hempty : f.timestamp = []
  · rw [if_pos hempty, if_neg (by decide), hempty]
    rfl
  · have hfour := f.timestamp_length.resolve_left hempty
    have hunpack : (env.unpack 'L' (LittleEndian.slice msg off 4)).isSome := by
      rw [← hfour, hat.slice_left]
      simp [Env.unpack, hfour, hlong.resolve_left hempty]
    obtain ⟨value, hvalue⟩ := Option.isSome_iff_exists.1 hunpack
    rw [if_neg hempty, if_pos rfl, hvalue, hfour]
    rfl

theorem bytes_append (f : Frame) (after : List UInt8) :
    f.bytes ++ after = f.startByte :: f.length :: (f.timestamp ++
      (f.acId :: f.msgId :: (f.payload ++ (f.ckA :: f.ckB :: after)))) := by
  simp [Frame.bytes, Frame.body]

theorem startByte_ne (f : Frame) : ¬(f.startByte ≠ stx ∧ f.startByte ≠ stxTs) := by
  unfold Frame.startByte
  split_ifs <;> simp

theorem processFrame_eq {f : Frame} {pong : Nat} (hpong : env.pong = some pong)
    (hf : Aligned env f) (hat : At msg off (f.bytes ++ after)) (s : State) :
    ∃ off', processFrame env msg off s = some (afterFrame env pong s f, some off') ∧
      At msg off' after := by
  obtain ⟨hlong, hlayout⟩ := hf
  obtain ⟨⟨name, values⟩, hlayout⟩ := Option.isSome_iff_exists.1 hlayout
  obtain ⟨⟨name', types⟩, hmessage, hdecode⟩ := Option.bind_eq_some_iff.1 hlayout
  obtain ⟨values', hdecode, hname⟩ := Option.bind_eq_some_iff.1 hdecode
  cases hname
  have hsplit : At msg off (f.body ++ (f.ckA :: f.ckB :: after)) := by
    rwa [Frame.bytes, List.append_assoc] at hat
  have hbody := hsplit.skip
  rw [bytes_append] at hat
  have hlength := hat.skipByte
  have htime : At msg (off + 2) _ := hlength.skipByte
  have hids := htime.skip
  have hmsgId := hids.skipByte
  have hpayload : At msg (off + 2 + f.timestamp.length + 2) _ := hmsgId.skipByte
  obtain ⟨ckOff, hfields, hck⟩ :=
    fields_decode (header f.acId name) hdecode hpayload
  obtain rfl : ckOff = off + f.body.length := by
    have hleft := hck.length_eq
    have hright := hbody.length_eq
    omega
  have htext : walked env f = some (String.ofList (header f.acId name ++
      concat (values.map (walkedField env))).toList.dropLast) := by
    rw [walked, hlayout]
    rfl
  refine ⟨off + f.body.length + 2, ?_, hck.skipByte.skipByte⟩
  have hskip := skipTimestamp_frame hlong htime
  unfold processFrame afterFrame
  simp only [Option.bind_eq_bind, Option.bind_some, hat.getElem?, hlength.getElem?, hskip,
    hids.getElem?, hmsgId.getElem?, hmessage, hfields, hck.unpackByte, hck.skipByte.unpackByte,
    hpong, htext, if_neg (startByte_ne f), Nat.add_sub_cancel_left, hsplit.slice_left]
  by_cases hgood : f.Good = true
  · rw [if_pos hgood, if_pos (of_decide_eq_true hgood)]
    rfl
  · rw [if_neg hgood, if_neg fun heq => hgood (decide_eq_true heq)]
    rfl

/-- The walk of frames that are all walked to their ends. -/
theorem loop_frames {fs : List Frame} {pong : Nat} (hpong : env.pong = some pong)
    (hfs : ∀ f ∈ fs, Aligned env f) (hat : At msg off (datagram fs ++ after)) (s : State) :
    ∃ off', loop env msg off s = loop env msg off' (fs.foldl (afterFrame env pong) s) ∧
      At msg off' after := by
  induction fs generalizing off s with
  | nil => exact ⟨off, rfl, hat⟩
  | cons f fs ih =>
      have hsplit : datagram (f :: fs) ++ after = f.bytes ++ (datagram fs ++ after) := by
        simp [datagram]
      rw [hsplit] at hat
      obtain ⟨off', hframe, hat'⟩ := processFrame_eq hpong (hfs f List.mem_cons_self) hat s
      obtain ⟨off'', hloop, hat''⟩ := ih (fun f' hf' => hfs f' (List.mem_cons_of_mem f hf')) hat'
        (afterFrame env pong s f)
      refine ⟨off'', ?_, hat''⟩
      have hlt := processFrame_lt hframe
      have hle := hat'.le
      rw [List.foldl_cons, ← hloop, loop, if_pos (by omega)]
      split
      · rename_i heq
        rw [hframe] at heq
        cases heq
      · rename_i heq
        rw [hframe] at heq
        cases heq
      · rename_i heq
        rw [hframe] at heq
        cases heq
        rfl

theorem loop_end (hat : At msg off []) (s : State) : loop env msg off s = (s, true) := by
  have hend : off = msg.length := hat.length_eq
  rw [loop, if_neg (by omega)]

/-- The messages of the frames with a right checksum. -/
theorem sent_foldl {fs : List Frame} {pong : Nat} (hfs : ∀ f ∈ fs, Aligned env f) (s : State) :
    (fs.foldl (afterFrame env pong) s).sent.map some =
      s.sent.map some ++ (fs.filter Frame.Good).map (walked env) := by
  induction fs generalizing s with
  | nil => exact (List.append_nil _).symm
  | cons f fs ih =>
      obtain ⟨x, hlayout⟩ := Option.isSome_iff_exists.1 (hfs f List.mem_cons_self).2
      rw [List.foldl_cons, ih fun f' hf' => hfs f' (List.mem_cons_of_mem f hf'), afterFrame]
      split_ifs with hgood
      · rw [List.filter_cons_of_pos hgood]
        simp [walked, hlayout]
      · rw [List.filter_cons_of_neg hgood]

theorem datagram_length {f : Frame} {fs : List Frame} (h : f ∈ fs) :
    4 ≤ (datagram fs).length := by
  obtain ⟨before, later, rfl⟩ := List.append_of_mem h
  simp [datagram, Frame.bytes, Frame.body]
  omega

theorem walked_eq_text_iff {f : Frame} (hf : Aligned env f) :
    walked env f = text env f ↔ ¬HasEmptyArray env f := by
  obtain ⟨x, hlayout⟩ := Option.isSome_iff_exists.1 hf.2
  rw [walked_eq_iff hlayout]
  constructor
  · rintro hmem ⟨y, hy, hempty⟩
    obtain rfl : x = y := Option.some_inj.1 (hlayout.symm.trans hy)
    exact hmem hempty
  · intro hnot hmem
    exact hnot ⟨x, hlayout, hmem⟩

/-- Where every frame is walked to its end, the empty arrays decide. -/
theorem forwards_of_aligned {fs : List Frame} {pong : Nat} (hpong : env.pong = some pong)
    (hfs : ∀ f ∈ fs, Aligned env f) :
    Forwards env fs ↔ ∀ f ∈ fs, f.Good = true → ¬HasEmptyArray env f := by
  have hat : At (datagram fs) 0 (datagram fs ++ []) := ⟨[], (List.append_nil _).symm, rfl⟩
  unfold Forwards processPacket
  split_ifs with hshort
  · cases fs with
    | nil => exact iff_of_true ⟨rfl, rfl⟩ nofun
    | cons f fs =>
        have hlength := @datagram_length f (f :: fs) List.mem_cons_self
        omega
  · obtain ⟨off', hloop, hend⟩ := loop_frames hpong hfs hat start
    have hsent := @sent_foldl env fs pong hfs start
    rw [hloop, loop_end hend]
    change true = true ∧ (fs.foldl (afterFrame env pong) start).sent.map some = _ ↔ _
    rw [hsent]
    change true = true ∧ (fs.filter Frame.Good).map (walked env) = _ ↔ _
    rw [List.map_inj_left]
    simp only [List.mem_filter, and_imp, true_and]
    exact forall₃_congr fun f hf _ => walked_eq_text_iff (hfs f hf)

/-! ### Frames that end the walk with an exception -/

/-- A type that the walk can unpack. -/
def KnownType (env : Env) (type : String) : Prop :=
  ∃ format size, dataTypes type = some (format, size) ∧
    (format = 'L' ∨ format = 'l' → env.sizeofLong = 4)

/-- A frame that ends the walk whatever follows it: a timestamp or a message that is not known, or
a field of a type that is not. -/
def Raises (env : Env) (f : Frame) : Prop :=
  (f.timestamp ≠ [] ∧ env.sizeofLong ≠ 4) ∨ env.messages f.msgId.toNat = none ∨
    ∃ name types, env.messages f.msgId.toNat = some (name, types) ∧
      ∃ field ∈ types, isArray field = false ∧ ¬KnownType env field

theorem scalar_eq_none {type : String} (h : ¬KnownType env type) :
    scalar env msg type off = none := by
  unfold scalar
  cases htype : dataTypes type with
  | none => rfl
  | some x =>
      obtain ⟨format, size⟩ := x
      have hlong : (format = 'L' ∨ format = 'l') ∧ env.sizeofLong ≠ 4 := by
        by_contra hnot
        refine h ⟨format, size, htype, fun hformat => ?_⟩
        by_contra hne
        exact hnot ⟨hformat, hne⟩
      have hsize : size = 4 := by
        have hmem := mem_dataTypes htype
        rcases hlong.1 with rfl | rfl <;> simpa using hmem
      have hshort : ¬(LittleEndian.slice msg off size).length = env.sizeofLong := by
        have hle : (LittleEndian.slice msg off size).length ≤ size := List.length_take_le _ _
        have hcases := env.sizeofLong_eq
        omega
      have hnone : env.unpack format (LittleEndian.slice msg off size) = none := by
        rcases hlong.1 with rfl | rfl
        · exact if_neg hshort
        · exact if_neg hshort
      simp [hnone]

/-- The walk raises an exception in the fields, or leaves the datagram. -/
theorem fields_of_unknown {types : List String} {field : String} (hmem : field ∈ types)
    (harray : isArray field = false) (hunknown : ¬KnownType env field) {off' : Nat}
    {ivyMsg text' : String} (h : fields env msg types off ivyMsg = some (off', text')) :
    msg.length < off' := by
  induction types generalizing off ivyMsg with
  | nil => cases hmem
  | cons t types ih =>
      obtain ⟨⟨next, text''⟩, hfield, h⟩ := Option.bind_eq_some_iff.1 h
      rcases List.mem_cons.1 hmem with rfl | hmem
      · rw [oneField, harray, if_neg Bool.false_ne_true, scalar_eq_none hunknown] at hfield
        cases hfield
      · dsimp only at h
        split_ifs at h with hpast
        · cases h
          exact hpast
        · exact ih hmem h

theorem unpackByte_eq_none (h : msg.length ≤ off) : unpackByte msg off = none := by
  rw [unpackByte, LittleEndian.slice, List.drop_eq_nil_of_le h]
  rfl

/-- A timestamp of 4 bytes is not a native `L` of 8 bytes. -/
theorem skipTimestamp_eq_none {f : Frame} (hne : f.timestamp ≠ []) (hsize : env.sizeofLong ≠ 4)
    (hat : At msg off (f.timestamp ++ after)) : skipTimestamp env msg f.startByte off = none := by
  have hfour := f.timestamp_length.resolve_left hne
  rw [skipTimestamp, Frame.startByte, if_neg hne, if_pos rfl, ← hfour, hat.slice_left]
  simp [Env.unpack, hfour, Ne.symm hsize]

theorem processFrame_eq_none {f : Frame} (hraises : Raises env f)
    (hat : At msg off (f.bytes ++ after)) (s : State) : processFrame env msg off s = none := by
  rw [bytes_append] at hat
  have hlength := hat.skipByte
  have htime : At msg (off + 2) _ := hlength.skipByte
  unfold processFrame
  simp only [Option.bind_eq_bind, Option.bind_some, hat.getElem?, hlength.getElem?,
    if_neg (startByte_ne f)]
  by_cases hlong : f.timestamp = [] ∨ env.sizeofLong = 4
  · have hids := htime.skip
    simp only [skipTimestamp_frame hlong htime, Option.bind_some, hids.getElem?,
      hids.skipByte.getElem?]
    rcases hraises with
      ⟨hne, hsize⟩ | hnone | ⟨name, types, hmessage, field, hmem, harray, hunknown⟩
    · exact absurd hlong (not_or.2 ⟨hne, hsize⟩)
    · rw [hnone]
      rfl
    · rw [hmessage]
      simp only [Option.bind_some]
      cases hfields : fields env msg types (off + 2 + f.timestamp.length + 2)
        (header f.acId name) with
      | none => rfl
      | some x =>
          have hpast := fields_of_unknown hmem harray hunknown hfields
          rw [Option.bind_some, unpackByte_eq_none (Nat.le_of_lt hpast)]
          rfl
  · obtain ⟨hne, hsize⟩ := not_or.1 hlong
    rw [skipTimestamp_eq_none hne hsize htime]
    rfl

/-- The datagram is walked up to the first frame that raises an exception. -/
theorem not_forwards_of_raises {pre post : List Frame} {f : Frame} {pong : Nat}
    (hpong : env.pong = some pong) (hpre : ∀ g ∈ pre, Aligned env g) (hraises : Raises env f) :
    ¬Forwards env (pre ++ f :: post) := by
  rintro ⟨hreturns, -⟩
  have hlength := datagram_length (List.mem_append_right pre (@List.mem_cons_self _ f post))
  have hsplit : datagram (pre ++ f :: post) = datagram pre ++ (f.bytes ++ datagram post) := by
    simp [datagram]
  have hat : At (datagram (pre ++ f :: post)) 0 (datagram pre ++ (f.bytes ++ datagram post)) :=
    ⟨[], hsplit, rfl⟩
  rw [processPacket, if_neg (by omega)] at hreturns
  obtain ⟨off', hloop, hat'⟩ := loop_frames hpong hpre hat start
  have hlt : off' < (datagram (pre ++ f :: post)).length := by
    have hend := hat'.length_eq
    simp [Frame.bytes] at hend
    omega
  have hnone := processFrame_eq_none hraises hat' (pre.foldl (afterFrame env pong) start)
  rw [hloop, loop, if_pos hlt] at hreturns
  split at hreturns
  · cases hreturns
  · rename_i heq
    rw [hnone] at heq
    cases heq
  · rename_i heq
    rw [hnone] at heq
    cases heq

/-- The first element that fails. -/
theorem exists_first_not {p : Frame → Prop} {fs : List Frame} (h : ¬∀ f ∈ fs, p f) :
    ∃ pre f post, fs = pre ++ f :: post ∧ (∀ g ∈ pre, p g) ∧ ¬p f := by
  induction fs with
  | nil => exact absurd nofun h
  | cons f fs ih =>
      by_cases hf : p f
      · obtain ⟨pre, g, post, rfl, hpre, hg⟩ := ih fun hall => h (List.forall_mem_cons.2 ⟨hf, hall⟩)
        exact ⟨f :: pre, g, post, rfl, List.forall_mem_cons.2 ⟨hf, hpre⟩, hg⟩
      · exact ⟨[], f, fs, rfl, nofun, hf⟩

/-- A datagram is forwarded as it should be when its frames can be read; and only then, unless the
walk of a frame ends somewhere else than the frame. -/
theorem udp_link (env : Env) (pong : Nat) (hpong : env.pong = some pong) (fs : List Frame) :
    ((∀ f ∈ fs, Readable env f) → Forwards env fs) ∧
      ((∀ f ∈ fs, Aligned env f ∨ Raises env f) → Forwards env fs → ∀ f ∈ fs, Readable env f) := by
  constructor
  · intro hread
    exact (forwards_of_aligned hpong fun f hf => (hread f hf).1).2 fun f hf => (hread f hf).2
  · intro hfs hforwards
    have haligned : ∀ f ∈ fs, Aligned env f := by
      by_contra hnot
      obtain ⟨pre, f, post, rfl, hpre, hf⟩ := exists_first_not hnot
      have hraises := (hfs f (List.mem_append_right pre List.mem_cons_self)).resolve_left hf
      exact not_forwards_of_raises hpong hpre hraises hforwards
    intro f hf
    exact ⟨haligned f hf, (forwards_of_aligned hpong haligned).1 hforwards f hf⟩

end

/-! ### An unknown message -/

/-- Two messages of the telemetry class, where `long` has four bytes. -/
def telemetry : Env where
  messages := fun id =>
    if id = 2 then some ("ALIVE", ["uint8[]"]) else if id = 3 then some ("PONG", []) else none
  pong := some 3
  sizeofLong := 4
  sizeofLong_eq := Or.inl rfl
  strFloat := fun _ => "0.0"

def alive (ckA ckB : UInt8) : Frame := ⟨[], 9, 1, 2, [2, 7, 8], ckA, ckB, Or.inl rfl, by decide⟩

def pong : Frame := ⟨[], 6, 1, 3, [], 10, 23, Or.inl rfl, by decide⟩

/-- A PONG whose message identifier has been corrupted. -/
def corrupted : Frame := ⟨[], 6, 1, 200, [], 10, 23, Or.inl rfl, by decide⟩

theorem readable_alive (ckA ckB : UInt8) : Readable telemetry (alive ckA ckB) := by
  have hlayout : layout telemetry (alive ckA ckB) = some ("ALIVE", [[.int 7, .int 8]]) := by
    change layout telemetry (alive 0 0) = _
    decide +kernel
  refine ⟨⟨Or.inl rfl, by rw [hlayout]; rfl⟩, ?_⟩
  rintro - ⟨x, hx, hmem⟩
  rw [hlayout] at hx
  cases hx
  exact absurd hmem (by decide)

theorem readable_pong : Readable telemetry pong := by
  have hlayout : layout telemetry pong = some ("PONG", []) := by decide +kernel
  refine ⟨⟨Or.inl rfl, by rw [hlayout]; rfl⟩, ?_⟩
  rintro - ⟨x, hx, hmem⟩
  rw [hlayout] at hx
  cases hx
  cases hmem

/-- The checksum of the second frame is wrong. -/
theorem forwards_readable : Forwards telemetry [pong, alive 0 0, alive 29 95] := by
  refine (udp_link telemetry 3 rfl _).1 fun f hf => ?_
  simp only [List.mem_cons, List.not_mem_nil, or_false] at hf
  rcases hf with rfl | rfl | rfl
  · exact readable_pong
  · exact readable_alive 0 0
  · exact readable_alive 29 95

/-- The walk ends with an exception at a frame whose checksum is wrong; the frame behind it is not
forwarded. -/
theorem pong_lost :
    corrupted.Good = false ∧ pong.Good = true ∧ ¬Forwards telemetry [corrupted, pong] := by
  refine ⟨by decide, by decide, ?_⟩
  have hraises : Raises telemetry corrupted := Or.inr (Or.inl rfl)
  exact @not_forwards_of_raises telemetry [] [pong] corrupted 3 rfl nofun hraises

end Paparazzi.Link.UdpForwarding
