import Paparazzi.Messages.Codec

/-!
One encoding of C objects, to which every codec of a message is related: the
encoders write it and the decoders invert it.
-/

namespace Paparazzi.Messages.CodecEncoding

open Paparazzi.Library Paparazzi.Messages.Codec

section Encoding

/-- The object of a variable, or of the elements, of the field's type. -/
def IsObject : FieldType → CObject → Prop
  | .scalar t, .scalar x => x < 256 ^ t.sizeof
  | .array t, .array xs => ∀ x ∈ xs, x < 256 ^ t.sizeof
  | _, _ => False

def encodeObject (t : ScalarType) : CObject → List UInt8
  | .scalar x => memory t x
  | .array xs => UInt8.ofNat xs.length :: xs.flatMap (memory t)

def encodeArgs (args : List (Field × CObject)) : List UInt8 :=
  args.flatMap fun a => encodeObject a.1.type.element a.2

/-- The ground's value of the bits of a C object. -/
def decodeScalar (t : ScalarType) (x : Nat) : Scalar :=
  match t with
  | .uint8 | .uint16 => .int x
  | .int8 => .int (signed 1 x)
  | .int16 => .int (signed 2 x)
  | .float => .float (UInt64.ofNat (Ieee754.widen x))
  | .double => .float (UInt64.ofNat x)
  | .int32 | .uint32 => .int32 (UInt32.ofNat x).toInt32

def decodeObject (t : ScalarType) : CObject → Value
  | .scalar x => .scalar (decodeScalar t x)
  | .array xs => .array (xs.map (decodeScalar t))

@[simp] theorem length_memory (t : ScalarType) (x : Nat) : (memory t x).length = t.sizeof :=
  LittleEndian.length_toBytes _ _

theorem length_flatMap_memory (t : ScalarType) (xs : List Nat) :
    (xs.flatMap (memory t)).length = xs.length * t.sizeof := by
  induction xs with
  | nil => simp
  | cons x xs ih => simp [ih, Nat.add_mul, Nat.add_comm]

theorem field_memory {t : ScalarType} {x off : Nat} {pre suf : List UInt8}
    (hx : x < 256 ^ t.sizeof) (hoff : pre.length = off) :
    LittleEndian.field (pre ++ memory t x ++ suf) off t.sizeof = x := by
  rw [memory, LittleEndian.field_append pre suf hoff, Nat.mod_eq_of_lt hx]

/-- An element of an array is read at its multiple of the size. -/
theorem field_element {t : ScalarType} {xs : List Nat} (pre suf : List UInt8) {i off : Nat}
    (hxs : ∀ x ∈ xs, x < 256 ^ t.sizeof) (hi : i < xs.length) (hoff : pre.length = off) :
    LittleEndian.field (pre ++ xs.flatMap (memory t) ++ suf) (off + i * t.sizeof) t.sizeof =
      xs[i] := by
  have hsplit : xs.flatMap (memory t) = (xs.take i).flatMap (memory t) ++
      (memory t xs[i] ++ (xs.drop (i + 1)).flatMap (memory t)) := by
    rw [← List.flatMap_cons, ← List.flatMap_append, ← List.drop_eq_getElem_cons hi,
      List.take_append_drop]
  have hbytes : pre ++ xs.flatMap (memory t) ++ suf =
      (pre ++ (xs.take i).flatMap (memory t)) ++ memory t xs[i] ++
        ((xs.drop (i + 1)).flatMap (memory t) ++ suf) := by
    rw [hsplit]
    simp only [List.append_assoc]
  rw [hbytes]
  apply field_memory (hxs _ (List.getElem_mem hi))
  rw [List.length_append, length_flatMap_memory, List.length_take, hoff,
    Nat.min_eq_left (Nat.le_of_lt hi)]

/-- The count byte in front of the elements. -/
theorem field_count {n : Nat} (pre suf : List UInt8) (hn : n < 256) :
    LittleEndian.field (pre ++ UInt8.ofNat n :: suf) pre.length 1 = n := by
  have h := LittleEndian.field_append pre suf (n := 1) (v := n) rfl
  rw [LittleEndian.toBytes, LittleEndian.toBytes, List.append_assoc, List.singleton_append] at h
  rw [h, Nat.mod_eq_of_lt (by omega)]

end Encoding

section Transport

theorem putByAddr_memory (t : ScalarType) (x : Nat) : putByAddr t (memory t x) = memory t x := by
  cases t <;> simp [putByAddr, put1ByteByAddr, put2ByteByAddr, put4ByteByAddr, putDoubleByAddr,
    memory, ScalarType.sizeof, LittleEndian.toBytes]

theorem putField_eq {ft : FieldType} {o : CObject} (ho : IsObject ft o)
    (h8 : ft ≠ .array .int8) : putField ft o = some (encodeObject ft.element o) := by
  cases ft with
  | scalar t =>
      cases o with
      | scalar x => simp [putField, encodeObject, FieldType.element, putByAddr_memory]
      | array xs => exact ho.elim
  | array t =>
      cases o with
      | scalar x => exact ho.elim
      | array xs =>
          have hput : putArray t xs =
              some (UInt8.ofNat xs.length :: xs.flatMap fun x => putByAddr t (memory t x)) := by
            cases t <;> simp_all [putArray]
          simp only [putField, hput, encodeObject, FieldType.element, putByAddr_memory]

theorem putField_int8Array (o : CObject) : putField (.array .int8) o = none := by
  cases o <;> rfl

/-- The macro emits the ids and the encoding of its arguments. -/
theorem downlinkSend_eq {acId id : UInt8} {args : List (Field × CObject)}
    (hargs : ∀ a ∈ args, IsObject a.1.type a.2) (h8 : ∀ a ∈ args, a.1.type ≠ .array .int8) :
    downlinkSend acId id args = some (acId :: id :: encodeArgs args) := by
  have hputs : args.mapM (fun a => putField a.1.type a.2) =
      some (args.map fun a => encodeObject a.1.type.element a.2) := by
    induction args with
    | nil => rfl
    | cons a args ih =>
        rw [List.mapM_cons, putField_eq (hargs a (by simp)) (h8 a (by simp)),
          ih (fun b hb => hargs b (by simp [hb])) (fun b hb => h8 b (by simp [hb]))]
        rfl
  simp only [downlinkSend, hputs, encodeArgs, List.flatMap_def]
  rfl

/-- No `PutInt8Array` exists, so the macro of such a message does not compile. -/
theorem downlinkSend_int8Array {acId id : UInt8} {args : List (Field × CObject)}
    {a : Field × CObject} (ha : a ∈ args) (h8 : a.1.type = .array .int8) :
    downlinkSend acId id args = none := by
  have hputs : args.mapM (fun a => putField a.1.type a.2) = none := by
    induction args with
    | nil => simp at ha
    | cons b args ih =>
        rw [List.mapM_cons]
        rcases List.mem_cons.mp ha with rfl | ha
        · rw [h8, putField_int8Array]
          rfl
        · rw [ih ha]
          cases putField b.1.type b.2 <;> rfl
  simp [downlinkSend, hputs]

end Transport

section Decoding

theorem byteAt_eq_field (buf : List UInt8) (o : Nat) :
    (byteAt buf o).toNat = LittleEndian.field buf o 1 := by
  rw [LittleEndian.field_succ, LittleEndian.field_zero]
  rfl

theorem scalarOfBin_eq {buffer : List UInt8} {index : Nat} {t : ScalarType}
    (h : index + t.sizeof ≤ buffer.length) :
    scalarOfBin buffer index t =
      .ok (decodeScalar t (LittleEndian.field buffer index t.sizeof)) := by
  unfold scalarOfBin
  rw [if_neg (by omega)]
  cases t <;> simp only [decodeScalar, ScalarType.sizeof, byteAt_eq_field]
  -- `uint16` is put together from two characters
  rw [LittleEndian.field_succ buffer index 1, ← byteAt_eq_field buffer (index + 1),
    ← byteAt_eq_field buffer index]
  simp only [byteAt]
  congr 2
  omega

theorem mapM_ok {α β ε : Type} {f : α → Except ε β} {g : α → β} {l : List α}
    (h : ∀ a ∈ l, f a = .ok (g a)) : l.mapM f = .ok (l.map g) := by
  induction l with
  | nil => rfl
  | cons a l ih =>
      rw [List.mapM_cons, h a (by simp), ih fun b hb => h b (by simp [hb])]
      rfl

theorem mapM_error {α β ε : Type} {f : α → Except ε β} {l : List α} {a : α} (ha : a ∈ l)
    (h : ∃ e, f a = .error e) : ∃ e, l.mapM f = .error e := by
  induction l with
  | nil => simp at ha
  | cons b l ih =>
      rw [List.mapM_cons]
      rcases List.mem_cons.mp ha with rfl | ha
      · obtain ⟨e, he⟩ := h
        exact ⟨e, by rw [he]; rfl⟩
      · obtain ⟨e, he⟩ := ih ha
        cases hb : f b with
        | error e' => exact ⟨e', rfl⟩
        | ok b' => exact ⟨e, by rw [he]; rfl⟩

/-- The elements read one after the other are the elements encoded. -/
theorem mapM_scalarOfBin {t : ScalarType} {xs : List Nat} (pre suf : List UInt8) {off : Nat}
    (hxs : ∀ x ∈ xs, x < 256 ^ t.sizeof) (hoff : pre.length = off) :
    ((List.range xs.length).mapM fun i =>
      scalarOfBin (pre ++ xs.flatMap (memory t) ++ suf) (off + i * t.sizeof) t) =
        .ok (xs.map (decodeScalar t)) := by
  have hread : ∀ i ∈ List.range xs.length,
      scalarOfBin (pre ++ xs.flatMap (memory t) ++ suf) (off + i * t.sizeof) t =
        .ok (decodeScalar t (xs.getD i 0)) := by
    intro i hi
    have hi : i < xs.length := List.mem_range.mp hi
    have hroom : (i + 1) * t.sizeof ≤ xs.length * t.sizeof := Nat.mul_le_mul_right _ hi
    rw [Nat.add_mul, Nat.one_mul] at hroom
    rw [scalarOfBin_eq, field_element pre suf hxs hi hoff]
    · simp [hi]
    · simp only [List.length_append, length_flatMap_memory]
      omega
  rw [mapM_ok hread]
  congr 1
  apply List.ext_getElem
  · simp
  · intro i h₁ h₂
    have hi : i < xs.length := by simpa using h₂
    simp [hi]

/-- A scalar, or an array of less than 128 elements, is read back with its length. -/
theorem valueOfBin_encode {ft : FieldType} {o : CObject} (pre suf : List UInt8)
    (ho : IsObject ft o) (hshort : o.count < 128) :
    valueOfBin (pre ++ encodeObject ft.element o ++ suf) pre.length ft =
      .ok (decodeObject ft.element o, (encodeObject ft.element o).length) := by
  cases ft with
  | scalar t =>
      cases o with
      | array xs => exact ho.elim
      | scalar x =>
          have hroom : pre.length + t.sizeof ≤ (pre ++ memory t x ++ suf).length := by
            simp only [List.length_append, length_memory]
            omega
          simp only [encodeObject, FieldType.element, valueOfBin, scalarOfBin_eq hroom,
            field_memory ho rfl, length_memory, decodeObject]
          rfl
  | array t =>
      cases o with
      | scalar x => exact ho.elim
      | array xs =>
          change xs.length < 128 at hshort
          have hcount : LittleEndian.field
              (pre ++ UInt8.ofNat xs.length :: (xs.flatMap (memory t) ++ suf)) pre.length 1 =
                xs.length := field_count _ _ (by omega)
          have hsigned : signed 1 xs.length = xs.length := if_pos (by omega)
          have hone : (pre ++ [UInt8.ofNat xs.length]).length = pre.length + 1 := by simp
          have helems := mapM_scalarOfBin (pre ++ [UInt8.ofNat xs.length]) suf ho hone
          simp only [List.append_assoc, List.cons_append, List.nil_append] at helems
          simp only [encodeObject, FieldType.element, valueOfBin, List.append_assoc,
            List.cons_append, hcount, hsigned, Int.toNat_natCast, helems, decodeObject]
          rw [if_neg (by simp only [List.length_append, List.length_cons]; omega),
            if_neg (by omega)]
          simp only [List.length_cons, length_flatMap_memory, Nat.add_comm]
          rfl

/-- The count of 128 elements or more is negative when read. -/
theorem valueOfBin_long {ft : FieldType} {o : CObject} (pre suf : List UInt8)
    (ho : IsObject ft o) (hlong : 128 ≤ o.count) (hbyte : o.count < 256) :
    valueOfBin (pre ++ encodeObject ft.element o ++ suf) pre.length ft =
      .error (.invalidArgument "Array.init") := by
  cases ft with
  | scalar t =>
      cases o with
      | scalar x => simp [CObject.count] at hlong
      | array xs => exact ho.elim
  | array t =>
      cases o with
      | scalar x => exact ho.elim
      | array xs =>
          change 128 ≤ xs.length at hlong
          change xs.length < 256 at hbyte
          have hcount : LittleEndian.field
              (pre ++ UInt8.ofNat xs.length :: (xs.flatMap (memory t) ++ suf)) pre.length 1 =
                xs.length := field_count _ _ hbyte
          have hsigned : signed 1 xs.length < 0 := by
            rw [signed, if_neg (by omega)]
            omega
          simp only [encodeObject, FieldType.element, valueOfBin, List.append_assoc,
            List.cons_append, hcount]
          rw [if_neg (by simp only [List.length_append, List.length_cons]; omega),
            if_pos hsigned]
          rfl

theorem valuesOfFields_encode {args : List (Field × CObject)} (name : String)
    (pre : List UInt8) (hargs : ∀ a ∈ args, IsObject a.1.type a.2)
    (hshort : ∀ a ∈ args, a.2.count < 128) :
    valuesOfFields (pre ++ encodeArgs args) name pre.length (args.map Prod.fst) =
      .ok (args.map fun a => (a.1.name, decodeObject a.1.type.element a.2)) := by
  induction args generalizing pre with
  | nil => simp [encodeArgs, valuesOfFields]
  | cons a args ih =>
      have hhead := valueOfBin_encode pre (encodeArgs args)
        (hargs a (by simp)) (hshort a (by simp))
      have htail := ih (pre ++ encodeObject a.1.type.element a.2)
        (fun b hb => hargs b (by simp [hb])) (fun b hb => hshort b (by simp [hb]))
      rw [List.append_assoc] at hhead
      rw [List.append_assoc, List.length_append] at htail
      rw [encodeArgs, List.flatMap_cons, List.map_cons, valuesOfFields]
      rw [encodeArgs] at hhead htail
      rw [hhead]
      change (do
        let rest ← valuesOfFields _ name (pre.length + _) (args.map Prod.fst)
        Except.ok ((a.1.name, _) :: rest)) = _
      rw [htail]
      rfl

theorem valuesOfFields_long {args : List (Field × CObject)} (name : String)
    (pre : List UInt8) {a : Field × CObject} (hargs : ∀ a ∈ args, IsObject a.1.type a.2)
    (hbyte : ∀ a ∈ args, a.2.count < 256) (ha : a ∈ args) (hlong : 128 ≤ a.2.count) :
    valuesOfFields (pre ++ encodeArgs args) name pre.length (args.map Prod.fst) =
      .error (.invalidArgument "Array.init") := by
  induction args generalizing pre with
  | nil => simp at ha
  | cons b args ih =>
      rw [encodeArgs, List.flatMap_cons, List.map_cons, valuesOfFields, ← List.append_assoc]
      rcases Nat.lt_or_ge b.2.count 128 with hb | hb
      · rw [valueOfBin_encode _ _ (hargs b (by simp)) hb]
        have ha : a ∈ args := by
          rcases List.mem_cons.mp ha with rfl | ha
          · omega
          · exact ha
        have htail := ih (pre ++ encodeObject b.1.type.element b.2)
          (fun c hc => hargs c (by simp [hc])) (fun c hc => hbyte c (by simp [hc])) ha
        rw [List.length_append] at htail
        change (do
          let rest ← valuesOfFields _ name (pre.length + _) (args.map Prod.fst)
          Except.ok ((b.1.name, _) :: rest)) = _
        rw [encodeArgs] at htail
        rw [htail]
        rfl
      · rw [valueOfBin_long _ _ (hargs b (by simp)) hb (hbyte b (by simp))]
        rfl

end Decoding

section Payload

variable {messages : MessageTable} {m : Message} {acId id : UInt8} {args : List (Field × CObject)}

theorem readPayload_eq (hm : messages id = some m) (payload : List UInt8) :
    readPayload messages (acId :: id :: payload) =
      (valuesOfFields (acId :: id :: payload) m.name 2 m.fields).map fun values =>
        (id, acId, values) := by
  simp only [readPayload, messageOfId, hm]
  change (valuesOfFields (acId :: id :: payload) m.name 2 m.fields).bind
    (fun values => .ok (id, acId, values)) = _
  cases valuesOfFields (acId :: id :: payload) m.name 2 m.fields <;> rfl

theorem valuesOfPayload_encode (hm : messages id = some m) (hfields : args.map Prod.fst = m.fields)
    (hargs : ∀ a ∈ args, IsObject a.1.type a.2) (hshort : ∀ a ∈ args, a.2.count < 128) :
    valuesOfPayload messages (acId :: id :: encodeArgs args) =
      .ok (id, acId, args.map fun a => (a.1.name, decodeObject a.1.type.element a.2)) := by
  have hloop := valuesOfFields_encode m.name [acId, id] hargs hshort
  change valuesOfFields (acId :: id :: encodeArgs args) m.name 2 _ = _ at hloop
  rw [hfields] at hloop
  rw [valuesOfPayload, readPayload_eq hm, hloop]
  rfl

theorem valuesOfPayload_long {a : Field × CObject} (hm : messages id = some m)
    (hfields : args.map Prod.fst = m.fields) (hargs : ∀ a ∈ args, IsObject a.1.type a.2)
    (hbyte : ∀ a ∈ args, a.2.count < 256) (ha : a ∈ args) (hlong : 128 ≤ a.2.count) :
    valuesOfPayload messages (acId :: id :: encodeArgs args) =
      .error (.invalidArgument "Array.init") := by
  have hloop := valuesOfFields_long m.name [acId, id] hargs hbyte ha hlong
  change valuesOfFields (acId :: id :: encodeArgs args) m.name 2 _ = _ at hloop
  rw [hfields] at hloop
  rw [valuesOfPayload, readPayload_eq hm, hloop]
  rfl

end Payload

section Numbers

theorem toInt_toInt32 {x : Nat} (hx : x < 256 ^ 4) :
    (UInt32.ofNat x).toInt32.toInt = signed 4 x := by
  have hbits : (UInt32.ofNat x).toInt32.toInt = (BitVec.ofNat 32 x).toInt := rfl
  have hmod : x % 2 ^ 32 = x := Nat.mod_eq_of_lt (by omega)
  rw [hbits, BitVec.toInt_eq_toNat_cond, BitVec.toNat_ofNat, hmod]
  rfl

/-- Two's complement reads back what fits. -/
theorem signed_mod {n : Nat} {x : Int} (hlo : -(256 ^ (n + 1) : Nat) ≤ 2 * x)
    (hhi : 2 * x < (256 ^ (n + 1) : Nat)) :
    signed (n + 1) (x % 256 ^ (n + 1)).toNat = x := by
  have hcast : ((256 ^ (n + 1) : Nat) : Int) = 256 ^ (n + 1) := by push_cast; rfl
  have hpos : (0 : Int) < 256 ^ (n + 1) := by positivity
  rw [hcast] at hlo hhi
  rcases lt_or_ge x 0 with hx | hx
  · have hmod : x % 256 ^ (n + 1) = x + 256 ^ (n + 1) := by
      rw [← Int.add_emod_right, Int.emod_eq_of_lt (by omega) (by omega)]
    rw [hmod, signed, if_neg (by omega)]
    omega
  · rw [Int.emod_eq_of_lt hx (by omega), signed, if_pos (by omega)]
    omega

/-- The ground reads the number of every C object but a `uint32` from `2 ^ 31`
on. -/
theorem number_decodeScalar {t : ScalarType} {x : Nat} (hx : x < 256 ^ t.sizeof) :
    (decodeScalar t x).number = t.number x ↔ (t = .uint32 → x < 2 ^ 31) := by
  cases t with
  | uint32 =>
      simp only [decodeScalar, Scalar.number, ScalarType.number, toInt_toInt32 hx, signed,
        Number.int.injEq]
      split_ifs <;> simp <;> omega
  | int32 =>
      simp only [decodeScalar, Scalar.number, ScalarType.number, toInt_toInt32 hx]
      simp
  | _ => simp [decodeScalar, Scalar.number, ScalarType.number]

end Numbers

section GroundEncoder

/-- The values of a type in the ground's representation: `Int` or `Int32` for
the 32-bit integers. -/
def HasType : ScalarType → Scalar → Prop
  | .uint8, .int _ | .int8, .int _ | .uint16, .int _ | .int16, .int _ => True
  | .uint32, .int _ | .int32, .int _ | .uint32, .int32 _ | .int32, .int32 _ => True
  | .float, .float _ | .double, .float _ => True
  | _, _ => False

def ValueHasType : FieldType → Value → Prop
  | .scalar t, .scalar v => HasType t v
  | .array t, .array vs => ∀ v ∈ vs, HasType t v
  | _, _ => False

/-- The values that `sprint_value` tests for. -/
def Refused : ScalarType → Scalar → Prop
  | .uint8, .int x => x < 0 ∨ 0xff < x
  | .int8, .int x => x < -0x7f ∨ 0x7f < x
  | .uint16, .int x | .uint32, .int x => x < 0
  | _, _ => False

def ValueRefused (t : ScalarType) : Value → Prop
  | .scalar v => Refused t v
  | .array vs => ∃ v ∈ vs, Refused t v

/-- The bits the ground writes for a value. -/
def datum (t : ScalarType) : Scalar → Nat
  | .int x => (x % 256 ^ t.sizeof).toNat
  | .int32 x => x.toUInt32.toNat
  | .float d => if t = .float then Ieee754.narrow d.toNat else d.toNat

def object (t : ScalarType) : Value → CObject
  | .scalar v => .scalar (datum t v)
  | .array vs => .array (vs.map (datum t))

/-- The bytes of a value of the type. -/
def valueSize (t : ScalarType) : Value → Nat
  | .scalar _ => t.sizeof
  | .array vs => 1 + vs.length * t.sizeof

theorem datum_lt {t : ScalarType} {v : Scalar} (hv : HasType t v) :
    datum t v < 256 ^ t.sizeof := by
  cases v with
  | int x =>
      have hpos : (0 : Int) < 256 ^ t.sizeof := by positivity
      have hlt := Int.emod_lt_of_pos x hpos
      have hnonneg := Int.emod_nonneg x (ne_of_gt hpos)
      rw [datum, Int.toNat_lt hnonneg]
      push_cast
      exact hlt
  | int32 x =>
      have hx : x.toUInt32.toNat < 256 ^ 4 := x.toUInt32.toNat_lt
      cases t <;> first | exact hv.elim | exact hx
  | float d =>
      have hd : d.toNat < 2 ^ 64 := d.toNat_lt
      cases t with
      | float => exact Ieee754.narrow_lt hd
      | double => exact hd
      | _ => exact hv.elim

theorem isObject_object {ft : FieldType} {v : Value} (hv : ValueHasType ft v) :
    IsObject ft (object ft.element v) := by
  cases ft with
  | scalar t =>
      cases v with
      | scalar v => exact datum_lt hv
      | array vs => exact hv.elim
  | array t =>
      cases v with
      | scalar v => exact hv.elim
      | array vs =>
          intro x hx
          obtain ⟨v, hvs, rfl⟩ := List.mem_map.mp hx
          exact datum_lt (hv v hvs)

theorem byte_eq {x : Int} {n : Nat} (h : x % 256 = (n % 256 : Nat)) :
    byte x = UInt8.ofNat n := by
  apply UInt8.toNat_inj.mp
  change (x % 256).toNat % 256 = n % 256
  omega

theorem bytes_four (x : Int) : [byte x, byte (x / 2 ^ 8), byte (x / 2 ^ 16), byte (x / 2 ^ 24)] =
    LittleEndian.toBytes 4 (x % 256 ^ 4).toNat := by
  simp only [LittleEndian.toBytes]
  rw [byte_eq (n := (x % 256 ^ 4).toNat) (by omega),
    byte_eq (n := (x % 256 ^ 4).toNat / 256) (by omega),
    byte_eq (n := (x % 256 ^ 4).toNat / 256 / 256) (by omega),
    byte_eq (n := (x % 256 ^ 4).toNat / 256 / 256 / 256) (by omega)]

theorem bytes_two (x : Int) : [byte x, byte (x / 2 ^ 8)] =
    LittleEndian.toBytes 2 (x % 256 ^ 2).toNat := by
  simp only [LittleEndian.toBytes]
  rw [byte_eq (n := (x % 256 ^ 2).toNat) (by omega),
    byte_eq (n := (x % 256 ^ 2).toNat / 256) (by omega)]

theorem bytes_one (x : Int) : [byte x] = LittleEndian.toBytes 1 (x % 256 ^ 1).toNat := by
  simp only [LittleEndian.toBytes]
  rw [byte_eq (n := (x % 256 ^ 1).toNat) (by omega)]

/-- What passes its test is written as the bits of a C object. -/
theorem sprintScalar_ok {t : ScalarType} {v : Scalar} (hv : HasType t v) (hr : ¬ Refused t v) :
    sprintScalar t v = .ok (memory t (datum t v)) := by
  cases t <;> cases v <;> first | exact hv.elim | skip
  case uint8.int x =>
    have hx : ¬ (x < 0 ∨ 0xff < x) := hr
    rw [sprintScalar, if_neg hx, bytes_one]
    rfl
  case int8.int x =>
    have hx : ¬ (x < -0x7f ∨ 0x7f < x) := hr
    rw [sprintScalar, if_neg hx]
    rfl
  case uint16.int x =>
    have hx : ¬ x < 0 := hr
    rw [sprintScalar, if_neg hx, bytes_two]
    rfl
  case uint32.int x =>
    have hx : ¬ x < 0 := hr
    rw [sprintScalar, if_neg hx, bytes_four]
    rfl
  case int32.int x =>
    rw [sprintScalar, bytes_four]
    rfl
  all_goals rfl

theorem sprintScalar_refused {t : ScalarType} {v : Scalar} (hr : Refused t v) :
    ∃ e, sprintScalar t v = .error e := by
  cases t <;> cases v <;> first | exact hr.elim | exact ⟨_, if_pos hr⟩

theorem sprintValue_ok {ft : FieldType} {v : Value} (hv : ValueHasType ft v)
    (hr : ¬ ValueRefused ft.element v) (hcount : (object ft.element v).count < 256) :
    sprintValue ft v = .ok (encodeObject ft.element (object ft.element v)) := by
  cases ft with
  | scalar t =>
      cases v with
      | scalar v => exact sprintScalar_ok hv hr
      | array vs => exact hv.elim
  | array t =>
      cases v with
      | scalar v => exact hv.elim
      | array vs =>
          have hlen : vs.length < 256 := by simpa [object, CObject.count] using hcount
          have hn : sprintScalar .uint8 (.int vs.length) = .ok [UInt8.ofNat vs.length] := by
            rw [sprintScalar, if_neg (by omega), byte_eq (n := vs.length) (by omega)]
          have hvs : vs.mapM (sprintScalar t) = .ok (vs.map fun v => memory t (datum t v)) :=
            mapM_ok fun v hmem => sprintScalar_ok (hv v hmem) fun h => hr ⟨v, hmem, h⟩
          simp only [sprintValue, hn, hvs, encodeObject, object, FieldType.element,
            List.length_map, List.flatMap_def, List.map_map, Function.comp_def]
          rfl

/-- The default of every scalar type passes its own tests. -/
theorem sprintValue_default (t : ScalarType) :
    ∃ v bytes, defaultValue (.scalar t) = .ok v ∧ sprintValue (.scalar t) v = .ok bytes := by
  cases t <;> exact ⟨_, _, rfl, rfl⟩

theorem sprintValue_refused {ft : FieldType} {v : Value} (hv : ValueHasType ft v)
    (hr : ValueRefused ft.element v) : ∃ e, sprintValue ft v = .error e := by
  cases ft with
  | scalar t =>
      cases v with
      | scalar v => exact sprintScalar_refused hr
      | array vs => exact hv.elim
  | array t =>
      cases v with
      | scalar v => exact hv.elim
      | array vs =>
          obtain ⟨v, hmem, hv⟩ := hr
          have hv : Refused t v := hv
          obtain ⟨e, he⟩ := mapM_error hmem (sprintScalar_refused hv)
          simp only [sprintValue, he]
          cases sprintScalar .uint8 (.int vs.length) with
          | error e' => exact ⟨e', rfl⟩
          | ok n => exact ⟨e, rfl⟩

end GroundEncoder

end Paparazzi.Messages.CodecEncoding
