import Paparazzi.Messages.CodecEncoding
import Mathlib.Algebra.Order.BigOperators.Group.List

/-!
When the ground's codec and the aircraft's macros agree on a message. They do
not on `int8` arrays, arrays of 128 elements or more, the `int8` -128 and `uint32`
values from `2 ^ 31` on; and only some types are tested for values that do not
fit.
-/

namespace Paparazzi.Messages.CodecAgreement

open Paparazzi.Library Paparazzi.Messages.Codec Paparazzi.Messages.CodecEncoding

section Getters

theorem typed_eq_field (payload : List UInt8) (o : Nat) (t : ScalarType) :
    typed payload o t = LittleEndian.field payload o t.sizeof :=
  LittleEndian.foldl_or_shift payload o t.sizeof

theorem read_scalar {t : ScalarType} {x : Nat} {pre suf : List UInt8} (hx : x < 256 ^ t.sizeof) :
    (GetMacro.scalar pre.length t).read (pre ++ memory t x ++ suf) = .scalar x := by
  rw [GetMacro.read, typed_eq_field, field_memory hx rfl]

theorem read_array {t : ScalarType} {xs : List Nat} {pre suf : List UInt8}
    (hxs : ∀ x ∈ xs, x < 256 ^ t.sizeof) (hlen : xs.length < 256) :
    (GetMacro.array pre.length (pre.length + 1) t).read
      (pre ++ encodeObject t (.array xs) ++ suf) = .array xs := by
  have hcount := field_count pre (xs.flatMap (memory t) ++ suf) hlen
  have hread : ∀ i (h : i < xs.length), LittleEndian.field
      (pre ++ UInt8.ofNat xs.length :: (xs.flatMap (memory t) ++ suf))
        (pre.length + 1 + i * t.sizeof) t.sizeof = xs[i] := by
    intro i hi
    have h := field_element (pre ++ [UInt8.ofNat xs.length]) suf hxs hi rfl
    simpa using h
  rw [GetMacro.read, typed_eq_field]
  simp only [encodeObject, List.append_assoc, List.cons_append, ScalarType.sizeof, hcount]
  congr 1
  apply List.ext_getElem
  · simp
  · intro i h₁ h₂
    simp only [List.getElem_map, List.getElem_range]
    exact hread i h₂

/-- The getters that are printed read the objects encoded. -/
theorem getters_read {checkAlignment : Bool} {name : String} {args : List (Field × CObject)}
    (pre : List UInt8) {macros : List (String × GetMacro)}
    (h : printGetMacros checkAlignment name (some pre.length) (args.map Prod.fst) = .ok macros)
    (hargs : ∀ a ∈ args, IsObject a.1.type a.2) (hbyte : ∀ a ∈ args, a.2.count < 256) :
    macros.map (fun g => (g.1, g.2.reading (pre ++ encodeArgs args))) =
      args.map fun a => (a.1.name, a.2.reading a.1.type.element) := by
  induction args generalizing pre macros with
  | nil =>
      cases h
      rfl
  | cons a args ih =>
      obtain ⟨⟨fieldName, ft⟩, o⟩ := a
      have ho : IsObject ft o := hargs (⟨fieldName, ft⟩, o) (by simp)
      have hsplit : pre ++ encodeArgs ((⟨fieldName, ft⟩, o) :: args) =
          pre ++ encodeObject ft.element o ++ encodeArgs args := by
        rw [List.append_assoc]
        rfl
      rw [hsplit]
      cases ft with
      | scalar t =>
          cases o with
          | array xs => exact ho.elim
          | scalar x =>
              rw [List.map_cons, printGetMacros] at h
              cases hcheck : alignmentCheck checkAlignment name fieldName pre.length t with
              | error e => rw [hcheck] at h; cases h
              | ok _ =>
                  rw [hcheck] at h
                  have hlen : (pre ++ memory t x).length = pre.length + t.sizeof := by simp
                  cases hrest : printGetMacros checkAlignment name
                      (some (pre.length + t.sizeof)) (args.map Prod.fst) with
                  | error e => rw [hrest] at h; cases h
                  | ok rest =>
                      rw [hrest] at h
                      cases h
                      rw [← hlen] at hrest
                      have htail := ih _ hrest (fun b hb => hargs b (by simp [hb]))
                        (fun b hb => hbyte b (by simp [hb]))
                      rw [List.map_cons, List.map_cons]
                      congr 1
                      simp only [GetMacro.reading, GetMacro.element, FieldType.element,
                        encodeObject, read_scalar ho]
      | array t =>
          cases o with
          | scalar x => exact ho.elim
          | array xs =>
              have hlen : xs.length < 256 := hbyte (⟨fieldName, .array t⟩, .array xs) (by simp)
              rw [List.map_cons, printGetMacros] at h
              cases hcheck : alignmentCheck checkAlignment name fieldName pre.length .uint8 with
              | error e => rw [hcheck] at h; cases h
              | ok _ =>
                  cases hcheck' : alignmentCheck checkAlignment name fieldName
                      (pre.length + 1) t with
                  | error e => rw [hcheck, hcheck'] at h; cases h
                  | ok _ =>
                      rw [hcheck, hcheck'] at h
                      -- nothing may follow an array
                      cases args with
                      | cons b args => cases h
                      | nil =>
                          cases h
                          simp only [List.map_cons, List.map_nil, GetMacro.reading,
                            GetMacro.element, FieldType.element, read_array ho hlen]

theorem printGetMacros_unchecked (name : String) (offset : Nat) {fields : List Field}
    (hlast : ∀ f ∈ fields.dropLast, ∃ t, f.type = .scalar t) :
    ∃ macros, printGetMacros false name (some offset) fields = .ok macros := by
  induction fields generalizing offset with
  | nil => exact ⟨[], rfl⟩
  | cons f fields ih =>
      obtain ⟨fieldName, ft⟩ := f
      cases fields with
      | nil => cases ft <;> exact ⟨_, rfl⟩
      | cons g fields =>
          obtain ⟨t, rfl⟩ : ∃ t, ft = .scalar t := hlast ⟨fieldName, ft⟩ (by simp)
          obtain ⟨macros, h⟩ := ih (offset + t.sizeof) fun f hf => hlast f (by
            rw [List.dropLast_cons_of_ne_nil (List.cons_ne_nil _ _)]
            exact List.mem_cons_of_mem _ hf)
          refine ⟨(fieldName, .scalar offset t) :: macros, ?_⟩
          rw [printGetMacros, h]
          rfl

/-- Without the alignment test every message has its getters. -/
theorem getters_printed (m : Message) :
    ∃ macros, printGetMacros false m.name (some 2) m.fields = .ok macros :=
  printGetMacros_unchecked m.name 2 m.array_last

end Getters

section Values

/-- An assignment of values to the fields of a message, as long as a payload may
be. -/
structure Assignment (m : Message) where
  entries : List (Field × Value)
  fields_eq : entries.map Prod.fst = m.fields
  hasType : ∀ e ∈ entries, ValueHasType e.1.type e.2
  size_le : 2 + (entries.map fun e => valueSize e.1.type.element e.2).sum ≤ 255

variable {m : Message}

def Assignment.values (a : Assignment m) : Values := a.entries.map fun e => (e.1.name, e.2)

/-- The C objects whose bits the ground writes. -/
def Assignment.objects (a : Assignment m) : List (Field × CObject) :=
  a.entries.map fun e => (e.1, object e.1.type.element e.2)

def readings (vs : Values) : List (String × Reading) := vs.map fun v => (v.1, v.2.reading)

theorem length_encodeObject (t : ScalarType) (v : Value) :
    (encodeObject t (object t v)).length = valueSize t v := by
  cases v with
  | scalar v => exact length_memory _ _
  | array vs =>
      simp only [encodeObject, object, valueSize, List.length_cons, length_flatMap_memory,
        List.length_map]
      omega

theorem Assignment.length_encodeArgs (a : Assignment m) :
    (encodeArgs a.objects).length =
      (a.entries.map fun e => valueSize e.1.type.element e.2).sum := by
  simp only [encodeArgs, objects, List.length_flatMap, List.map_map, Function.comp_def,
    length_encodeObject]

theorem Assignment.count_lt (a : Assignment m) : ∀ e ∈ a.entries,
    (object e.1.type.element e.2).count < 256 := by
  intro e he
  have hle : valueSize e.1.type.element e.2 ≤
      (a.entries.map fun e => valueSize e.1.type.element e.2).sum :=
    List.single_le_sum (fun _ _ => Nat.zero_le _) _
      (List.mem_map_of_mem (f := fun e => valueSize e.1.type.element e.2) he)
  have hsize := a.size_le
  cases hv : e.2 with
  | scalar v => simp [object, CObject.count]
  | array vs =>
      rw [hv, valueSize] at hle
      have hpos : 1 ≤ e.1.type.element.sizeof := by cases e.1.type.element <;> decide
      have hmul : vs.length * 1 ≤ vs.length * e.1.type.element.sizeof :=
        Nat.mul_le_mul_left _ hpos
      simp only [object, CObject.count, List.length_map]
      omega

theorem Assignment.isObject (a : Assignment m) : ∀ x ∈ a.objects, IsObject x.1.type x.2 := by
  intro x hx
  obtain ⟨e, he, rfl⟩ := List.mem_map.mp hx
  exact isObject_object (a.hasType e he)

theorem Assignment.objects_fields (a : Assignment m) : a.objects.map Prod.fst = m.fields := by
  rw [← a.fields_eq]
  simp [objects, Function.comp_def]

/-- Each field finds its own value. -/
theorem lookup_of_nodup {vs : Values} (hnodup : (vs.map Prod.fst).Nodup) {v : String × Value}
    (hv : v ∈ vs) : vs.lookup v.1 = some v.2 := by
  induction vs with
  | nil => simp at hv
  | cons w vs ih =>
      rw [List.map_cons, List.nodup_cons] at hnodup
      obtain ⟨name, value⟩ := w
      rcases List.mem_cons.mp hv with rfl | hmem
      · simp
      · have hin : v.1 ∈ vs.map Prod.fst := List.mem_map_of_mem hmem
        have hne : v.1 ≠ name := fun h => hnodup.1 (h ▸ hin)
        have hbeq : (v.1 == name) = false := by simpa using hne
        rw [List.lookup_cons, hbeq]
        exact ih hnodup.2 hmem

theorem Assignment.lookup_values (a : Assignment m) : ∀ e ∈ a.entries,
    a.values.lookup e.1.name = some e.2 := by
  intro e he
  have hnodup : (a.values.map Prod.fst).Nodup := by
    have h := m.names_nodup
    rw [← a.fields_eq, List.map_map] at h
    simpa [values, Function.comp_def] using h
  exact lookup_of_nodup hnodup (List.mem_map_of_mem (f := fun e => (e.1.name, e.2)) he)

theorem payloadOfFields_cons {values : Values} {f : Field} {fields : List Field} {v : Value}
    (hv : values.lookup f.name = some v) :
    payloadOfFields values (f :: fields) = (do
      let bytes ← sprintValue f.type v
      let rest ← payloadOfFields values fields
      .ok (bytes ++ rest)) := by
  rw [payloadOfFields, hv]
  rfl

theorem payloadOfFields_ok {values : Values} {entries : List (Field × Value)}
    (hlookup : ∀ e ∈ entries, values.lookup e.1.name = some e.2)
    (htype : ∀ e ∈ entries, ValueHasType e.1.type e.2)
    (hr : ∀ e ∈ entries, ¬ ValueRefused e.1.type.element e.2)
    (hcount : ∀ e ∈ entries, (object e.1.type.element e.2).count < 256) :
    payloadOfFields values (entries.map Prod.fst) =
      .ok (encodeArgs (entries.map fun e => (e.1, object e.1.type.element e.2))) := by
  induction entries with
  | nil => rfl
  | cons e entries ih =>
      have htail := ih (fun b hb => hlookup b (by simp [hb])) (fun b hb => htype b (by simp [hb]))
        (fun b hb => hr b (by simp [hb])) (fun b hb => hcount b (by simp [hb]))
      rw [List.map_cons, payloadOfFields_cons (hlookup e (by simp)), htail,
        sprintValue_ok (htype e (by simp)) (hr e (by simp)) (hcount e (by simp))]
      rfl

theorem payloadOfFields_refused {values : Values} {entries : List (Field × Value)}
    {e : Field × Value} (hlookup : ∀ e ∈ entries, values.lookup e.1.name = some e.2)
    (htype : ∀ e ∈ entries, ValueHasType e.1.type e.2) (he : e ∈ entries)
    (hr : ValueRefused e.1.type.element e.2) :
    ∃ err, payloadOfFields values (entries.map Prod.fst) = .error err := by
  induction entries with
  | nil => simp at he
  | cons b entries ih =>
      rw [List.map_cons, payloadOfFields_cons (hlookup b (by simp))]
      rcases List.mem_cons.mp he with rfl | he
      · obtain ⟨err, herr⟩ := sprintValue_refused (htype e (by simp)) hr
        exact ⟨err, by rw [herr]; rfl⟩
      · obtain ⟨err, herr⟩ := ih (fun b hb => hlookup b (by simp [hb]))
          (fun b hb => htype b (by simp [hb])) he
        cases hb : sprintValue b.1.type b.2 with
        | error err' => exact ⟨err', rfl⟩
        | ok bytes => exact ⟨err, by rw [herr]; rfl⟩

variable {messages : MessageTable} {acId id : UInt8}

/-- The ground's payload is the encoding of its objects, if no value is refused. -/
theorem payloadOfValues_ok (hm : messages id = some m) (a : Assignment m)
    (hr : ∀ e ∈ a.entries, ¬ ValueRefused e.1.type.element e.2) :
    payloadOfValues messages id acId a.values = .ok (acId :: id :: encodeArgs a.objects) := by
  have hbytes := payloadOfFields_ok a.lookup_values a.hasType hr a.count_lt
  rw [a.fields_eq] at hbytes
  have hlen : (acId :: id :: encodeArgs a.objects).length ≤ maxLength := by
    have hsize := a.size_le
    simp only [List.length_cons, a.length_encodeArgs, maxLength]
    omega
  simp only [payloadOfValues, messageOfId, hm]
  change (do
    let bytes ← payloadOfFields a.values m.fields
    if (acId :: id :: bytes).length ≤ maxLength then Except.ok (acId :: id :: bytes)
    else .error (.invalidArgument "index out of bounds")) = _
  rw [hbytes]
  exact if_pos hlen

theorem payloadOfValues_refused (acId : UInt8) (hm : messages id = some m) (a : Assignment m)
    (hr : ∃ e ∈ a.entries, ValueRefused e.1.type.element e.2) :
    ∃ err, payloadOfValues messages id acId a.values = .error err := by
  obtain ⟨e, he, hr⟩ := hr
  obtain ⟨err, herr⟩ := payloadOfFields_refused a.lookup_values a.hasType he hr
  rw [a.fields_eq] at herr
  refine ⟨err, ?_⟩
  simp only [payloadOfValues, messageOfId, hm]
  change (do
    let bytes ← payloadOfFields a.values m.fields
    if (acId :: id :: bytes).length ≤ maxLength then Except.ok (acId :: id :: bytes)
    else .error (.invalidArgument "index out of bounds")) = _
  rw [herr]
  rfl

theorem payloadOfValues_ok_iff (acId : UInt8) (hm : messages id = some m) (a : Assignment m) :
    (∃ p, payloadOfValues messages id acId a.values = .ok p) ↔
      ∀ e ∈ a.entries, ¬ ValueRefused e.1.type.element e.2 := by
  constructor
  · rintro ⟨p, hp⟩ e he hr
    obtain ⟨err, herr⟩ := payloadOfValues_refused acId hm a ⟨e, he, hr⟩
    rw [hp] at herr
    cases herr
  · intro hr
    exact ⟨_, payloadOfValues_ok hm a hr⟩

end Values

section Ranges

def lowest : ScalarType → Int
  | .int8 => -2 ^ 7
  | .int16 => -2 ^ 15
  | .int32 => -2 ^ 31
  | _ => 0

def highest : ScalarType → Int
  | .uint8 => 2 ^ 8 - 1
  | .uint16 => 2 ^ 16 - 1
  | .uint32 => 2 ^ 32 - 1
  | .int8 => 2 ^ 7 - 1
  | .int16 => 2 ^ 15 - 1
  | .int32 => 2 ^ 31 - 1
  | _ => 0

/-- The number is in the range of the integer type, or a `float`. -/
def Fits (t : ScalarType) : Number → Prop
  | .int x => lowest t ≤ x ∧ x ≤ highest t
  | .real d => t = .float → Ieee754.widen (Ieee754.narrow d.toNat) = d.toNat

/-- The number is beyond the range of the type. A double between two `float`s
neither fits nor is beyond. -/
def Beyond (t : ScalarType) : Number → Prop
  | .int x => x < lowest t ∨ highest t < x
  | .real d => t = .float ∧ Ieee754.isFinite64 d.toNat ∧
      Ieee754.isInfinite32 (Ieee754.narrow d.toNat)

def ReadingFits (t : ScalarType) : Reading → Prop
  | .scalar x => Fits t x
  | .array xs => ∀ x ∈ xs, Fits t x

def ReadingBeyond (t : ScalarType) : Reading → Prop
  | .scalar x => Beyond t x
  | .array xs => ∃ x ∈ xs, Beyond t x

/-- The number of every `float` fits, except a signalling NaN. -/
theorem fits_float {x : Nat} (hx : x < 2 ^ 32) (hquiet : Ieee754.isSignalling32 x = false) :
    Fits .float (ScalarType.number .float x) := by
  intro _
  have hwiden : (UInt64.ofNat (Ieee754.widen x)).toNat = Ieee754.widen x :=
    UInt64.toNat_ofNat_of_lt' (Ieee754.widen_lt hx)
  rw [hwiden, Ieee754.narrow_widen hquiet]

/-- What all four codecs can carry of a number that fits. -/
def Codable (t : ScalarType) : Number → Prop
  | .int x => (t = .int8 → x ≠ -128) ∧ (t = .uint32 → x < 2 ^ 31)
  | .real _ => True

def ReadingCodable (t : ScalarType) : Reading → Prop
  | .scalar x => Codable t x
  | .array xs => t ≠ .int8 ∧ xs.length < 128 ∧ ∀ x ∈ xs, Codable t x

/-- The bits written for a number that fits are those of the number. -/
theorem number_datum {t : ScalarType} {v : Scalar} (hv : HasType t v) (hf : Fits t v.number) :
    t.number (datum t v) = v.number := by
  cases t <;> cases v <;> first | exact hv.elim | skip
  case uint8.int x | uint16.int x | uint32.int x =>
    simp only [Fits, Scalar.number, lowest, highest] at hf
    simp only [ScalarType.number, datum, ScalarType.sizeof, Scalar.number, Number.int.injEq]
    omega
  case int8.int x =>
    simp only [Fits, Scalar.number, lowest, highest] at hf
    exact congrArg Number.int (signed_mod (n := 0) (by omega) (by omega))
  case int16.int x =>
    simp only [Fits, Scalar.number, lowest, highest] at hf
    exact congrArg Number.int (signed_mod (n := 1) (by omega) (by omega))
  case int32.int x =>
    simp only [Fits, Scalar.number, lowest, highest] at hf
    exact congrArg Number.int (signed_mod (n := 3) (by omega) (by omega))
  case uint32.int32 x =>
    simp only [Fits, Scalar.number, lowest, highest] at hf
    have hsigned := signed_toUInt32 x
    have hlt := x.toUInt32.toNat_lt
    rw [signed] at hsigned
    simp only [ScalarType.number, datum, Scalar.number, Number.int.injEq]
    split_ifs at hsigned <;> omega
  case int32.int32 x => exact congrArg Number.int (signed_toUInt32 x)
  case float.float d =>
    have hd : Ieee754.widen (Ieee754.narrow d.toNat) = d.toNat := hf rfl
    simp only [ScalarType.number, datum, Scalar.number, if_pos, hd, Number.real.injEq]
    exact UInt64.ofNat_toNat
  case double.float d => exact congrArg Number.real UInt64.ofNat_toNat

theorem reading_object {ft : FieldType} {v : Value} (hv : ValueHasType ft v)
    (hf : ReadingFits ft.element v.reading) :
    (object ft.element v).reading ft.element = v.reading := by
  cases ft with
  | scalar t =>
      cases v with
      | scalar v => exact congrArg Reading.scalar (number_datum hv hf)
      | array vs => exact hv.elim
  | array t =>
      cases v with
      | scalar v => exact hv.elim
      | array vs =>
          simp only [object, CObject.reading, FieldType.element, Value.reading, List.map_map]
          congr 1
          apply List.map_congr_left
          intro v hmem
          exact number_datum (hv v hmem) (hf v.number (List.mem_map_of_mem hmem))

/-- A codable number passes the tests of `sprint_value`. -/
theorem not_refused {t : ScalarType} {v : Scalar} (hv : HasType t v) (hf : Fits t v.number)
    (hc : Codable t v.number) : ¬ Refused t v := by
  cases t <;> cases v <;> first | exact hv.elim | exact id | skip
  case int8.int x =>
    have hne : x ≠ -128 := hc.1 rfl
    simp only [Fits, Scalar.number, lowest, highest] at hf
    simp only [Refused]
    omega
  all_goals
    simp only [Fits, Scalar.number, lowest, highest] at hf
    simp only [Refused]
    omega

theorem not_valueRefused {ft : FieldType} {v : Value} (hv : ValueHasType ft v)
    (hf : ReadingFits ft.element v.reading) (hc : ReadingCodable ft.element v.reading) :
    ¬ ValueRefused ft.element v := by
  cases ft with
  | scalar t =>
      cases v with
      | scalar v => exact not_refused hv hf hc
      | array vs => exact hv.elim
  | array t =>
      cases v with
      | scalar v => exact hv.elim
      | array vs =>
          rintro ⟨v, hmem, hr⟩
          have hin : v.number ∈ vs.map Scalar.number := List.mem_map_of_mem hmem
          exact not_refused (hv v hmem) (hf v.number hin) (hc.2.2 v.number hin) hr

/-- The ground's reading of an object is the object's, if it is codable. -/
theorem reading_decodeObject {ft : FieldType} {o : CObject} (ho : IsObject ft o)
    (hc : ReadingCodable ft.element (o.reading ft.element)) :
    (decodeObject ft.element o).reading = o.reading ft.element := by
  have hscalar : ∀ t x, x < 256 ^ t.sizeof → Codable t (t.number x) →
      (decodeScalar t x).number = t.number x := by
    intro t x hx hc
    apply (number_decodeScalar hx).mpr
    rintro rfl
    have hlt : (x : Int) < 2 ^ 31 := hc.2 rfl
    omega
  cases ft with
  | scalar t =>
      cases o with
      | scalar x => exact congrArg Reading.scalar (hscalar t x ho hc)
      | array xs => exact ho.elim
  | array t =>
      cases o with
      | scalar x => exact ho.elim
      | array xs =>
          simp only [decodeObject, Value.reading, CObject.reading, FieldType.element,
            List.map_map]
          congr 1
          apply List.map_congr_left
          intro x hmem
          exact hscalar t x (ho x hmem) (hc.2.2 _ (List.mem_map_of_mem hmem))

end Ranges

section Agreement

variable {m : Message} {messages : MessageTable} {acId id : UInt8}

/-- `values_of_payload` returned the ids and these numbers. -/
def Returns (r : Except PprzError (UInt8 × UInt8 × Values)) (id acId : UInt8) (values : Values) :
    Prop :=
  ∃ vs, r = .ok (id, acId, vs) ∧ readings vs = readings values

/-- The C objects of the fields hold the numbers of the assignment. -/
def Holds (args : List (Field × CObject)) (a : Assignment m) : Prop :=
  (∀ x ∈ args, IsObject x.1.type x.2) ∧
    args.map (fun x => (x.1, x.2.reading x.1.type.element)) =
      a.entries.map fun e => (e.1, e.2.reading)

/-- The agreement of the codecs on an assignment: downlink to ground, ground to
ground, and ground to the getters of the aircraft. -/
structure Agrees (messages : MessageTable) (id acId : UInt8) (a : Assignment m) : Prop where
  downlink : ∀ args, Holds args a → ∃ p, downlinkSend acId id args = some p ∧
    Returns (valuesOfPayload messages p) id acId a.values
  ground : ∃ p, payloadOfValues messages id acId a.values = .ok p ∧
    Returns (valuesOfPayload messages p) id acId a.values
  getters : ∃ p, payloadOfValues messages id acId a.values = .ok p ∧
    ∀ checkAlignment macros, printGetMacros checkAlignment m.name (some 2) m.fields = .ok macros →
      macros.map (fun g => (g.1, g.2.reading p)) = readings a.values

/-- Values that fit are carried by every codec, and a value beyond its type is
rejected. -/
def Conforms (messages : MessageTable) (id acId : UInt8) (a : Assignment m) : Prop :=
  ((∀ e ∈ a.entries, ReadingFits e.1.type.element e.2.reading) → Agrees messages id acId a) ∧
  ((∃ e ∈ a.entries, ReadingBeyond e.1.type.element e.2.reading) →
    ∃ err, payloadOfValues messages id acId a.values = .error err)

theorem Assignment.holds_objects (a : Assignment m)
    (hf : ∀ e ∈ a.entries, ReadingFits e.1.type.element e.2.reading) : Holds a.objects a := by
  refine ⟨a.isObject, ?_⟩
  rw [objects, List.map_map]
  apply List.map_congr_left
  intro e he
  exact congrArg (Prod.mk e.1) (reading_object (a.hasType e he) (hf e he))

theorem Holds.exists_entry {args : List (Field × CObject)} {a : Assignment m} (h : Holds args a) :
    ∀ x ∈ args, ∃ e ∈ a.entries, e.1 = x.1 ∧ e.2.reading = x.2.reading x.1.type.element := by
  intro x hx
  have hin : (x.1, x.2.reading x.1.type.element) ∈
      a.entries.map fun e => (e.1, e.2.reading) := by
    rw [← h.2]
    exact List.mem_map_of_mem (f := fun x => (x.1, x.2.reading x.1.type.element)) hx
  obtain ⟨e, he, heq⟩ := List.mem_map.mp hin
  exact ⟨e, he, congrArg Prod.fst heq, congrArg Prod.snd heq⟩

theorem Holds.fields {args : List (Field × CObject)} {a : Assignment m} (h : Holds args a) :
    args.map Prod.fst = m.fields := by
  have hfst := congrArg (List.map Prod.fst) h.2
  simp only [List.map_map, Function.comp_def] at hfst
  rw [hfst, ← a.fields_eq]

theorem Holds.codable {args : List (Field × CObject)} {a : Assignment m} (h : Holds args a)
    (hc : ∀ e ∈ a.entries, ReadingCodable e.1.type.element e.2.reading) :
    ∀ x ∈ args, ReadingCodable x.1.type.element (x.2.reading x.1.type.element) := by
  intro x hx
  obtain ⟨e, he, hfield, hreading⟩ := h.exists_entry x hx
  rw [← hreading, ← hfield]
  exact hc e he

theorem count_of_codable {t : ScalarType} {o : CObject} (hc : ReadingCodable t (o.reading t)) :
    o.count < 128 := by
  cases o with
  | scalar x => exact Nat.zero_lt_succ _
  | array xs =>
      have hlen : (xs.map t.number).length < 128 := hc.2.1
      rwa [List.length_map] at hlen

theorem not_int8Array_of_codable {ft : FieldType} {o : CObject} (ho : IsObject ft o)
    (hc : ReadingCodable ft.element (o.reading ft.element)) : ft ≠ .array .int8 := by
  rintro rfl
  cases o with
  | scalar x => exact ho.elim
  | array xs => exact hc.1 rfl

theorem readings_decoded {args : List (Field × CObject)} {a : Assignment m} (h : Holds args a)
    (hc : ∀ e ∈ a.entries, ReadingCodable e.1.type.element e.2.reading) :
    readings (args.map fun x => (x.1.name, decodeObject x.1.type.element x.2)) =
      readings a.values := by
  have hcodable := h.codable hc
  have hdecoded : readings (args.map fun x => (x.1.name, decodeObject x.1.type.element x.2)) =
      (args.map fun x => (x.1, x.2.reading x.1.type.element)).map
        fun x => (x.1.name, x.2) := by
    rw [readings, List.map_map, List.map_map]
    apply List.map_congr_left
    intro x hx
    exact congrArg (Prod.mk x.1.name) (reading_decodeObject (h.1 x hx) (hcodable x hx))
  rw [hdecoded, h.2, readings, Assignment.values, List.map_map, List.map_map]
  rfl

theorem returns_encode (hm : messages id = some m) {args : List (Field × CObject)}
    {a : Assignment m} (h : Holds args a)
    (hc : ∀ e ∈ a.entries, ReadingCodable e.1.type.element e.2.reading) :
    Returns (valuesOfPayload messages (acId :: id :: encodeArgs args)) id acId a.values :=
  ⟨_, valuesOfPayload_encode hm h.fields h.1 fun x hx => count_of_codable (h.codable hc x hx),
    readings_decoded h hc⟩

theorem agrees_of_codable (hm : messages id = some m) (a : Assignment m)
    (hf : ∀ e ∈ a.entries, ReadingFits e.1.type.element e.2.reading)
    (hc : ∀ e ∈ a.entries, ReadingCodable e.1.type.element e.2.reading) :
    Agrees messages id acId a := by
  have hobjects := a.holds_objects hf
  have hpayload : payloadOfValues messages id acId a.values =
      .ok (acId :: id :: encodeArgs a.objects) :=
    payloadOfValues_ok hm a fun e he => not_valueRefused (a.hasType e he) (hf e he) (hc e he)
  refine ⟨?_, ⟨_, hpayload, returns_encode hm hobjects hc⟩, ⟨_, hpayload, ?_⟩⟩
  · intro args h
    have h8 : ∀ x ∈ args, x.1.type ≠ .array .int8 := fun x hx =>
      not_int8Array_of_codable (h.1 x hx) (h.codable hc x hx)
    exact ⟨_, downlinkSend_eq h.1 h8, returns_encode hm h hc⟩
  · intro checkAlignment macros hmacros
    rw [← hobjects.fields] at hmacros
    have hbyte : ∀ x ∈ a.objects, x.2.count < 256 := by
      intro x hx
      have hlt := count_of_codable (hobjects.codable hc x hx)
      omega
    have hread := getters_read [acId, id] hmacros a.isObject hbyte
    refine hread.trans ?_
    have hnames := congrArg (List.map fun x : Field × Reading => (x.1.name, x.2)) hobjects.2
    rw [List.map_map, List.map_map] at hnames
    rw [readings, Assignment.values, List.map_map]
    exact hnames

/-- What the ground gets back decides which objects are codable. -/
theorem codable_of_decoded {ft : FieldType} {v : Value} (hv : ValueHasType ft v)
    (hf : ReadingFits ft.element v.reading) (hr : ¬ ValueRefused ft.element v)
    (h8 : ft ≠ .array .int8) (hshort : (object ft.element v).count < 128)
    (hdecoded : (decodeObject ft.element (object ft.element v)).reading = v.reading) :
    ReadingCodable ft.element v.reading := by
  have hscalar : ∀ t u, HasType t u → Fits t u.number → ¬ Refused t u →
      (decodeScalar t (datum t u)).number = u.number → Codable t u.number := by
    intro t u hu hfu hru hdu
    have hnumber := number_datum hu hfu
    have hsmall := (number_decodeScalar (datum_lt hu)).mp (hdu.trans hnumber.symm)
    cases hx : u.number with
    | real d => trivial
    | int x =>
        constructor
        · rintro rfl rfl
          cases u with
          | int y =>
              cases hx
              exact hru (Or.inl (by norm_num))
          | int32 y => exact hu.elim
          | float d => cases hx
        · rintro rfl
          have hlt := hsmall rfl
          rw [hx] at hnumber
          have hcast : ((datum .uint32 u : Nat) : Int) = x := Number.int.inj hnumber
          omega
  cases ft with
  | scalar t =>
      cases v with
      | scalar u => exact hscalar t u hv hf hr (Reading.scalar.inj hdecoded)
      | array us => exact hv.elim
  | array t =>
      cases v with
      | scalar u => exact hv.elim
      | array us =>
          refine ⟨fun ht => h8 (congrArg FieldType.array ht), ?_, ?_⟩
          · simpa [object, CObject.count, Value.reading] using hshort
          · intro x hx
            obtain ⟨u, hu, rfl⟩ := List.mem_map.mp hx
            have hmaps := Reading.array.inj hdecoded
            simp only [FieldType.element, List.map_map] at hmaps
            exact hscalar t u (hv u hu) (hf _ hx) (fun h => hr ⟨u, hu, h⟩)
              (List.map_inj_left.mp hmaps u hu)

theorem codable_of_agrees (hm : messages id = some m) (a : Assignment m)
    (hf : ∀ e ∈ a.entries, ReadingFits e.1.type.element e.2.reading)
    (h : Agrees messages id acId a) :
    ∀ e ∈ a.entries, ReadingCodable e.1.type.element e.2.reading := by
  obtain ⟨p, hp, -⟩ := h.ground
  have hr := (payloadOfValues_ok_iff acId hm a).mp ⟨p, hp⟩
  obtain ⟨q, hq, vs, hvs, hreadings⟩ := h.downlink a.objects (a.holds_objects hf)
  have h8 : ∀ x ∈ a.objects, x.1.type ≠ .array .int8 := by
    intro x hx h8
    rw [downlinkSend_int8Array hx h8] at hq
    cases hq
  rw [downlinkSend_eq a.isObject h8] at hq
  cases hq
  have hbyte : ∀ x ∈ a.objects, x.2.count < 256 := by
    intro x hx
    obtain ⟨e, he, rfl⟩ := List.mem_map.mp hx
    exact a.count_lt e he
  have hshort : ∀ x ∈ a.objects, x.2.count < 128 := by
    intro x hx
    by_contra hlong
    rw [valuesOfPayload_long hm a.objects_fields a.isObject hbyte hx (by omega)] at hvs
    cases hvs
  rw [valuesOfPayload_encode hm a.objects_fields a.isObject hshort] at hvs
  cases hvs
  rw [readings, Assignment.objects, List.map_map, List.map_map, readings, Assignment.values,
    List.map_map] at hreadings
  intro e he
  have hobject : (e.1, object e.1.type.element e.2) ∈ a.objects :=
    List.mem_map_of_mem (f := fun e => (e.1, object e.1.type.element e.2)) he
  exact codable_of_decoded (a.hasType e he) (hf e he) (hr e he) (h8 _ hobject)
    (hshort _ hobject) (congrArg Prod.snd (List.map_inj_left.mp hreadings e he))

/-- On values that fit, the codecs agree if and only if all values are codable;
a value beyond its type is rejected if and only if some value meets a test of
`sprint_value`. -/
theorem codec_conforms_iff (hm : messages id = some m) (acId : UInt8) (a : Assignment m) :
    Conforms messages id acId a ↔
      ((∀ e ∈ a.entries, ReadingFits e.1.type.element e.2.reading) →
        ∀ e ∈ a.entries, ReadingCodable e.1.type.element e.2.reading) ∧
      ((∃ e ∈ a.entries, ReadingBeyond e.1.type.element e.2.reading) →
        ∃ e ∈ a.entries, ValueRefused e.1.type.element e.2) := by
  refine and_congr ?_ ?_
  · constructor
    · intro h hf
      exact codable_of_agrees hm a hf (h hf)
    · intro h hf
      exact agrees_of_codable hm a hf (h hf)
  · constructor
    · intro h hbeyond
      obtain ⟨err, herr⟩ := h hbeyond
      by_contra hnone
      have hr : ∀ e ∈ a.entries, ¬ ValueRefused e.1.type.element e.2 :=
        fun e he hr => hnone ⟨e, he, hr⟩
      rw [payloadOfValues_ok hm a hr] at herr
      cases herr
    · intro h hbeyond
      exact payloadOfValues_refused _ hm a (h hbeyond)

/-- A message of one field. -/
def counterMessage (t : ScalarType) : Message where
  name := "COUNTER"
  fields := [⟨"count", .scalar t⟩]
  names_nodup := by simp
  array_last := by simp

def counterTable (t : ScalarType) : MessageTable :=
  fun id => if id = 7 then some (counterMessage t) else none

def counterIs (t : ScalarType) (x : Int) (hv : HasType t (.int x)) :
    Assignment (counterMessage t) where
  entries := [(⟨"count", .scalar t⟩, .scalar (.int x))]
  fields_eq := rfl
  hasType := by
    intro e he
    cases List.mem_singleton.mp he
    exact hv
  size_le := by cases t <;> simp [valueSize, FieldType.element, ScalarType.sizeof]

theorem codec_conforms_iff_counter :
    Conforms (counterTable .uint32) 7 3 (counterIs .uint32 5 trivial) := by
  refine (codec_conforms_iff rfl 3 (counterIs .uint32 5 trivial)).mpr ⟨?_, ?_⟩
  · intro _ e he
    cases List.mem_singleton.mp he
    have hc : Codable .uint32 (.int 5) := ⟨nofun, fun _ => by norm_num⟩
    exact hc
  · rintro ⟨e, he, hbeyond⟩
    cases List.mem_singleton.mp he
    have hnot : ¬ ((5 : Int) < 0 ∨ (2 : Int) ^ 32 - 1 < 5) := by norm_num
    exact absurd hbeyond hnot

/-- A `uint32` from `2 ^ 31` on comes back negative, and an `int16` of 40000 is
truncated without an error. -/
theorem codec_disagrees :
    ¬ Conforms (counterTable .uint32) 7 3 (counterIs .uint32 3000000000 trivial) ∧
      ¬ Conforms (counterTable .int16) 7 3 (counterIs .int16 40000 trivial) := by
  constructor
  · rintro ⟨h, -⟩
    have hf : ∀ e ∈ (counterIs .uint32 3000000000 trivial).entries,
        ReadingFits e.1.type.element e.2.reading := by
      intro e he
      cases List.mem_singleton.mp he
      exact ⟨by decide, by decide⟩
    have hc := codable_of_agrees rfl _ hf (h hf) _ (List.mem_singleton.mpr rfl)
    have hlt : (3000000000 : Int) < 2 ^ 31 := hc.2 rfl
    norm_num at hlt
  · rintro ⟨-, h⟩
    have hbeyond : ∃ e ∈ (counterIs .int16 40000 trivial).entries,
        ReadingBeyond e.1.type.element e.2.reading :=
      ⟨_, List.mem_singleton.mpr rfl, Or.inr (by decide)⟩
    obtain ⟨err, herr⟩ := h hbeyond
    have hok : payloadOfValues (counterTable .int16) 7 3 (counterIs .int16 40000 trivial).values =
        .ok (3 :: 7 :: encodeArgs (counterIs .int16 40000 trivial).objects) :=
      payloadOfValues_ok rfl _ fun e he => by
        cases List.mem_singleton.mp he
        exact id
    rw [hok] at herr
    cases herr

end Agreement

end Paparazzi.Messages.CodecAgreement
