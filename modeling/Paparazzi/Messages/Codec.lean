import Paparazzi.Library.Ieee754
import Paparazzi.Library.Bytes

/-!
The four codecs of a message: the ground's `payload_of_values` and
`values_of_payload`, the generated `DOWNLINK_SEND` macros with the transport's
`Put` macros, and the generated `DL_<msg>_<field>` getters. Memory of the
aircraft is little-endian.
-/

namespace Paparazzi.Messages.Codec

open Paparazzi.Library

/-- `Pprz.types` without `string`. -/
inductive ScalarType where
  | uint8 | uint16 | uint32 | int8 | int16 | int32 | float | double
  deriving DecidableEq, Repr

namespace ScalarType

def name : ScalarType → String
  | uint8 => "uint8"
  | uint16 => "uint16"
  | uint32 => "uint32"
  | int8 => "int8"
  | int16 => "int16"
  | int32 => "int32"
  | float => "float"
  | double => "double"

def sizeof : ScalarType → Nat
  | uint8 | int8 => 1
  | uint16 | int16 => 2
  | uint32 | int32 | float => 4
  | double => 8

end ScalarType

inductive FieldType where
  | scalar (t : ScalarType)
  | array (t : ScalarType)
  deriving DecidableEq, Repr

/-- The type of a field's numbers. -/
def FieldType.element : FieldType → ScalarType
  | scalar t | array t => t

structure Field where
  name : String
  type : FieldType
  deriving DecidableEq, Repr

/-- A message description: the names of its fields differ and only the last
field is an array. -/
structure Message where
  name : String
  fields : List Field
  names_nodup : (fields.map Field.name).Nodup
  array_last : ∀ f ∈ fields.dropLast, ∃ t, f.type = .scalar t

/-- The scalar cases of `Pprz.value`; a `Float` is given by the bits of the
double. -/
inductive Scalar where
  | int (x : Int)
  | int32 (x : Int32)
  | float (d : UInt64)
  deriving DecidableEq, Repr

inductive Value where
  | scalar (v : Scalar)
  | array (vs : List Scalar)
  deriving DecidableEq, Repr

abbrev Values := List (String × Value)

inductive PprzError where
  | failure (text : String)
  | assertFailure
  | invalidArgument (text : String)
  | notFound
  deriving DecidableEq, Repr

/-- The table of `parse_class`, by message id. -/
abbrev MessageTable := UInt8 → Option Message

def messageOfId (messages : MessageTable) (id : UInt8) : Except PprzError Message :=
  match messages id with
  | some m => .ok m
  | none => .error .notFound

/-- The number of an `n`-byte two's complement pattern. -/
def signed (n b : Nat) : Int := if 2 * b < 256 ^ n then b else b - 256 ^ n

theorem signed_toUInt32 (x : Int32) : signed 4 x.toUInt32.toNat = x.toInt := by
  have hbits : x.toInt = x.toBitVec.toInt := rfl
  rw [hbits, BitVec.toInt_eq_toNat_cond]
  rfl

/-- `Char.chr (x land 0xff)`. -/
def byte (x : Int) : UInt8 := UInt8.ofNat (x % 256).toNat

def byteAt (buf : List UInt8) (i : Nat) : UInt8 := buf.getD i 0

section Ground

/-- `default_value`; `Float 4.2` for the floating types. -/
def defaultValue : FieldType → Except PprzError Value
  | .scalar .float | .scalar .double => .ok (.scalar (.float 0x4010cccccccccccd))
  | .scalar _ => .ok (.scalar (.int 42))
  | .array _ => .error (.failure "default_value: Array")

/-- `sprint_value` on scalars, as the bytes it puts into the buffer. -/
def sprintScalar : ScalarType → Scalar → Except PprzError (List UInt8)
  | .uint8, .int x =>
      if x < 0 ∨ 0xff < x then
        .error (.failure s!"Value too large to fit in a uint8: {x}")
      else .ok [byte x]
  | .int8, .int x =>
      if x < -0x7f ∨ 0x7f < x then
        .error (.failure s!"Value too large to fit in a int8: {x}")
      else .ok (LittleEndian.toBytes 1 (x % 256 ^ 1).toNat)
  | .float, .float d => .ok (LittleEndian.toBytes 4 (Ieee754.narrow d.toNat))
  | .double, .float d => .ok (LittleEndian.toBytes 8 d.toNat)
  | .int32, .int32 x | .uint32, .int32 x => .ok (LittleEndian.toBytes 4 x.toUInt32.toNat)
  | .int16, .int x => .ok (LittleEndian.toBytes 2 (x % 256 ^ 2).toNat)
  | .int32, .int value =>
      .ok [byte value, byte (value / 2 ^ 8), byte (value / 2 ^ 16), byte (value / 2 ^ 24)]
  | .uint32, .int value =>
      if value < 0 then .error .assertFailure
      else .ok [byte value, byte (value / 2 ^ 8), byte (value / 2 ^ 16), byte (value / 2 ^ 24)]
  | .uint16, .int value =>
      if value < 0 then .error .assertFailure else .ok [byte value, byte (value / 2 ^ 8)]
  | t, _ => .error (.failure s!"Pprz.sprint_value ({t.name})")

/-- `sprint_value`: an array is its length as a `uint8`, then its elements. -/
def sprintValue : FieldType → Value → Except PprzError (List UInt8)
  | .scalar t, .scalar v => sprintScalar t v
  | .array t, .array vs => do
      let n ← sprintScalar .uint8 (.int vs.length)
      let elements ← vs.mapM (sprintScalar t)
      .ok (n ++ elements.flatten)
  | .scalar t, _ | .array t, _ => .error (.failure s!"Pprz.sprint_value ({t.name})")

def maxLength : Nat := 256

/-- The loop of `payload_of_values` over the fields. -/
def payloadOfFields (values : Values) : List Field → Except PprzError (List UInt8)
  | [] => .ok []
  | f :: fields => do
      let v ← match values.lookup f.name with
        | some v => .ok v
        | none => defaultValue f.type
      let bytes ← sprintValue f.type v
      let rest ← payloadOfFields values fields
      .ok (bytes ++ rest)

/-- `payload_of_values`. A payload that outgrows the buffer ends in an exception
of the stores or of `String.sub`. -/
def payloadOfValues (messages : MessageTable) (id acId : UInt8) (values : Values) :
    Except PprzError (List UInt8) := do
  let message ← messageOfId messages id
  let bytes ← payloadOfFields values message.fields
  let p := acId :: id :: bytes
  if p.length ≤ maxLength then .ok p else .error (.invalidArgument "index out of bounds")

/-- `value_of_bin` on scalars. The stubs read past the end without a check; the
payload is then refused for its length. -/
def scalarOfBin (buffer : List UInt8) (index : Nat) (t : ScalarType) : Except PprzError Scalar :=
  if buffer.length < index + t.sizeof then .error (.invalidArgument "index out of bounds")
  else .ok <| match t with
    | .uint8 => .int (byteAt buffer index).toNat
    | .int8 => .int (signed 1 (LittleEndian.field buffer index 1))
    | .uint16 =>
        .int ((byteAt buffer (index + 1)).toNat * 2 ^ 8 + (byteAt buffer index).toNat)
    | .int16 => .int (signed 2 (LittleEndian.field buffer index 2))
    | .float => .float (UInt64.ofNat (Ieee754.widen (LittleEndian.field buffer index 4)))
    | .double => .float (UInt64.ofNat (LittleEndian.field buffer index 8))
    | .int32 | .uint32 => .int32 (UInt32.ofNat (LittleEndian.field buffer index 4)).toInt32

/-- `value_of_bin`: the value and its length. The number of elements is read with
`int8_of_bytes`, and `Array.init` refuses a negative one. -/
def valueOfBin (buffer : List UInt8) (index : Nat) : FieldType → Except PprzError (Value × Nat)
  | .scalar t => do
      let v ← scalarOfBin buffer index t
      .ok (.scalar v, t.sizeof)
  | .array t => do
      if buffer.length < index + 1 then .error (.invalidArgument "index out of bounds")
      let n := signed 1 (LittleEndian.field buffer index 1)
      if n < 0 then .error (.invalidArgument "Array.init")
      let vs ← (List.range n.toNat).mapM fun i =>
        scalarOfBin buffer (index + 1 + i * t.sizeof) t
      .ok (.array vs, 1 + n.toNat * t.sizeof)

def hexDigit (n : Nat) : Char := "0123456789abcdef".toList.getD n '0'

def xprint (s : List UInt8) : String :=
  String.ofList (s.flatMap fun b => [hexDigit (b.toNat / 16), hexDigit (b.toNat % 16), ' '])

/-- The `loop` of `values_of_payload`. -/
def valuesOfFields (buffer : List UInt8) (messageName : String) (index : Nat) :
    List Field → Except PprzError Values
  | [] =>
      if index = buffer.length then .ok []
      else .error (.failure
        s!"Pprz.values_of_payload, too many bytes in message {messageName}: {xprint buffer}")
  | f :: fs => do
      let (value, n) ← valueOfBin buffer index f.type
      let rest ← valuesOfFields buffer messageName (index + n) fs
      .ok ((f.name, value) :: rest)

/-- The body of `values_of_payload` inside its `try`. -/
def readPayload (messages : MessageTable) (buffer : List UInt8) :
    Except PprzError (UInt8 × UInt8 × Values) :=
  match buffer with
  | acId :: id :: _ => do
      let message ← messageOfId messages id
      let values ← valuesOfFields buffer message.name 2 message.fields
      .ok (id, acId, values)
  | _ => .error (.invalidArgument "index out of bounds")

def valuesOfPayload (messages : MessageTable) (buffer : List UInt8) :
    Except PprzError (UInt8 × UInt8 × Values) :=
  match readPayload messages buffer with
  | .error (.invalidArgument "index out of bounds") =>
      .error (.failure s!"Pprz.values_of_payload, wrong argument: {xprint buffer}")
  | r => r

end Ground

section Downlink

/-- The C object of a field, by its bit pattern: a variable, or `nb_x` elements of
an array. -/
inductive CObject where
  | scalar (x : Nat)
  | array (xs : List Nat)
  deriving DecidableEq, Repr

/-- The number of elements, of which a scalar has none. -/
def CObject.count : CObject → Nat
  | scalar _ => 0
  | array xs => xs.length

/-- The bytes of an object of type `t` in memory. -/
def memory (t : ScalarType) (x : Nat) : List UInt8 := LittleEndian.toBytes t.sizeof x

def put1ByteByAddr (mem : List UInt8) : List UInt8 := mem.take 1

def put2ByteByAddr (mem : List UInt8) : List UInt8 :=
  put1ByteByAddr mem ++ put1ByteByAddr (mem.drop 1)

def put4ByteByAddr (mem : List UInt8) : List UInt8 :=
  put2ByteByAddr mem ++ put2ByteByAddr (mem.drop 2)

def putDoubleByAddr (mem : List UInt8) : List UInt8 :=
  put4ByteByAddr mem ++ put4ByteByAddr (mem.drop 4)

/-- `PprzTransportPut<Type>ByAddr`. -/
def putByAddr : ScalarType → List UInt8 → List UInt8
  | .int8 | .uint8 => put1ByteByAddr
  | .int16 | .uint16 => put2ByteByAddr
  | .int32 | .uint32 | .float => put4ByteByAddr
  | .double => putDoubleByAddr

/-- `PprzTransportPut<Type>Array`; there is no `PprzTransportPutInt8Array`. -/
def putArray (t : ScalarType) (xs : List Nat) : Option (List UInt8) :=
  match t with
  | .int8 => none
  | t => some (UInt8.ofNat xs.length :: xs.flatMap fun x => putByAddr t (memory t x))

/-- The `Put` that `print_field` prints for a field; `none` where the macro does
not compile. -/
def putField : FieldType → CObject → Option (List UInt8)
  | .scalar t, .scalar x => some (putByAddr t (memory t x))
  | .array t, .array xs => putArray t xs
  | _, _ => none

/-- The payload emitted by `DOWNLINK_SEND_<msg>` when the device has free
space. -/
def downlinkSend (acId id : UInt8) (args : List (Field × CObject)) : Option (List UInt8) := do
  let puts ← args.mapM fun a => putField a.1.type a.2
  some (acId :: id :: puts.flatten)

end Downlink

section Getters

/-- `DL_<msg>_<field>`: the expression at an offset of the payload, or the pointer
to the elements with `DL_<msg>_<field>_length`. -/
inductive GetMacro where
  | scalar (offset : Nat) (t : ScalarType)
  | array (lengthOffset offset : Nat) (t : ScalarType)
  deriving DecidableEq, Repr

/-- The alignment test of `print_get_macros` on a field. -/
def alignmentCheck (checkAlignment : Bool) (messageName fieldName : String) (o : Nat)
    (t : ScalarType) : Except String Unit :=
  if checkAlignment ∧ o % min t.sizeof 4 ≠ 0 then
    .error s!"Wrong alignment of field '{fieldName}' in message '{messageName}"
  else .ok ()

/-- `print_get_macros` from an offset on; after an array there is none. -/
def printGetMacros (checkAlignment : Bool) (messageName : String) :
    Option Nat → List Field → Except String (List (String × GetMacro))
  | _, [] => .ok []
  | none, _ :: _ => .error "FIXME: No field allowed after an array field (print_get_macros)"
  | some offset, ⟨fieldName, .scalar t⟩ :: fields => do
      alignmentCheck checkAlignment messageName fieldName offset t
      let macros ← printGetMacros checkAlignment messageName (some (offset + t.sizeof)) fields
      .ok ((fieldName, .scalar offset t) :: macros)
  | some offset, ⟨fieldName, .array t⟩ :: fields => do
      alignmentCheck checkAlignment messageName fieldName offset .uint8
      alignmentCheck checkAlignment messageName fieldName (offset + 1) t
      let macros ← printGetMacros checkAlignment messageName none fields
      .ok ((fieldName, .array offset (offset + 1) t) :: macros)

/-- The or of the shifted bytes that the getters compute. -/
def typed (payload : List UInt8) (o : Nat) (t : ScalarType) : Nat :=
  (List.range t.sizeof).foldl (fun s i => s ||| (byteAt payload (o + i)).toNat <<< (8 * i)) 0

/-- The object a getter yields. -/
def GetMacro.read (payload : List UInt8) : GetMacro → CObject
  | .scalar offset t => .scalar (typed payload offset t)
  | .array lengthOffset offset t =>
      .array ((List.range (typed payload lengthOffset .uint8)).map fun i =>
        LittleEndian.field payload (offset + i * t.sizeof) t.sizeof)

end Getters

section Meaning

/-- A number, however it is represented; a floating one by the bits of the
double. -/
inductive Number where
  | int (x : Int)
  | real (d : UInt64)
  deriving DecidableEq, Repr

inductive Reading where
  | scalar (x : Number)
  | array (xs : List Number)
  deriving DecidableEq, Repr

def Scalar.number : Scalar → Number
  | .int x => .int x
  | .int32 x => .int x.toInt
  | .float d => .real d

def Value.reading : Value → Reading
  | .scalar v => .scalar v.number
  | .array vs => .array (vs.map Scalar.number)

/-- The number of a C object with the given bits. -/
def ScalarType.number : ScalarType → Nat → Number
  | .uint8, x | .uint16, x | .uint32, x => .int x
  | .int8, x => .int (signed 1 x)
  | .int16, x => .int (signed 2 x)
  | .int32, x => .int (signed 4 x)
  | .float, x => .real (UInt64.ofNat (Ieee754.widen x))
  | .double, x => .real (UInt64.ofNat x)

def CObject.reading (t : ScalarType) : CObject → Reading
  | scalar x => .scalar (t.number x)
  | array xs => .array (xs.map t.number)

def GetMacro.element : GetMacro → ScalarType
  | scalar _ t | array _ _ t => t

def GetMacro.reading (payload : List UInt8) (g : GetMacro) : Reading :=
  (g.read payload).reading g.element

end Meaning

end Paparazzi.Messages.Codec
