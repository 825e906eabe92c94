import Paparazzi.Library.IntText
import Paparazzi.Library.Fallible
import Paparazzi.Library.StrSplit
import Paparazzi.Messages.Codec

/-!
The texts of messages on the Ivy bus: `string_of_message` and `values_of_string`.
-/

namespace Paparazzi.Messages.IvyText

open Paparazzi.Library
open Paparazzi.Library.StrSplit
open Paparazzi.Messages.Codec (ScalarType)

abbrev Text := List Char

/-- `Pprz.types` -/
inductive ElementType where
  | number (t : ScalarType)
  | string
  deriving DecidableEq

inductive FieldType where
  | scalar (t : ElementType)
  | array (t : ElementType)
  deriving DecidableEq

structure Field where
  name : Text
  type : FieldType
  fformat : Text

structure Message where
  name : Text
  fields : List Field

/-- The scalar cases of `Pprz.value`. -/
inductive Scalar (F : Type) where
  | int (x : Int)
  | int32 (x : Int32)
  | float (x : F)
  | string (s : Text)

inductive Value (F : Type) where
  | scalar (v : Scalar F)
  | array (vs : List (Scalar F))

abbrev Values (F : Type) := List (Text × Value F)

/-- `[ \t]` -/
def isSpace (c : Char) : Bool := c == ' ' || c == '\t'

def separator : Char := ','

/-- The texts of floats: `sprintf` with a format, `string_of_float`, whose texts have no spaces
or commas, and `float_of_string`. -/
structure FloatText (F : Type) where
  sprintf : Text → F → Text
  toText : F → Text
  ofText : Text → Option F
  toText_ne_nil : ∀ x, toText x ≠ []
  toText_clean : ∀ x, ∀ c ∈ toText x, isSpace c = false ∧ c ≠ separator

/-! ### The table of messages -/

/-- The messages of a class with their ids, in the order of the table. -/
structure MessageTable where
  entries : List (Nat × Message)
  /-- `parse_class` fails on a duplicated id. -/
  nodup : (entries.map Prod.fst).Nodup

/-- `message_of_name`: of two messages with one name the last one is found. -/
def messageOfName (table : MessageTable) (name : Text) : Option (Nat × Message) :=
  table.entries.reverse.find? fun e => e.2.name = name

section

variable {F : Type} (ft : FloatText F)

/-! ### Printing -/

def stringOfScalar : Scalar F → Text
  | .int x => IntText.ofInt x
  | .int32 x => IntText.ofInt x.toInt
  | .float x => ft.toText x
  | .string s => s

def stringOfValue : Value F → Text
  | .scalar v => stringOfScalar ft v
  | .array vs => [separator].intercalate (vs.map (stringOfScalar ft))

def formattedStringOfValue (format : Text) : Value F → Text
  | .scalar (.float x) => ft.sprintf format x
  | v => stringOfValue ft v

/-- `default_value`; the float is `4.2`. -/
def defaultValue (float42 : F) : FieldType → Option (Value F)
  | .scalar (.number .float) | .scalar (.number .double) => some (.scalar (.float float42))
  | .scalar (.number _) => some (.scalar (.int 42))
  | .scalar .string => some (.scalar (.string ['4', '2']))
  | .array _ => none

/-- `string_of_message` with a space for `sep`; a failure is `none`. -/
def stringOfMessage (float42 : F) (msg : Message) (values : Values F) : Option Text :=
  if values.all fun v => msg.fields.any fun f => f.name = v.1 then
    (msg.fields.mapM fun f =>
      ((values.lookup f.name).or (defaultValue float42 f.type)).map
        (formattedStringOfValue ft f.fformat)).map fun texts =>
          [' '].intercalate (msg.name :: texts)
  else none

/-! ### Reading -/

def scalarOfText : ElementType → Text → Option (Scalar F)
  | .number .uint8, v | .number .uint16, v | .number .int8, v | .number .int16, v =>
      (IntText.toInt 63 v).map .int
  | .number .uint32, v | .number .int32, v =>
      (IntText.toInt 32 v).map fun x => .int32 (Int32.ofInt x)
  | .number .float, v | .number .double, v => (ft.ofText v).map .float
  | .string, v => some (.string v)

def value : FieldType → Text → Option (Value F)
  | .scalar t, v => (scalarOfText ft t v).map .scalar
  | .array t, v => ((split separator v).mapM (scalarOfText ft t)).map .array

/-- The `List.map2` of `values_of_string`; lists of different lengths are a failure. -/
def readFields : List Field → List Text → Option (Values F)
  | [], [] => some []
  | f :: fields, v :: args =>
      (value ft f.type v).bind fun x => (readFields fields args).map ((f.name, x) :: ·)
  | _, _ => none

def valuesOfString (table : MessageTable) (s : Text) : Option (Nat × Values F) :=
  match words isSpace s with
  | [] => none
  | msgName :: args =>
      (messageOfName table msgName).bind fun m =>
        (readFields ft m.2.fields args).map fun values => (m.1, values)

end

/-! ### Values that fit -/

section

variable {F : Type} (ft : FloatText F)

/-- The integers of a type that is printed as an OCaml `int`. -/
def InRange : ScalarType → Int → Prop
  | .uint8, x => 0 ≤ x ∧ x < 2 ^ 8
  | .int8, x => -2 ^ 7 ≤ x ∧ x < 2 ^ 7
  | .uint16, x => 0 ≤ x ∧ x < 2 ^ 16
  | .int16, x => -2 ^ 15 ≤ x ∧ x < 2 ^ 15
  | _, _ => False

def Is32Bit : ScalarType → Prop
  | .uint32 | .int32 => True
  | _ => False

def IsFloat : ScalarType → Prop
  | .float | .double => True
  | _ => False

/-- A float is exact if reading gives it back. -/
def ScalarFits (exact : F → Prop) : ElementType → Scalar F → Prop
  | .number t, .int x => InRange t x
  | .number t, .int32 _ => Is32Bit t
  | .number t, .float x => IsFloat t ∧ exact x
  | .string, .string _ => True
  | _, _ => False

/-- The text of a float in a field is one word, which is read as the float. -/
def PrintedExactly (format : Text) (x : F) : Prop :=
  ∃ w, words isSpace (ft.sprintf format x) = [w] ∧ ft.ofText w = some x

def ReadBack (x : F) : Prop := ft.ofText (ft.toText x) = some x

def Fits (f : Field) : Value F → Prop
  | .scalar v =>
      match f.type with
      | .scalar t => ScalarFits (PrintedExactly ft f.fformat) t v
      | .array _ => False
  | .array vs =>
      match f.type with
      | .scalar _ => False
      | .array t => ∀ v ∈ vs, ScalarFits (ReadBack ft) t v

/-- Every field has a value that fits, and there are no others. -/
structure Assigned (msg : Message) (values : Values F) : Prop where
  known : ∀ v ∈ values, ∃ f ∈ msg.fields, f.name = v.1
  fits : ∀ f ∈ msg.fields, ∃ v, values.lookup f.name = some v ∧ Fits ft f v

/-- The values of the fields, in their order. -/
def fieldValues (msg : Message) (values : Values F) : Values F :=
  msg.fields.filterMap fun f => (values.lookup f.name).map fun v => (f.name, v)

/-- What is read from the text of a message is the message. -/
def RoundTrip (table : MessageTable) (float42 : F) (id : Nat) (msg : Message) (values : Values F) :
    Prop :=
  (stringOfMessage ft float42 msg values).bind (valuesOfString ft table) =
    some (id, fieldValues msg values)

/-! ### The condition -/

def NoSpace (s : Text) : Prop := ∀ c ∈ s, isSpace c = false

/-- The texts of the strings in an array. -/
def IsStringWith (P : Text → Prop) : Scalar F → Prop
  | .string s => P s
  | _ => True

/-- A value that separators do not cut or swallow: a string is not empty and has no spaces; an
array is not empty, its strings have no spaces and commas, and the first and the last one are not
empty. -/
def Uncut : Value F → Prop
  | .scalar v => IsStringWith (fun s => s ≠ [] ∧ NoSpace s) v
  | .array vs =>
      vs ≠ [] ∧ (∀ v ∈ vs, IsStringWith (fun s => NoSpace s ∧ separator ∉ s) v) ∧
        (∀ v ∈ vs.head?, IsStringWith (· ≠ []) v) ∧ ∀ v ∈ vs.getLast?, IsStringWith (· ≠ []) v

def MessageUncut (msg : Message) (values : Values F) : Prop :=
  msg.name ≠ [] ∧ NoSpace msg.name ∧
    ∀ f ∈ msg.fields, ∀ v, values.lookup f.name = some v → Uncut v

end

end Paparazzi.Messages.IvyText
