import RecordQuery.Error
import RecordQuery.Value.Basic
import RecordQuery.Calendar.Offset

/-!
# Scalar types

A `Scalar` names a type a column can be read as; `Scalar.Carrier` is that type. `Scalar.ofValue`
reads a column value and `Scalar.toValue` gives the value to store. A null column reads as the
zero of the type; `FieldType.optional` adds a value for it instead. Only the reading of an offset
computes with what it reads, and may overflow.
-/

namespace RecordQuery

open Number Calendar

/-- A closed set of variants, each stored as a code. -/
structure Enumeration where
  name : String
  /-- The variant a null column reads as. -/
  first : String × Value
  others : List (String × Value) := []
  deriving DecidableEq, Repr

namespace Enumeration

def variants (e : Enumeration) : List (String × Value) := e.first :: e.others

/-- The codes in the order of the variants. -/
def codes (e : Enumeration) : List Value := e.variants.map (·.2)

abbrev Index (e : Enumeration) := Fin e.variants.length

def zero (e : Enumeration) : e.Index := ⟨0, by simp [variants]⟩

def code (e : Enumeration) (i : e.Index) : Value := e.variants[i].2

end Enumeration

/-- A column value stands for a code: the same text, or the same integer in any spelling. -/
def Value.matchesCode (v code : Value) : Bool :=
  match code with
  | .text s => v.text? == some s
  | c => c.long?.isSome && v.long? == c.long?

inductive Scalar where
  | bool | int | long | single | double | text | bytes | timestamp | uuid | offset
  /-- Any value as it is. -/
  | any
  | choice (e : Enumeration)
  deriving DecidableEq, Repr

namespace Scalar

abbrev Carrier : Scalar → Type
  | bool => Bool
  | int => Int32
  | long => Int64
  | single => Single
  | double => Double
  | text => String
  | bytes => List UInt8
  | timestamp => Timestamp
  | uuid => Uuid
  | offset => Offset
  | any => Value
  | choice e => e.Index

def zero : (t : Scalar) → t.Carrier
  | bool => false
  | int => (0 : Int32)
  | long => (0 : Int64)
  | single => (⟨0⟩ : Single)
  | double => (⟨0⟩ : Double)
  | text => ""
  | bytes => []
  | timestamp => Timestamp.epoch
  | uuid => Uuid.nil
  | offset => Offset.utc
  | any => Value.null
  | choice e => e.zero

def toValue : (t : Scalar) → t.Carrier → Value
  | bool, b => .bool b
  | int, n => .int n
  | long, n => .long n
  | single, x => .single x
  | double, x => .double x
  | text, s => .text s
  | bytes, b => .bytes b
  | timestamp, t => .timestamp t
  | uuid, u => .uuid u
  | offset, o => .text o.text
  | any, v => v
  | choice e, i => e.code i

/-- A reading, or the mismatch between the type and the value. -/
def expect (expected : String) (v : Value) (read : Option α) : Except Error α :=
  match read with
  | some a => .ok a
  | none => .error (.typeMismatch expected v.typeName)

def textOfValue : Value → Except Error String
  | .text s => .ok s
  | .bytes b => expect "string" (.bytes b) (String.fromUTF8? ⟨b.toArray⟩)
  | v => .ok v.display

def offsetOfValue : Value → Except Stop Offset
  | .text s => do
    match ← checked (Offset.read? s) with
    | some o => return o
    | none => throw (.error (.typeMismatch "+HH:MM offset" s))
  | v => .error (.error (.typeMismatch "offset" v.typeName))

/-- The first variant whose code the value stands for. -/
def choiceOfValue (e : Enumeration) (v : Value) : Except Error e.Index :=
  match (List.finRange e.variants.length).find? fun i => v.matchesCode (e.code i) with
  | some i => .ok i
  | none => .error (.mapping ("no " ++ e.name ++ " variant for code " ++ v.display))

/-- The reading of a column value that is not null. -/
def ofPresent : (t : Scalar) → Value → Except Stop t.Carrier
  | bool, v => reported (expect "bool" v v.bool?)
  | int, v => reported (expect "i32" v v.int?)
  | long, v => reported (expect "i64" v v.long?)
  | single, v => reported (expect "f32" v v.single?)
  | double, v => reported (expect "f64" v v.double?)
  | text, v => reported (textOfValue v)
  | bytes, v => reported (expect "bytes" v v.bytes?)
  | timestamp, v => reported (expect "timestamp" v v.timestamp?)
  | uuid, v => reported (expect "uuid" v v.uuid?)
  | offset, v => offsetOfValue v
  | any, v => .ok v
  | choice e, v => reported (choiceOfValue e v)

def ofValue (t : Scalar) (v : Value) : Except Stop t.Carrier :=
  if v.isNull then .ok t.zero else t.ofPresent v

/-- The name of a type in messages about rows. -/
def typeName : Scalar → String
  | bool => "bool"
  | int => "i32"
  | long => "i64"
  | single => "f32"
  | double => "f64"
  | text => "alloc::string::String"
  | bytes => "alloc::vec::Vec<u8>"
  | timestamp => "chrono::naive::datetime::NaiveDateTime"
  | uuid => "uuid::Uuid"
  | offset => "chrono::offset::fixed::FixedOffset"
  | any => "value"
  | choice e => e.name

end Scalar

/-- The type of a field: a scalar, or a scalar that may be absent. -/
inductive FieldType where
  | required (t : Scalar)
  | optional (t : Scalar)
  deriving DecidableEq, Repr

namespace FieldType

abbrev Carrier : FieldType → Type
  | required t => t.Carrier
  | optional t => Option t.Carrier

def zero : (t : FieldType) → t.Carrier
  | required t => t.zero
  | optional t => (none : Option t.Carrier)

/-- An absent value is stored as null. -/
def toValue : (t : FieldType) → t.Carrier → Value
  | required t, x => t.toValue x
  | optional t, some x => t.toValue x
  | optional _, none => .null

def ofValue : (t : FieldType) → Value → Except Stop t.Carrier
  | required t, v => t.ofValue v
  | optional t, v => if v.isNull then .ok none else (t.ofValue v).map some

/-- Null is a value of the type and not the lack of one. -/
def permitsAbsence : FieldType → Bool
  | required .any => true
  | required _ => false
  | optional _ => true

def typeName : FieldType → String
  | required t => t.typeName
  | optional t => t.typeName

/-- What is stored after a column value has been read. -/
def normalize (t : FieldType) (v : Value) : Except Stop Value := (t.ofValue v).map t.toValue

def zeroValue (t : FieldType) : Value := t.toValue t.zero

end FieldType

/-! ## Values of narrower integers -/

namespace Value

def ofInt16 (n : Int16) : Value := int n.toInt32

def ofUInt8 (n : UInt8) : Value := int (Int32.ofNat n.toNat)

def ofUInt32 (n : UInt32) : Value := long (Int64.ofNat n.toNat)

/-- An absent value is null. -/
def ofOption (f : α → Value) : Option α → Value
  | some a => f a
  | none => null

end Value

end RecordQuery
