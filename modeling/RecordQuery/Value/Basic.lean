import RecordQuery.Number.Decimal
import RecordQuery.Number.Whole
import RecordQuery.Calendar.Layout
import RecordQuery.Uuid

/-!
# Values

A `Value` is what a statement parameter binds and what a column of a result row holds. The
readings `bool?` … `uuid?` give a value as one type when it can be read as that type without
loss; `display` is its text in messages.
-/

namespace RecordQuery

open Number Calendar

inductive Value where
  | null
  | bool (b : Bool)
  | int (n : Int32)
  | long (n : Int64)
  | single (x : Single)
  | double (x : Double)
  | text (s : String)
  | bytes (b : List UInt8)
  | timestamp (t : Timestamp)
  | uuid (u : Uuid)
  deriving DecidableEq, Repr

namespace Value

def isNull : Value → Bool
  | null => true
  | _ => false

/-- The name of a value's type in messages. -/
def typeName : Value → String
  | null => "null"
  | bool _ => "bool"
  | int _ => "int"
  | long _ => "long"
  | single _ => "float"
  | double _ => "double"
  | text _ => "string"
  | bytes _ => "bytes"
  | timestamp _ => "timestamp"
  | uuid _ => "uuid"

def display : Value → String
  | null => "null"
  | bool b => if b then "true" else "false"
  | int n => intText n.toInt
  | long n => intText n.toInt
  | single x => x.text
  | double x => x.text
  | text s => s
  | bytes b => "<" ++ natText b.length ++ " bytes>"
  | timestamp t => t.text
  | uuid u => u.text

/-! ## Readings -/

def bool? : Value → Option Bool
  | bool b => some b
  | int n => some (n != 0)
  | long n => some (n != 0)
  | text s =>
    let word := Text.lower s
    if word == "true" || word == "1" || word == "yes" then some true
    else if word == "false" || word == "0" || word == "no" then some false
    else none
  | _ => none

/-- A 32-bit integer: numbers equal to one, its text, and 0 or 1 for a truth value. -/
def int? : Value → Option Int32
  | int n => some n
  | long n => int32? n.toInt
  | single x => (Double.ofSingle x).whole?.bind fun n => int32? n.toInt
  | double x => x.whole?.bind fun n => int32? n.toInt
  | text s => (readInt? s.toList).bind int32?
  | bool b => some (if b then 1 else 0)
  | _ => none

def long? : Value → Option Int64
  | long n => some n
  | int n => some n.toInt64
  | single x => (Double.ofSingle x).whole?
  | double x => x.whole?
  | text s => (readInt? s.toList).bind int64?
  | bool b => some (if b then 1 else 0)
  | _ => none

/-- The nearest 32-bit number. -/
def single? : Value → Option Single
  | single x => some x
  | double x => some (Single.ofDouble x)
  | int n => some (Single.ofInt n.toInt)
  | long n => some (Single.ofInt n.toInt)
  | text s => Single.read? s
  | _ => none

/-- The nearest 64-bit number. -/
def double? : Value → Option Double
  | double x => some x
  | single x => some (Double.ofSingle x)
  | int n => some (Double.ofInt n.toInt)
  | long n => some (Double.ofInt n.toInt)
  | text s => Double.read? s
  | _ => none

def text? : Value → Option String
  | text s => some s
  | _ => none

/-- The octets of a byte sequence, or of a text in UTF-8. -/
def bytes? : Value → Option (List UInt8)
  | bytes b => some b
  | text s => some s.toUTF8.toList
  | _ => none

def timestamp? : Value → Option Timestamp
  | timestamp t => some t
  | text s => Timestamp.read? s
  | _ => none

def uuid? : Value → Option Uuid
  | uuid u => some u
  | text s => Uuid.read? s
  | bytes b => Uuid.ofOctets? b
  | _ => none

end Value

end RecordQuery
