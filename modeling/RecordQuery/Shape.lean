import RecordQuery.Row
import RecordQuery.Scalar
import RecordQuery.ShapeId

/-!
# Shapes and records

A `Shape` names a kind of record and its fields; a `Record` holds one value for every field.
`Record.ofRow` fills a record from the columns of a row that are named like its fields, and
`FieldType.ofRow` reads the first column of a row as one value.
-/

namespace RecordQuery

structure Field where
  name : String
  type : FieldType
  /-- The value the field has in a new record. -/
  initial : Value := type.zeroValue
  deriving DecidableEq, Repr

structure Shape where
  id : ShapeId
  fields : List Field
  deriving DecidableEq, Repr

namespace Shape

def name (s : Shape) : String := s.id.name

def fieldNames (s : Shape) : List String := s.fields.map (·.name)

def hasField (s : Shape) (field : String) : Bool := s.fieldNames.contains field

end Shape

structure Record where
  shape : ShapeId
  cells : List (Field × Value)
  deriving DecidableEq, Repr

namespace Record

def initial (s : Shape) : Record := ⟨s.id, s.fields.map fun f => (f, f.initial)⟩

/-- Field names and values in declaration order. -/
def toValues (r : Record) : List (String × Value) := r.cells.map fun (f, v) => (f.name, v)

def assignCells (field : String) (v : Value) :
    List (Field × Value) → Except Stop (List (Field × Value))
  | [] => .ok []
  | (f, old) :: rest =>
    if f.name = field then (f.type.normalize v).map fun new => (f, new) :: rest
    else (assignCells field v rest).map ((f, old) :: ·)

/-- The record with a field set from a column value; a name of no field changes nothing. -/
def assign (r : Record) (field : String) (v : Value) : Except Stop Record :=
  (assignCells field v r.cells).map fun cells => { r with cells }

/-- The fields assigned in order, up to the first that does not fit. -/
def assignAll (r : Record) (ps : List (String × Value)) : Except Stop Record :=
  ps.foldlM (fun r (field, v) => r.assign field v) r

/-- A new record with every column of a row assigned that names a field. -/
def ofRow (s : Shape) (row : Row) : Except Stop Record :=
  row.pairs.foldlM
    (fun r (column, v) =>
      (r.assign column v).mapError (Stop.mapError fun e =>
        .mapping (s.name ++ "." ++ column ++ ": " ++ e.message)))
    (initial s)

end Record

/-- The first column of a row as one value. Null fits only a type that permits absence. -/
def FieldType.ofRow (t : FieldType) (row : Row) : Except Stop t.Carrier :=
  match row.valueAt? 0 with
  | none => .error (.error (.mapping "row has no columns"))
  | some v =>
    if v.isNull && !t.permitsAbsence then
      .error (.error (.mapping ("null in column '" ++ row.columns.head?.getD ""
        ++ "' cannot map to " ++ t.typeName)))
    else t.ofValue v

end RecordQuery
