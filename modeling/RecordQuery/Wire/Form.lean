import RecordQuery.Outcome
import RecordQuery.Row
import RecordQuery.Sql.Piece
import RecordQuery.Wire.Name

/-!
# Wire forms

Values, rows, search requests, statements and outcomes as documents. A variant without content is
its name, one with content an object with the name as its only member. A structure is read from
an object, whose further members are ignored, or from a list of its parts in order.
-/

namespace RecordQuery

open Number Calendar

namespace Document

/-- The parts of a structure by their names. -/
def parts? (names : List String) : Document → Option (List (Option Document))
  | object ms => some (names.map (object ms).get?)
  | list ds =>
    if ds.length ≤ names.length then
      some (ds.map some ++ List.replicate (names.length - ds.length) none)
    else none
  | _ => none

/-- A part that has a default. -/
def partOr (default : α) (read : Document → Option α) : Option Document → Option α
  | none => some default
  | some d => read d

def listOf? (read : Document → Option α) (d : Document) : Option (List α) :=
  d.list?.bind (·.mapM read)

def uint64? (d : Document) : Option UInt64 :=
  d.whole?.bind fun n => if 0 ≤ n ∧ n < UInt64.size then some n.toNat.toUInt64 else none

def byte? (d : Document) : Option UInt8 :=
  d.whole?.bind fun n => if 0 ≤ n ∧ n < 256 then some n.toNat.toUInt8 else none

/-- Any number as the nearest one of 32 bits. -/
def single? : Document → Option Single
  | whole n => some (Single.ofInt n)
  | real x => some (Single.ofDouble x)
  | _ => none

def double? : Document → Option Double
  | whole n => some (Double.ofInt n)
  | real x => some x
  | _ => none

def ofUInt64 (n : UInt64) : Document := whole n.toNat

/-- A number that is not finite has no form but null. -/
def ofDouble (x : Double) : Document :=
  match x.datum with
  | .finite _ _ _ => real x
  | _ => null

end Document

namespace Value

def toDocument : Value → Document
  | null => .text "Null"
  | bool b => .object [("Bool", .bool b)]
  | int n => .object [("Int", .whole n.toInt)]
  | long n => .object [("Long", .whole n.toInt)]
  | single x => .object [("Float", .ofDouble (Double.ofSingle x))]
  | double x => .object [("Double", .ofDouble x)]
  | text s => .object [("String", .text s)]
  | bytes b => .object [("Bytes", .list (b.map fun o => .whole o.toNat))]
  | timestamp t => .object [("Timestamp", .text t.isoText)]
  | uuid u => .object [("Uuid", .text u.text)]

/-- The value of a variant with content. -/
def ofVariant? (name : String) (d : Document) : Option Value :=
  match name with
  | "Bool" => d.bool?.map bool
  | "Int" => (d.whole?.bind int32?).map int
  | "Long" => (d.whole?.bind int64?).map long
  | "Float" => d.single?.map single
  | "Double" => d.double?.map double
  | "String" => d.text?.map text
  | "Bytes" => (d.listOf? Document.byte?).map bytes
  | "Timestamp" => (d.text?.bind Timestamp.readIso?).map timestamp
  | "Uuid" => (d.text?.bind Uuid.read?).map uuid
  | _ => none

def ofDocument? (d : Document) : Option Value :=
  if d.variant? = some "Null" then some null
  else match d with
    | .object [(name, d)] => ofVariant? name d
    | _ => none

end Value

namespace Row

def toDocument (r : Row) : Document :=
  .object [("columns", .list (r.columns.map .text)),
    ("values", .list (r.values.map (·.toDocument)))]

def ofDocument? (d : Document) : Option Row :=
  match d.parts? ["columns", "values"] with
  | some [some columns, some values] => do
    return ⟨← columns.listOf? Document.text?, ← values.listOf? Value.ofDocument?⟩
  | _ => none

end Row

namespace Filter

def toDocument (f : Filter) : Document :=
  .object [("field", .text f.field), ("operator", .text f.operator.wireName),
    ("value", f.value.toDocument)]

/-- A filter without a value has null. -/
def ofDocument? (d : Document) : Option Filter :=
  match d.parts? ["field", "operator", "value"] with
  | some [some field, some operator, value] => do
    return ⟨← field.text?, ← FilterOperator.ofDocument? operator,
      ← Document.partOr .null Value.ofDocument? value⟩
  | _ => none

end Filter

namespace SortKey

def toDocument (k : SortKey) : Document :=
  .object [("field", .text k.field), ("direction", .text k.direction.wireName)]

/-- A sort key without a direction ascends. -/
def ofDocument? (d : Document) : Option SortKey :=
  match d.parts? ["field", "direction"] with
  | some [some field, direction] => do
    return ⟨← field.text?, ← Document.partOr .ascending Direction.ofDocument? direction⟩
  | _ => none

end SortKey

namespace SearchRequest

def toDocument (r : SearchRequest) : Document :=
  .object [("filters", .list (r.filters.map (·.toDocument))),
    ("sorts", .list (r.sorts.map (·.toDocument))),
    ("page", .ofUInt64 r.page), ("page_size", .ofUInt64 r.pageSize)]

/-- Every part has a default: no filters, no sort keys, the first page of 20 rows. -/
def ofDocument? (d : Document) : Option SearchRequest :=
  match d.parts? ["filters", "sorts", "page", "page_size"] with
  | some [filters, sorts, page, pageSize] => do
    return ⟨← Document.partOr [] (Document.listOf? Filter.ofDocument?) filters,
      ← Document.partOr [] (Document.listOf? SortKey.ofDocument?) sorts,
      ← Document.partOr 1 Document.uint64? page,
      ← Document.partOr 20 Document.uint64? pageSize⟩
  | _ => none

end SearchRequest

def Param.toDocument (p : Param) : Document :=
  .object [("name", .text p.name), ("value", p.value.toDocument)]

def Statement.toDocument (s : Statement) : Document :=
  .object [("sql", .text s.sql), ("params", .list (s.params.map (·.toDocument)))]

def WriteOutcome.toDocument : WriteOutcome → Document
  | success => .text "Success"
  | failure m => .object [("Failure", .text m)]

def Lookup.toDocument (item : α → Document) : Lookup α → Document
  | found a => .object [("Value", item a)]
  | missing => .text "NoValue"
  | failed m => .object [("ErrorValue", .text m)]

def Paged.toDocument (item : α → Document) (p : Paged α) : Document :=
  .object [("items", .list (p.items.map item)), ("total_count", .ofUInt64 p.totalCount),
    ("page", .ofUInt64 p.page), ("page_size", .ofUInt64 p.pageSize)]

end RecordQuery
