import RecordQuery.Compile.Lowering

/-!
# Write targets

A `Target` is the table a write statement is about. Its conditions are lowered like those of
a query, with the name of the table in place of an alias.
-/

namespace RecordQuery.Write

structure Target where
  shape : ShapeId
  metadata : Metadata
  deriving DecidableEq, Repr

namespace Target

def ofShape (r : Registry) (shape : ShapeId) : Except Error Target := (r.get shape).map (⟨shape, ·⟩)

def table (t : Target) : String := t.metadata.table

/-- The table alone, bound to its own name. -/
def scope (t : Target) : Scope := ⟨[⟨t.shape, t.table, t.metadata⟩], 1⟩

/-- The mapping of a field or column name. -/
def mapping (t : Target) (name : String) : Except Error Mapping :=
  match t.metadata.columnFor? name with
  | some c => .ok c
  | none => .error (.unknownField t.shape.name name)

/-- The mapping of a name whose column a write may set. -/
def writable (t : Target) (name : String) : Except Error Mapping := do
  let c ← t.mapping name
  if t.metadata.isComputed c.field then
    throw (.configuration (t.shape.name ++ "." ++ c.field
      ++ " is computed by the storage and cannot be written"))
  return c

def keyMappings (t : Target) : Except Error (List Mapping) := t.metadata.keys.mapM t.mapping

end Target

/-- The value of the first pair of a name, and the pairs with null in its place. -/
def takeValue? (name : String) :
    List (String × Value) → Option (Value × List (String × Value))
  | [] => none
  | (n, v) :: rest =>
    if n = name then some (v, (n, .null) :: rest)
    else (takeValue? name rest).map fun (w, rest) => (w, (n, v) :: rest)

/-- The values of a record for columns, each taken out of the record as it is used. -/
def takeRow (shape : String) :
    List (String × Value) → List Mapping → Except Error (List Value)
  | _, [] => .ok []
  | pairs, c :: rest =>
    match takeValue? c.field pairs with
    | none => .error (.unknownField shape c.field)
    | some (v, pairs) => (takeRow shape pairs rest).map (v :: ·)

def rowOf (record : Record) (columns : List Mapping) : Except Error (List Value) :=
  takeRow record.shape.name record.toValues columns

/-- A condition on the rows a statement is about. -/
inductive Criterion where
  /-- The column holds the value; it is null for a null value. -/
  | equals (column : String) (v : Value)
  | predicate (e : Expr)
  deriving DecidableEq, Repr

def Criterion.condition (t : Target) : Criterion → Lowering Sql.Condition
  | equals column .null => return .isNull (.column t.table column)
  | equals column v => do
    let slot ← Lowering.push v
    return .compare .equal (.column t.table column) (.parameter slot)
  | predicate e => e.toCondition t.scope

def conditions (t : Target) (cs : List Criterion) : Lowering (List Sql.Condition) :=
  cs.mapM (·.condition t)

/-- A criterion for every key column with the value the record has there. -/
def keyCriteria (keys : List Mapping) (record : Record) : Except Error (List Criterion) :=
  (rowOf record keys).map fun vs =>
    (keys.zip vs).map fun (c, v) => .equals c.column v

def noKey (t : Target) : Error := .configuration (t.shape.name ++ " has no key to match rows by")

end RecordQuery.Write
