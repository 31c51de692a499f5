import RecordQuery.Metadata
import RecordQuery.Query.Basic
import RecordQuery.Sql.Condition

/-!
# Scopes

A `Scope` holds the tables a statement names and says how many of them are visible at one point
of it: a join condition sees the base table and the joins up to its own, every other clause sees
all. `Scope.resolve` finds the column a field reference means.
-/

namespace RecordQuery

/-- A table with the metadata of the shape stored in it. -/
structure ScopedTable where
  shape : ShapeId
  label : String
  metadata : Metadata
  deriving DecidableEq, Repr

structure Scope where
  tables : List ScopedTable
  visible : Nat
  deriving DecidableEq, Repr

namespace Scope

/-- The tables of several sources; no alias may be bound twice. -/
def tablesOf (r : Registry) : List ScopedTable → List Source → Except Error (List ScopedTable)
  | seen, [] => .ok seen
  | seen, s :: rest => do
    if seen.any (·.label == s.label) then
      throw (.configuration ("alias '" ++ s.label ++ "' is bound twice"))
    let m ← r.get s.shape
    tablesOf r (seen ++ [⟨s.shape, s.label, m⟩]) rest

def ofSources (r : Registry) (sources : List Source) : Except Error Scope := do
  let tables ← tablesOf r [] sources
  return ⟨tables, tables.length⟩

/-- The scope in which only the first tables are visible. -/
def limited (s : Scope) (count : Nat) : Scope := { s with visible := min count s.tables.length }

def visibleTables (s : Scope) : List ScopedTable := s.tables.take s.visible

def base (s : Scope) : Except Error ScopedTable :=
  match s.tables.head? with
  | some t => .ok t
  | none => .error (.configuration "query has no base table")

/-- The visible table a reference points at, the first if several do. -/
def tableFor (s : Scope) : TableRef → Except Error ScopedTable
  | .current =>
    match s.visibleTables.head? with
    | some t => .ok t
    | none => .error (.configuration "query has no base table")
  | .shape shape =>
    match s.visibleTables.find? (·.shape == shape) with
    | some t => .ok t
    | none => .error (.unknownAlias shape.name)
  | .aliased name =>
    match s.visibleTables.find? (·.label == name) with
    | some t => .ok t
    | none => .error (.unknownAlias name)

def resolve (s : Scope) (r : FieldRef) : Except Error Sql.Term := do
  let t ← s.tableFor r.table
  match t.metadata.columnFor? r.field with
  | some c => return .column t.label c.column
  | none => throw (.unknownField t.shape.name r.field)

end Scope

end RecordQuery
