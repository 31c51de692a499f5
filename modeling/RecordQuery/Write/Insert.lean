import RecordQuery.Sql.Command
import RecordQuery.Write.Target

/-!
# Inserts

An `InsertPlan` collects a column list and rows of values for one table. `build` puts all rows
into one statement, `batches` as many as fit into each of several.
-/

namespace RecordQuery.Write

structure InsertPlan where
  target : Target
  columns : List Mapping := []
  rows : List (List Value) := []
  returnKey : Bool := false
  deriving DecidableEq, Repr

/-- The most rows one statement may carry. -/
def maxRows : Nat := 1000

/-- Consecutive stretches of a positive length; the last may be shorter. -/
def chunks (size : Nat) : List α → List (List α)
  | [] => []
  | x :: xs => (x :: xs.take (size - 1)) :: chunks size (xs.drop (size - 1))
termination_by xs => xs.length
decreasing_by simp only [List.length_drop, List.length_cons]; omega

namespace InsertPlan

open Lowering

def ofShape (r : Registry) (shape : ShapeId) : Except Error InsertPlan :=
  (Target.ofShape r shape).map fun t => { target := t }

/-- The plan with a column list of fields or column names. -/
def setColumns (p : InsertPlan) (names : List String) : Except Error InsertPlan := do
  if !p.rows.isEmpty then
    throw (.configuration "columns must be set before any row is added")
  let columns ← names.mapM p.target.writable
  return { p with columns }

/-- The plan with one more row of values in column order. -/
def addRow (p : InsertPlan) (row : List Value) : Except Error InsertPlan :=
  if p.columns.isEmpty then .error (.configuration "insert has no columns")
  else if row.length ≠ p.columns.length then
    .error (.configuration ("insert row has " ++ Number.natText row.length ++ " values for "
      ++ Number.natText p.columns.length ++ " columns"))
  else .ok { p with rows := p.rows ++ [row] }

/-- The plan with the row of a record. Without a column list every writable column is in it. -/
def addRecord (p : InsertPlan) (record : Record) : Except Error InsertPlan := do
  let columns := if p.columns.isEmpty then p.target.metadata.writable else p.columns
  let row ← rowOf record columns
  { p with columns }.addRow row

/-- The plan that returns the key of every row. -/
def returningKey (p : InsertPlan) : InsertPlan := { p with returnKey := true }

/-- The key column to return, if the key is to be returned. -/
def returning (p : InsertPlan) : Except Error (Option String) :=
  if p.returnKey then
    match p.target.metadata.primaryKey? with
    | some c => .ok (some c.column)
    | none => .error (.configuration (p.target.shape.name ++ " has no key to return"))
  else .ok none

/-- The statement that carries some of the rows. -/
def command (p : InsertPlan) (rows : List (List Value)) : Lowering Sql.Insert :=
  if p.columns.isEmpty || rows.isEmpty then fail (.configuration "insert has no rows")
  else do
    let returning ← ofExcept p.returning
    let rows ← rows.mapM (·.mapM push)
    return { table := p.target.table, columns := p.columns.map (·.column), rows, returning }

def statement (p : InsertPlan) (d : Dialect) (rows : List (List Value)) :
    Except Error Statement :=
  (p.command rows).statement (·.pieces d)

/-- One statement with every row. -/
def build (p : InsertPlan) (d : Dialect) : Except Error Statement :=
  if d.maxParameters < p.rows.length * p.columns.length ∨ maxRows < p.rows.length then
    .error (.configuration ("insert of " ++ Number.natText p.rows.length ++ " rows exceeds one "
      ++ d.name ++ " statement; build it in batches"))
  else p.statement d p.rows

/-- The number of rows in a batch. -/
def batchSize (p : InsertPlan) (d : Dialect) : Nat :=
  max 1 (min (d.maxParameters / max p.columns.length 1) maxRows)

/-- Statements that carry the rows in order. -/
def batches (p : InsertPlan) (d : Dialect) : Except Error (List Statement) :=
  (chunks (p.batchSize d) p.rows).mapM (p.statement d)

/-- The operations that collect an insert. -/
inductive Step where
  | setColumns (names : List String)
  | addRow (row : List Value)
  | addRecord (record : Record)
  | returningKey
  deriving DecidableEq, Repr

def apply (p : InsertPlan) : Step → Except Error InsertPlan
  | .setColumns names => p.setColumns names
  | .addRow row => p.addRow row
  | .addRecord record => p.addRecord record
  | .returningKey => .ok p.returningKey

/-- The plan after several operations, or the first failure of one. -/
def applyAll (p : InsertPlan) (steps : List Step) : Except Error InsertPlan := steps.foldlM apply p

end InsertPlan

end RecordQuery.Write
