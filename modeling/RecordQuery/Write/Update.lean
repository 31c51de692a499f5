import RecordQuery.Sql.Command
import RecordQuery.Write.Target

/-!
# Updates and deletes

An `UpdatePlan` collects column values to set and criteria for the rows to set them in, a
`DeletePlan` criteria for the rows to delete.
-/

namespace RecordQuery.Write

structure UpdatePlan where
  target : Target
  assignments : List (Mapping × Value) := []
  criteria : List Criterion := []
  deriving DecidableEq, Repr

namespace UpdatePlan

open Lowering

def ofShape (r : Registry) (shape : ShapeId) : Except Error UpdatePlan :=
  (Target.ofShape r shape).map fun t => { target := t }

def set (p : UpdatePlan) (name : String) (v : Value) : Except Error UpdatePlan :=
  (p.target.writable name).map fun c => { p with assignments := p.assignments ++ [(c, v)] }

def whereEqual (p : UpdatePlan) (name : String) (v : Value) : Except Error UpdatePlan :=
  (p.target.mapping name).map fun c => { p with criteria := p.criteria ++ [.equals c.column v] }

def filter (p : UpdatePlan) (e : Expr) : UpdatePlan :=
  { p with criteria := p.criteria ++ [.predicate e] }

/-- The plan that writes every column of a record that is not part of the key to the row with its
key. -/
def setRecord (p : UpdatePlan) (record : Record) : Except Error UpdatePlan := do
  let m := p.target.metadata
  if m.keys.isEmpty then throw (noKey p.target)
  let columns := m.writable.filter fun c => !m.isKey c.field
  let keys ← p.target.keyMappings
  let values ← rowOf record columns
  let criteria ← keyCriteria keys record
  return { p with
    assignments := p.assignments ++ columns.zip values
    criteria := p.criteria ++ criteria }

def command (p : UpdatePlan) : Lowering Sql.Update :=
  if p.assignments.isEmpty then fail (.configuration "update sets no columns")
  else do
    let assignments ← p.assignments.mapM fun (c, v) => return (c.column, ← push v)
    let filters ← conditions p.target p.criteria
    return { table := p.target.table, assignments, filters }

def build (p : UpdatePlan) : Except Error Statement := p.command.statement (·.pieces)

/-- The operations that collect an update. -/
inductive Step where
  | set (name : String) (v : Value)
  | whereEqual (name : String) (v : Value)
  | filter (e : Expr)
  | setRecord (record : Record)
  deriving DecidableEq, Repr

def apply (p : UpdatePlan) : Step → Except Error UpdatePlan
  | .set name v => p.set name v
  | .whereEqual name v => p.whereEqual name v
  | .filter e => .ok (p.filter e)
  | .setRecord record => p.setRecord record

/-- The plan after several operations, or the first failure of one. -/
def applyAll (p : UpdatePlan) (steps : List Step) : Except Error UpdatePlan := steps.foldlM apply p

end UpdatePlan

structure DeletePlan where
  target : Target
  criteria : List Criterion := []
  deriving DecidableEq, Repr

namespace DeletePlan

def ofShape (r : Registry) (shape : ShapeId) : Except Error DeletePlan :=
  (Target.ofShape r shape).map fun t => { target := t }

def whereEqual (p : DeletePlan) (name : String) (v : Value) : Except Error DeletePlan :=
  (p.target.mapping name).map fun c => { p with criteria := p.criteria ++ [.equals c.column v] }

def filter (p : DeletePlan) (e : Expr) : DeletePlan :=
  { p with criteria := p.criteria ++ [.predicate e] }

/-- The plan for the row that has the key of a record. -/
def matchRecord (p : DeletePlan) (record : Record) : Except Error DeletePlan := do
  let keys ← p.target.keyMappings
  if keys.isEmpty then throw (noKey p.target)
  let criteria ← keyCriteria keys record
  return { p with criteria := p.criteria ++ criteria }

def command (p : DeletePlan) : Lowering Sql.Delete :=
  return ⟨p.target.table, ← conditions p.target p.criteria⟩

def build (p : DeletePlan) : Except Error Statement := p.command.statement (·.pieces)

/-- The operations that collect a delete. -/
inductive Step where
  | whereEqual (name : String) (v : Value)
  | filter (e : Expr)
  | matchRecord (record : Record)
  deriving DecidableEq, Repr

def apply (p : DeletePlan) : Step → Except Error DeletePlan
  | .whereEqual name v => p.whereEqual name v
  | .filter e => .ok (p.filter e)
  | .matchRecord record => p.matchRecord record

/-- The plan after several operations, or the first failure of one. -/
def applyAll (p : DeletePlan) (steps : List Step) : Except Error DeletePlan := steps.foldlM apply p

end DeletePlan

end RecordQuery.Write
