import RecordQuery.Compile.Select
import RecordQuery.Engine.Executor
import RecordQuery.Outcome
import RecordQuery.Write.Insert
import RecordQuery.Write.Update

/-!
# The engine

An `Engine` compiles queries and writes for the dialect of its executor, runs them and reads the
rows that come back. How a row is read is a parameter, `FieldType.ofRow` and `Record.ofRow` among
others. What reads rows or adds numbers up may stop with an overflow, all else fails with errors
only.
-/

namespace RecordQuery

open Number

abbrev RowReader (α : Type) := Row → Except Stop α

/-- Every row read, or the failure of the first that does not fit. -/
def readRows (read : RowReader α) (rows : List Row) : Except Stop (List α) := rows.mapM read

def readFirst (read : RowReader α) (rows : List Row) : Except Stop (Option α) :=
  match rows.head? with
  | none => .ok none
  | some row => (read row).map some

/-- The first row read as the result of a statement that returns a single value. -/
def readScalar (read : RowReader α) (rows : List Row) : Except Stop α :=
  match rows.head? with
  | none => .error (.error (.mapping "scalar statement returned no rows"))
  | some row => read row

/-- A number of rows is not negative. -/
def rowCount (n : Int64) : Except Error UInt64 :=
  if n < 0 then .error (.mapping ("negative row count " ++ Number.intText n.toInt))
  else .ok n.toUInt64

def readLong : RowReader Int64 := FieldType.ofRow (.required .long)

def readBool : RowReader Bool := FieldType.ofRow (.required .bool)

/-- The key field of an entity that has exactly one. -/
def singleKey (r : Registry) (shape : ShapeId) : Except Error String := do
  let m ← r.get shape
  match m.keys with
  | [field] => return field
  | [] => throw (.configuration (shape.name ++ " declares no key"))
  | _ => throw (.configuration (shape.name ++ " has a composite key; query it with a filter"))

structure Engine (σ : Type) where
  executor : Executor σ
  registry : Registry

namespace Engine

variable {σ : Type}

def compile (e : Engine σ) (t : Query.Terminal) (q : Query) : Action Error σ Statement :=
  .ofExcept (q.statement e.registry e.executor.dialect t)

/-- The rows of a statement, read all together. -/
def ask (e : Engine σ) (s : Statement) (read : List Row → Except Stop α) : Action Stop σ α := do
  let rows ← e.executor.query s
  .ofExcept (read rows)

/-- The rows of a query compiled for a purpose, read all together. -/
def run (e : Engine σ) (t : Query.Terminal) (q : Query) (read : List Row → Except Stop α) :
    Action Stop σ α := do
  let s ← e.compile t q
  e.ask s read

/-! ## Reading -/

def toList (e : Engine σ) (q : Query) (read : RowReader α) : Action Stop σ (List α) :=
  e.run .rows q (readRows read)

/-- The rows as they are fetched, each of which may fail or not fit. -/
def stream (e : Engine σ) (q : Query) (read : RowReader α) :
    Action Error σ (List (Except Stop α)) := do
  let s ← e.compile .rows q
  let rows ← (e.executor.stream s : StateM σ _)
  return rows.map fun row => (reported row).bind read

/-- The first row of a query, if it has any. -/
def first (e : Engine σ) (q : Query) (read : RowReader α) : Action Overflow σ (Lookup α) := do
  return .ofResult (← (e.run .rows (q.take 1) (readFirst read)).attempt)

/-- The record of an entity stored under a key. -/
def find (e : Engine σ) (s : Shape) (key : Value) : Action Overflow σ (Lookup Record) :=
  match singleKey e.registry s.id with
  | .error err => return .ofError err
  | .ok field =>
    e.first ((Query.ofShape s).filter (.compare .equal (.named field) (.constant key)))
      (Record.ofRow s)

/-- The number of rows a query returns. -/
def count (e : Engine σ) (q : Query) : Action Stop σ UInt64 :=
  e.run .count q fun rows => do reported (rowCount (← readScalar readLong rows))

/-- The number of rows the pages of a query are taken from. -/
def totalCount (e : Engine σ) (q : Query) : Action Stop σ UInt64 :=
  e.run .totalCount q fun rows => do reported (rowCount (← readScalar readLong rows))

/-- The query returns some row. -/
def any (e : Engine σ) (q : Query) : Action Stop σ Bool := e.run .exists q (readScalar readBool)

/-- An aggregate of a selector over the rows of a query. -/
def aggregate (e : Engine σ) (f : AggregateFunction) (q : Query) (selector : Expr)
    (read : RowReader α) : Action Stop σ α :=
  e.run (.aggregate f selector) q (readScalar read)

/-- A page of a query together with the number of rows in all pages. -/
def toPaged (e : Engine σ) (q : Query) (read : RowReader α) : Action Stop σ (Paged α) := do
  let window ← Action.ofExcept q.window
  let total ← e.totalCount q
  let items ← e.toList q read
  let (page, size) ← Action.ofExcept (pageFigures window items.length)
  return ⟨items, total, page, size⟩

def search (e : Engine σ) (s : Shape) (r : SearchRequest) : Action Stop σ (Paged Record) :=
  e.toPaged (Query.search s r) (Record.ofRow s)

/-! ## Writing -/

def execute (e : Engine σ) (s : Statement) : Action Error σ UInt64 := e.executor.execute s

/-- The rows of a statement given as text. -/
def query (e : Engine σ) (s : Statement) (read : RowReader α) : Action Stop σ (List α) :=
  e.ask s (readRows read)

/-- The plan that inserts records of a shape. -/
def insertPlan (r : Registry) (shape : ShapeId) (records : List Record) :
    Except Error Write.InsertPlan := do
  let p ← Write.InsertPlan.ofShape r shape
  records.foldlM (fun p record => p.addRecord record) p

def insertStatement (e : Engine σ) (record : Record) (returnKey : Bool) :
    Except Error Statement := do
  let p ← insertPlan e.registry record.shape [record]
  { p with returnKey }.build e.executor.dialect

def insert (e : Engine σ) (record : Record) : Action Error σ UInt64 := do
  let s ← Action.ofExcept (e.insertStatement record false)
  e.execute s

/-- Inserts a record and reads the key the storage gave it. -/
def insertReturningKey (e : Engine σ) (record : Record) (read : RowReader α) :
    Action Stop σ α := do
  let s ← Action.ofExcept (e.insertStatement record true)
  e.ask s (readScalar read)

/-- Runs statements in order and adds up the rows they were about. -/
def executeAll (e : Engine σ) : UInt64 → List Statement → Action Stop σ UInt64
  | total, [] => return total
  | total, s :: rest => do
    let n ← e.execute s
    let sum ← Action.ofExcept (checkedUInt64 (total.toNat + n.toNat))
    executeAll e sum rest

/-- Inserts records in as few statements as the dialect allows. -/
def insertMany (e : Engine σ) (shape : ShapeId) (records : List Record) :
    Action Stop σ UInt64 :=
  if records.isEmpty then return 0
  else do
    let p ← Action.ofExcept (insertPlan e.registry shape records)
    let statements ← Action.ofExcept (p.batches e.executor.dialect)
    e.executeAll 0 statements

/-- Writes every column of a record that is not part of the key to the row with its key. -/
def update (e : Engine σ) (record : Record) : Action Error σ UInt64 := do
  let s ← Action.ofExcept do
    let p ← Write.UpdatePlan.ofShape e.registry record.shape
    (← p.setRecord record).build
  e.execute s

/-- Sets columns in every row that meets a predicate. -/
def updateWhere (e : Engine σ) (shape : ShapeId) (predicate : Expr)
    (assignments : List (String × Value)) : Action Error σ UInt64 := do
  let s ← Action.ofExcept do
    let p ← Write.UpdatePlan.ofShape e.registry shape
    let p ← assignments.foldlM (fun p (name, v) => p.set name v) p
    (p.filter predicate).build
  e.execute s

/-- Deletes the row with the key of a record. -/
def delete (e : Engine σ) (record : Record) : Action Error σ UInt64 := do
  let s ← Action.ofExcept do
    let p ← Write.DeletePlan.ofShape e.registry record.shape
    (← p.matchRecord record).build
  e.execute s

def deleteWhere (e : Engine σ) (shape : ShapeId) (predicate : Expr) :
    Action Error σ UInt64 := do
  let s ← Action.ofExcept do
    let p ← Write.DeletePlan.ofShape e.registry shape
    (p.filter predicate).build
  e.execute s

end Engine

/-! ## Transactions -/

/-- Children linked to a key, one after the other. What links them may keep a state. -/
def linkAll {τ : Type} (link : Record → Value → StateM τ Record) (initial : τ)
    (children : List Record) (key : Value) : List Record :=
  ((children.mapM fun child => link child key).run initial).1

/-- Inserts a parent, reads its key, and inserts the children linked to it. -/
def Engine.insertFamily {σ : Type} (e : Engine σ) (parent : Record) (childShape : ShapeId)
    (linked : Value → List Record) : Action Stop σ Value := do
  let key ← e.insertReturningKey parent (FieldType.ofRow (.required .any))
  let _ ← e.insertMany childShape (linked key)
  return key

/-- Inserts a parent and its children in one transaction, which is rolled back if anything fails.
A failure to roll back is not reported. -/
def TransactionalExecutor.insertWithChildren {σ τ : Type} (x : TransactionalExecutor σ)
    (r : Registry) (parent : Record) (childShape : ShapeId) (children : List Record)
    (link : Record → Value → StateM τ Record) (initial : τ) : Action Stop σ Value := do
  x.start
  let e : Engine σ := ⟨x.inside, r⟩
  match ← (e.insertFamily parent childShape (linkAll link initial children)).attempt with
  | .ok key =>
    x.commit
    return key
  | .error err =>
    let _ ← x.rollback.result
    throw (.error err)

end RecordQuery
