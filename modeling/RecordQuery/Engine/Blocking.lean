import RecordQuery.Engine.Basic

/-!
# The blocking engine

The engine over a `Connection` its caller owns, whose rows can be taken one by one.
-/

namespace RecordQuery

open Number

structure BlockingEngine (σ : Type) where
  connection : Connection σ
  registry : Registry

namespace BlockingEngine

variable {σ : Type}

def compile (e : BlockingEngine σ) (t : Query.Terminal) (q : Query) : Action Error σ Statement :=
  .ofExcept (q.statement e.registry e.connection.dialect t)

def ask (e : BlockingEngine σ) (s : Statement) (read : List Row → Except Stop α) :
    Action Stop σ α := do
  let rows ← e.connection.query s
  .ofExcept (read rows)

def run (e : BlockingEngine σ) (t : Query.Terminal) (q : Query)
    (read : List Row → Except Stop α) : Action Stop σ α := do
  let s ← e.compile t q
  e.ask s read

def toList (e : BlockingEngine σ) (q : Query) (read : RowReader α) : Action Stop σ (List α) :=
  e.run .rows q (readRows read)

/-- Hands each row of a query to `onItem` as it is read; gives what `onItem` made of them and how
the read ended. -/
def forEach (e : BlockingEngine σ) (q : Query) (read : RowReader α)
    (onItem : β → α → Except Error β) (b : β) : StateM σ (β × Except Stop Unit) :=
  match q.statement e.registry e.connection.dialect .rows with
  | .error err => return (b, .error (.error err))
  | .ok s => e.connection.forEachRow s (fun b row => (read row).bind (reported ∘ onItem b)) b

def first (e : BlockingEngine σ) (q : Query) (read : RowReader α) :
    Action Overflow σ (Lookup α) := do
  return .ofResult (← (e.run .rows (q.take 1) (readFirst read)).attempt)

/-- The number of rows a query returns; any value that reads as an integer will do. -/
def count (e : BlockingEngine σ) (q : Query) : Action Error σ UInt64 := do
  let s ← e.compile .count q
  let v ← e.connection.queryScalar s
  match v.bind Value.long? with
  | some n => .ofExcept (rowCount n)
  | none => throw (.mapping "count returned no value")

def any (e : BlockingEngine σ) (q : Query) : Action Stop σ Bool :=
  e.run .exists q (readScalar readBool)

def execute (e : BlockingEngine σ) (s : Statement) : Action Error σ UInt64 :=
  e.connection.execute s

def insert (e : BlockingEngine σ) (record : Record) : Action Error σ UInt64 := do
  let s ← Action.ofExcept do
    let p ← Engine.insertPlan e.registry record.shape [record]
    p.build e.connection.dialect
  e.execute s

def query (e : BlockingEngine σ) (s : Statement) (read : RowReader α) :
    Action Stop σ (List α) :=
  e.ask s (readRows read)

end BlockingEngine

end RecordQuery
