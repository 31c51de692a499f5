import RecordQuery.Row
import RecordQuery.Sql.Piece

/-!
# Executors

An `Executor` runs statements against some storage of state `σ`, a `Connection` does so handing
over its rows one by one, and a `TransactionalExecutor` can also open a transaction. An `Action`
changes the state and may fail; what it did to the state before failing stays.
-/

namespace RecordQuery

open Number

/-- What changes a state and gives a result or fails with an `ε`: what storage is asked for fails
with an `Error`, and what is made of its answers with a `Stop`. -/
abbrev Action (ε σ : Type) := ExceptT ε (StateM σ)

namespace Action

/-- The result of an action as a value, without failing. -/
def result (a : Action ε σ α) : StateM σ (Except ε α) := a.run

/-- A failure or a value, without touching the state. -/
def ofExcept (r : Except ε α) : Action ε σ α := ExceptT.mk (pure r)

/-- The action with its failures said as others. -/
def mapFailure (say : ε → ε') (a : Action ε σ α) : Action ε' σ α :=
  ExceptT.mk do return (← a.result).mapError say

instance : MonadLift (Action Error σ) (Action Stop σ) := ⟨mapFailure .error⟩

instance : MonadLift (Action Overflow σ) (Action Stop σ) := ⟨mapFailure fun _ => .overflow⟩

/-- The result of an action as a value, if it is not an overflow, which is not caught. -/
def attempt (a : Action Stop σ α) : Action Overflow σ (Except Error α) := ExceptT.mk do
  match ← a.result with
  | .ok v => return .ok (.ok v)
  | .error (.error e) => return .ok (.error e)
  | .error .overflow => return .error ⟨⟩

end Action

structure Executor (σ : Type) where
  dialect : Dialect
  /-- Runs a statement for its effect and counts the rows it was about. -/
  execute : Statement → Action Error σ UInt64
  query : Statement → Action Error σ (List Row)
  /-- The rows as they are fetched, each of which may fail. -/
  stream : Statement → StateM σ (List (Except Error Row))

/-- The first column of the first row, if there is one. -/
def firstValue? (rows : List Row) : Option Value := rows.head?.bind (·.values.head?)

def Executor.queryScalar (x : Executor σ) (s : Statement) : Action Error σ (Option Value) := do
  return firstValue? (← x.query s)

structure TransactionalExecutor (σ : Type) extends Executor σ where
  start : Action Error σ Unit
  /-- Runs the statements of the open transaction. -/
  inside : Executor σ
  commit : Action Error σ Unit
  rollback : Action Error σ Unit

structure Connection (σ : Type) where
  dialect : Dialect
  execute : Statement → Action Error σ UInt64
  /-- The rows that were fetched, and the failure that came after them. -/
  read : Statement → StateM σ (List Row × Option Error)

namespace Connection

/-- Hands rows to `onRow` until it fails. -/
def feed (onRow : β → Row → Except Stop β) : β → List Row → β × Except Stop Unit
  | b, [] => (b, .ok ())
  | b, row :: rows =>
    match onRow b row with
    | .ok b => feed onRow b rows
    | .error e => (b, .error e)

/-- Hands every fetched row to `onRow`; its failure, or else that of the storage, ends the read. -/
def forEachRow (x : Connection σ) (s : Statement) (onRow : β → Row → Except Stop β) (b : β) :
    StateM σ (β × Except Stop Unit) := do
  let (rows, failure) ← x.read s
  match feed onRow b rows with
  | (b, .error e) => return (b, .error e)
  | (b, .ok ()) =>
    match failure with
    | some e => return (b, .error (.error e))
    | none => return (b, .ok ())

/-- All rows, if none of them failed. -/
def query (x : Connection σ) (s : Statement) : Action Error σ (List Row) := ExceptT.mk do
  match ← x.read s with
  | (_, some e) => return .error e
  | (rows, none) => return .ok rows

def queryScalar (x : Connection σ) (s : Statement) : Action Error σ (Option Value) := do
  return firstValue? (← x.query s)

end Connection

end RecordQuery
