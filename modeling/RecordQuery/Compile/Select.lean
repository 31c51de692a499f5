import RecordQuery.Compile.Lowering
import RecordQuery.Query.Build
import RecordQuery.Sql.Select

/-!
# Compilation of queries

`Query.toSelect` gives the SELECT of a query over the tables of a registry. `Query.retrieval` is
the statement of a `Terminal`, the purpose a query is compiled for, and `Query.statement` its
text and parameters in a dialect. Clauses are lowered in the order they are written in, which is
what lets the text read its parameters in the order they were bound in.
-/

namespace RecordQuery

namespace Query

open Lowering

/-- The items of a projection, none of them for a field that an item before it is for. -/
def projectedColumns (s : Scope) (shape : String) :
    List String → List ProjectionItem → Lowering (List Sql.OutputColumn)
  | _, [] => return []
  | seen, item :: rest =>
    if seen.contains item.field then
      fail (.unsupportedProjection (shape ++ "." ++ item.field ++ " projected twice"))
    else do
      let t ← item.expr.toSelector s
      let columns ← projectedColumns s shape (item.field :: seen) rest
      return ⟨t, item.field⟩ :: columns

def isGrouped (q : Query) : Bool := !q.group.isEmpty || !q.aggregates.isEmpty

/-- Group keys and aggregates under their aliases. -/
def groupedColumns (s : Scope) (q : Query) : Lowering (List Sql.OutputColumn) := do
  let keys ← q.group.mapM fun k => return ⟨← k.expr.toSelector s, k.label⟩
  let aggregates ← q.aggregates.mapM fun a => return ⟨← a.toExpr.toSelector s, a.label⟩
  return keys ++ aggregates

/-- Every column of a table under the name of its field. -/
def tableColumns (t : ScopedTable) : List Sql.OutputColumn :=
  t.metadata.columns.map fun c => ⟨.column t.label c.column, c.field⟩

/-- The select list: the projection, else group keys and aggregates, else the base table. -/
def outputs (s : Scope) (q : Query) : Lowering (List Sql.OutputColumn) :=
  match q.projection with
  | some p =>
    if p.items.isEmpty then fail (.unsupportedProjection (p.shape ++ " selects no fields"))
    else projectedColumns s p.shape [] p.items
  | none =>
    if q.isGrouped then groupedColumns s q
    else ofExcept (s.base.map tableColumns)

/-- The ON condition of a join that needs one. -/
def joinCondition (s : Scope) (j : Join) : Lowering (Option Sql.Condition) :=
  match j.kind, j.on with
  | .cross, _ => return none
  | _, some on => return some (← on.toCondition s)
  | kind, none => unsupported (kind.text ++ " on " ++ j.source.label ++ " has no condition")

/-- The join clauses; a condition sees the tables before it and its own. -/
def joinClauses (r : Registry) (s : Scope) : Nat → List Join → Lowering (List Sql.JoinClause)
  | _, [] => return []
  | i, j :: rest => do
    let m ← ofExcept (r.get j.source.shape)
    let on ← joinCondition (s.limited (i + 2)) j
    let clauses ← joinClauses r s (i + 1) rest
    return ⟨j.kind, m.table, j.source.label, on⟩ :: clauses

/-- The group keys, or the plain items of a projection that has an aggregate. -/
def groupExprs (q : Query) : List Expr :=
  if q.group.isEmpty then
    match q.projection with
    | some p =>
      let exprs := p.items.map (·.expr)
      if exprs.any (·.containsAggregate) then exprs.filter (!·.containsAggregate) else []
    | none => []
  else q.group.map (·.expr)

def sortedOrders (q : Query) : List Order := q.orders.mergeSort fun a b => a.priority ≤ b.priority

/-- The expressions that order a page of a query that has an aggregate or is distinct. -/
def figureOrder? (q : Query) : Option (List Expr) :=
  if q.groupExprs.isEmpty then
    match q.aggregates.head?, q.projection with
    | some a, _ => some [a.toExpr]
    | none, none => none
    | none, some p =>
      let exprs := p.items.map (·.expr)
      match exprs.find? (·.containsAggregate) with
      | some e => some [e]
      | none => if q.distinct then some exprs else none
  else some q.groupExprs

/-- The columns that tell the rows of the tables apart. -/
def keyTerms (s : Scope) : List Sql.Term :=
  s.visibleTables.flatMap fun t =>
    t.metadata.fallbackOrder.map fun c => .column t.label c.column

/-- The order of a page whose query has none. -/
def fallbackOrder (s : Scope) (q : Query) : Lowering (List Sql.Term) :=
  match q.figureOrder? with
  | some exprs => exprs.mapM (·.toSelector s)
  | none =>
    if (keyTerms s).isEmpty then fail (.unknownEntity q.base.shape.name) else return keyTerms s

def orderKeys (s : Scope) (q : Query) (window : Option Window) : Lowering (List Sql.OrderKey) :=
  if !q.orders.isEmpty then
    q.sortedOrders.mapM fun o => return ⟨← o.key.toSelector s, o.ascending⟩
  else if window.isSome then do
    let ts ← fallbackOrder s q
    return ts.map fun t => ⟨t, true⟩
  else return []

/-- The SELECT of a query, or the first fault in it. -/
def toSelect (r : Registry) (q : Query) : Lowering Sql.Select := do
  ofExcept q.check
  let window ← ofExcept q.window
  let scope ← ofExcept (Scope.ofSources r q.sources)
  let columns ← outputs scope q
  let base ← ofExcept scope.base
  let joins ← joinClauses r scope 0 q.joins
  let filters ← q.filters.mapM (·.toCondition scope)
  let group ← q.groupExprs.mapM (·.toSelector scope)
  let orders ← orderKeys scope q window
  return {
    distinct := q.distinct, columns, table := base.metadata.table, label := base.label
    joins, filters, group, orders, window }

/-- The names of the columns a query returns. -/
def outputColumns (r : Registry) (q : Query) : Except Error (List String) :=
  match q.projection with
  | some p => .ok (p.items.map (·.field))
  | none =>
    if q.isGrouped then .ok (q.group.map (·.label) ++ q.aggregates.map (·.label))
    else (r.get q.base.shape).map fun m => m.columns.map (·.field)

/-- The shape of a single value. -/
def scalarShape : Shape := ⟨"ScalarValue", [{ name := Sql.scalarAlias, type := .required .any }]⟩

/-- What a query is compiled for. -/
inductive Terminal where
  | rows
  /-- The number of rows it returns. -/
  | count
  /-- The number of rows its pages are taken from. -/
  | totalCount
  | exists
  /-- An aggregate over the rows it returns. -/
  | aggregate (f : AggregateFunction) (selector : Expr)
  deriving DecidableEq, Repr

/-- The output column a selector names, if it names a field of the working shape. -/
def outputColumn? (r : Registry) (q : Query) (selector : Expr) : Except Error (Option String) :=
  match selector with
  | .field ⟨.current, name⟩ =>
    (q.outputColumns r).map fun columns => columns.find? (· == name)
  | _ => .ok none

/-- An aggregate of an output column, or of a single column the query is projected to. -/
def aggregateRetrieval (r : Registry) (q : Query) (f : AggregateFunction) (selector : Expr) :
    Lowering Sql.Retrieval := do
  match ← ofExcept (q.outputColumn? r selector) with
  | some column => return ⟨.aggregate f column, ← q.derived.toSelect r⟩
  | none =>
    let projected := q.select scalarShape [(Sql.scalarAlias, selector)]
    return ⟨.aggregate f Sql.scalarAlias, ← projected.derived.toSelect r⟩

def retrieval (r : Registry) (q : Query) : Terminal → Lowering Sql.Retrieval
  | .rows => return ⟨.rows, ← q.toSelect r⟩
  | .count => return ⟨.count, ← q.derived.toSelect r⟩
  | .totalCount => return ⟨.count, ← q.allRows.toSelect r⟩
  | .exists => return ⟨.exists, ← q.derived.toSelect r⟩
  | .aggregate f selector => q.aggregateRetrieval r f selector

def statement (r : Registry) (d : Dialect) (t : Terminal) (q : Query) : Except Error Statement :=
  (q.retrieval r t).statement (·.pieces d)

end Query

end RecordQuery
