import RecordQuery.Query.Basic
import RecordQuery.Search

/-!
# Building queries

Every operation gives a new query. `Query.Step` lists the operations as data and `Query.apply`
performs one, so a sequence of operations is a list of steps.
-/

namespace RecordQuery.Query

def filter (q : Query) (predicate : Expr) : Query :=
  let (q, e) := q.rebaseOrDefer predicate
  { q with filters := q.filters ++ [e] }

def whereFilter (q : Query) (f : Filter) : Query := q.filter f.toExpr

/-- A join under a given alias. -/
def joinAs (q : Query) (shape : ShapeId) (label : String) (kind : JoinKind) (on : Expr) :
    Query :=
  let (q, e) := q.rebaseOrDefer on
  { q with joins := q.joins ++ [⟨⟨shape, label⟩, kind, some e⟩] }

/-- A join under the alias of its number. -/
def join (q : Query) (shape : ShapeId) (kind : JoinKind) (on : Expr) : Query :=
  q.joinAs shape q.nextAlias kind on

def crossJoin (q : Query) (shape : ShapeId) : Query :=
  { q with joins := q.joins ++ [⟨⟨shape, q.nextAlias⟩, .cross, none⟩] }

/-- What one item of a projection becomes, and the errors it meets in order. -/
def projectItem (q : Query) (s : Shape) (item : String × Expr) : List Error × ProjectionItem :=
  let (field, expr) := item
  let unknown : List Error := if s.hasField field then [] else [.unknownField s.name field]
  let (unresolved, expr) : List Error × Expr :=
    match q.rebase expr with
    | .ok e => ([], e)
    | .error err => ([err], expr)
  let unsupported : List Error :=
    if expr.isProjectable then []
    else [.unsupportedProjection (s.name ++ "." ++ field ++ " = " ++ expr.display)]
  (unknown ++ unresolved ++ unsupported, ⟨field, expr⟩)

/-- A projection into a shape: its fields and the fields or aggregates they are computed from.
Aggregates asked for before are no longer columns. -/
def select (q : Query) (s : Shape) (items : List (String × Expr)) : Query :=
  let projected := items.map (q.projectItem s)
  { q.deferAll (projected.flatMap (·.1)) with
    result := s
    projection := some ⟨s.name, projected.map (·.2)⟩
    aggregates := [] }

def pushGroupKey (q : Query) (key : String × Expr) : Query :=
  let (q, e) := q.rebaseOrDefer key.2
  { q with group := q.group ++ [⟨key.1, e⟩] }

/-- Group keys, each under an alias; a key may refer to the keys before it. -/
def groupBy (q : Query) (keys : List (String × Expr)) : Query := keys.foldl pushGroupKey q

def aggregate (q : Query) (f : AggregateFunction) (selector : Option Expr) (label : String) :
    Query :=
  match selector with
  | none => { q with aggregates := q.aggregates ++ [⟨f, none, label⟩] }
  | some s =>
    let (q, e) := q.rebaseOrDefer s
    { q with aggregates := q.aggregates ++ [⟨f, some e, label⟩] }

/-- A sort key after those there are. -/
def orderBy (q : Query) (key : Expr) (ascending : Bool) : Query :=
  let (q, e) := q.rebaseOrDefer key
  { q with orders := q.orders ++ [⟨e, ascending, q.nextPriority⟩] }

def sort (q : Query) (k : SortKey) : Query := q.orderBy (.named k.field) (k.direction = .ascending)

def clearOrdering (q : Query) : Query := { q with orders := [] }

def paginate (q : Query) (change : Pagination → Pagination) : Query :=
  { q with pagination := some (change (q.pagination.getD {})) }

def skip (q : Query) (rows : UInt64) : Query := q.paginate fun p => { p with skip := some rows }

def take (q : Query) (rows : UInt64) : Query := q.paginate fun p => { p with take := some rows }

/-- A page, counted from 1. -/
def page (q : Query) (page size : UInt64) : Query :=
  q.paginate fun p => { p with page := some page, pageSize := some size }

def onlyDistinct (q : Query) : Query := { q with distinct := true }

/-- The filters of a request, its sort keys and its page. -/
def search (s : Shape) (r : SearchRequest) : Query :=
  ((r.sorts.foldl sort (r.filters.foldl whereFilter (ofShape s))).page r.page r.pageSize)

/-- The same rows without order and page. -/
def allRows (q : Query) : Query := { q with orders := [], pagination := none }

/-- The query as a derived table: an order is kept only where it decides the page. -/
def derived (q : Query) : Query :=
  if q.pagination.isSome then q else q.clearOrdering

inductive Step where
  | filter (predicate : Expr)
  | whereFilter (f : Filter)
  | join (shape : ShapeId) (kind : JoinKind) (on : Expr)
  | joinAs (shape : ShapeId) (label : String) (kind : JoinKind) (on : Expr)
  | crossJoin (shape : ShapeId)
  | select (s : Shape) (items : List (String × Expr))
  | groupBy (keys : List (String × Expr))
  | aggregate (f : AggregateFunction) (selector : Option Expr) (label : String)
  | orderBy (key : Expr) (ascending : Bool)
  | sort (k : SortKey)
  | clearOrdering
  | skip (rows : UInt64)
  | take (rows : UInt64)
  | page (page size : UInt64)
  | distinct
  deriving DecidableEq, Repr

def apply (q : Query) : Step → Query
  | .filter e => q.filter e
  | .whereFilter f => q.whereFilter f
  | .join shape kind on => q.join shape kind on
  | .joinAs shape label kind on => q.joinAs shape label kind on
  | .crossJoin shape => q.crossJoin shape
  | .select s items => q.select s items
  | .groupBy keys => q.groupBy keys
  | .aggregate f selector label => q.aggregate f selector label
  | .orderBy key ascending => q.orderBy key ascending
  | .sort k => q.sort k
  | .clearOrdering => q.clearOrdering
  | .skip rows => q.skip rows
  | .take rows => q.take rows
  | .page page size => q.page page size
  | .distinct => q.onlyDistinct

def applyAll (q : Query) (steps : List Step) : Query := steps.foldl apply q

end RecordQuery.Query
