import RecordQuery.Expr
import RecordQuery.Page
import RecordQuery.Shape

/-!
# Queries

A `Query` describes a question over tables as data: base entity, joins, filters, projection,
grouping, aggregates, order and page. References to the working shape are replaced when they are
added by what they stand for (`Query.rebase`); the first that stands for nothing is remembered
in `deferred` and reported when the query is compiled.
-/

namespace RecordQuery

/-- A table of the query: the shape stored in it and the alias it is bound to. -/
structure Source where
  shape : ShapeId
  label : String
  deriving DecidableEq, Repr

inductive JoinKind where
  | inner | left | right | full | cross
  deriving DecidableEq, Repr

def JoinKind.text : JoinKind → String
  | inner => "INNER JOIN"
  | left => "LEFT JOIN"
  | right => "RIGHT JOIN"
  | full => "FULL JOIN"
  | cross => "CROSS JOIN"

structure Join where
  source : Source
  kind : JoinKind
  on : Option Expr
  deriving DecidableEq, Repr

structure Order where
  key : Expr
  ascending : Bool
  /-- Keys of lower priority come first. It is at most the number of calls on the query. -/
  priority : Nat
  deriving DecidableEq, Repr

/-- A field of a projected shape and the expression it is computed from. -/
structure ProjectionItem where
  field : String
  expr : Expr
  deriving DecidableEq, Repr

structure Projection where
  shape : String
  items : List ProjectionItem
  deriving DecidableEq, Repr

structure GroupKey where
  label : String
  expr : Expr
  deriving DecidableEq, Repr

structure AggregateColumn where
  function : AggregateFunction
  selector : Option Expr
  label : String
  deriving DecidableEq, Repr

def AggregateColumn.toExpr (a : AggregateColumn) : Expr := .aggregateOf a.function a.selector

structure Query where
  /-- The shape its rows are read into. -/
  result : Shape
  base : Source
  joins : List Join := []
  filters : List Expr := []
  projection : Option Projection := none
  group : List GroupKey := []
  aggregates : List AggregateColumn := []
  orders : List Order := []
  pagination : Option Pagination := none
  distinct : Bool := false
  deferred : Option Error := none
  deriving DecidableEq, Repr

namespace Query

def baseAlias : String := "t0"

/-- Every row of an entity. -/
def ofShape (s : Shape) : Query := { result := s, base := ⟨s.id, baseAlias⟩ }

/-- The tables in the order of the FROM clause. -/
def sources (q : Query) : List Source := q.base :: q.joins.map (·.source)

def window (q : Query) : Except Error (Option Window) :=
  match q.pagination with
  | none => .ok none
  | some p => p.window.map some

/-- Fails if building met a reference that could not be resolved. -/
def check (q : Query) : Except Error Unit :=
  match q.deferred with
  | none => .ok ()
  | some e => .error e

def nextAlias (q : Query) : String := "t" ++ Number.natText (q.joins.length + 1)

/-- One more than every priority in use. -/
def nextPriority (q : Query) : Nat := q.orders.foldl (fun n o => max n (o.priority + 1)) 0

/-! ## References to the working shape -/

/-- What a field of the working shape stands for: the item of that name in a projection, else the
group key or aggregate of that alias, else the field of the base entity. -/
def resolve (q : Query) (name : String) : Except Error Expr :=
  match q.projection with
  | some p =>
    match p.items.find? (·.field == name) with
    | some item => .ok item.expr
    | none => .error (.unknownField p.shape name)
  | none =>
    match q.group.find? (·.label == name) with
    | some key => .ok key.expr
    | none =>
      match q.aggregates.find? (·.label == name) with
      | some a => .ok a.toExpr
      | none => .ok (.named name)

def rebaseField (q : Query) (r : FieldRef) : Except Error Expr :=
  match r.table with
  | .current => q.resolve r.field
  | _ => .ok (.field r)

def rebase (q : Query) (e : Expr) : Except Error Expr := e.mapFields q.rebaseField

/-- The form in which an error is kept until the query is compiled. -/
def deferredForm : Error → Error
  | .unknownField shape field => .unknownField shape field
  | e => .unsupportedProjection e.message

/-- The first error stays. -/
def defer (q : Query) (e : Error) : Query := { q with deferred := q.deferred.or (deferredForm e) }

def deferAll (q : Query) (es : List Error) : Query := es.foldl defer q

/-- The first of several errors is deferred, unless one is deferred before. -/
theorem deferAll_eq (q : Query) (es : List Error) :
    q.deferAll es = { q with deferred := q.deferred.or (es.head?.map deferredForm) } := by
  induction es generalizing q with
  | nil => simp [deferAll]
  | cons e es ih =>
    have h : q.deferAll (e :: es) = (q.defer e).deferAll es := rfl
    rw [h, ih, defer]
    cases q.deferred <;> simp

/-- The rebased expression; one that cannot be rebased is kept, and the error deferred. -/
def rebaseOrDefer (q : Query) (e : Expr) : Query × Expr :=
  match q.rebase e with
  | .ok e' => (q, e')
  | .error err => (q.defer err, e)

end Query

end RecordQuery
