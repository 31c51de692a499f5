import RecordQuery.Query.Basic
import RecordQuery.Sql.Condition

/-!
# SQL select statements

`Select` holds the clauses of one SELECT; `Retrieval` is a whole statement, which returns the rows
of a SELECT or a figure computed from it as a derived table.
-/

namespace RecordQuery.Sql

structure OutputColumn where
  term : Term
  label : String
  deriving DecidableEq, Repr

structure JoinClause where
  kind : JoinKind
  table : String
  label : String
  on : Option Condition
  deriving DecidableEq, Repr

structure OrderKey where
  term : Term
  ascending : Bool
  deriving DecidableEq, Repr

structure Select where
  distinct : Bool
  columns : List OutputColumn
  table : String
  label : String
  joins : List JoinClause
  filters : List Condition
  group : List Term
  orders : List OrderKey
  window : Option Window
  deriving DecidableEq, Repr

def OutputColumn.pieces (c : OutputColumn) : List Piece :=
  c.term.pieces ++ [.text " AS ", .ident c.label]

def JoinClause.pieces (j : JoinClause) : List Piece :=
  [.text (" " ++ j.kind.text ++ " "), .ident j.table, .text " AS ", .ident j.label]
    ++ match j.on with
      | none => []
      | some c => .text " ON " :: c.pieces

def OrderKey.pieces (o : OrderKey) : List Piece :=
  o.term.pieces ++ [.text (if o.ascending then " ASC" else " DESC")]

/-- A clause of comma-separated items; nothing if there are none. -/
def listClause (keyword : String) (items : List (List Piece)) : List Piece :=
  if items.isEmpty then [] else .text keyword :: separated ", " items

namespace Select

/-- The clauses that decide which rows there are. -/
def corePieces (s : Select) : List Piece :=
  .text (if s.distinct then "SELECT DISTINCT " else "SELECT ")
    :: separated ", " (s.columns.map OutputColumn.pieces)
    ++ [.text " FROM ", .ident s.table, .text " AS ", .ident s.label]
    ++ s.joins.flatMap JoinClause.pieces
    ++ wherePieces s.filters
    ++ listClause " GROUP BY " (s.group.map Term.pieces)

def orderPieces (s : Select) : List Piece :=
  listClause " ORDER BY " (s.orders.map OrderKey.pieces)

def pagingPieces (d : Dialect) (s : Select) : List Piece :=
  match s.window with
  | none => []
  | some w => [.text (d.paging w)]

def pieces (d : Dialect) (s : Select) : List Piece :=
  s.corePieces ++ s.orderPieces ++ s.pagingPieces d

end Select

/-- What a statement returns of the rows of its SELECT. -/
inductive Outer where
  | rows
  | count
  | exists
  /-- An aggregate of one output column. -/
  | aggregate (f : AggregateFunction) (column : String)
  deriving DecidableEq, Repr

structure Retrieval where
  outer : Outer
  inner : Select
  deriving DecidableEq, Repr

/-- The alias of a derived table. -/
def derivedAlias : String := "sub"

/-- The alias of the result of an aggregate. -/
def scalarAlias : String := "value"

/-- An aggregate of a column of the derived table; the sum of no rows is 0. -/
def figurePieces (f : AggregateFunction) (column : String) : List Piece :=
  let target := qualified derivedAlias column
  match f with
  | .sum => .text "COALESCE(SUM(" :: target ++ [.text "), 0)"]
  | f => aggregatePieces f target

def Retrieval.pieces (d : Dialect) (r : Retrieval) : List Piece :=
  let inner := r.inner.pieces d
  match r.outer with
  | .rows => inner
  | .count => .text "SELECT COUNT(1) FROM (" :: inner ++ [.text ") AS ", .ident derivedAlias]
  | .exists => .text "SELECT CASE WHEN EXISTS (" :: inner ++ [.text ") THEN 1 ELSE 0 END"]
  | .aggregate f column =>
    .text "SELECT " :: figurePieces f column ++ [.text " AS ", .ident scalarAlias, .text " FROM ("]
      ++ inner ++ [.text ") AS ", .ident derivedAlias]

end RecordQuery.Sql
