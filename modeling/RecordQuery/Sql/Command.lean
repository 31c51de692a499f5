import RecordQuery.Sql.Condition

/-!
# SQL write statements

The clauses of INSERT, UPDATE and DELETE statements on one table.
-/

namespace RecordQuery.Sql

structure Insert where
  table : String
  columns : List String
  /-- The parameters of every row, in column order. -/
  rows : List (List Nat)
  /-- The key column returned for every row. -/
  returning : Option String
  deriving DecidableEq, Repr

def tuplePieces (row : List Nat) : List Piece :=
  .text "(" :: separated ", " (row.map fun slot => [.parameter slot]) ++ [.text ")"]

def Insert.pieces (d : Dialect) (i : Insert) : List Piece :=
  [.text "INSERT INTO ", .ident i.table, .text " ("]
    ++ separated ", " (i.columns.map fun c => [.ident c]) ++ [.text ")"]
    ++ (i.returning.bind d.outputClause?).getD []
    ++ .text " VALUES " :: separated ", " (i.rows.map tuplePieces)
    ++ (i.returning.bind d.returningClause?).getD []

structure Update where
  table : String
  /-- Columns and the parameters of their new values. -/
  assignments : List (String × Nat)
  filters : List Condition
  deriving DecidableEq, Repr

def Update.pieces (u : Update) : List Piece :=
  [.text "UPDATE ", .ident u.table, .text " SET "]
    ++ separated ", " (u.assignments.map fun (c, slot) => [.ident c, .text " = ", .parameter slot])
    ++ wherePieces u.filters

structure Delete where
  table : String
  filters : List Condition
  deriving DecidableEq, Repr

def Delete.pieces (x : Delete) : List Piece :=
  [.text "DELETE FROM ", .ident x.table] ++ wherePieces x.filters

end RecordQuery.Sql
