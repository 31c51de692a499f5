import RecordQuery.Proofs.Compile.Meaning
import RecordQuery.Sql.Select

/-!
# Rows of a SELECT

`Select.rows` are the rows that a SELECT has in a database: it joins the tables, keeps the rows that
meet the conditions, and makes one row of each of them, of each group of them, or of all of them.
`Select.Returns` says what a run of the statement may return: these rows in some order of their
keys, cut to the window.
-/

namespace RecordQuery

open Sql

/-- The values of a stored row by column. -/
abbrev StoredRow := String → Value

structure Database extends Storage where
  /-- The rows of a table. -/
  rows : String → List StoredRow
  /-- A number of rows, as a value. -/
  size : Nat → Value
  figure : AggregateFunction → List Value → Value

/-- The row that an outer join has in place of one it did not find. -/
def StoredRow.absent : StoredRow := fun _ => .null

def RowValues.absent : RowValues := fun _ _ => .null

/-- The row with a stored row under one more alias. -/
def RowValues.beside (left : RowValues) (label : String) (right : StoredRow) : RowValues :=
  fun l c => if l = label then right c else left l c

namespace Sql

/-! ## Values -/

/-- What a term stands for, with the values of its parameters. -/
inductive Quantity where
  | column (label name : String)
  | constant (v : Value)
  | countAll
  | aggregate (f : AggregateFunction) (argument : Quantity)
  deriving DecidableEq, Repr

def Term.quantity (ps : List Param) : Term → Quantity
  | column label name => .column label name
  | parameter slot => .constant (Param.lookup ps (placeholder slot))
  | countAll => .countAll
  | aggregate f a => .aggregate f (a.quantity ps)

/-- The value for rows taken together; a column has the value of the first of them. -/
def Quantity.value (db : Database) : Quantity → List RowValues → Value
  | column label name, rows => rows.head?.elim .null fun row => row label name
  | constant v, _ => v
  | countAll, rows => db.size rows.length
  | aggregate f a, rows => db.figure f (rows.map fun row => a.value db [row])

section

variable (db : Database) (ps : List Param)

def Term.value (t : Term) (rows : List RowValues) : Value := (t.quantity ps).value db rows

def Condition.truth (row : RowValues) : Condition → Truth
  | compare op l r => Storage.ask (db.compare op) (l.value db ps [row]) (r.value db ps [row])
  | isNull t => .ofBool (t.value db ps [row]).isNull
  | isNotNull t => .ofBool !(t.value db ps [row]).isNull
  | like t p => Storage.ask db.like (t.value db ps [row]) (Param.lookup ps (placeholder p))
  | isTrue t => db.isOne (t.value db ps [row])
  | logical .and l r => (l.truth row).and (r.truth row)
  | logical .or l r => (l.truth row).or (r.truth row)
  | negation c => (c.truth row).not

/-- The condition is true, neither false nor unknown. -/
def Condition.holds (c : Condition) (row : RowValues) : Bool := c.truth db ps row = .yes

/-! ## Joins -/

namespace JoinClause

def keepsLeft (j : JoinClause) : Bool := j.kind = .left ∨ j.kind = .full

def keepsRight (j : JoinClause) : Bool := j.kind = .right ∨ j.kind = .full

/-- A row of the tables before the join and one of its own match. -/
def links (j : JoinClause) (l : RowValues) (r : StoredRow) : Bool :=
  j.on.all (·.holds db ps (l.beside j.label r))

/-- The rows with the join, of those without it: matching pairs, and the rows without a match of
the sides that the join keeps. -/
def rows (j : JoinClause) (left : List RowValues) : List RowValues :=
  let right := db.rows j.table
  let pairs := left.flatMap fun l => (right.filter (j.links db ps l)).map (l.beside j.label)
  let leftOnly := left.filter fun l => !right.any (j.links db ps l)
  let rightOnly := right.filter fun r => !left.any (j.links db ps · r)
  pairs ++ (if j.keepsLeft then leftOnly.map (·.beside j.label .absent) else [])
    ++ (if j.keepsRight then rightOnly.map (RowValues.absent.beside j.label) else [])

end JoinClause

/-! ## Rows -/

/-- A row of a result, with the values of its sort keys. -/
structure ResultRow where
  columns : List Value
  keys : List Value
  deriving DecidableEq, Repr

/-- Of the rows with the same columns, one. -/
def distinctRows : List ResultRow → List ResultRow
  | [] => []
  | row :: rest =>
    if rest.any (·.columns = row.columns) then distinctRows rest else row :: distinctRows rest

theorem mem_of_mem_distinctRows {row : ResultRow} {rows : List ResultRow}
    (h : row ∈ distinctRows rows) : row ∈ rows := by
  induction rows with
  | nil => exact h
  | cons first rest ih =>
    unfold distinctRows at h
    split at h
    · exact List.mem_cons_of_mem _ (ih h)
    · obtain rfl | h := List.mem_cons.mp h
      · exact List.mem_cons_self
      · exact List.mem_cons_of_mem _ (ih h)

/-- The rows of each key, in the order of the first of them. -/
def groupsBy (key : RowValues → List Value) (rows : List RowValues) : List (List RowValues) :=
  (rows.map key).eraseDups.map fun k => rows.filter fun row => key row = k

namespace Select

/-- The select list or the order has an aggregate. -/
def aggregates (s : Select) : Bool :=
  s.columns.any (·.term.isAggregate) || s.orders.any (·.term.isAggregate)

def joined (s : Select) : List RowValues :=
  s.joins.foldl (fun rows j => j.rows db ps rows)
    ((db.rows s.table).map (RowValues.absent.beside s.label))

def kept (s : Select) : List RowValues :=
  (s.joined db ps).filter fun row => s.filters.all (·.holds db ps row)

/-- The rows that one row of the result is made of. No database groups by an aggregate. -/
def groups (s : Select) : List (List RowValues) :=
  if s.group.any (·.isAggregate) then []
  else if !s.group.isEmpty then
    groupsBy (fun row => s.group.map (·.value db ps [row])) (s.kept db ps)
  else if s.aggregates then [s.kept db ps]
  else (s.kept db ps).map ([·])

def result (s : Select) (rows : List RowValues) : ResultRow where
  columns := s.columns.map (·.term.value db ps rows)
  keys := s.orders.map (·.term.value db ps rows)

/-- The rows before they are ordered and cut to the window. -/
def rows (s : Select) : List ResultRow :=
  let all := (s.groups db ps).map (s.result db ps)
  if s.distinct then distinctRows all else all

end Select

end

end Sql

/-- The part of a list that a window shows. -/
def Window.slice (w : Window) (l : List α) : List α :=
  let rest := l.drop w.skip.toNat
  w.take.elim rest fun n => rest.take n.toNat

/-- The statement may return these rows, where storage orders keys so. -/
def Sql.Select.Returns (db : Database) (ps : List Param) (le : List Value → List Value → Prop)
    (s : Select) (shown : List ResultRow) : Prop :=
  ∃ all, all.Perm (s.rows db ps) ∧ all.Pairwise (fun a b => le a.keys b.keys) ∧
    shown = s.window.elim all (·.slice all)

end RecordQuery
