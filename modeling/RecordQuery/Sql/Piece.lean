import RecordQuery.Sql.Dialect
import RecordQuery.Value.Binding

/-!
# Statements

SQL is made of pieces: fixed text, identifiers and parameters. Parameters are numbered when their
values are bound (`Lowering.push`), so a piece holds the number and never the value.
`Statement.ofPieces` turns pieces and the values bound for them into a statement: it quotes the
identifiers, writes parameter `n` as the placeholder `@pn` and names the values `@p0`, `@p1` and
so on in the order they were bound in.
-/

namespace RecordQuery

/-- A bound parameter; the name has its `@` in front. -/
structure Param where
  name : String
  value : Value
  deriving DecidableEq, Repr

structure Statement where
  sql : String
  params : List Param := []
  deriving DecidableEq, Repr

/-- The name of the parameter at a position. -/
def placeholder (n : Nat) : String := "@p" ++ Number.natText n

namespace Statement

/-- One more parameter under a name of its own. -/
def bindNamed (s : Statement) (name : String) (v : Value) : Statement :=
  { s with params := s.params ++ [⟨name, v.bound⟩] }

/-- One more parameter under the name of its position. -/
def bind (s : Statement) (v : Value) : Statement := s.bindNamed (placeholder s.params.length) v

end Statement

namespace Sql

inductive Piece where
  | text (s : String)
  | ident (name : String)
  | parameter (slot : Nat)
  deriving DecidableEq, Repr

/-- Every closing bracket twice. -/
def doubleBrackets : List Char → List Char
  | [] => []
  | c :: cs => if c = ']' then ']' :: ']' :: doubleBrackets cs else c :: doubleBrackets cs

/-- An identifier in brackets. -/
def quoted (name : String) : String :=
  String.ofList ('[' :: doubleBrackets name.toList ++ [']'])

def Piece.sql : Piece → String
  | text s => s
  | ident name => quoted name
  | parameter slot => placeholder slot

/-- The text of pieces. -/
def sqlOf (ps : List Piece) : String := ps.foldl (fun acc p => acc ++ p.sql) ""

/-- Pieces with a text between every two. -/
def separated (sep : String) : List (List Piece) → List Piece
  | [] => []
  | first :: rest => first ++ rest.flatMap fun ps => .text sep :: ps

/-- An alias and a column of the table bound to it. -/
def qualified (label column : String) : List Piece := [.ident label, .text ".", .ident column]

end Sql

/-- Names parameters by their positions. -/
def Param.number (vs : List Value) : List Param :=
  vs.zipIdx.map fun (v, i) => ⟨placeholder i, v.bound⟩

theorem Param.names_number (vs : List Value) :
    (Param.number vs).map (·.name) = (List.range vs.length).map placeholder := by
  have h : (Param.number vs).map (·.name) = (vs.zipIdx.map (·.2)).map placeholder := by
    rw [Param.number, List.map_map, List.map_map]
    rfl
  rw [h, List.zipIdx_map_snd, List.range_eq_range']

def Statement.ofPieces (ps : List Sql.Piece) (bound : List Value) : Statement :=
  ⟨Sql.sqlOf ps, Param.number bound⟩

namespace Dialect

open Sql

/-- The clause before `VALUES` that returns a key column. -/
def outputClause? : Dialect → String → Option (List Piece)
  | sqlServer, column => some [.text " OUTPUT INSERTED.", .ident column]
  | sqlite, _ => none

/-- The clause after `VALUES` that returns a key column. -/
def returningClause? : Dialect → String → Option (List Piece)
  | sqlServer, _ => none
  | sqlite, column => some [.text " RETURNING ", .ident column]

end Dialect

end RecordQuery
