import RecordQuery.Expr
import RecordQuery.Sql.Piece

/-!
# SQL values and conditions

A `Term` is a value in SQL, a `Condition` a truth value. `pieces` writes them: `AND` and `OR` in
parentheses, the operand of `NOT` in parentheses, everything else as it stands.
-/

namespace RecordQuery.Sql

inductive Term where
  | column (label name : String)
  | parameter (slot : Nat)
  | countAll
  | aggregate (f : AggregateFunction) (argument : Term)
  deriving DecidableEq, Repr

/-- A call of an aggregate function; averages are taken of floating-point numbers. -/
def aggregatePieces (f : AggregateFunction) (argument : List Piece) : List Piece :=
  match f with
  | .avg => .text "AVG(CAST(" :: argument ++ [.text " AS FLOAT))"]
  | f => .text (f.name ++ "(") :: argument ++ [.text ")"]

namespace Term

def pieces : Term → List Piece
  | column label name => qualified label name
  | parameter slot => [.parameter slot]
  | countAll => [.text "COUNT(*)"]
  | aggregate f a => aggregatePieces f a.pieces

def isAggregate : Term → Bool
  | countAll => true
  | aggregate _ _ => true
  | _ => false

end Term

def comparisonText : Comparison → String
  | .equal => "="
  | .notEqual => "<>"
  | .greater => ">"
  | .greaterOrEqual => ">="
  | .less => "<"
  | .lessOrEqual => "<="

def connectiveText : Connective → String
  | .and => "AND"
  | .or => "OR"

/-- The pattern of a text match: the text with `%` for what may surround it. -/
def likePattern : TextMatch → String → String
  | .contains, s => "%" ++ s ++ "%"
  | .startsWith, s => s ++ "%"
  | .endsWith, s => "%" ++ s

inductive Condition where
  | compare (op : Comparison) (left right : Term)
  | isNull (t : Term)
  | isNotNull (t : Term)
  /-- The text matches the pattern bound to a parameter. -/
  | like (t : Term) (pattern : Nat)
  /-- The value is 1. -/
  | isTrue (t : Term)
  | logical (op : Connective) (left right : Condition)
  | negation (c : Condition)
  deriving DecidableEq, Repr

namespace Condition

def pieces : Condition → List Piece
  | compare op l r => l.pieces ++ .text (" " ++ comparisonText op ++ " ") :: r.pieces
  | isNull t => t.pieces ++ [.text " IS NULL"]
  | isNotNull t => t.pieces ++ [.text " IS NOT NULL"]
  | like t p => t.pieces ++ [.text " LIKE ", .parameter p]
  | isTrue t => t.pieces ++ [.text " = 1"]
  | logical op l r =>
    .text "(" :: l.pieces ++ .text (" " ++ connectiveText op ++ " ") :: r.pieces ++ [.text ")"]
  | negation c => .text "NOT (" :: c.pieces ++ [.text ")"]

end Condition

/-- A WHERE clause of conditions that all hold; nothing if there are none. -/
def wherePieces (cs : List Condition) : List Piece :=
  if cs.isEmpty then []
  else .text " WHERE " :: separated " AND " (cs.map fun c => .text "(" :: c.pieces ++ [.text ")"])

end RecordQuery.Sql
