import RecordQuery.Error
import RecordQuery.ShapeId
import RecordQuery.Value.Basic

/-!
# Expressions

Filters, join conditions, sort keys and projections are `Expr` trees over fields of tables. A
field reference is relative to the working shape of a query (`TableRef.current`), to the first
table of a shape, or to the table bound to an alias. Trees are data: `Expr.mapFields` replaces
their references, `Expr.display` writes them in messages, and other modules turn them into SQL.
-/

namespace RecordQuery

inductive TableRef where
  /-- The base entity, or the projected shape once there is one. -/
  | current
  /-- The first table of this shape in the query. -/
  | shape (s : ShapeId)
  | aliased (name : String)
  deriving DecidableEq, Repr

structure FieldRef where
  table : TableRef
  field : String
  deriving DecidableEq, Repr

def FieldRef.display (r : FieldRef) : String :=
  match r.table with
  | .current => r.field
  | .shape s => s.name ++ "." ++ r.field
  | .aliased name => name ++ "." ++ r.field

inductive Comparison where
  | equal | notEqual | greater | greaterOrEqual | less | lessOrEqual
  deriving DecidableEq, Repr

inductive Connective where
  | and | or
  deriving DecidableEq, Repr

inductive Arithmetic where
  | add | subtract | multiply | divide | modulo
  deriving DecidableEq, Repr

inductive Operator where
  | comparison (op : Comparison)
  | logical (op : Connective)
  | arithmetic (op : Arithmetic)
  deriving DecidableEq, Repr

namespace Operator

def isComparison : Operator → Bool
  | comparison _ => true
  | _ => false

def isLogical : Operator → Bool
  | logical _ => true
  | _ => false

def symbol : Operator → String
  | comparison .equal => "=="
  | comparison .notEqual => "!="
  | comparison .greater => ">"
  | comparison .greaterOrEqual => ">="
  | comparison .less => "<"
  | comparison .lessOrEqual => "<="
  | logical .and => "&&"
  | logical .or => "||"
  | arithmetic .add => "+"
  | arithmetic .subtract => "-"
  | arithmetic .multiply => "*"
  | arithmetic .divide => "/"
  | arithmetic .modulo => "%"

end Operator

/-- What a text is searched for in a text. -/
inductive TextMatch where
  | contains | startsWith | endsWith
  deriving DecidableEq, Repr

inductive Method where
  | text (m : TextMatch)
  | isNull
  | isNotNull
  /-- Any other method; it has no SQL form. -/
  | other (name : String)
  deriving DecidableEq, Repr

def TextMatch.name : TextMatch → String
  | contains => "contains"
  | startsWith => "starts_with"
  | endsWith => "ends_with"

def Method.name : Method → String
  | text m => m.name
  | isNull => "is_null"
  | isNotNull => "is_not_null"
  | other name => name

inductive AggregateFunction where
  | count | sum | min | max | avg
  deriving DecidableEq, Repr

def AggregateFunction.name : AggregateFunction → String
  | count => "COUNT"
  | sum => "SUM"
  | min => "MIN"
  | max => "MAX"
  | avg => "AVG"

inductive Expr where
  | field (r : FieldRef)
  | constant (v : Value)
  | binary (op : Operator) (left right : Expr)
  /-- A method without an argument. -/
  | call (m : Method) (target : Expr)
  | callWith (m : Method) (target argument : Expr)
  | negation (e : Expr)
  /-- An aggregate over whole rows. -/
  | aggregateAll (f : AggregateFunction)
  | aggregate (f : AggregateFunction) (argument : Expr)
  deriving DecidableEq, Repr

namespace Expr

/-- A field of the working shape. -/
def named (field : String) : Expr := .field ⟨.current, field⟩

def compare (op : Comparison) (left right : Expr) : Expr := .binary (.comparison op) left right

/-- An aggregate of a selector, or of whole rows without one. -/
def aggregateOf (f : AggregateFunction) : Option Expr → Expr
  | some e => .aggregate f e
  | none => .aggregateAll f

def field? : Expr → Option FieldRef
  | field r => some r
  | _ => none

def isNullConstant : Expr → Bool
  | constant .null => true
  | _ => false

/-- An aggregate occurs somewhere in the tree. -/
def containsAggregate : Expr → Bool
  | field _ => false
  | constant _ => false
  | binary _ l r => l.containsAggregate || r.containsAggregate
  | call _ t => t.containsAggregate
  | callWith _ t a => t.containsAggregate || a.containsAggregate
  | negation e => e.containsAggregate
  | aggregateAll _ => true
  | aggregate _ _ => true

/-- A projection may hold this: a field or an aggregate. -/
def isProjectable : Expr → Bool
  | field _ => true
  | aggregateAll _ => true
  | aggregate _ _ => true
  | _ => false

def display : Expr → String
  | field r => r.display
  | constant v => v.display
  | binary op l r => "(" ++ l.display ++ " " ++ op.symbol ++ " " ++ r.display ++ ")"
  | call m t => t.display ++ "." ++ m.name ++ "()"
  | callWith m t a => t.display ++ "." ++ m.name ++ "(" ++ a.display ++ ")"
  | negation e => "!" ++ e.display
  | aggregateAll f => f.name ++ "(*)"
  | aggregate f a => f.name ++ "(" ++ a.display ++ ")"

/-- The tree with every field reference replaced, from left to right; the first reference that
has no replacement decides the error. -/
def mapFields (f : FieldRef → Except Error Expr) : Expr → Except Error Expr
  | field r => f r
  | constant v => .ok (constant v)
  | binary op l r => do
    let l ← l.mapFields f
    let r ← r.mapFields f
    return binary op l r
  | call m t => do
    let t ← t.mapFields f
    return call m t
  | callWith m t a => do
    let t ← t.mapFields f
    let a ← a.mapFields f
    return callWith m t a
  | negation e => do
    let e ← e.mapFields f
    return negation e
  | aggregateAll g => .ok (aggregateAll g)
  | aggregate g a => do
    let a ← a.mapFields f
    return aggregate g a

end Expr

end RecordQuery
