import RecordQuery.Expr

/-!
# Search requests

Conditions, sort keys and a page as they arrive from a caller, before they become part of a
query. Fields may be given by field or by column name.
-/

namespace RecordQuery

inductive FilterOperator where
  | equals | notEquals | greaterThan | greaterOrEqual | lessThan | lessOrEqual
  | contains | startsWith | endsWith | isNull | isNotNull
  deriving DecidableEq, Repr

structure Filter where
  field : String
  operator : FilterOperator
  value : Value := .null
  deriving DecidableEq, Repr

/-- The condition over the working shape that a filter states. -/
def Filter.toExpr (f : Filter) : Expr :=
  let subject := Expr.named f.field
  let operand := Expr.constant f.value
  match f.operator with
  | .equals => .compare .equal subject operand
  | .notEquals => .compare .notEqual subject operand
  | .greaterThan => .compare .greater subject operand
  | .greaterOrEqual => .compare .greaterOrEqual subject operand
  | .lessThan => .compare .less subject operand
  | .lessOrEqual => .compare .lessOrEqual subject operand
  | .contains => .callWith (.text .contains) subject operand
  | .startsWith => .callWith (.text .startsWith) subject operand
  | .endsWith => .callWith (.text .endsWith) subject operand
  | .isNull => .call .isNull subject
  | .isNotNull => .call .isNotNull subject

inductive Direction where
  | ascending | descending
  deriving DecidableEq, Repr

structure SortKey where
  field : String
  direction : Direction := .ascending
  deriving DecidableEq, Repr

/-- A page of the rows that meet every filter, in the order of the sort keys. -/
structure SearchRequest where
  filters : List Filter := []
  sorts : List SortKey := []
  page : UInt64 := 1
  pageSize : UInt64 := 20
  deriving DecidableEq, Repr

end RecordQuery
