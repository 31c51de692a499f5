import RecordQuery.Document
import RecordQuery.Query.Basic
import RecordQuery.Search
import RecordQuery.Sql.Dialect

/-!
# Names of variants

A variant without content travels as its name. `wireName` gives the name of each, and
`Document.variantOf?` finds the variant a document names among all of its kind.
-/

namespace RecordQuery

namespace Document

/-- The name of a variant without content. -/
def variant? : Document → Option String
  | text s => some s
  | object [(name, null)] => some name
  | _ => none

/-- The variant that a document names. -/
def variantOf? (all : List α) (wireName : α → String) (d : Document) : Option α :=
  d.variant?.bind fun name => all.find? (wireName · == name)

end Document

namespace ConstraintKind

def all : List ConstraintKind := [primaryKey, unique, foreignKey, check, notNull]

def wireName : ConstraintKind → String
  | primaryKey => "PrimaryKey"
  | unique => "Unique"
  | foreignKey => "ForeignKey"
  | check => "Check"
  | notNull => "NotNull"

def ofDocument? : Document → Option ConstraintKind := Document.variantOf? all wireName

end ConstraintKind

namespace ErrorKind

def all : List ErrorKind :=
  [constraintViolation, timeout, concurrency, unavailable, repository, cancelled, unknownEntity,
    unknownField, unknownAlias, unsupportedPredicate, unsupportedProjection, invalidPagination,
    typeMismatch, mapping, transaction, configuration]

def wireName : ErrorKind → String
  | constraintViolation => "ConstraintViolation"
  | timeout => "Timeout"
  | concurrency => "Concurrency"
  | unavailable => "Unavailable"
  | repository => "Repository"
  | cancelled => "Cancelled"
  | unknownEntity => "UnknownEntity"
  | unknownField => "UnknownField"
  | unknownAlias => "UnknownAlias"
  | unsupportedPredicate => "UnsupportedPredicate"
  | unsupportedProjection => "UnsupportedProjection"
  | invalidPagination => "InvalidPagination"
  | typeMismatch => "TypeMismatch"
  | mapping => "Mapping"
  | transaction => "Transaction"
  | configuration => "Configuration"

def ofDocument? : Document → Option ErrorKind := Document.variantOf? all wireName

end ErrorKind

namespace Operator

def all : List Operator :=
  [comparison .equal, comparison .notEqual, comparison .greater, comparison .greaterOrEqual,
    comparison .less, comparison .lessOrEqual, logical .and, logical .or, arithmetic .add,
    arithmetic .subtract, arithmetic .multiply, arithmetic .divide, arithmetic .modulo]

def wireName : Operator → String
  | comparison .equal => "Equal"
  | comparison .notEqual => "NotEqual"
  | comparison .greater => "GreaterThan"
  | comparison .greaterOrEqual => "GreaterOrEqual"
  | comparison .less => "LessThan"
  | comparison .lessOrEqual => "LessOrEqual"
  | logical .and => "AndAlso"
  | logical .or => "OrElse"
  | arithmetic .add => "Add"
  | arithmetic .subtract => "Subtract"
  | arithmetic .multiply => "Multiply"
  | arithmetic .divide => "Divide"
  | arithmetic .modulo => "Modulo"

def ofDocument? : Document → Option Operator := Document.variantOf? all wireName

end Operator

namespace Method

/-- The methods whose names are fixed. -/
def fixed : List Method :=
  [text .contains, text .startsWith, text .endsWith, isNull, isNotNull]

/-- All methods with a name of their own share one. -/
def wireName : Method → String
  | text .contains => "Contains"
  | text .startsWith => "StartsWith"
  | text .endsWith => "EndsWith"
  | isNull => "IsNull"
  | isNotNull => "IsNotNull"
  | other _ => "Other"

def ofDocument? : Document → Option Method := Document.variantOf? fixed wireName

end Method

namespace AggregateFunction

def all : List AggregateFunction := [count, sum, min, max, avg]

def wireName : AggregateFunction → String
  | count => "Count"
  | sum => "Sum"
  | min => "Min"
  | max => "Max"
  | avg => "Avg"

def ofDocument? : Document → Option AggregateFunction := Document.variantOf? all wireName

end AggregateFunction

namespace JoinKind

def all : List JoinKind := [inner, left, right, full, cross]

def wireName : JoinKind → String
  | inner => "Inner"
  | left => "Left"
  | right => "Right"
  | full => "Full"
  | cross => "Cross"

def ofDocument? : Document → Option JoinKind := Document.variantOf? all wireName

end JoinKind

namespace FilterOperator

def all : List FilterOperator :=
  [equals, notEquals, greaterThan, greaterOrEqual, lessThan, lessOrEqual, contains, startsWith,
    endsWith, isNull, isNotNull]

def wireName : FilterOperator → String
  | equals => "Equals"
  | notEquals => "NotEquals"
  | greaterThan => "GreaterThan"
  | greaterOrEqual => "GreaterOrEqual"
  | lessThan => "LessThan"
  | lessOrEqual => "LessOrEqual"
  | contains => "Contains"
  | startsWith => "StartsWith"
  | endsWith => "EndsWith"
  | isNull => "IsNull"
  | isNotNull => "IsNotNull"

def ofDocument? : Document → Option FilterOperator := Document.variantOf? all wireName

end FilterOperator

namespace Direction

def wireName : Direction → String
  | ascending => "Asc"
  | descending => "Desc"

def ofDocument? : Document → Option Direction :=
  Document.variantOf? [ascending, descending] wireName

end Direction

namespace Dialect

def wireName : Dialect → String
  | sqlServer => "SqlServer"
  | sqlite => "Sqlite"

def ofDocument? : Document → Option Dialect := Document.variantOf? [sqlServer, sqlite] wireName

end Dialect

end RecordQuery
