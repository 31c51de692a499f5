import RecordQuery.Number.Checked

/-!
# Errors

An `Error` is a failure of a statement, of building or compiling one, or of reading its rows.
`Error.kind` tells the sort, `Error.message` the full text. A `Stop` is an error or an overflow: an
error is a result like others, which its caller is given, but nothing goes on after an overflow.
-/

namespace RecordQuery

/-- The integrity constraints a write can violate. -/
inductive ConstraintKind where
  | primaryKey | unique | foreignKey | check | notNull
  deriving DecidableEq, Repr

def ConstraintKind.text : ConstraintKind → String
  | primaryKey => "primary key"
  | unique => "unique"
  | foreignKey => "foreign key"
  | check => "check"
  | notNull => "not null"

inductive ErrorKind where
  | constraintViolation | timeout | concurrency | unavailable | repository | cancelled
  | unknownEntity | unknownField | unknownAlias | unsupportedPredicate | unsupportedProjection
  | invalidPagination | typeMismatch | mapping | transaction | configuration
  deriving DecidableEq, Repr

inductive Error where
  /-- The name is that of the constraint, or of the column for a null in it; it may be empty. -/
  | constraintViolation (constraint : ConstraintKind) (name : String)
  | timeout (detail : String)
  /-- A deadlock, a serialization failure or a lock held by another. -/
  | concurrency (detail : String)
  | unavailable (detail : String)
  /-- A failure of the storage of no known sort. -/
  | repository (detail : String)
  | cancelled
  | unknownEntity (shape : String)
  | unknownField (shape field : String)
  | unknownAlias (name : String)
  | unsupportedPredicate (detail : String)
  | unsupportedProjection (detail : String)
  | invalidPagination (detail : String)
  | typeMismatch (expected actual : String)
  /-- A row that does not fit the type it is read into. -/
  | mapping (detail : String)
  | transaction (detail : String)
  | configuration (detail : String)
  deriving DecidableEq, Repr

namespace Error

def kind : Error → ErrorKind
  | constraintViolation _ _ => .constraintViolation
  | timeout _ => .timeout
  | concurrency _ => .concurrency
  | unavailable _ => .unavailable
  | repository _ => .repository
  | cancelled => .cancelled
  | unknownEntity _ => .unknownEntity
  | unknownField _ _ => .unknownField
  | unknownAlias _ => .unknownAlias
  | unsupportedPredicate _ => .unsupportedPredicate
  | unsupportedProjection _ => .unsupportedProjection
  | invalidPagination _ => .invalidPagination
  | typeMismatch _ _ => .typeMismatch
  | mapping _ => .mapping
  | transaction _ => .transaction
  | configuration _ => .configuration

def message : Error → String
  | constraintViolation k name => "Constraint violation (" ++ k.text ++ "): " ++ name
  | timeout s => "Timeout: " ++ s
  | concurrency s => "Concurrency conflict: " ++ s
  | unavailable s => "Storage unavailable: " ++ s
  | repository s => "Repository error: " ++ s
  | cancelled => "Operation cancelled"
  | unknownEntity s => "Unknown entity: " ++ s
  | unknownField shape field => "Unknown field '" ++ field ++ "' on " ++ shape
  | unknownAlias s => "Unknown alias: " ++ s
  | unsupportedPredicate s => "Unsupported predicate: " ++ s
  | unsupportedProjection s => "Unsupported projection: " ++ s
  | invalidPagination s => "Invalid pagination: " ++ s
  | typeMismatch expected actual => "Type mismatch: expected " ++ expected ++ ", got " ++ actual
  | mapping s => "Mapping error: " ++ s
  | transaction s => "Transaction error: " ++ s
  | configuration s => "Configuration error: " ++ s

/-- The error of a kind whose content is one text. -/
def ofDetail? (detail : String) : ErrorKind → Option Error
  | .timeout => some (timeout detail)
  | .concurrency => some (concurrency detail)
  | .unavailable => some (unavailable detail)
  | .repository => some (repository detail)
  | .unknownEntity => some (unknownEntity detail)
  | .unknownAlias => some (unknownAlias detail)
  | .unsupportedPredicate => some (unsupportedPredicate detail)
  | .unsupportedProjection => some (unsupportedProjection detail)
  | .invalidPagination => some (invalidPagination detail)
  | .mapping => some (mapping detail)
  | .transaction => some (transaction detail)
  | .configuration => some (configuration detail)
  | _ => none

/-- The constraint that was violated, if one was. -/
def constraint? : Error → Option ConstraintKind
  | constraintViolation k _ => some k
  | _ => none

/-- The same operation may succeed when it is tried again. -/
def isTransient : Error → Bool
  | timeout _ => true
  | concurrency _ => true
  | unavailable _ => true
  | _ => false

end Error

/-- What ends a computation before it has a result. -/
inductive Stop where
  | error (e : Error)
  | overflow
  deriving DecidableEq, Repr

/-- An error said differently. -/
def Stop.mapError (say : Error → Error) : Stop → Stop
  | error e => error (say e)
  | overflow => overflow

/-- The result of a computation that may fail, as one that may also overflow. -/
def reported (r : Except Error α) : Except Stop α := r.mapError .error

/-- The result of arithmetic that may overflow, as one that may also fail. -/
def checked (r : Except Number.Overflow α) : Except Stop α := r.mapError fun _ => .overflow

instance : MonadLift (Except Error) (Except Stop) := ⟨reported⟩

instance : MonadLift (Except Number.Overflow) (Except Stop) := ⟨checked⟩

@[simp] theorem reported_ok (a : α) : reported (.ok a) = .ok a := rfl

@[simp] theorem reported_error (e : Error) :
    reported (.error e : Except Error α) = .error (.error e) := rfl

@[simp] theorem checked_ok (a : α) : checked (.ok a) = .ok a := rfl

@[simp] theorem checked_error (o : Number.Overflow) :
    checked (.error o : Except Number.Overflow α) = .error .overflow := rfl

theorem reported_eq_ok_iff {r : Except Error α} {a : α} : reported r = .ok a ↔ r = .ok a := by
  cases r <;> simp

theorem reported_eq_error_iff {r : Except Error α} {e : Error} :
    reported r = .error (.error e) ↔ r = .error e := by
  cases r <;> simp

/-- A computation that only fails stops with an error. -/
theorem exists_of_reported_error {r : Except Error α} {stop : Stop}
    (h : reported r = .error stop) : ∃ e, r = .error e ∧ stop = .error e := by
  cases r with
  | ok a => cases h
  | error e => exact ⟨e, rfl, (Except.error.inj h).symm⟩

theorem checked_eq_ok_iff {r : Except Number.Overflow α} {a : α} :
    checked r = .ok a ↔ r = .ok a := by
  cases r <;> simp

/-- A computation that only overflows stops with an overflow. -/
theorem of_checked_error {r : Except Number.Overflow α} {stop : Stop}
    (h : checked r = .error stop) : r = .error ⟨⟩ ∧ stop = .overflow := by
  cases r with
  | ok a => cases h
  | error e => exact ⟨rfl, (Except.error.inj h).symm⟩

end RecordQuery
