import RecordQuery.Classify
import RecordQuery.Row
import RecordQuery.Sql.Piece

/-!
# SQLite values

SQLite keeps a value in one of five storage classes. `Stored.ofValue` is what it keeps of a bound
value, `Stored.toValue` what a column gives back. `Prepared` is a statement with parameters bound
to it by name, and `classify` classifies a failure by its result code and message.
-/

namespace RecordQuery.Sqlite

open Number

/-- A value in its storage class. -/
inductive Stored where
  | null
  | integer (n : Int64)
  | real (x : Double)
  | text (s : String)
  | blob (b : List UInt8)
  deriving DecidableEq, Repr

namespace Stored

/-- A number, or null in place of one that is not a number. -/
def ofDouble (x : Double) : Stored := if x.isNaN then null else real x

def ofValue : Value → Stored
  | .null => null
  | .bool b => integer (if b then 1 else 0)
  | .int n => integer n.toInt64
  | .long n => integer n
  | .single x => ofDouble (Double.ofSingle x)
  | .double x => ofDouble x
  | .text s => text s
  | .bytes b => blob b
  | .timestamp t => text t.text
  | .uuid u => text u.text

def toValue : Stored → Value
  | null => .null
  | integer n => .long n
  | real x => .double x
  | text s => .text s
  | blob b => .bytes b

end Stored

/-- The parameters that occur in a statement and what is bound to them so far. -/
structure Prepared where
  parameters : List String
  bindings : List (String × Stored) := []
  deriving DecidableEq, Repr

namespace Prepared

def bind (p : Prepared) (param : Param) : Except Error Prepared :=
  if p.parameters.contains param.name then
    .ok { p with bindings := (param.name, .ofValue param.value) :: p.bindings }
  else
    .error (.configuration ("parameter " ++ param.name ++ " does not occur in the statement"))

def bindAll (p : Prepared) (params : List Param) : Except Error Prepared := params.foldlM bind p

/-- What is bound to a parameter last; null before anything is. -/
def value (p : Prepared) (name : String) : Stored :=
  ((p.bindings.find? (·.1 == name)).map (·.2)).getD .null

end Prepared

/-- The row of a statement that selects parameters by name as columns `c0`, `c1` and so on. -/
def selectParameters (names : List String) (params : List Param) : Except Error Row := do
  let p ← ({ parameters := names } : Prepared).bindAll params
  return .ofPairs (names.zipIdx.map fun (name, i) =>
    ("c" ++ natText i, (p.value name).toValue))

/-- The primary result code of an interrupted statement. -/
def interruptedCode : Int := 9

/-- The extended result code of a primary key that is in use already. -/
def primaryKeyCode : Int := 1555

/-- The codes of interruption and of a primary key decide; otherwise the message does. -/
def classify (code : Int) (message : String) : Error :=
  if code % 256 = interruptedCode then .cancelled
  else if code = primaryKeyCode then
    match RecordQuery.classify message with
    | .constraintViolation _ name => .constraintViolation .primaryKey name
    | _ => .constraintViolation .primaryKey ""
  else RecordQuery.classify message

end RecordQuery.Sqlite
