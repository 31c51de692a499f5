import RecordQuery.Value.Basic

/-!
# Result rows

A `Row` lists column names and values in the order they were selected in. A name may occur more
than once; `get` gives the value of the first column of that name. Nothing makes the two lists
equally long, and `get` fails where the values end before that column.
-/

namespace RecordQuery

structure Row where
  columns : List String := []
  values : List Value := []
  deriving DecidableEq, Repr

namespace Row

def empty : Row := {}

/-- The row with one more column at the end. -/
def insert (r : Row) (column : String) (v : Value) : Row :=
  ⟨r.columns ++ [column], r.values ++ [v]⟩

def ofPairs (ps : List (String × Value)) : Row := ⟨ps.map (·.1), ps.map (·.2)⟩

/-- Names and values side by side, as far as there are both. -/
def pairs (r : Row) : List (String × Value) := r.columns.zip r.values

def valueAt? (r : Row) (i : Nat) : Option Value := r.values[i]?

def size (r : Row) : Nat := r.values.length

/-- The position of the first column of that name. -/
def position? (r : Row) (column : String) : Option Nat := r.columns.findIdx? (· == column)

/-- A position that was looked up among fewer values. -/
structure PastEnd where
  position : Nat
  size : Nat
  deriving DecidableEq, Repr

/-- The value at the position of the first column of that name, if there is such a column. The
position is one of a name, and the value is expected there without a look at how many there are. -/
def get (r : Row) (column : String) : Except PastEnd (Option Value) :=
  match r.position? column with
  | none => .ok none
  | some i =>
    match r.valueAt? i with
    | some v => .ok (some v)
    | none => .error ⟨i, r.size⟩

def isEmpty (r : Row) : Bool := r.values.isEmpty

end Row

end RecordQuery
