import RecordQuery.Error
import RecordQuery.ShapeId
import RecordQuery.Text.Blank

/-!
# Entity metadata

`Metadata` says where records of a shape are stored: the table, the column behind every field,
the key fields and the fields the storage computes. A `Registry` holds the metadata of shapes by
their identity; only metadata without a `Fault` enters it, and no shape enters it twice.
-/

namespace RecordQuery

/-- A field and the column it is stored in. -/
structure Mapping where
  field : String
  column : String
  deriving DecidableEq, Repr

structure Metadata where
  table : String
  columns : List Mapping
  keys : List String := []
  computed : List String := []
  deriving DecidableEq, Repr

namespace Metadata

/-- The mapping of the field of that name, else of the column of that name. -/
def columnFor? (m : Metadata) (name : String) : Option Mapping :=
  (m.columns.find? (·.field == name)).or (m.columns.find? (·.column == name))

def fieldMapping? (m : Metadata) (field : String) : Option Mapping :=
  m.columns.find? (·.field == field)

def isKey (m : Metadata) (field : String) : Bool := m.keys.contains field

def isComputed (m : Metadata) (field : String) : Bool := m.computed.contains field

/-- The columns a write may set. -/
def writable (m : Metadata) : List Mapping := m.columns.filter fun c => !m.isComputed c.field

/-- The mapping of the first key field. -/
def primaryKey? (m : Metadata) : Option Mapping := m.keys.head?.bind m.fieldMapping?

/-- The columns that order the rows of a page when no order is given: those of the key, or all of
them if there is no key. -/
def fallbackOrder (m : Metadata) : List Mapping :=
  let keys := m.keys.filterMap m.fieldMapping?
  if keys.isEmpty then m.columns else keys

/-- What is wrong with a declaration. -/
inductive Fault where
  | blankTable
  | noColumns
  | repeatedField (field : String)
  | undeclared (field : String)
  deriving DecidableEq, Repr

def Fault.message (shape : String) : Fault → String
  | blankTable => shape ++ ": table name is empty"
  | noColumns => shape ++ ": no columns declared"
  | repeatedField field => shape ++ ": field '" ++ field ++ "' declared twice"
  | undeclared field => shape ++ ": '" ++ field ++ "' is not a declared column"

/-- The first name that occurs in the names before it. -/
def firstRepeated? (seen : List String) : List String → Option String
  | [] => none
  | n :: ns => if seen.contains n then some n else firstRepeated? (n :: seen) ns

def fault? (m : Metadata) : Option Fault :=
  let fields := m.columns.map (·.field)
  if Text.isBlankText m.table then some .blankTable
  else if m.columns.isEmpty then some .noColumns
  else match firstRepeated? [] fields with
    | some f => some (.repeatedField f)
    | none => ((m.keys ++ m.computed).find? fun f => !fields.contains f).map .undeclared

end Metadata

structure Registry where
  entries : List (ShapeId × Metadata) := []
  sound : ∀ e ∈ entries, e.2.fault? = none := by simp
  distinct : (entries.map (·.1)).Nodup := by simp

namespace Registry

def empty : Registry := {}

def get? (r : Registry) (shape : ShapeId) : Option Metadata :=
  (r.entries.find? (·.1 == shape)).map (·.2)

def contains (r : Registry) (shape : ShapeId) : Bool := (r.entries.map (·.1)).contains shape

def get (r : Registry) (shape : ShapeId) : Except Error Metadata :=
  match r.get? shape with
  | some m => .ok m
  | none => .error (.unknownEntity shape.name)

def size (r : Registry) : Nat := r.entries.length

def isEmpty (r : Registry) : Bool := r.entries.isEmpty

/-- The registry with the metadata of one more shape. -/
def register (r : Registry) (shape : ShapeId) (m : Metadata) : Except Error Registry :=
  match hm : m.fault? with
  | some f => .error (.configuration (f.message shape.name))
  | none =>
    if hs : shape ∈ r.entries.map (·.1) then
      .error (.configuration (shape.name ++ " registered twice"))
    else .ok {
      entries := r.entries ++ [(shape, m)]
      sound := by
        intro e he
        rcases List.mem_append.mp he with he | he
        · exact r.sound e he
        · rw [List.mem_singleton.mp he]; exact hm
      distinct := by
        rw [List.map_append, List.nodup_append]
        refine ⟨r.distinct, by simp, ?_⟩
        intro a ha b hb
        simp only [List.map_cons, List.map_nil, List.mem_singleton] at hb
        rintro rfl
        exact hs (hb ▸ ha) }

/-- The registry of several shapes, registered in order. -/
def ofList (entries : List (ShapeId × Metadata)) : Except Error Registry :=
  entries.foldlM (fun r (shape, m) => r.register shape m) empty

end Registry

end RecordQuery
