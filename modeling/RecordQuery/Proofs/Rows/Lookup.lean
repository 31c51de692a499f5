import Mathlib.Data.List.Induction
import RecordQuery.Wire.Form

/-!
# Look-ups in rows

A look-up by name gives the value beside the first column of that name, as far as the values reach
(`Row.get_eq_ok_iff`, `Row.get_eq_error_iff`). So every look-up is defined exactly if no name stands
only where the values have ended. A row that columns were added to one by one is of this kind, and a
row that is read from a document need not be (`row_lookups_defined_iff`).
-/

namespace RecordQuery

theorem lookup_zip (names : List String) (values : List α) (name : String) :
    (names.zip values).lookup name = (names.findIdx? (· == name)).bind (values[·]?) := by
  induction names generalizing values with
  | nil => rfl
  | cons n names ih =>
    cases values with
    | nil => simp
    | cons v values =>
      rw [List.zip_cons_cons, List.lookup_cons, List.findIdx?_cons]
      by_cases h : n = name
      · simp [h]
      · have ne : (name == n) = false := by simpa using fun e : name = n => h e.symm
        simp only [ne, ih, beq_iff_eq, if_neg h, Option.bind_map]
        rfl

namespace Row

variable {r : Row} {c : String}

/-- The value beside the first column of a name stands at the position of that column. -/
theorem lookup_pairs (r : Row) (c : String) :
    r.pairs.lookup c = (r.position? c).bind r.valueAt? :=
  lookup_zip r.columns r.values c

theorem position?_eq_some_iff {i : Nat} :
    r.position? c = some i ↔ r.columns[i]? = some c ∧ c ∉ r.columns.take i := by
  rw [position?, List.findIdx?_eq_some_iff_getElem]
  simp only [beq_iff_eq, List.mem_take_iff_getElem, List.getElem?_eq_some_iff, not_exists]
  constructor
  · rintro ⟨inside, here, before⟩
    exact ⟨⟨inside, here⟩, fun j hj => before j (by omega)⟩
  · rintro ⟨⟨inside, here⟩, before⟩
    exact ⟨inside, here, fun j hj => before j (by omega)⟩

theorem get_eq_ok_iff {v : Option Value} :
    r.get c = .ok v ↔ v = r.pairs.lookup c ∧ ∀ i, r.position? c = some i → i < r.size := by
  rw [lookup_pairs, get]
  cases r.position? c with
  | none => simp [eq_comm]
  | some i =>
    cases h : r.valueAt? i with
    | none =>
      have past : r.size ≤ i := List.getElem?_eq_none_iff.mp h
      simp [h, past]
    | some w =>
      have inside : i < r.size := (List.getElem?_eq_some_iff.mp h).1
      simp [h, inside, eq_comm]

theorem get_eq_error_iff {f : PastEnd} :
    r.get c = .error f ↔
      r.position? c = some f.position ∧ r.size ≤ f.position ∧ f.size = r.size := by
  obtain ⟨position, size⟩ := f
  rw [get]
  cases r.position? c with
  | none => simp
  | some i =>
    cases h : r.valueAt? i with
    | none =>
      have past : r.size ≤ i := List.getElem?_eq_none_iff.mp h
      simp only [h, Except.error.injEq, PastEnd.mk.injEq, Option.some.injEq]
      constructor
      · rintro ⟨rfl, rfl⟩
        exact ⟨rfl, past, rfl⟩
      · rintro ⟨rfl, _, rfl⟩
        exact ⟨rfl, rfl⟩
    | some w =>
      have inside : i < r.size := (List.getElem?_eq_some_iff.mp h).1
      simp only [h, reduceCtorEq, Option.some.injEq, false_iff]
      rintro ⟨rfl, past, _⟩
      exact Nat.not_lt_of_le past inside

/-- No name stands only where the values have ended. -/
def Covered (r : Row) : Prop := ∀ c ∈ r.columns.drop r.size, c ∈ r.columns.take r.size

/-- The first column of a name has a value unless the name stands past the values only. -/
theorem position?_lt_iff : (∀ i, r.position? c = some i → i < r.size) ↔
    (c ∈ r.columns.drop r.size → c ∈ r.columns.take r.size) := by
  constructor
  · intro inside late
    have named : c ∈ r.columns := List.mem_of_mem_drop late
    obtain ⟨i, hi⟩ : ∃ i, r.position? c = some i := by
      rw [← Option.isSome_iff_exists, position?, List.findIdx?_isSome]
      exact List.any_eq_true.mpr ⟨c, named, beq_self_eq_true c⟩
    obtain ⟨here, _⟩ := position?_eq_some_iff.mp hi
    obtain ⟨bound, rfl⟩ := List.getElem?_eq_some_iff.mp here
    have := inside i hi
    exact List.mem_take_iff_getElem.mpr ⟨i, by omega, rfl⟩
  · intro early i hi
    obtain ⟨here, first⟩ := position?_eq_some_iff.mp hi
    by_contra past
    obtain ⟨bound, value⟩ := List.getElem?_eq_some_iff.mp here
    have late : c ∈ r.columns.drop r.size :=
      List.mem_drop_iff_getElem.mpr ⟨i - r.size, by omega, by
        rw [← value]
        congr 1
        omega⟩
    exact first (List.take_subset_take_left _ (by omega) (early late))

theorem defined_iff (r : Row) : (∀ c, ∃ v, r.get c = .ok v) ↔ r.Covered := by
  simp only [get_eq_ok_iff, exists_eq_left, position?_lt_iff]
  rfl

/-! ## Rows put together -/

/-- The row is the empty one with columns added one by one. -/
inductive Built : Row → Prop
  | empty : Built .empty
  | insert {r : Row} (h : Built r) (column : String) (v : Value) : Built (r.insert column v)

theorem Built.length (h : r.Built) : r.columns.length = r.size := by
  induction h with
  | empty => rfl
  | insert _ column v ih =>
    rw [size] at ih ⊢
    simp [Row.insert, ih]

theorem Built.covered (h : r.Built) : r.Covered := by
  intro c late
  rw [← h.length, List.drop_length] at late
  cases late

theorem ofPairs_concat (ps : List (String × Value)) (p : String × Value) :
    ofPairs (ps ++ [p]) = (ofPairs ps).insert p.1 p.2 := by
  simp [ofPairs, Row.insert]

/-- Rows that columns are added to are the rows of pairs. -/
theorem built_iff : r.Built ↔ ∃ ps, r = ofPairs ps := by
  constructor
  · intro h
    induction h with
    | empty => exact ⟨[], rfl⟩
    | insert _ column v ih =>
      obtain ⟨ps, rfl⟩ := ih
      exact ⟨ps ++ [(column, v)], (ofPairs_concat ps (column, v)).symm⟩
  · rintro ⟨ps, rfl⟩
    induction ps using List.reverseRecOn with
    | nil => exact .empty
    | append_singleton ps p ih => exact ofPairs_concat ps p ▸ ih.insert p.1 p.2

/-! ## Rows that are read -/

/-- The document of names and of values that are documents themselves. -/
def documentOf (names : List String) (values : List Document) : Document :=
  .object [("columns", .list (names.map .text)), ("values", .list values)]

theorem mapM_text? (names : List String) :
    (names.map Document.text).mapM Document.text? = some names := by
  induction names with
  | nil => rfl
  | cons n names ih => simp [ih, Document.text?]

/-- Names and values are read apart: there may be any number of either. -/
theorem ofDocument?_documentOf {documents : List Document} {values : List Value}
    (h : documents.mapM Value.ofDocument? = some values) (names : List String) :
    ofDocument? (documentOf names documents) = some ⟨names, values⟩ := by
  have columns : (Document.list (names.map .text)).listOf? Document.text? = some names :=
    mapM_text? names
  have cells : (Document.list documents).listOf? Value.ofDocument? = some values := h
  have parts : (documentOf names documents).parts? ["columns", "values"]
      = some [some (.list (names.map .text)), some (.list documents)] := rfl
  rw [ofDocument?, parts]
  simp [columns, cells]

end Row

/-- Every look-up in a row is defined exactly if no name stands past the values only. One that is
defined gives the value of the first pair of the name, and one that is not has met the first column
of the name past the values. A row put together, from pairs or column by column, is such a row; but
any row is read from the document of its names and values, and has the look-ups that these leave. -/
theorem row_lookups_defined_iff (r : Row) :
    ((∀ c, ∃ v, r.get c = .ok v) ↔ r.Covered) ∧
    (∀ c v, r.get c = .ok v → v = r.pairs.lookup c) ∧
    (∀ c f, r.get c = .error f → r.position? c = some f.position ∧ r.size ≤ f.position) ∧
    (r.Built ↔ ∃ ps, r = .ofPairs ps) ∧ (r.Built → r.Covered) ∧
    ∀ documents, documents.mapM Value.ofDocument? = some r.values →
      Row.ofDocument? (Row.documentOf r.columns documents) = some r := by
  refine ⟨r.defined_iff, fun c v h => ?_, fun c f h => ?_, Row.built_iff, fun h => h.covered,
    fun documents h => Row.ofDocument?_documentOf h r.columns⟩
  · exact (Row.get_eq_ok_iff.mp h).1
  · obtain ⟨position, past, _⟩ := Row.get_eq_error_iff.mp h
    exact ⟨position, past⟩

/-- The name past the values stands before them too. -/
def longRow : Row := ⟨["id", "total", "id"], [.int 7, .null]⟩

theorem row_lookups_defined_iff_longRow :
    Row.ofDocument? (Row.documentOf ["id", "total", "id"]
        [.object [("Int", .whole 7)], .text "Null"]) = some longRow ∧
      (∀ c, ∃ v, longRow.get c = .ok v) ∧
      (Row.ofPairs [("id", .int 7), ("id", .int 8)]).get "id" = .ok (some (.int 7)) := by
  obtain ⟨defined, _, _, _, _, read⟩ := row_lookups_defined_iff longRow
  refine ⟨read _ rfl, defined.mpr ?_, ?_⟩
  · unfold Row.Covered
    decide
  · obtain ⟨defined, first, _, built, covered, _⟩ :=
      row_lookups_defined_iff (.ofPairs [("id", .int 7), ("id", .int 8)])
    obtain ⟨v, hv⟩ := defined.mpr (covered (built.mpr ⟨_, rfl⟩)) "id"
    rw [hv, first "id" v hv]
    rfl

/-- A row of a name without a value is read, and the name cannot be looked up in it. -/
theorem unvalued_row_read :
    Row.ofDocument? (Row.documentOf ["id"] []) = some ⟨["id"], []⟩ ∧
    Row.get ⟨["id"], []⟩ "id" = .error ⟨0, 0⟩ ∧
    ¬∀ d r, Row.ofDocument? d = some r → ∀ c, r.get c = .ok (r.pairs.lookup c) := by
  refine ⟨rfl, rfl, fun defined => ?_⟩
  cases defined (Row.documentOf ["id"] []) ⟨["id"], []⟩ rfl "id"

end RecordQuery
