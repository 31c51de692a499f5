import RecordQuery.Proofs.Compile.Clauses
import RecordQuery.Proofs.Rows.Basic
import RecordQuery.Proofs.Rows.Filled
import RecordQuery.Proofs.Sql.Tuples

/-!
# Rows that an INSERT stores

`Database.store` adds the rows in the text of an INSERT to the table the text names. Each row has
the values of its placeholders in the columns the text lists, and null in every other column. A
query for all rows of an entity selects every declared column of every stored row
(`rows_selectAll`).
-/

namespace RecordQuery

open Sql Lowering

/-- The stored row with values in columns, null in all others. -/
def StoredRow.of (columns : List String) (values : List Value) : StoredRow :=
  fun c => ((columns.zip values).lookup c).getD .null

/-- The database with the rows of an INSERT. -/
def Database.store (db : Database) (s : Statement) : Database :=
  { db with rows := fun table =>
      if s.tableName = some table then db.rows table ++ s.tuples.map (StoredRow.of s.columnNames)
      else db.rows table }

theorem StoredRow.of_of_not_mem {columns : List String} {values : List Value} {c : String}
    (h : c ∉ columns) : StoredRow.of columns values c = .null := by
  have absent : c ∉ (columns.zip values).map (·.1) := by
    intro hc
    obtain ⟨p, hp, rfl⟩ := List.mem_map.mp hc
    exact h (List.of_mem_zip hp).1
  rw [of, lookup_eq_none_of_not_mem absent]
  rfl

/-- Where columns differ, each has the value that stands at its place. -/
theorem StoredRow.of_map {xs : List α} {column : α → String} {value : α → Value}
    (h : (xs.map column).Nodup) {x : α} (hx : x ∈ xs) :
    StoredRow.of (xs.map column) (xs.map value) (column x) = value x := by
  rw [of, List.zip_map', lookup_map h hx]
  rfl

/-! ## All rows of an entity -/

/-- Every declared column of a table under the name of its field. -/
def selectAll (shape : ShapeId) (m : Metadata) : Select where
  distinct := false
  columns := Query.tableColumns ⟨shape, Query.baseAlias, m⟩
  table := m.table
  label := Query.baseAlias
  joins := []
  filters := []
  group := []
  orders := []
  window := none

theorem Scope.ofSources_ofShape {r : Registry} {s : Shape} {m : Metadata}
    (h : r.get? s.id = some m) :
    ofSources r (Query.ofShape s).sources = .ok ⟨[⟨s.id, Query.baseAlias, m⟩], 1⟩ := by
  have registered : r.get s.id = .ok m := Registry.get_eq_ok_iff.mpr h
  simp [ofSources, tablesOf, Query.sources, Query.ofShape, registered, bind, Except.bind, pure,
    Except.pure]

theorem Query.toSelect_ofShape {r : Registry} {s : Shape} {m : Metadata}
    (h : r.get? s.id = some m) (n : Nat) :
    ((Query.ofShape s).toSelect r).run n = ([], .ok (selectAll s.id m)) :=
  run_ofExcept_bind_ok_iff.mpr ⟨(), rfl, run_ofExcept_bind_ok_iff.mpr ⟨none, rfl,
    run_ofExcept_bind_ok_iff.mpr ⟨_, Scope.ofSources_ofShape h, rfl⟩⟩⟩

theorem rows_selectAll (shape : ShapeId) (m : Metadata) (db : Database) (ps : List Param) :
    (selectAll shape m).rows db ps
      = (db.rows m.table).map fun stored => ⟨m.columns.map fun c => stored c.column, []⟩ := by
  have plain : (selectAll shape m).aggregates = false := by
    simp [Select.aggregates, selectAll, Query.tableColumns, Term.isAggregate, Function.comp_def]
  have kept : (selectAll shape m).kept db ps
      = (db.rows m.table).map (RowValues.absent.beside Query.baseAlias) :=
    List.filter_eq_self.mpr fun _ _ => rfl
  have groups : (selectAll shape m).groups db ps
      = ((db.rows m.table).map (RowValues.absent.beside Query.baseAlias)).map ([·]) := by
    rw [Select.groups, plain, kept]
    rfl
  rw [Select.rows, groups]
  change List.map _ _ = _
  rw [List.map_map, List.map_map]
  refine List.map_congr_left fun stored _ => ?_
  simp [Select.result, selectAll, Query.tableColumns, Term.value, Term.quantity, Quantity.value,
    RowValues.beside, Function.comp_def]

end RecordQuery
