import Mathlib.Data.List.Nodup
import RecordQuery.Proofs.Metadata.Keys
import RecordQuery.Proofs.Rows.Stored
import RecordQuery.Proofs.Write.Batches
import RecordQuery.Proofs.Write.Record
import RecordQuery.Proofs.Write.Target

/-!
# A record that is inserted and selected again

The columns of a table are declared in one order, written in that order without the computed ones,
and read in the order of the select list under the names of fields. Every field comes back from the
column it was written to: with its value as it is bound and read, or with the zero of its type if
the storage computes it (`inserted_record_comes_back`).
-/

namespace RecordQuery

open Sql List

/-- The metadata has every field of the shape, and no column twice. -/
structure Metadata.Declares (m : Metadata) (s : Shape) : Prop where
  fields : ∀ f ∈ s.fields, ∃ c ∈ m.columns, c.field = f.name
  columns : (m.columns.map (·.column)).Nodup

/-- The record has one value for every field of the shape, and no field twice. -/
structure Record.Holds (e : Record) (s : Shape) : Prop where
  shape : e.shape = s.id
  fields : e.cells.map (·.1) = s.fields
  distinct : s.fieldNames.Nodup

/-- What a field has when it is read again. -/
def Metadata.reread (m : Metadata) (f : Field) (v : Value) : Except Stop Value :=
  if m.isComputed f.name then .ok f.type.zeroValue else f.type.normalize v.bound

theorem FieldType.normalize_null (t : FieldType) : t.normalize .null = .ok t.zeroValue := by
  cases t <;> rfl

namespace Record.Holds

variable {e : Record} {s : Shape} {m : Metadata}

theorem lookup (he : e.Holds s) {cell : Field × Value} (hc : cell ∈ e.cells) :
    e.toValues.lookup cell.1.name = some cell.2 := by
  have names : (e.cells.map fun cell => cell.1.name).Nodup := by
    have h := he.distinct
    rw [Shape.fieldNames, ← he.fields, map_map] at h
    exact h
  exact lookup_map names hc

/-- The record has values for the fields of the shape and for nothing else. -/
theorem lookup_isSome_iff (he : e.Holds s) {name : String} :
    (e.toValues.lookup name).isSome = true ↔ s.hasField name = true := by
  have names : e.toValues.map (·.1) = s.fieldNames := by
    rw [Record.toValues, Shape.fieldNames, ← he.fields, map_map, map_map]
    rfl
  rw [Shape.hasField, contains_iff_mem, ← names]
  constructor
  · intro found
    refine Classical.byContradiction fun absent => ?_
    rw [lookup_eq_none_of_not_mem absent] at found
    cases found
  · intro hmem
    obtain ⟨p, hp, rfl⟩ := mem_map.mp hmem
    obtain ⟨cell, hcell, rfl⟩ := mem_map.mp hp
    rw [he.lookup hcell]
    rfl

theorem initial_eq (he : e.Holds s) :
    (Record.initial s).cells = e.cells.map fun cell => (cell.1, cell.1.initial) := by
  rw [Record.initial, ← he.fields, map_map]
  rfl

end Record.Holds

/-! ## The stored row -/

namespace Metadata

/-- The row that is stored for a record: the values of the fields that may be written, as they are
bound. -/
def rowFor (m : Metadata) (e : Record) : StoredRow :=
  StoredRow.of (m.writable.map (·.column))
    (m.writable.map fun c => ((e.toValues.lookup c.field).getD .null).bound)

theorem rowFor_column {m : Metadata} {s : Shape} {e : Record} (hm : m.Declares s)
    (he : e.Holds s) {cell : Field × Value} (hcell : cell ∈ e.cells) {c : Mapping}
    (hc : c ∈ m.columns) (hf : c.field = cell.1.name) :
    m.rowFor e c.column = if m.isComputed cell.1.name then .null else cell.2.bound := by
  split
  · next computed =>
    refine StoredRow.of_of_not_mem fun hmem => ?_
    obtain ⟨d, hd, same⟩ := mem_map.mp hmem
    obtain ⟨hd, written⟩ := mem_writable_iff.mp hd
    -- no other field is stored in the column
    rw [inj_on_of_nodup_map hm.columns hd hc same, hf, computed] at written
    cases written
  · next written =>
    have mem : c ∈ m.writable := mem_writable_iff.mpr ⟨hc, by rw [hf]; simpa using written⟩
    have columns : (m.writable.map (·.column)).Nodup := hm.columns.sublist (filter_sublist.map _)
    rw [rowFor, StoredRow.of_map columns mem, hf, he.lookup hcell]
    rfl

end Metadata

/-- A plan for a record is one statement, which stores the row of the record. -/
theorem Write.InsertPlan.stores_row {r : Registry} {d : Dialect} {shape : ShapeId} {m : Metadata}
    {e : Record} {p : InsertPlan} (hm : r.get? shape = some m)
    (h : Engine.insertPlan r shape [e] = .ok p) :
    ∃ st, p.batches d = .ok [st] ∧ (m.writable.length ≤ d.maxParameters → p.build d = .ok st) ∧
      ∀ db : Database, (db.store st).rows m.table = db.rows m.table ++ [m.rowFor e] := by
  have fields := Metadata.nodup_fields (Registry.fault?_of_get? hm)
  obtain ⟨columns, row, found, rfl⟩ := (Engine.insertPlan_singleton_ok_iff hm fields).mp h
  obtain ⟨st, hst⟩ : ∃ st, InsertPlan.statement
      { target := ⟨shape, m⟩, columns := m.writable, rows := [row] } d [row] = .ok st :=
    ⟨_, statement_ok_iff.mpr ⟨columns, cons_ne_nil _ _, none, rfl, rfl⟩⟩
  refine ⟨st, batches_ok_singleton_iff.mpr ⟨batchSize_pos _ d, hst⟩, fun width => ?_, fun db => ?_⟩
  · exact build_ok_iff.mpr ⟨⟨by simpa using width, (by decide : 1 ≤ maxRows)⟩, hst⟩
  · have values : row = m.writable.map fun c => (e.toValues.lookup c.field).getD .null := by
      have values := congrArg (map fun v => Option.getD v .null) found
      rw [map_map, map_map] at values
      exact (values.trans (map_id row)).symm
    have table : st.tableName = some m.table := tableName_statement hst
    have names : st.columnNames = m.writable.map (·.column) := columnNames_statement hst
    have tuples : st.tuples = [row.map Value.bound] := tuples_statement hst
    rw [Database.store]
    simp only [table, names, tuples, if_true, map_cons, map_nil]
    rw [values, map_map]
    rfl

/-! ## The row that is read -/

/-- Each field is read from the column it was written to. -/
theorem Record.ofRow_rowFor_iff {s : Shape} {m : Metadata} {e back : Record}
    (distinct : (m.columns.map (·.field)).Nodup) (hm : m.Declares s) (he : e.Holds s) :
    Record.ofRow s ⟨m.columns.map (·.field), m.columns.map fun c => m.rowFor e c.column⟩
        = .ok back ↔
      back.shape = s.id ∧
        Forall₂ (fun cell cell' => cell'.1 = cell.1 ∧ m.reread cell.1 cell.2 = .ok cell'.2)
          e.cells back.cells := by
  have pairs : Row.pairs ⟨m.columns.map (·.field), m.columns.map fun c => m.rowFor e c.column⟩
      = m.columns.map fun c => (c.field, m.rowFor e c.column) := zip_map'
  have names : ((Row.pairs ⟨m.columns.map (·.field),
      m.columns.map fun c => m.rowFor e c.column⟩).map (·.1)).Nodup := by
    rw [pairs, map_map]
    exact distinct
  rw [Record.ofRow_ok_iff he.distinct names, pairs, he.initial_eq, forall₂_map_left_iff]
  refine and_congr_right fun _ => forall₂_iff_of_mem fun cell hcell cell' => ?_
  obtain ⟨c, hc, hf⟩ := hm.fields cell.1 (he.fields ▸ mem_map_of_mem hcell)
  have column : (m.columns.map fun c => (c.field, m.rowFor e c.column)).lookup cell.1.name
      = some (if m.isComputed cell.1.name then .null else cell.2.bound) := by
    rw [← hf, lookup_map distinct hc, m.rowFor_column hm he hcell hc hf, hf]
  simp only [Fills, column, Metadata.reread]
  refine and_congr_right fun _ => ?_
  by_cases computed : m.isComputed cell.1.name = true
  · simp only [if_pos computed, FieldType.normalize_null]
  · simp only [if_neg computed]

/-- A record can be inserted if something may be written and it has a value for all of that. The row
that is stored is the one that selecting all rows adds, and reads as the record with what every
field has when it is read again. -/
theorem inserted_record_comes_back {r : Registry} {d : Dialect} {s : Shape} {m : Metadata}
    {e : Record} (registered : r.get? s.id = some m) (hm : m.Declares s) (he : e.Holds s) :
    ((∃ p, Engine.insertPlan r s.id [e] = .ok p) ↔
      m.writable ≠ [] ∧ ∀ c ∈ m.writable, s.hasField c.field = true) ∧
    ∀ p, Engine.insertPlan r s.id [e] = .ok p →
      ∃ st q vs x, p.batches d = .ok [st] ∧
        (m.writable.length ≤ d.maxParameters → p.build d = .ok st) ∧
        (Query.ofShape s).statement r d .rows = .ok q ∧
        ((Query.ofShape s).retrieval r .rows).run 0 = (vs, .ok ⟨.rows, x⟩) ∧
        q = .ofPieces (x.pieces d) vs ∧
        ∀ db : Database, ∃ row, x.rows (db.store st) q.params = x.rows db q.params ++ [row] ∧
          ∀ back, Record.ofRow s ⟨x.columns.map (·.label), row.columns⟩ = .ok back ↔
            back.shape = s.id ∧
              Forall₂ (fun cell cell' => cell'.1 = cell.1 ∧ m.reread cell.1 cell.2 = .ok cell'.2)
                e.cells back.cells := by
  have distinct := Metadata.nodup_fields (Registry.fault?_of_get? registered)
  constructor
  · simp only [Engine.insertPlan_singleton_ok_iff registered distinct, ← he.lookup_isSome_iff]
    constructor
    · rintro ⟨_, written, row, found, _⟩
      refine ⟨written, fun c hc => ?_⟩
      have value : e.toValues.lookup c.field ∈ row.map some := found ▸ mem_map_of_mem hc
      obtain ⟨v, _, hv⟩ := mem_map.mp value
      rw [← hv]
      rfl
    · rintro ⟨written, found⟩
      refine ⟨_, written, m.writable.map fun c => (e.toValues.lookup c.field).getD .null, ?_, rfl⟩
      rw [map_map]
      refine map_congr_left fun c hc => ?_
      obtain ⟨v, hv⟩ := Option.isSome_iff_exists.mp (found c hc)
      simp [hv]
  · intro p hp
    obtain ⟨st, batch, built, stored⟩ := Write.InsertPlan.stores_row (d := d) registered hp
    have select := Lowering.run_map_ok_iff (f := Retrieval.mk .rows).mpr
      ⟨_, Query.toSelect_ofShape registered 0, rfl⟩
    refine ⟨st, _, [], selectAll s.id m, batch, built,
      Lowering.statement_ok_iff.mpr ⟨[], _, select, rfl⟩, select, rfl,
      fun db => ?_⟩
    refine ⟨⟨m.columns.map fun c => m.rowFor e c.column, []⟩, ?_, fun back => ?_⟩
    · rw [rows_selectAll, rows_selectAll, stored, map_append]
      rfl
    · have labels : (selectAll s.id m).columns.map (·.label) = m.columns.map (·.field) := by
        simp [selectAll, Query.tableColumns]
      rw [labels]
      exact Record.ofRow_rowFor_iff distinct hm he

/-- Two fields are stored under the name of each other, and one is computed. -/
def crossedShape : Shape where
  id := "Odd"
  fields := [
    { name := "a", type := .required .text }, { name := "b", type := .required .int },
    { name := "c", type := .required .long, initial := .long 7 }]

def crossedMetadata : Metadata where
  table := "Odd]Table"
  columns := [⟨"c", "we]ird [c]"⟩, ⟨"b", "a"⟩, ⟨"a", "b"⟩]
  keys := ["a"]
  computed := ["c"]

def crossedRegistry : Registry where
  entries := [("Odd", crossedMetadata)]
  sound := by decide

def crossedRecord : Record := ⟨"Odd", crossedShape.fields.zip [.text "@p1", .int 2, .long 3]⟩

theorem inserted_record_comes_back_crossed :
    ∃ p st q x, Engine.insertPlan crossedRegistry "Odd" [crossedRecord] = .ok p ∧
      p.build .sqlite = .ok st ∧
      (Query.ofShape crossedShape).statement crossedRegistry .sqlite .rows = .ok q ∧
      ((Query.ofShape crossedShape).retrieval crossedRegistry .rows).run 0 = ([], .ok ⟨.rows, x⟩) ∧
      ∀ db : Database, ∃ row, x.rows (db.store st) q.params = x.rows db q.params ++ [row] ∧
        Record.ofRow crossedShape ⟨x.columns.map (·.label), row.columns⟩
          = .ok ⟨"Odd", crossedShape.fields.zip [.text "@p1", .int 2, .long 0]⟩ := by
  obtain ⟨possible, returned⟩ := inserted_record_comes_back (r := crossedRegistry) (d := .sqlite)
    (s := crossedShape) (m := crossedMetadata) (e := crossedRecord) rfl
    ⟨by decide, by decide⟩ ⟨rfl, rfl, by decide⟩
  obtain ⟨p, hp⟩ := possible.mpr ⟨List.cons_ne_nil _ _, by decide⟩
  obtain ⟨st, q, vs, x, _, built, selected, hx, _, stored⟩ := returned p hp
  cases (Prod.mk.inj hx).1
  refine ⟨p, st, q, x, hp, built (by decide), selected, hx, fun db => ?_⟩
  obtain ⟨row, added, reads⟩ := stored db
  refine ⟨row, added, (reads _).mpr ⟨rfl, ?_⟩⟩
  exact .cons ⟨rfl, rfl⟩ (.cons ⟨rfl, rfl⟩ (.cons ⟨rfl, rfl⟩ .nil))

end RecordQuery
