import RecordQuery.Engine.Basic
import RecordQuery.Proofs.Compile.Scoping
import RecordQuery.Proofs.Metadata.Keys
import RecordQuery.Proofs.Rows.Filled

/-!
# Rows of records

A record is written with the value of the field of each column. A value is taken out of the record
when it is used (`takeRow_ok_iff`), which shows only where two columns are for one field
(`rowOf_ok_iff`). The plan that inserts records has a row for each of them, unless one has a fault
(`Engine.insertPlan_eq`).
-/

namespace RecordQuery

namespace Write

theorem takeValue?_eq_none_iff {name : String} {pairs : List (String × Value)} :
    takeValue? name pairs = none ↔ pairs.lookup name = none := by
  induction pairs with
  | nil => simp [takeValue?]
  | cons p pairs ih =>
    obtain ⟨n, v⟩ := p
    rw [takeValue?, List.lookup_cons]
    by_cases h : n = name
    · simp [h]
    · have ne : (name == n) = false := by simpa using fun e => h e.symm
      simp [h, ne, ih]

/-- The first value of the name is taken and null is left; values of other names stay. -/
theorem lookup_of_takeValue? {name : String} {pairs rest : List (String × Value)} {v : Value}
    (h : takeValue? name pairs = some (v, rest)) :
    pairs.lookup name = some v ∧
      ∀ n, rest.lookup n = if n = name then some .null else pairs.lookup n := by
  induction pairs generalizing rest with
  | nil => cases h
  | cons p pairs ih =>
    obtain ⟨n, u⟩ := p
    rw [takeValue?] at h
    split at h
    · next hn =>
      cases h
      subst hn
      refine ⟨by simp, fun k => ?_⟩
      rw [List.lookup_cons, List.lookup_cons]
      by_cases hk : k = n
      · simp [hk]
      · have ne : (k == n) = false := by simpa using hk
        simp [hk, ne]
    · next hn =>
      obtain ⟨⟨w, others⟩, hw, he⟩ := Option.map_eq_some_iff.mp h
      cases he
      obtain ⟨found, kept⟩ := ih hw
      have ne : (name == n) = false := by simpa using fun e => hn e.symm
      refine ⟨by simp [List.lookup_cons, ne, found], fun k => ?_⟩
      rw [List.lookup_cons, List.lookup_cons, kept k]
      by_cases hk : k = n
      · simp [hk, hn]
      · have ne : (k == n) = false := by simpa using hk
        simp [ne]

/-- What there is for a name once the values of some names were taken. -/
def leftValue? (pairs : List (String × Value)) (taken : List String) (name : String) :
    Option Value :=
  (pairs.lookup name).map fun v => if name ∈ taken then .null else v

theorem leftValue?_of_not_mem {taken : List String} {name : String} (h : name ∉ taken)
    (pairs : List (String × Value)) : leftValue? pairs taken name = pairs.lookup name := by
  simp [leftValue?, h]

theorem leftValue?_of_takeValue? {name : String} {pairs rest : List (String × Value)} {v : Value}
    (h : takeValue? name pairs = some (v, rest)) (taken : List String) (n : String) :
    leftValue? rest taken n = leftValue? pairs (name :: taken) n := by
  obtain ⟨found, kept⟩ := lookup_of_takeValue? h
  rw [leftValue?, leftValue?, kept]
  by_cases hn : n = name
  · simp [hn, found]
  · simp [hn]

/-- A row has a value for every column, and each is what the columns before left. -/
theorem takeRow_ok_iff {shape : String} {pairs : List (String × Value)} {columns : List Mapping}
    {row : List Value} :
    takeRow shape pairs columns = .ok row ↔ row.length = columns.length ∧
      ∀ i c, columns[i]? = some c →
        row[i]? = leftValue? pairs ((columns.take i).map (·.field)) c.field := by
  induction columns generalizing pairs row with
  | nil => cases row <;> simp [takeRow]
  | cons c columns ih =>
    rw [takeRow]
    split
    · next absent =>
      refine iff_of_false nofun fun ⟨length, values⟩ => ?_
      have first := values 0 c rfl
      rw [List.take_zero, List.map_nil, leftValue?_of_not_mem List.not_mem_nil,
        takeValue?_eq_none_iff.mp absent] at first
      have empty := List.getElem?_eq_none_iff.mp first
      rw [length, List.length_cons] at empty
      omega
    · next v rest taken =>
      have found := (lookup_of_takeValue? taken).1
      simp only [map_ok_iff, ih, leftValue?_of_takeValue? taken]
      constructor
      · rintro ⟨vs, ⟨length, values⟩, rfl⟩
        refine ⟨congrArg (· + 1) length, fun i d hd => ?_⟩
        cases i with
        | zero =>
          cases hd
          rw [List.take_zero, List.map_nil, leftValue?_of_not_mem List.not_mem_nil, found]
          rfl
        | succ i => exact values i d hd
      · rintro ⟨length, values⟩
        cases row with
        | nil => cases length
        | cons w ws =>
          have first := values 0 c rfl
          rw [List.take_zero, List.map_nil, leftValue?_of_not_mem List.not_mem_nil, found] at first
          cases first
          exact ⟨ws, ⟨Nat.succ.inj length, fun i d hd => values (i + 1) d hd⟩, rfl⟩

theorem map_eq_map_some_iff {f : α → Option β} {xs : List α} {ys : List β} :
    xs.map f = ys.map some ↔ ys.length = xs.length ∧
      ∀ (i : Nat) (x : α), xs[i]? = some x → ys[i]? = f x := by
  induction xs generalizing ys with
  | nil => cases ys <;> simp
  | cons x xs ih =>
    cases ys with
    | nil => simp
    | cons y ys =>
      rw [List.map_cons, List.map_cons, List.cons.injEq, ih]
      constructor
      · rintro ⟨first, length, values⟩
        refine ⟨congrArg (· + 1) length, fun i z hz => ?_⟩
        cases i with
        | zero =>
          cases hz
          exact first.symm
        | succ i => exact values i z hz
      · rintro ⟨length, values⟩
        exact ⟨(values 0 x rfl).symm, Nat.succ.inj length, fun i z hz => values (i + 1) z hz⟩

/-- Before a column of a list with one for every field there is none for its field. -/
theorem field_not_mem_take {columns : List Mapping} (h : (columns.map (·.field)).Nodup) {i : Nat}
    {c : Mapping} (hc : columns[i]? = some c) : c.field ∉ (columns.take i).map (·.field) := by
  obtain ⟨inside, rfl⟩ := List.getElem?_eq_some_iff.mp hc
  rw [← List.take_append_drop i columns, List.drop_eq_getElem_cons inside, List.map_append,
    List.nodup_append] at h
  exact fun mem => h.2.2 _ mem _ (List.mem_map_of_mem List.mem_cons_self) rfl

/-- The row of a record for columns of different fields has the value of the field of each. -/
theorem rowOf_ok_iff {record : Record} {columns : List Mapping} {row : List Value}
    (h : (columns.map (·.field)).Nodup) :
    rowOf record columns = .ok row ↔
      columns.map (fun c => record.toValues.lookup c.field) = row.map some := by
  rw [rowOf, takeRow_ok_iff, map_eq_map_some_iff]
  refine and_congr_right fun _ => forall₃_congr fun i c hc => ?_
  rw [leftValue?_of_not_mem (field_not_mem_take h hc)]

end Write

open Write

/-! ## Records of an insert -/

/-- What keeps a record from being inserted: it has no field for a column that a write may set, or
there is no such column. -/
def Record.insertFault? (m : Metadata) (e : Record) : Option Error :=
  match m.writable.find? fun c => (e.toValues.lookup c.field).isNone with
  | some c => some (.unknownField e.shape.name c.field)
  | none => if m.writable = [] then some (.configuration "insert has no columns") else none

theorem Record.writable_ne_nil {m : Metadata} {e : Record} (h : e.insertFault? m = none) :
    m.writable ≠ [] := by
  intro empty
  simp [insertFault?, empty] at h

/-- The values that a record has for columns. -/
def Record.valuesFor (columns : List Mapping) (e : Record) : List Value :=
  columns.filterMap fun c => e.toValues.lookup c.field

theorem Record.map_lookup_eq {columns : List Mapping} {e : Record}
    (h : ∀ c ∈ columns, (e.toValues.lookup c.field).isSome = true) :
    columns.map (fun c => e.toValues.lookup c.field) = (e.valuesFor columns).map some := by
  induction columns with
  | nil => rfl
  | cons c columns ih =>
    obtain ⟨first, rest⟩ := List.forall_mem_cons.mp h
    obtain ⟨v, hv⟩ := Option.isSome_iff_exists.mp first
    have more : e.valuesFor (c :: columns) = v :: e.valuesFor columns :=
      List.filterMap_cons_some hv
    rw [List.map_cons, ih rest, more, List.map_cons, hv]

/-- What keeps a record from giving a value for each of several columns: that it has no field for
one, the first of those it has none for. -/
def Record.fieldFault? (columns : List Mapping) (e : Record) : Option Error :=
  (columns.find? fun c => (e.toValues.lookup c.field).isNone).map fun c =>
    .unknownField e.shape.name c.field

theorem Record.fieldFault?_append {e : Record} {columns more : List Mapping} :
    e.fieldFault? (columns ++ more) = (e.fieldFault? columns).or (e.fieldFault? more) := by
  rw [fieldFault?, List.find?_append, Option.map_or, ← fieldFault?, ← fieldFault?]

namespace Write

/-- The first column that a record has no field for is what its row fails with. -/
theorem takeRow_error_iff {shape : String} {pairs : List (String × Value)} {columns : List Mapping}
    {e : Error} :
    takeRow shape pairs columns = .error e ↔
      ∃ c, columns.find? (fun c => (pairs.lookup c.field).isNone) = some c ∧
        e = .unknownField shape c.field := by
  induction columns generalizing pairs with
  | nil => simp [takeRow]
  | cons d columns ih =>
    rw [takeRow, List.find?_cons]
    split
    · next absent =>
      rw [takeValue?_eq_none_iff.mp absent]
      simp [eq_comm]
    · next v rest taken =>
      obtain ⟨found, kept⟩ := lookup_of_takeValue? taken
      -- a value that was taken is still there, as null
      have same (n : String) : (rest.lookup n).isNone = (pairs.lookup n).isNone := by
        rw [kept]
        split
        · next hn => rw [hn, found]; rfl
        · rfl
      simp only [map_error_iff, ih, same, found, Option.isNone_some]

theorem rowOf_error_iff {e : Record} {columns : List Mapping} {err : Error} :
    rowOf e columns = .error err ↔ e.fieldFault? columns = some err := by
  rw [rowOf, takeRow_error_iff, Record.fieldFault?, Option.map_eq_some_iff]
  simp only [eq_comm]

theorem exists_rowOf_iff {e : Record} {columns : List Mapping} :
    (∃ row, rowOf e columns = .ok row) ↔ e.fieldFault? columns = none := by
  cases h : rowOf e columns with
  | error err => simp [rowOf_error_iff.mp h]
  | ok row =>
    refine iff_of_true ⟨row, rfl⟩ (Option.eq_none_iff_forall_ne_some.mpr fun err fault => ?_)
    cases h.symm.trans (rowOf_error_iff.mpr fault)

/-- The row of a record for columns of different fields. -/
theorem rowOf_eq {e : Record} {columns : List Mapping} (h : (columns.map (·.field)).Nodup) :
    rowOf e columns = match columns.find? fun c => (e.toValues.lookup c.field).isNone with
      | some c => .error (.unknownField e.shape.name c.field)
      | none => .ok (e.valuesFor columns) := by
  split
  · next c missing => exact takeRow_error_iff.mpr ⟨c, missing, rfl⟩
  · next none =>
    refine (rowOf_ok_iff h).mpr (Record.map_lookup_eq fun c hc => ?_)
    simpa using List.find?_eq_none.mp none c hc

/-- A record that can be inserted adds its row, with the columns that a write may set; any other is
refused. -/
theorem InsertPlan.addRecord_eq {p : InsertPlan}
    (h : p.columns = [] ∨ p.columns = p.target.metadata.writable)
    (fields : (p.target.metadata.writable.map (·.field)).Nodup) (e : Record) :
    p.addRecord e = match e.insertFault? p.target.metadata with
      | some err => .error err
      | none => .ok { p with
          columns := p.target.metadata.writable
          rows := p.rows ++ [e.valuesFor p.target.metadata.writable] } := by
  have given : (if p.columns.isEmpty then p.target.metadata.writable else p.columns)
      = p.target.metadata.writable := by
    obtain none | same := h
    · rw [none]
      rfl
    · rw [same, ite_self]
  have plan : p.addRecord e = rowOf e p.target.metadata.writable >>= fun row =>
      { p with columns := p.target.metadata.writable }.addRow row := by
    rw [addRecord, given]
  rw [plan, rowOf_eq fields, Record.insertFault?]
  cases missing : p.target.metadata.writable.find? fun c => (e.toValues.lookup c.field).isNone with
  | some c => rfl
  | none =>
    have row := rowOf_eq (e := e) fields
    rw [missing] at row
    have width := (takeRow_ok_iff.mp row).1
    change InsertPlan.addRow _ (e.valuesFor p.target.metadata.writable) = _
    by_cases none : p.target.metadata.writable = []
    · simp [addRow, none]
    · simp [addRow, none, width]

/-- Records are added one after the other, up to the first that is refused. -/
theorem InsertPlan.foldlM_addRecord {p : InsertPlan}
    (h : p.columns = p.target.metadata.writable)
    (fields : (p.target.metadata.writable.map (·.field)).Nodup) (es : List Record) :
    es.foldlM (fun p e => p.addRecord e) p
      = match es.findSome? (Record.insertFault? p.target.metadata) with
        | some err => .error err
        | none => .ok { p with
            rows := p.rows ++ es.map (Record.valuesFor p.target.metadata.writable) } := by
  induction es generalizing p with
  | nil => simp [pure, Except.pure]
  | cons e es ih =>
    rw [List.foldlM_cons, addRecord_eq (.inr h) fields, List.findSome?_cons]
    cases e.insertFault? p.target.metadata with
    | some err => rfl
    | none =>
      refine (ih (p := { p with
        columns := p.target.metadata.writable
        rows := p.rows ++ [e.valuesFor p.target.metadata.writable] }) rfl fields).trans ?_
      rw [← h, List.map_cons, List.append_assoc]
      rfl

end Write

/-- The plan that inserts the rows of records, each with the columns that a write may set. -/
def insertOf (shape : ShapeId) (m : Metadata) (es : List Record) : InsertPlan where
  target := ⟨shape, m⟩
  columns := m.writable
  rows := es.map (Record.valuesFor m.writable)

theorem Engine.insertPlan_of_unregistered {r : Registry} {shape : ShapeId} (h : r.get? shape = none)
    (es : List Record) : insertPlan r shape es = .error (.unknownEntity shape.name) := by
  have target : InsertPlan.ofShape r shape = .error (.unknownEntity shape.name) := by
    rw [InsertPlan.ofShape, Target.ofShape, Registry.get, h]
    rfl
  rw [insertPlan, target]
  rfl

/-- Records of a registered shape have a plan, unless the first that has no row is refused. -/
theorem Engine.insertPlan_eq {r : Registry} {shape : ShapeId} {m : Metadata}
    (hm : r.get? shape = some m) (h : (m.columns.map (·.field)).Nodup) {es : List Record}
    (given : es ≠ []) : insertPlan r shape es = match es.findSome? (Record.insertFault? m) with
      | some err => .error err
      | none => .ok (insertOf shape m es) := by
  have target : InsertPlan.ofShape r shape = .ok { target := ⟨shape, m⟩ } := by
    rw [InsertPlan.ofShape, Target.ofShape, Registry.get_eq_ok_iff.mpr hm]
    rfl
  have fields : (m.writable.map (·.field)).Nodup := h.sublist (List.filter_sublist.map _)
  obtain ⟨e, es, rfl⟩ := List.exists_cons_of_ne_nil given
  have plan : insertPlan r shape (e :: es)
      = (e :: es).foldlM (fun p e => p.addRecord e) { target := ⟨shape, m⟩ } := by
    rw [insertPlan, target]
    rfl
  rw [plan, List.foldlM_cons, InsertPlan.addRecord_eq (.inl rfl) fields, List.findSome?_cons]
  cases e.insertFault? m with
  | some err => rfl
  | none =>
    exact InsertPlan.foldlM_addRecord (p := ⟨⟨shape, m⟩, m.writable, [_], false⟩) rfl fields es

/-- A record is inserted with every column that may be written. -/
theorem Engine.insertPlan_singleton_ok_iff {r : Registry} {shape : ShapeId} {m : Metadata}
    {e : Record} {p : InsertPlan} (hm : r.get? shape = some m)
    (h : (m.columns.map (·.field)).Nodup) :
    insertPlan r shape [e] = .ok p ↔
      m.writable ≠ [] ∧ ∃ row, m.writable.map (fun c => e.toValues.lookup c.field) = row.map some ∧
        p = { target := ⟨shape, m⟩, columns := m.writable, rows := [row] } := by
  have fields : (m.writable.map (·.field)).Nodup := h.sublist (List.filter_sublist.map _)
  simp only [← rowOf_ok_iff fields, rowOf_eq fields]
  rw [insertPlan_eq hm h (List.cons_ne_nil _ _), List.findSome?_cons, Record.insertFault?]
  cases m.writable.find? fun c => (e.toValues.lookup c.field).isNone with
  | some c => simp
  | none => by_cases empty : m.writable = [] <;> simp [insertOf, Record.valuesFor, empty, eq_comm]

end RecordQuery
