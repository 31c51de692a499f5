import RecordQuery.Engine.Basic
import RecordQuery.Proofs.Compile.Compared
import RecordQuery.Proofs.Write.Record
import RecordQuery.Proofs.Write.Target

/-!
# Writes of one row

A record is written to the row with its key: the statement compares the column of every key field
with the value the record has there, and fails where there is no key, or the record has no field for
a column (`UpdatePlan.setRecord_error_iff`, `DeletePlan.matchRecord_error_iff`). The conditions of a
plan are lowered one by one, so what the criteria ask for is what the statement asks for
(`UpdatePlan.command_meets`, `DeletePlan.command_meets`).
-/

namespace RecordQuery

open Sql Lowering

/-- The text has a WHERE clause. -/
def Statement.HasWhere (s : Statement) : Prop := Token.word "WHERE" ∈ tokens s.sql

/-- The columns that are neither key nor computed. -/
def Metadata.settable (m : Metadata) : List Mapping :=
  m.columns.filter fun c => !m.isKey c.field && !m.isComputed c.field

theorem Metadata.filter_writable (m : Metadata) :
    (m.writable.filter fun c => !m.isKey c.field) = m.settable :=
  List.filter_filter

/-- The condition that a column of a table has a value. It is compared with the parameter of the
value, unless the value is null. -/
inductive Sql.Condition.Fixes (ps : List Param) (table column : String) :
    Value → Condition → Prop
  | null : Fixes ps table column .null (.isNull (.column table column))
  | value {v : Value} {slot : Nat} (hv : v ≠ .null) (hb : Param.valueAt ps slot = v.bound) :
    Fixes ps table column v (.compare .equal (.column table column) (.parameter slot))

/-- The column is set to the value the record has for its field. -/
def Record.Assigns (e : Record) (ps : List Param) (c : Mapping) (a : String × Nat) : Prop :=
  ∃ v, e.toValues.lookup c.field = some v ∧ a.1 = c.column ∧ Param.valueAt ps a.2 = v.bound

/-- The column of a key field has the value the record has for it. -/
def Record.FixesKey (e : Record) (m : Metadata) (ps : List Param) (field : String) (x : Condition) :
    Prop :=
  ∃ c v, m.fieldMapping? field = some c ∧ e.toValues.lookup field = some v ∧
    x.Fixes ps m.table c.column v

theorem Lowering.Ensures.ofPieces {m : Lowering α} {pieces : α → List Piece}
    {P : List Param → α → Prop} {s : Statement} (hm : Ensures m P)
    (h : m.statement pieces = .ok s) : ∃ vs a, s = .ofPieces (pieces a) vs ∧ P s.params a := by
  obtain ⟨vs, a, ha, rfl⟩ := statement_ok_iff.mp h
  have binds : Binds (Param.number vs) 0 vs := by simpa using Binds.number [] vs []
  exact ⟨vs, a, rfl, hm 0 vs a ha _ binds⟩

namespace Write

/-! ## Criteria -/

/-- The condition a criterion asks for, where that is the value of a column. -/
def Criterion.Meets (t : Target) (ps : List Param) : Criterion → Condition → Prop
  | equals column v, x => x.Fixes ps t.table column v
  | predicate _, _ => True

theorem Criterion.condition_meets (t : Target) (c : Criterion) :
    Ensures (c.condition t) fun ps x => c.Meets t ps x := by
  unfold Criterion.condition
  split
  · exact .pure fun ps => .null
  · next column v hv => exact (Ensures.push v).map fun ps slot h => .value hv h
  · exact .any _

theorem conditions_meet (t : Target) (cs : List Criterion) :
    Ensures (conditions t cs) fun ps xs => List.Forall₂ (Criterion.Meets t ps) cs xs :=
  .mapM_forall₂ (fun c => c.condition_meets t) cs

theorem ne_nil_of_forall₂ {R : α → β → Prop} {xs : List α} {ys : List β}
    (h : List.Forall₂ R xs ys) (hx : xs ≠ []) : ys ≠ [] := by
  rintro rfl
  exact hx (List.forall₂_nil_right_iff.mp h)

theorem forall₂_filterMap {f : α → Option β} {xs : List α} (h : ∀ x ∈ xs, ∃ y, f x = some y) :
    List.Forall₂ (fun x y => f x = some y) xs (xs.filterMap f) := by
  induction xs with
  | nil => exact .nil
  | cons x xs ih =>
    obtain ⟨y, hy⟩ := h x List.mem_cons_self
    rw [List.filterMap_cons_some hy]
    exact .cons hy (ih fun z hz => h z (List.mem_cons_of_mem _ hz))

theorem hasWhere_of_filters {before : List Piece} {filters : List Condition} {vs : List Value}
    (hl : Legible (before ++ wherePieces filters)) (hf : filters ≠ []) :
    (Statement.ofPieces (before ++ wherePieces filters) vs).HasWhere := by
  have word : (Piece.text " WHERE ").tokens = [.word "WHERE"] := rfl
  rw [Statement.HasWhere, Statement.ofPieces, hl.tokens_sqlOf, wherePieces,
    if_neg (by simpa using hf)]
  simp [word]

/-! ## Plans -/

theorem UpdatePlan.command_meets (p : UpdatePlan) :
    Ensures p.command fun ps u => u.table = p.target.table ∧
      List.Forall₂ (fun a b => b.1 = a.1.column ∧ Param.valueAt ps b.2 = a.2.bound) p.assignments
        u.assignments ∧
      List.Forall₂ (Criterion.Meets p.target ps) p.criteria u.filters := by
  unfold UpdatePlan.command
  split
  · exact .fail
  · refine (Ensures.mapM_forall₂ (fun a => ?_) p.assignments).bind fun as =>
      (conditions_meet p.target p.criteria).map fun ps xs hx ha => ⟨rfl, ha, hx⟩
    exact (Ensures.push a.2).map fun ps slot h => ⟨rfl, h⟩

theorem DeletePlan.command_meets (p : DeletePlan) :
    Ensures p.command fun ps x => x.table = p.target.table ∧
      List.Forall₂ (Criterion.Meets p.target ps) p.criteria x.filters :=
  (conditions_meet p.target p.criteria).map fun _ _ h => ⟨rfl, h⟩

namespace UpdatePlan

variable {p q : UpdatePlan} {e : Record} {s : Statement}

theorem build_ok (h : p.build = .ok s) :
    ∃ vs u, s = .ofPieces (Update.pieces u) vs ∧ u.table = p.target.table ∧
      List.Forall₂ (fun a b => b.1 = a.1.column ∧ Param.valueAt s.params b.2 = a.2.bound)
        p.assignments u.assignments ∧
      List.Forall₂ (Criterion.Meets p.target s.params) p.criteria u.filters :=
  p.command_meets.ofPieces h

theorem hasWhere_of_build (hc : p.criteria ≠ []) (h : p.build = .ok s) : s.HasWhere := by
  obtain ⟨vs, u, rfl, _, _, filters⟩ := build_ok h
  exact hasWhere_of_filters u.legible (ne_nil_of_forall₂ filters hc)

theorem setRecord_ok (h : p.setRecord e = .ok q) :
    p.target.metadata.keys ≠ [] ∧ ∃ keys values keyValues, p.target.keyMappings = .ok keys ∧
      rowOf e p.target.metadata.settable = .ok values ∧ rowOf e keys = .ok keyValues ∧
      q = { p with
        assignments := p.assignments ++ p.target.metadata.settable.zip values
        criteria := p.criteria ++ (keys.zip keyValues).map fun (c, v) => .equals c.column v } := by
  unfold setRecord at h
  simp only [Metadata.filter_writable] at h
  split at h
  · cases h
  · next some =>
    obtain ⟨keys, hkeys, h⟩ := bind_ok_iff.mp h
    obtain ⟨values, hvalues, h⟩ := bind_ok_iff.mp h
    obtain ⟨criteria, hcriteria, h⟩ := bind_ok_iff.mp h
    obtain ⟨keyValues, hkv, rfl⟩ := map_ok_iff.mp hcriteria
    cases h
    exact ⟨by simpa using some, keys, values, keyValues, hkeys, hvalues, hkv, rfl⟩

end UpdatePlan

namespace DeletePlan

variable {p q : DeletePlan} {e : Record} {s : Statement}

theorem build_ok (h : p.build = .ok s) :
    ∃ vs x, s = .ofPieces (Delete.pieces x) vs ∧ x.table = p.target.table ∧
      List.Forall₂ (Criterion.Meets p.target s.params) p.criteria x.filters :=
  p.command_meets.ofPieces h

theorem hasWhere_of_build (hc : p.criteria ≠ []) (h : p.build = .ok s) : s.HasWhere := by
  obtain ⟨vs, x, rfl, _, filters⟩ := build_ok h
  exact hasWhere_of_filters x.legible (ne_nil_of_forall₂ filters hc)

theorem matchRecord_ok (h : p.matchRecord e = .ok q) :
    ∃ keys keyValues, p.target.keyMappings = .ok keys ∧ keys ≠ [] ∧ rowOf e keys = .ok keyValues ∧
      q = { p with
        criteria := p.criteria ++ (keys.zip keyValues).map fun (c, v) => .equals c.column v } := by
  unfold matchRecord at h
  obtain ⟨keys, hkeys, h⟩ := bind_ok_iff.mp h
  split at h
  · cases h
  · next some =>
    obtain ⟨criteria, hcriteria, h⟩ := bind_ok_iff.mp h
    obtain ⟨keyValues, hkv, rfl⟩ := map_ok_iff.mp hcriteria
    cases h
    exact ⟨keys, keyValues, hkeys, by simpa using some, hkv, rfl⟩

end DeletePlan

/-! ## Keys of records -/

/-- The look-up of the key fields of a registered shape gives a column for each. -/
theorem Target.keyMappings_eq {t : Target} (ht : t.metadata.fault? = none) :
    t.keyMappings = .ok (t.metadata.keys.filterMap t.metadata.fieldMapping?) := by
  have declares := Metadata.declares_of_fault?_eq_none ht
  unfold keyMappings
  generalize t.metadata.keys = fs at declares
  induction fs with
  | nil => rfl
  | cons f fs ih =>
    obtain ⟨c, hc⟩ := declares f List.mem_cons_self
    rw [List.filterMap_cons_some hc]
    exact mapM_cons_ok_iff.mpr ⟨c, _, mapping_ok_iff.mpr (Metadata.columnFor?_of_fieldMapping? hc),
      ih fun g hg => declares g (List.mem_cons_of_mem _ hg), rfl⟩

theorem Target.keyMappings_of_keyed {t : Target} (ht : t.metadata.fault? = none)
    (hk : t.metadata.keys ≠ []) : t.keyMappings = .ok t.metadata.fallbackOrder := by
  have declares := Metadata.declares_of_fault?_eq_none ht
  rw [keyMappings_eq ht, Metadata.fallbackOrder_of_keyed hk declares]

/-- A key field stands for its own column, whatever the other columns are called. -/
theorem Target.keyMappings_ok {t : Target} {keys : List Mapping} (ht : t.metadata.fault? = none)
    (h : t.keyMappings = .ok keys) :
    List.Forall₂ (fun k c => t.metadata.fieldMapping? k = some c) t.metadata.keys keys := by
  cases h.symm.trans (keyMappings_eq ht)
  exact forall₂_filterMap (Metadata.declares_of_fault?_eq_none ht)

/-- What keeps a record from being written by its key, where it sets some columns: the table has no
key, or the record has no field for one of those columns or of the key. -/
def keyedFault? (t : Target) (columns : List Mapping) (e : Record) : Option Error :=
  if t.metadata.keys = [] then some (noKey t)
  else e.fieldFault? (columns ++ t.metadata.fallbackOrder)

theorem keyCriteria_error_iff {e : Record} {columns : List Mapping} {err : Error} :
    keyCriteria columns e = .error err ↔ e.fieldFault? columns = some err :=
  map_error_iff.trans rowOf_error_iff

theorem UpdatePlan.setRecord_of_keyless {p : UpdatePlan} (hk : p.target.metadata.keys = [])
    (e : Record) : p.setRecord e = .error (noKey p.target) := by
  unfold setRecord
  simp only [hk, List.isEmpty_nil, if_true]
  rfl

theorem UpdatePlan.setRecord_error_iff {p : UpdatePlan} (ht : p.target.metadata.fault? = none)
    {e : Record} {err : Error} :
    p.setRecord e = .error err ↔
      keyedFault? p.target p.target.metadata.settable e = some err := by
  unfold keyedFault?
  by_cases hk : p.target.metadata.keys = []
  · rw [setRecord_of_keyless hk, if_pos hk, Except.error.injEq, Option.some.injEq]
  · -- the key fields are found, so what can fail is the rows of the record
    have keyed : p.setRecord e = (do
        let values ← rowOf e p.target.metadata.settable
        let criteria ← keyCriteria p.target.metadata.fallbackOrder e
        return { p with
          assignments := p.assignments ++ p.target.metadata.settable.zip values
          criteria := p.criteria ++ criteria }) := by
      unfold setRecord
      rw [if_neg (by simpa using hk), Target.keyMappings_of_keyed ht hk]
      simp only [Metadata.filter_writable]
      rfl
    rw [keyed, if_neg hk, Record.fieldFault?_append, Option.or_eq_some_iff, ← exists_rowOf_iff,
      ← exists_and_right, bind_error_iff, rowOf_error_iff]
    simp [bind_error_iff, keyCriteria_error_iff, pure, Except.pure]

theorem DeletePlan.matchRecord_of_keyless {p : DeletePlan} (hk : p.target.metadata.keys = [])
    (e : Record) : p.matchRecord e = .error (noKey p.target) := by
  unfold matchRecord Target.keyMappings
  rw [hk]
  rfl

theorem DeletePlan.matchRecord_error_iff {p : DeletePlan} (ht : p.target.metadata.fault? = none)
    {e : Record} {err : Error} :
    p.matchRecord e = .error err ↔ keyedFault? p.target [] e = some err := by
  unfold keyedFault?
  by_cases hk : p.target.metadata.keys = []
  · rw [matchRecord_of_keyless hk, if_pos hk, Except.error.injEq, Option.some.injEq]
  · have keyed : p.matchRecord e = (do
        let criteria ← keyCriteria p.target.metadata.fallbackOrder e
        return { p with criteria := p.criteria ++ criteria }) := by
      unfold matchRecord
      rw [Target.keyMappings_of_keyed ht hk]
      change (if _ then _ else _) = _
      rw [if_neg (by simpa using Metadata.fallbackOrder_ne_nil ht)]
    rw [keyed, if_neg hk, List.nil_append, bind_error_iff, keyCriteria_error_iff]
    simp [pure, Except.pure]

section

variable {m : Metadata} {e : Record} {ps : List Param} {cs : List Mapping} {vs : List Value}

theorem fields_of_forall₂ {ks : List String}
    (h : List.Forall₂ (fun k c => m.fieldMapping? k = some c) ks cs) : cs.map (·.field) = ks :=
  (map_eq_of_forall₂ h fun _ _ hc => (Metadata.mem_of_fieldMapping? hc).2).trans ks.map_id

theorem assigns_of_zip (hv : cs.map (fun c => e.toValues.lookup c.field) = vs.map some)
    {bs : List (String × Nat)}
    (h : List.Forall₂ (fun a b => b.1 = a.1.column ∧ Param.valueAt ps b.2 = a.2.bound)
      (cs.zip vs) bs) : List.Forall₂ (e.Assigns ps) cs bs := by
  induction cs generalizing vs bs with
  | nil =>
    cases h
    exact .nil
  | cons c cs ih =>
    cases vs with
    | nil => cases hv
    | cons v vs =>
      rw [List.map_cons, List.map_cons, List.cons.injEq] at hv
      cases h with
      | cons first later => exact .cons ⟨v, hv.1, first⟩ (ih hv.2 later)

theorem fixesKey_of_zip {t : Target} {ks : List String}
    (hk : List.Forall₂ (fun k c => t.metadata.fieldMapping? k = some c) ks cs)
    (hv : cs.map (fun c => e.toValues.lookup c.field) = vs.map some) {xs : List Condition}
    (h : List.Forall₂ (Criterion.Meets t ps)
      ((cs.zip vs).map fun (c, v) => .equals c.column v) xs) :
    List.Forall₂ (e.FixesKey t.metadata ps) ks xs := by
  induction hk generalizing vs xs with
  | nil =>
    cases h
    exact .nil
  | @cons k c ks cs hc _ ih =>
    cases vs with
    | nil => cases hv
    | cons v vs =>
      rw [List.map_cons, List.map_cons, List.cons.injEq] at hv
      cases h with
      | cons first later =>
        have field : c.field = k := (Metadata.mem_of_fieldMapping? hc).2
        exact .cons ⟨c, v, hc, field ▸ hv.1, first⟩ (ih hv.2 later)

end

/-! ## Statements -/

/-- The statement that writes a record to the row with its key. -/
def recordUpdate (r : Registry) (shape : ShapeId) (e : Record) : Except Error Statement := do
  let p ← UpdatePlan.ofShape r shape
  (← p.setRecord e).build

/-- The statement that deletes the row with the key of a record. -/
def recordDelete (r : Registry) (shape : ShapeId) (e : Record) : Except Error Statement := do
  let p ← DeletePlan.ofShape r shape
  (← p.matchRecord e).build

/-- The statement that sets columns where a predicate holds. -/
def predicateUpdate (r : Registry) (shape : ShapeId) (predicate : Expr)
    (assignments : List (String × Value)) : Except Error Statement := do
  let p ← UpdatePlan.ofShape r shape
  let p ← assignments.foldlM (fun p (name, v) => p.set name v) p
  (p.filter predicate).build

/-- The statement that deletes where a predicate holds. -/
def predicateDelete (r : Registry) (shape : ShapeId) (predicate : Expr) :
    Except Error Statement := do
  let p ← DeletePlan.ofShape r shape
  (p.filter predicate).build

/-- What an update of a record is: the row is found by every key field, in order, and exactly the
columns that are neither key nor computed are set. -/
def IsRecordUpdate (m : Metadata) (e : Record) (s : Statement) : Prop :=
  ∃ vs u, s = .ofPieces (Update.pieces u) vs ∧ u.table = m.table ∧
    List.Forall₂ (e.Assigns s.params) m.settable u.assignments ∧
    List.Forall₂ (e.FixesKey m s.params) m.keys u.filters

def IsRecordDelete (m : Metadata) (e : Record) (s : Statement) : Prop :=
  ∃ vs x, s = .ofPieces (Delete.pieces x) vs ∧ x.table = m.table ∧
    List.Forall₂ (e.FixesKey m s.params) m.keys x.filters

variable {r : Registry} {shape : ShapeId} {m : Metadata} {e : Record} {s : Statement}

/-- The values a record has for the columns of distinct key fields. -/
theorem values_of_keyMappings {t : Target} {keys : List Mapping} {vs : List Value}
    (hk : List.Forall₂ (fun k c => t.metadata.fieldMapping? k = some c) t.metadata.keys keys)
    (distinct : t.metadata.keys.Nodup) (h : rowOf e keys = .ok vs) :
    keys.map (fun c => e.toValues.lookup c.field) = vs.map some :=
  (rowOf_ok_iff (by rwa [fields_of_forall₂ hk])).mp h

theorem isRecordUpdate_of_ok (hm : r.get? shape = some m) (distinct : m.keys.Nodup)
    (h : recordUpdate r shape e = .ok s) :
    m.keys ≠ [] ∧ IsRecordUpdate m e s ∧ s.HasWhere ∧ s.Numbered := by
  obtain ⟨p, hp, h⟩ := bind_ok_iff.mp h
  obtain ⟨q, hq, built⟩ := bind_ok_iff.mp h
  obtain ⟨t, ht, rfl⟩ := map_ok_iff.mp hp
  obtain ⟨m', hm', rfl⟩ := Target.ofShape_ok_iff.mp ht
  cases hm.symm.trans hm'
  obtain ⟨some, keys, values, keyValues, hkeys, hvalues, hkv, rfl⟩ := UpdatePlan.setRecord_ok hq
  have sound := Registry.fault?_of_get? hm
  have found := Target.keyMappings_ok (t := ⟨shape, m⟩) sound hkeys
  have fields : (m.settable.map (·.field)).Nodup :=
    (Metadata.nodup_fields sound).sublist (List.filter_sublist.map _)
  obtain ⟨vs, u, hs, table, assignments, filters⟩ := UpdatePlan.build_ok built
  have matched := fixesKey_of_zip found (values_of_keyMappings found distinct hkv) filters
  have numbered : s.Numbered :=
    (UpdatePlan.command_numbers _).statement Update.legible built
  refine ⟨some, ⟨vs, u, hs, table, assigns_of_zip ((rowOf_ok_iff fields).mp hvalues) assignments,
    matched⟩, ?_, numbered⟩
  rw [hs]
  exact hasWhere_of_filters u.legible (ne_nil_of_forall₂ matched some)

theorem isRecordDelete_of_ok (hm : r.get? shape = some m) (distinct : m.keys.Nodup)
    (h : recordDelete r shape e = .ok s) :
    m.keys ≠ [] ∧ IsRecordDelete m e s ∧ s.HasWhere ∧ s.Numbered := by
  obtain ⟨p, hp, h⟩ := bind_ok_iff.mp h
  obtain ⟨q, hq, built⟩ := bind_ok_iff.mp h
  obtain ⟨t, ht, rfl⟩ := map_ok_iff.mp hp
  obtain ⟨m', hm', rfl⟩ := Target.ofShape_ok_iff.mp ht
  cases hm.symm.trans hm'
  obtain ⟨keys, keyValues, hkeys, some, hkv, rfl⟩ := DeletePlan.matchRecord_ok hq
  have found := Target.keyMappings_ok (t := ⟨shape, m⟩) (Registry.fault?_of_get? hm) hkeys
  have declared : m.keys ≠ [] := fun none => ne_nil_of_forall₂ found.flip some none
  obtain ⟨vs, x, hs, table, filters⟩ := DeletePlan.build_ok built
  have matched := fixesKey_of_zip found (values_of_keyMappings found distinct hkv) filters
  have numbered : s.Numbered :=
    (DeletePlan.command_numbers _).statement Delete.legible built
  refine ⟨declared, ⟨vs, x, hs, table, matched⟩, ?_, numbered⟩
  rw [hs]
  exact hasWhere_of_filters x.legible (ne_nil_of_forall₂ matched declared)

theorem hasWhere_of_predicateUpdate {predicate : Expr} {assignments : List (String × Value)}
    (h : predicateUpdate r shape predicate assignments = .ok s) : s.HasWhere := by
  obtain ⟨_, _, h⟩ := bind_ok_iff.mp h
  obtain ⟨p, _, h⟩ := bind_ok_iff.mp h
  exact UpdatePlan.hasWhere_of_build (p := p.filter predicate) (by simp [UpdatePlan.filter]) h

theorem hasWhere_of_predicateDelete {predicate : Expr}
    (h : predicateDelete r shape predicate = .ok s) : s.HasWhere := by
  obtain ⟨p, _, h⟩ := bind_ok_iff.mp h
  exact DeletePlan.hasWhere_of_build (p := p.filter predicate) (by simp [DeletePlan.filter]) h

theorem recordUpdate_of_keyless (hm : r.get? shape = some m) (hk : m.keys = []) :
    recordUpdate r shape e = .error (noKey ⟨shape, m⟩) := by
  rw [recordUpdate, UpdatePlan.ofShape_of_get? hm]
  change (UpdatePlan.setRecord { target := ⟨shape, m⟩ } e >>= _) = _
  rw [UpdatePlan.setRecord_of_keyless hk]
  rfl

theorem recordDelete_of_keyless (hm : r.get? shape = some m) (hk : m.keys = []) :
    recordDelete r shape e = .error (noKey ⟨shape, m⟩) := by
  rw [recordDelete, DeletePlan.ofShape_of_get? hm]
  change (DeletePlan.matchRecord { target := ⟨shape, m⟩ } e >>= _) = _
  rw [DeletePlan.matchRecord_of_keyless hk]
  rfl

/-- A record is written to and deleted from the row with its key: the statement asks for the value
of every key field and sets nothing else than the other columns that may be set. Without a key
there is no statement. A statement made from a predicate has a condition too, and these are the
statements an engine executes. -/
theorem writes_find_their_rows (hm : r.get? shape = some m) (distinct : m.keys.Nodup)
    (e : Record) :
    (∀ s, recordUpdate r shape e = .ok s → IsRecordUpdate m e s ∧ s.HasWhere ∧ s.Numbered) ∧
    (∀ s, recordDelete r shape e = .ok s → IsRecordDelete m e s ∧ s.HasWhere ∧ s.Numbered) ∧
    (m.keys = [] → recordUpdate r shape e = .error (noKey ⟨shape, m⟩) ∧
      recordDelete r shape e = .error (noKey ⟨shape, m⟩)) ∧
    (∀ predicate assignments s,
      predicateUpdate r shape predicate assignments = .ok s → s.HasWhere) ∧
    (∀ predicate s, predicateDelete r shape predicate = .ok s → s.HasWhere) ∧
    (∀ (σ : Type) (E : Engine σ), E.registry = r →
      (e.shape = shape →
        E.update e = Action.ofExcept (recordUpdate r shape e) >>= E.execute ∧
        E.delete e = Action.ofExcept (recordDelete r shape e) >>= E.execute) ∧
      (∀ predicate assignments, E.updateWhere shape predicate assignments
        = Action.ofExcept (predicateUpdate r shape predicate assignments) >>= E.execute) ∧
      (∀ predicate, E.deleteWhere shape predicate
        = Action.ofExcept (predicateDelete r shape predicate) >>= E.execute)) := by
  refine ⟨fun s h => (isRecordUpdate_of_ok hm distinct h).2,
    fun s h => (isRecordDelete_of_ok hm distinct h).2,
    fun hk => ⟨recordUpdate_of_keyless hm hk, recordDelete_of_keyless hm hk⟩,
    fun predicate assignments s => hasWhere_of_predicateUpdate,
    fun predicate s => hasWhere_of_predicateDelete, ?_⟩
  rintro σ E rfl
  refine ⟨?_, fun predicate assignments => rfl, fun predicate => rfl⟩
  rintro rfl
  exact ⟨rfl, rfl⟩

/-- Two fields are stored under the name of each other, and one of them is half of the key. -/
def stockMetadata : Metadata where
  table := "Stock"
  columns := [⟨"id", "code"⟩, ⟨"code", "id"⟩, ⟨"part", "Part"⟩, ⟨"total", "Total"⟩]
  keys := ["code", "part"]
  computed := ["total"]

def stockRegistry : Registry where
  entries := [("Item", stockMetadata)]
  sound := by decide

/-- Half of the key is null. -/
def stockItem : Record where
  shape := "Item"
  cells := [
    ({ name := "id", type := .required .int }, .int 1),
    ({ name := "code", type := .required .text }, .text "@p0"),
    ({ name := "part", type := .optional .int }, .null),
    ({ name := "total", type := .required .int }, .int 4)]

theorem writes_find_their_rows_stock :
    stockRegistry.get? "Item" = some stockMetadata ∧ stockMetadata.keys.Nodup ∧
    (∃ s, recordUpdate stockRegistry "Item" stockItem = .ok s ∧
      s.sql = "UPDATE [Stock] SET [code] = @p0 WHERE "
        ++ "([Stock].[id] = @p1) AND ([Stock].[Part] IS NULL)" ∧
      IsRecordUpdate stockMetadata stockItem s ∧ s.HasWhere ∧ s.Numbered) ∧
    (∃ s, recordDelete stockRegistry "Item" stockItem = .ok s ∧
      s.sql = "DELETE FROM [Stock] WHERE ([Stock].[id] = @p0) AND ([Stock].[Part] IS NULL)" ∧
      IsRecordDelete stockMetadata stockItem s ∧ s.HasWhere ∧ s.Numbered) := by
  have registered : stockRegistry.get? "Item" = some stockMetadata := rfl
  have distinct : stockMetadata.keys.Nodup := by decide
  obtain ⟨update, delete, _⟩ := writes_find_their_rows registered distinct stockItem
  exact ⟨registered, distinct, ⟨_, rfl, rfl, update _ rfl⟩, ⟨_, rfl, rfl, delete _ rfl⟩⟩

end Write

end RecordQuery
