import RecordQuery.Compile.Scope

/-!
# Columns that references resolve to

A reference resolves to a column that the metadata of a visible table declares, under the alias of
that table. It resolves exactly if the first visible table that it names declares a field or a
column of its name (`Scope.resolve_ok_iff`).
-/

namespace RecordQuery

theorem Metadata.mem_of_columnFor? {m : Metadata} {name : String} {c : Mapping}
    (h : m.columnFor? name = some c) : c ∈ m.columns := by
  unfold columnFor? at h
  rcases Option.or_eq_some_iff.mp h with h | ⟨_, h⟩
  · exact List.mem_of_find?_eq_some h
  · exact List.mem_of_find?_eq_some h

/-- A field or a column of that name is declared. -/
def Metadata.Knows (m : Metadata) (name : String) : Prop :=
  ∃ c ∈ m.columns, c.field = name ∨ c.column = name

theorem Metadata.exists_columnFor?_iff {m : Metadata} {name : String} :
    (∃ c, m.columnFor? name = some c) ↔ m.Knows name := by
  rw [← Option.isSome_iff_exists, columnFor?, Option.isSome_or, Bool.or_eq_true,
    List.find?_isSome, List.find?_isSome, Knows]
  simp only [beq_iff_eq]
  constructor
  · rintro (⟨c, hc, h⟩ | ⟨c, hc, h⟩)
    · exact ⟨c, hc, .inl h⟩
    · exact ⟨c, hc, .inr h⟩
  · rintro ⟨c, hc, h | h⟩
    · exact .inl ⟨c, hc, h⟩
    · exact .inr ⟨c, hc, h⟩

/-- The reference is to this table, if to none before it. -/
def TableRef.Names (r : TableRef) (t : ScopedTable) : Prop :=
  match r with
  | .current => True
  | .shape s => t.shape = s
  | .aliased name => t.label = name

namespace Scope

theorem mem_of_tableFor {s : Scope} {r : TableRef} {t : ScopedTable} (h : s.tableFor r = .ok t) :
    t ∈ s.visibleTables := by
  cases r with
  | current =>
    cases hv : s.visibleTables.head? with
    | none => simp [tableFor, hv] at h
    | some u =>
      simp only [tableFor, hv, Except.ok.injEq] at h
      exact h ▸ List.mem_of_mem_head? hv
  | shape name =>
    cases hv : s.visibleTables.find? (·.shape == name) with
    | none => simp [tableFor, hv] at h
    | some u =>
      simp only [tableFor, hv, Except.ok.injEq] at h
      exact h ▸ List.mem_of_find?_eq_some hv
  | aliased name =>
    cases hv : s.visibleTables.find? (·.label == name) with
    | none => simp [tableFor, hv] at h
    | some u =>
      simp only [tableFor, hv, Except.ok.injEq] at h
      exact h ▸ List.mem_of_find?_eq_some hv

theorem resolve_ok {s : Scope} {r : FieldRef} {t : Sql.Term} (h : s.resolve r = .ok t) :
    ∃ table ∈ s.visibleTables, ∃ c ∈ table.metadata.columns, t = .column table.label c.column := by
  unfold resolve at h
  cases hf : s.tableFor r.table with
  | error e => simp [hf, bind, Except.bind] at h
  | ok table =>
    simp only [hf, bind, Except.bind] at h
    cases hc : table.metadata.columnFor? r.field with
    | none => simp [hc, throw, throwThe, MonadExceptOf.throw] at h
    | some c =>
      rw [hc] at h
      cases h
      exact ⟨table, mem_of_tableFor hf, c, Metadata.mem_of_columnFor? hc, rfl⟩

/-- The first visible table that a reference names. -/
def PointsAt (s : Scope) (r : TableRef) (t : ScopedTable) : Prop :=
  ∃ before after, s.visibleTables = before ++ t :: after ∧ r.Names t ∧ ∀ u ∈ before, ¬r.Names u

/-- The table that a reference points at declares a field or a column of its name. -/
def Resolves (s : Scope) (r : FieldRef) : Prop :=
  ∃ t, s.PointsAt r.table t ∧ t.metadata.Knows r.field

theorem tableFor_ok_iff {s : Scope} {r : TableRef} {t : ScopedTable} :
    s.tableFor r = .ok t ↔ s.PointsAt r t := by
  have found {p : ScopedTable → Bool} (hp : ∀ u, p u = true ↔ r.Names u) :
      s.visibleTables.find? p = some t ↔ s.PointsAt r t := by
    rw [List.find?_eq_some_iff_append, PointsAt]
    simp only [hp, Bool.not_eq_true', ← Bool.not_eq_true]
    constructor
    · rintro ⟨named, before, after, split, others⟩
      exact ⟨before, after, split, named, others⟩
    · rintro ⟨before, after, split, named, others⟩
      exact ⟨named, before, after, split, others⟩
  cases r with
  | current =>
    have head : s.visibleTables.head? = s.visibleTables.find? fun _ => true := by
      cases s.visibleTables <;> rfl
    rw [← found (p := fun _ => true) fun u => iff_of_true rfl trivial, ← head, tableFor]
    cases s.visibleTables.head? <;> simp
  | shape name =>
    rw [← found (p := (·.shape == name)) fun u => beq_iff_eq, tableFor]
    cases s.visibleTables.find? (·.shape == name) <;> simp
  | aliased name =>
    rw [← found (p := (·.label == name)) fun u => beq_iff_eq, tableFor]
    cases s.visibleTables.find? (·.label == name) <;> simp

theorem resolve_ok_iff {s : Scope} {r : FieldRef} :
    (∃ t, s.resolve r = .ok t) ↔ s.Resolves r := by
  simp only [Resolves, ← tableFor_ok_iff, ← Metadata.exists_columnFor?_iff]
  unfold resolve
  cases s.tableFor r.table with
  | error e => simp [bind, Except.bind]
  | ok table =>
    cases hc : table.metadata.columnFor? r.field with
    | none => simp [hc, bind, Except.bind, throw, throwThe, MonadExceptOf.throw]
    | some c => simp [hc, bind, Except.bind, pure, Except.pure]

end Scope

end RecordQuery
