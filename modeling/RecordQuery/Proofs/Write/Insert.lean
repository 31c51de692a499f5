import RecordQuery.Proofs.Compile.Clauses
import RecordQuery.Proofs.Sql.Tuples

/-!
# Statements that insert rows

The parameters of a statement are the values of its rows, one row after the other. Its text has the
columns of the plan and each row in parentheses of its own, with the values as they are bound.
-/

namespace RecordQuery.Write

open Lowering Sql

/-! ## Numbers of rows -/

/-- The numbers of the parameters of rows, of which the first is given. -/
def slotRows : Nat → List (List Value) → List (List Nat)
  | _, [] => []
  | n, row :: rows => List.range' n row.length :: slotRows (n + row.length) rows

theorem run_mapM_push (n : Nat) (vs : List Value) :
    (vs.mapM push).run n = (vs, .ok (List.range' n vs.length)) := by
  induction vs generalizing n with
  | nil => rfl
  | cons v vs ih =>
    rw [List.mapM_cons, run_bind_of_ok (run_push v n), run_bind_of_ok (ih _)]
    simp [List.range'_succ]

theorem run_mapM_rows (n : Nat) (rows : List (List Value)) :
    (rows.mapM fun row => row.mapM push : Lowering _).run n
      = (rows.flatten, .ok (slotRows n rows)) := by
  induction rows generalizing n with
  | nil => rfl
  | cons row rows ih =>
    rw [List.mapM_cons, run_bind_of_ok (run_mapM_push n row), run_bind_of_ok (ih _)]
    simp [slotRows]

theorem lookup_range' {ps : List Param} {n : Nat} {vs : List Value} (h : Binds ps n vs) :
    (List.range' n vs.length).map (fun slot => Param.lookup ps (placeholder slot))
      = vs.map Value.bound := by
  induction vs generalizing n with
  | nil => rfl
  | cons v vs ih =>
    have split : Binds ps n ([v] ++ vs) := h
    rw [List.length_cons, List.range'_succ, List.map_cons, split.left.one]
    exact congrArg (v.bound :: ·) (ih split.right)

theorem lookup_slotRows {ps : List Param} {n : Nat} {rows : List (List Value)}
    (h : Binds ps n rows.flatten) :
    (slotRows n rows).map (·.map fun slot => Param.lookup ps (placeholder slot))
      = rows.map (·.map Value.bound) := by
  induction rows generalizing n with
  | nil => rfl
  | cons row rows ih =>
    rw [List.flatten_cons] at h
    rw [slotRows, List.map_cons, lookup_range' h.left, ih h.right]
    rfl

/-! ## Statements -/

namespace InsertPlan

variable {p : InsertPlan} {d : Dialect} {rows : List (List Value)} {s : Statement}

theorem statement_ok_iff :
    p.statement d rows = .ok s ↔ p.columns ≠ [] ∧ rows ≠ [] ∧ ∃ returning,
      p.returning = .ok returning ∧
        s = .ofPieces (Insert.pieces d ⟨p.target.table, p.columns.map (·.column),
          slotRows 0 rows, returning⟩) rows.flatten := by
  unfold statement
  rw [Lowering.statement_ok_iff, command]
  split
  · next h =>
    have h : p.columns = [] ∨ rows = [] := by simpa using h
    refine ⟨?_, ?_⟩
    · rintro ⟨_, _, h', _⟩
      cases h'
    · rintro ⟨hc, hr, _⟩
      exact (h.elim hc hr).elim
  · next h =>
    have h : p.columns ≠ [] ∧ rows ≠ [] := by simpa using h
    have carried (f : List (List Nat) → Insert) :
        ((rows.mapM fun row => row.mapM push : Lowering _) >>= fun slots => pure (f slots)).run 0
          = (rows.flatten, .ok (f (slotRows 0 rows))) := by
      rw [run_bind_of_ok (run_mapM_rows 0 rows), run_pure, List.append_nil]
    simp only [run_ofExcept_bind_ok_iff, carried]
    constructor
    · rintro ⟨_, _, ⟨returning, hr, he⟩, rfl⟩
      cases he
      exact ⟨h.1, h.2, returning, hr, rfl⟩
    · rintro ⟨-, -, returning, hr, rfl⟩
      exact ⟨_, _, ⟨returning, hr, rfl⟩, rfl⟩

theorem tableName_statement (h : p.statement d rows = .ok s) :
    s.tableName = some p.target.table := by
  obtain ⟨_, _, returning, _, rfl⟩ := statement_ok_iff.mp h
  exact tableName_insert d _ _

theorem columnNames_statement (h : p.statement d rows = .ok s) :
    s.columnNames = p.columns.map (·.column) := by
  obtain ⟨_, _, returning, _, rfl⟩ := statement_ok_iff.mp h
  exact columnNames_insert d _ _

/-- The rows in the text are those of the plan, as they are bound. -/
theorem tuples_statement (h : p.statement d rows = .ok s) :
    s.tuples = rows.map (·.map Value.bound) := by
  obtain ⟨_, _, returning, _, rfl⟩ := statement_ok_iff.mp h
  rw [tuples_insert]
  have binds := Binds.number [] rows.flatten []
  rw [List.nil_append, List.append_nil] at binds
  exact lookup_slotRows binds

theorem values_statement (h : p.statement d rows = .ok s) :
    s.params.map (·.value) = rows.flatten.map Value.bound := by
  obtain ⟨_, _, returning, _, rfl⟩ := statement_ok_iff.mp h
  have first : (·.value) ∘ (fun v : Value × Nat => (⟨placeholder v.2, v.1.bound⟩ : Param))
      = Value.bound ∘ Prod.fst := rfl
  rw [Statement.ofPieces, Param.number, List.map_map, first, ← List.map_map, List.zipIdx_map_fst]

end InsertPlan

end RecordQuery.Write
