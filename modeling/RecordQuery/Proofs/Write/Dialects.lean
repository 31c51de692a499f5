import RecordQuery.Proofs.Compile.Dialects
import RecordQuery.Proofs.Write.Width

/-!
# An insert in two dialects

A plan depends on no dialect, and neither do the stretches that its rows are batched in, as long as
all rows fit the parameters of one statement. So the statements of a plan differ only in the clause
that returns the key, and the statements of a query in the paging clause
(`statements_alike_in_dialects`).
-/

namespace RecordQuery

open Sql Lowering

namespace Write

/-- Statements with the same parameters and the same text, but for the clause that returns a key
column: it is before the rows in one dialect and after them in the other. -/
def SameButKey (key : Option String) (server lite : Statement) : Prop :=
  ∃ head rows params,
    server = ⟨head ++ key.elim "" (" OUTPUT INSERTED." ++ quoted ·) ++ (" VALUES " ++ rows),
      params⟩ ∧
    lite = ⟨head ++ (" VALUES " ++ rows) ++ key.elim "" (" RETURNING " ++ quoted ·), params⟩

theorem sameButKey_pieces (i : Insert) (vs : List Value) :
    SameButKey i.returning (.ofPieces (i.pieces .sqlServer) vs)
      (.ofPieces (i.pieces .sqlite) vs) := by
  refine ⟨sqlOf ([.text "INSERT INTO ", .ident i.table, .text " ("]
    ++ separated ", " (i.columns.map fun c => [.ident c]) ++ [.text ")"]),
    sqlOf (separated ", " (i.rows.map tuplePieces)), Param.number vs, ?_, ?_⟩
  all_goals
    rw [Statement.ofPieces, Insert.pieces]
    cases i.returning <;>
      simp [Dialect.outputClause?, Dialect.returningClause?, sqlOf_append, sqlOf_cons, sqlOf_nil,
        Piece.sql, String.append_assoc]

namespace InsertPlan

variable {p : InsertPlan}

theorem statement_dialects (p : InsertPlan) (rows : List (List Value)) :
    Alike (fun s s' => ∃ key, p.returning = .ok key ∧ SameButKey key s s')
      (p.statement .sqlServer rows) (p.statement .sqlite rows) := by
  unfold statement Lowering.statement
  rcases hx : (p.command rows).run 0 with ⟨vs, e | i⟩
  · exact .error e
  · refine .ok ⟨i.returning, ?_, sameButKey_pieces i vs⟩
    unfold command at hx
    split at hx
    · cases hx
    · obtain ⟨returning, hr, hx⟩ := run_ofExcept_bind_ok_iff.mp hx
      obtain ⟨slots, _, rfl⟩ := run_map_ok_iff.mp hx
      exact hr

/-! ## Stretches -/

/-- Two dialects cut the rows alike where all values fit into a statement of each. -/
theorem chunks_dialects (fits : ∀ d : Dialect, p.rows.length * p.columns.length ≤ d.maxParameters) :
    chunks (p.batchSize .sqlServer) p.rows = chunks (p.batchSize .sqlite) p.rows := by
  by_cases narrow : p.columns.length ≤ 1
  · -- rows of one value are cut by their number
    have width : max p.columns.length 1 = 1 := Nat.max_eq_right narrow
    have size (d : Dialect) : p.batchSize d = maxRows := by
      rw [batchSize, width, Nat.div_one]
      cases d <;> rfl
    rw [size, size]
  · by_cases none : p.rows = []
    · rw [none, chunks, chunks]
    · have columns : 0 < p.columns.length := by omega
      have rows : 0 < p.rows.length := List.length_pos_iff.mpr none
      have one (d : Dialect) : chunks (p.batchSize d) p.rows = [p.rows] := by
        have width : p.columns.length ≤ d.maxParameters :=
          Nat.le_trans (Nat.le_mul_of_pos_left _ rows) (fits d)
        have few : p.rows.length ≤ maxRows := by
          have wide : p.rows.length * 2 ≤ p.rows.length * p.columns.length :=
            Nat.mul_le_mul_left _ (by omega)
          have most : p.rows.length * p.columns.length ≤ 2000 := fits .sqlServer
          unfold maxRows
          omega
        exact (chunks_eq_singleton_iff (p.batchSize_pos d)).mpr
          ⟨none, (length_le_batchSize_iff columns width).mpr ⟨fits d, few⟩, rfl⟩
      rw [one, one]

/-! ## The key that is returned -/

/-- The key column of a table is returned once it was asked for. -/
def ReturnsKey (m : Metadata) (steps : List Step) (key : Option String) : Prop :=
  (key = none ∧ .returningKey ∉ steps) ∨
    ∃ c, key = some c.column ∧ m.primaryKey? = some c ∧ .returningKey ∈ steps

theorem returnKey_attempt (p : InsertPlan) (st : Step) :
    (p.attempt st).returnKey = true ↔ p.returnKey = true ∨ .returningKey = st := by
  unfold attempt
  cases st with
  | setColumns names =>
    cases h : p.setColumns names with
    | error e => simp [apply, h]
    | ok q =>
      obtain ⟨_, cs, _, rfl⟩ := setColumns_ok_iff.mp h
      simp [apply, h]
  | addRow row =>
    cases h : p.addRow row with
    | error e => simp [apply, h]
    | ok q =>
      obtain ⟨_, _, rfl⟩ := addRow_ok_iff.mp h
      simp [apply, h]
  | addRecord record =>
    cases h : p.addRecord record with
    | error e => simp [apply, h]
    | ok q =>
      obtain ⟨cs, row, _, h'⟩ := addRecord_ok h
      obtain ⟨_, _, rfl⟩ := addRow_ok_iff.mp h'
      simp [apply, h]
  | returningKey => simp [apply, returningKey]

theorem returnKey_attemptAll (p : InsertPlan) (steps : List Step) :
    (p.attemptAll steps).returnKey = true ↔ p.returnKey = true ∨ .returningKey ∈ steps := by
  induction steps generalizing p with
  | nil => simp [attemptAll]
  | cons st steps ih =>
    have later := ih (p.attempt st)
    rw [returnKey_attempt] at later
    rw [attemptAll, List.foldl_cons, ← attemptAll, later, List.mem_cons, or_assoc]

theorem returning_attemptAll {t : Target} {steps : List Step} {key : Option String}
    (h : (InsertPlan.attemptAll { target := t } steps).returning = .ok key) :
    ReturnsKey t.metadata steps key := by
  have asked := returnKey_attemptAll { target := t } steps
  unfold returning at h
  rw [((aligned_new t).attemptAll steps).2] at h
  split at h
  · next returned =>
    have called := (asked.mp returned).resolve_left (by simp)
    split at h
    · next c hc =>
      cases h
      exact .inr ⟨c, rfl, hc, called⟩
    · cases h
  · next returned =>
    cases h
    exact .inl ⟨rfl, fun called => returned (asked.mpr (.inr called))⟩

/-- Statements of a plan after some steps, in the two dialects. -/
def AlikeButKey (m : Metadata) (steps : List Step) (server lite : Statement) : Prop :=
  ∃ key, ReturnsKey m steps key ∧ SameButKey key server lite

section

variable (t : Target) (steps : List Step)

theorem statement_attemptAll (rows : List (List Value)) :
    Alike (AlikeButKey t.metadata steps)
      ((InsertPlan.attemptAll { target := t } steps).statement .sqlServer rows)
      ((InsertPlan.attemptAll { target := t } steps).statement .sqlite rows) :=
  (statement_dialects _ rows).mono fun _ _ ⟨key, returned, same⟩ =>
    ⟨key, returning_attemptAll returned, same⟩

variable {t steps}

theorem build_attemptAll {p : InsertPlan} (hp : p = InsertPlan.attemptAll { target := t } steps)
    (fits : ∀ d : Dialect, p.rows.length * p.columns.length ≤ d.maxParameters)
    (few : p.rows.length ≤ maxRows) :
    Alike (AlikeButKey t.metadata steps) (p.build .sqlServer) (p.build .sqlite) := by
  have one (d : Dialect) : p.build d = p.statement d p.rows := by
    rw [build, if_neg]
    have := fits d
    omega
  rw [one, one, hp]
  exact statement_attemptAll t steps _

theorem batches_attemptAll {p : InsertPlan} (hp : p = InsertPlan.attemptAll { target := t } steps)
    (fits : ∀ d : Dialect, p.rows.length * p.columns.length ≤ d.maxParameters) :
    Alike (List.Forall₂ (AlikeButKey t.metadata steps)) (p.batches .sqlServer)
      (p.batches .sqlite) := by
  rw [batches, batches, chunks_dialects fits, hp]
  exact .mapM fun rows _ => statement_attemptAll t steps rows

end

end InsertPlan

open InsertPlan

/-- A query compiles in both dialects or fails in both with the same error. The statements have the
same parameters and the same text but for the paging clause, which a total and a query without pages
do not have. So do those of an insert whose values fit the parameters of a statement in both
dialects, but for the clause that returns the key, which is there if it was asked for and has the
key column of the table. -/
theorem statements_alike_in_dialects (r : Registry) :
    (∀ (q : Query) t,
      Alike (q.SameButPaging t) (q.statement r .sqlServer t) (q.statement r .sqlite t) ∧
      (t = .totalCount ∨ q.pagination = none →
        q.statement r .sqlServer t = q.statement r .sqlite t)) ∧
    (∀ s t, let skip := Number.natText s.toNat; let take := Number.natText t.toNat
      Dialect.sqlServer.paging ⟨s, some t⟩
        = " OFFSET " ++ skip ++ " ROWS FETCH NEXT " ++ take ++ " ROWS ONLY" ∧
      Dialect.sqlServer.paging ⟨s, none⟩ = " OFFSET " ++ skip ++ " ROWS" ∧
      Dialect.sqlite.paging ⟨s, some t⟩ = " LIMIT " ++ take ++ " OFFSET " ++ skip ∧
      Dialect.sqlite.paging ⟨s, none⟩ = " LIMIT -1 OFFSET " ++ skip) ∧
    (∀ shape p, InsertPlan.ofShape r shape = .ok p → ∃ m, r.get? shape = some m ∧ ∀ steps,
      let q := p.attemptAll steps
      (∀ d : Dialect, q.rows.length * q.columns.length ≤ d.maxParameters) →
      (q.rows.length ≤ maxRows →
        Alike (AlikeButKey m steps) (q.build .sqlServer) (q.build .sqlite)) ∧
      (maxRows < q.rows.length → ∀ d s, q.build d ≠ .ok s) ∧
      Alike (List.Forall₂ (AlikeButKey m steps)) (q.batches .sqlServer) (q.batches .sqlite)) := by
  refine ⟨fun q t => ⟨q.statement_dialects r t, Query.statement_unpaged r⟩,
    fun s t => ⟨rfl, rfl, rfl, rfl⟩, fun shape p h => ?_⟩
  obtain ⟨t, ht, rfl⟩ := map_ok_iff.mp h
  obtain ⟨m, hm, rfl⟩ := Target.ofShape_ok_iff.mp ht
  refine ⟨m, hm, fun steps fits => ⟨build_attemptAll rfl fits, fun many d s hs => ?_,
    batches_attemptAll rfl fits⟩⟩
  exact absurd (build_ok_iff.mp hs).1.2 (Nat.not_le.mpr many)

/-- The key is asked for between the rows, of a table whose key column the storage computes. -/
def keyedLedgerSteps : List Step := ledgerSteps ++ [.returningKey, .addRow [.int 3, .null]]

theorem statements_alike_in_dialects_ledger :
    (∃ server lite, joinedOrders.statement orderRegistry .sqlServer .count = .ok server ∧
      joinedOrders.statement orderRegistry .sqlite .count = .ok lite ∧
      joinedOrders.SameButPaging .count server lite) ∧
    joinedOrders.statement orderRegistry .sqlServer .totalCount
      = joinedOrders.statement orderRegistry .sqlite .totalCount ∧
    InsertPlan.ofShape ledgerRegistry "Entry" = .ok { target := ⟨"Entry", ledgerMetadata⟩ } ∧
    ∃ server lite,
      (InsertPlan.attemptAll { target := ⟨"Entry", ledgerMetadata⟩ } keyedLedgerSteps).build
        .sqlServer = .ok server ∧
      (InsertPlan.attemptAll { target := ⟨"Entry", ledgerMetadata⟩ } keyedLedgerSteps).build
        .sqlite = .ok lite ∧
      SameButKey (some "No") server lite := by
  obtain ⟨paged, _⟩ := (statements_alike_in_dialects orderRegistry).1 joinedOrders .count
  have total := ((statements_alike_in_dialects orderRegistry).1 joinedOrders .totalCount).2
  have started : InsertPlan.ofShape ledgerRegistry "Entry"
      = .ok { target := ⟨"Entry", ledgerMetadata⟩ } := rfl
  obtain ⟨m, hm, insert⟩ := (statements_alike_in_dialects ledgerRegistry).2.2 _ _ started
  cases hm
  have fits (d : Dialect) : 3 * 2 ≤ d.maxParameters := by cases d <;> decide
  obtain ⟨key, returned, inserted⟩ := ((insert keyedLedgerSteps fits).1 (by decide)).of_ok
  refine ⟨⟨_, _, rfl, rfl, paged.of_ok⟩, total (.inl rfl), started, _, _, rfl, rfl, ?_⟩
  obtain ⟨_, unasked⟩ | ⟨c, rfl, hc, _⟩ := returned
  · exact absurd (by decide) unasked
  · cases hc
    exact inserted

end Write

end RecordQuery
