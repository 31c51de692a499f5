import RecordQuery.Proofs.Engine.Calls
import RecordQuery.Proofs.Write.Batches
import RecordQuery.Proofs.Write.Record

/-!
# Records are inserted batch by batch

Nothing is run before every record was found to have a row (`Record.insertFault?`), and then no
batch fails to be built (`Write.InsertPlan.exists_batches`). The batches are run in order up to the
first failure, and the rows they are about are added up, as long as 64 bits hold the sum
(`records_inserted_in_batches`).
-/

namespace RecordQuery

open Number

/-- The number of rows a call was about. -/
def Call.affected : Call → Nat
  | .execute _ (.ok n) => n.toNat
  | _ => 0

/-- The number of rows that calls were about, each counted on its own. -/
def affectedBy : List Call → Nat
  | [] => 0
  | call :: calls => call.affected + affectedBy calls

theorem affectedBy_append (calls more : List Call) :
    affectedBy (calls ++ more) = affectedBy calls + affectedBy more := by
  induction calls with
  | nil => rw [List.nil_append, affectedBy, Nat.zero_add]
  | cons call calls ih => rw [List.cons_append, affectedBy, affectedBy, ih, Nat.add_assoc]

/-- A statement that was run, with the number of rows it was about. -/
def ran (done : Statement × UInt64) : Call := .execute done.1 (.ok done.2)

/-- The calls that run statements in order after `before` rows were counted, and what comes of them:
the number of rows counted in the end, the first failure, or an overflow at the first statement that
more rows are counted with than 64 bits hold. -/
inductive RunInOrder (before : UInt64) : List Statement → List Call → Except Stop UInt64 → Prop
  | all (done : List (Statement × UInt64)) (total : UInt64)
    (h : total.toNat = before.toNat + affectedBy (done.map ran)) :
    RunInOrder before (done.map (·.1)) (done.map ran) (.ok total)
  | upTo (done : List (Statement × UInt64)) (s : Statement) (rest : List Statement) (err : Error)
    (h : before.toNat + affectedBy (done.map ran) < UInt64.size) :
    RunInOrder before (done.map (·.1) ++ s :: rest) (done.map ran ++ [.execute s (.error err)])
      (.error (.error err))
  | uncounted (done : List (Statement × UInt64)) (s : Statement) (n : UInt64)
    (rest : List Statement) (h : before.toNat + affectedBy (done.map ran) < UInt64.size)
    (past : UInt64.size ≤ before.toNat + affectedBy (done.map ran) + n.toNat) :
    RunInOrder before (done.map (·.1) ++ s :: rest) (done.map ran ++ [ran (s, n)])
      (.error .overflow)

namespace RunInOrder

variable {before : UInt64} {ss ss' : List Statement} {calls : List Call} {r r' : Except Stop UInt64}

theorem cons {s : Statement} {n sum : UInt64} (h : RunInOrder sum ss calls r)
    (counted : sum.toNat = before.toNat + n.toNat) :
    RunInOrder before (s :: ss) (ran (s, n) :: calls) r := by
  have first (done : List (Statement × UInt64)) :
      before.toNat + affectedBy (((s, n) :: done).map ran)
        = sum.toNat + affectedBy (done.map ran) := by
    rw [counted, Nat.add_assoc]
    rfl
  cases h with
  | all done total h => exact .all ((s, n) :: done) total (by rw [first, h])
  | upTo done t rest err h => exact .upTo ((s, n) :: done) t rest err (by rwa [first])
  | uncounted done t m rest h past =>
    exact .uncounted ((s, n) :: done) t m rest (by rwa [first]) (by rwa [first])

/-- The run overflows exactly if its calls were about more rows than can be counted. -/
theorem overflow_iff (h : RunInOrder before ss calls r) :
    r = .error .overflow ↔ UInt64.size ≤ before.toNat + affectedBy calls := by
  cases h with
  | all done total h =>
    refine iff_of_false nofun (Nat.not_le.mpr ?_)
    rw [← h]
    exact total.toNat_lt_size
  | upTo done s rest err h =>
    have last : affectedBy [Call.execute s (.error err)] = 0 := rfl
    refine iff_of_false nofun (Nat.not_le.mpr ?_)
    rwa [affectedBy_append, last]
  | uncounted done s n rest h past =>
    have last : affectedBy [ran (s, n)] = n.toNat := rfl
    refine iff_of_true rfl ?_
    rwa [affectedBy_append, last, ← Nat.add_assoc]

theorem affected {n : UInt64} (h : RunInOrder before ss calls (.ok n)) :
    n.toNat = before.toNat + affectedBy calls := by
  cases h with
  | all done total h => exact h

theorem of_nil (h : RunInOrder before [] calls r) : calls = [] ∧ r = .ok before := by
  generalize hs : ([] : List Statement) = ss at h
  cases h with
  | all done total h =>
    obtain rfl := List.map_eq_nil_iff.mp hs.symm
    exact ⟨rfl, congrArg _ (UInt64.toNat_inj.mp h)⟩
  | upTo done s rest err => simp at hs
  | uncounted done s n rest => simp at hs

theorem ran_ne_failed (done : List (Statement × UInt64)) (s : Statement) (err : Error) :
    Call.execute s (.error err) ∉ done.map ran := by
  simp [ran]

/-- The first failure shows in the calls. -/
theorem failed_iff (h : RunInOrder before ss calls r) (err : Error) :
    r = .error (.error err) ↔ ∃ s, .execute s (.error err) ∈ calls := by
  cases h with
  | all done total h =>
    exact iff_of_false nofun fun ⟨s, mem⟩ => ran_ne_failed done s err mem
  | upTo done s rest err' h =>
    have last (t : Statement) :
        Call.execute t (.error err) ∈ done.map ran ++ [.execute s (.error err')] ↔
          t = s ∧ err = err' := by
      rw [List.mem_append, or_iff_right (ran_ne_failed done t err), List.mem_singleton,
        Call.execute.injEq, Except.error.injEq]
    simp only [last, exists_eq_left, Except.error.injEq, Stop.error.injEq]
    exact eq_comm
  | uncounted done s n rest h past =>
    refine iff_of_false nofun fun ⟨t, mem⟩ => ran_ne_failed (done ++ [(s, n)]) t err ?_
    rwa [List.map_append]

/-- What comes of the statements shows in the calls. -/
theorem unique (h : RunInOrder before ss calls r) (h' : RunInOrder before ss' calls r') :
    r = r' := by
  match r, r' with
  | r, .error (.error err) => exact (h.failed_iff err).mpr ((h'.failed_iff err).mp rfl)
  | r, .error .overflow => exact h.overflow_iff.mpr (h'.overflow_iff.mp rfl)
  | .error (.error err), r' => exact ((h'.failed_iff err).mpr ((h.failed_iff err).mp rfl)).symm
  | .error .overflow, r' => exact (h'.overflow_iff.mpr (h.overflow_iff.mp rfl)).symm
  | .ok n, .ok n' => exact congrArg _ (UInt64.toNat_inj.mp (h.affected.trans h'.affected.symm))

end RunInOrder

namespace Engine

variable {σ : Type} (e : Engine σ)

/-- The statements that insert records, none for no records. -/
def batches (shape : ShapeId) (records : List Record) : Except Error (List Statement) :=
  if records.isEmpty then .ok []
  else do
    let p ← insertPlan e.registry shape records
    p.batches e.executor.dialect

theorem insertMany_eq (shape : ShapeId) (records : List Record) : e.insertMany shape records
    = (Action.ofExcept (e.batches shape records)).mapFailure .error >>= e.executeAll 0 := by
  unfold insertMany batches
  split
  · rfl
  · cases insertPlan e.registry shape records <;> rfl

section Calls

variable {κ : Type} (event : Call → κ)

theorem executeAll_records (total : UInt64) (ss : List Statement) :
    (e.executeAll total ss).Records ((e.recorded event).executeAll total ss) fun es r =>
      ∃ calls, RunInOrder total ss calls r ∧ es = calls.map event := by
  induction ss generalizing total with
  | nil =>
    refine (Action.Records.pure total).mono ?_
    rintro es r ⟨rfl, rfl⟩
    exact ⟨[], .all [] total rfl, rfl⟩
  | cons s ss ih =>
    have sent := Action.Records.logged (fun n => event (.execute s n)) (e.executor.execute s)
    refine ((sent.mapFailure Stop.error).bind fun n =>
      (Action.Records.ofExcept (checked (checkedUInt64 (total.toNat + n.toNat)))).bind ih).mono ?_
    rintro es r (⟨err, ⟨answer, rfl, failed⟩, rfl⟩ | ⟨n, _, _, ⟨answer, rfl, given⟩, rest, rfl⟩)
    · cases answer with
      | ok n => cases failed
      | error err =>
        cases failed
        exact ⟨[.execute s (.error err)], .upTo [] s ss err total.toNat_lt_size, rfl⟩
    · cases answer with
      | error err => cases given
      | ok n =>
        cases given
        obtain ⟨err, ⟨rfl, past⟩, rfl⟩ | ⟨sum, _, _, ⟨rfl, counted⟩, ⟨calls, run, rfl⟩, rfl⟩ := rest
        · obtain ⟨overflows, rfl⟩ := of_checked_error past.symm
          exact ⟨[ran (s, n)], .uncounted [] s n ss total.toNat_lt_size
            (checkedUInt64_eq_error_iff.mp overflows), rfl⟩
        · have sum_eq := checkedUInt64_eq_ok_iff.mp (checked_eq_ok_iff.mp counted.symm)
          exact ⟨ran (s, n) :: calls, run.cons sum_eq, rfl⟩

theorem insertMany_records (shape : ShapeId) (records : List Record) :
    (e.insertMany shape records).Records ((e.recorded event).insertMany shape records) fun es r =>
      (∃ err, e.batches shape records = .error err ∧ es = [] ∧ r = .error (.error err)) ∨
        ∃ ss calls, e.batches shape records = .ok ss ∧ RunInOrder 0 ss calls r ∧
          es = calls.map event := by
  rw [insertMany_eq, insertMany_eq]
  refine ((Action.Records.ofExcept (reported (e.batches shape records))).bind
    (e.executeAll_records event 0)).mono ?_
  rintro es r (⟨_, ⟨rfl, h⟩, rfl⟩ | ⟨ss, _, _, ⟨rfl, h⟩, ⟨calls, run, rfl⟩, rfl⟩)
  · obtain ⟨err, hs, rfl⟩ := exists_of_reported_error h.symm
    exact .inl ⟨err, hs, rfl, rfl⟩
  · exact .inr ⟨ss, calls, reported_eq_ok_iff.mp h.symm, run, rfl⟩

end Calls

end Engine

namespace Write.InsertPlan

variable {p : InsertPlan}

/-- The batches of rows with columns, whose key is not to be returned, can be built. -/
theorem exists_batches (columns : p.columns ≠ []) (unkeyed : p.returnKey = false) (d : Dialect) :
    ∃ ss, p.batches d = .ok ss := by
  refine exists_mapM_ok fun rows hrows => ?_
  have returning : p.returning = .ok none := by simp [InsertPlan.returning, unkeyed]
  exact ⟨_, statement_ok_iff.mpr ⟨columns, ne_nil_of_mem_chunks hrows, none, returning, rfl⟩⟩

/-- Every batch is an insert into the columns of the plan. -/
theorem names_of_batches {d : Dialect} {ss : List Statement} (h : p.batches d = .ok ss)
    {s : Statement} (hs : s ∈ ss) :
    s.tableName = some p.target.table ∧ s.columnNames = p.columns.map (·.column) := by
  obtain ⟨rows, _, hrows⟩ := mapM_ok_mem h hs
  exact ⟨tableName_statement hrows, columnNames_statement hrows⟩

end Write.InsertPlan

open Write

namespace Engine

variable {σ : Type} (e : Engine σ) {shape : ShapeId} {m : Metadata} {records : List Record}

theorem batches_eq (shape : ShapeId) (given : records ≠ []) : e.batches shape records
    = insertPlan e.registry shape records >>= fun p => p.batches e.executor.dialect := by
  simp [batches, given]

theorem batches_of_unregistered (given : records ≠ []) (h : e.registry.get? shape = none) :
    e.batches shape records = .error (.unknownEntity shape.name) := by
  rw [e.batches_eq shape given, insertPlan_of_unregistered h]
  rfl

theorem batches_of_fault (given : records ≠ []) (h : e.registry.get? shape = some m) {err : Error}
    (fault : records.findSome? (Record.insertFault? m) = some err) :
    insertPlan e.registry shape records = .error err ∧ e.batches shape records = .error err := by
  have plan := insertPlan_eq h (Metadata.nodup_fields (Registry.fault?_of_get? h)) given
  rw [fault] at plan
  refine ⟨plan, ?_⟩
  rw [e.batches_eq shape given, plan]
  rfl

/-- Records that all have a row have batches. -/
theorem exists_batches_of_faultless (given : records ≠ []) (h : e.registry.get? shape = some m)
    (faultless : records.findSome? (Record.insertFault? m) = none) :
    insertPlan e.registry shape records = .ok (insertOf shape m records) ∧
      ∃ ss, (insertOf shape m records).batches e.executor.dialect = .ok ss ∧
        e.batches shape records = .ok ss := by
  have plan := insertPlan_eq h (Metadata.nodup_fields (Registry.fault?_of_get? h)) given
  rw [faultless] at plan
  have columns : m.writable ≠ [] := by
    obtain ⟨record, mem⟩ := List.exists_mem_of_ne_nil records given
    exact Record.writable_ne_nil (List.findSome?_eq_none_iff.mp faultless record mem)
  obtain ⟨ss, built⟩ :=
    InsertPlan.exists_batches (p := insertOf shape m records) columns rfl e.executor.dialect
  refine ⟨plan, ss, built, ?_⟩
  rw [e.batches_eq shape given, plan]
  exact built

end Engine

/-- How records of a shape are inserted: the statements that are run, with the answers to them, and
what comes of it. -/
structure InsertedInBatches {σ : Type} (e : Engine σ) (shape : ShapeId) (records : List Record)
    (calls : List Call) (result : Except Stop UInt64) : Prop where
  nothing : records = [] → calls = [] ∧ result = .ok 0
  unregistered : records ≠ [] → e.registry.get? shape = none →
    calls = [] ∧ result = .error (.error (.unknownEntity shape.name))
  /-- The first record that has no row is reported before anything is run. -/
  refused : ∀ m err, records ≠ [] → e.registry.get? shape = some m →
    records.findSome? (Record.insertFault? m) = some err →
    Engine.insertPlan e.registry shape records = .error err ∧ calls = [] ∧
      result = .error (.error err)
  /-- The batches have the rows of the records, each once and in order. -/
  batches : ∀ m, records ≠ [] → e.registry.get? shape = some m →
    records.findSome? (Record.insertFault? m) = none →
    Engine.insertPlan e.registry shape records = .ok (insertOf shape m records) ∧
    ∃ ss, (insertOf shape m records).batches e.executor.dialect = .ok ss ∧
      (∀ s ∈ ss, s.tableName = some m.table ∧ s.columnNames = m.writable.map (·.column)) ∧
      ss.flatMap Statement.tuples
        = records.map (fun record => (record.valuesFor m.writable).map Value.bound) ∧
      RunInOrder 0 ss calls result ∧
      (∀ n, result = .ok n → n.toNat = affectedBy calls) ∧
      (result = .error .overflow ↔ UInt64.size ≤ affectedBy calls)

/-- Records are inserted by running their batches in order up to the first failure, once it is known
that every record has a row. The result is that failure, or the number of rows that the batches were
about. The run overflows exactly if 64 bits do not hold that number. -/
theorem records_inserted_in_batches {σ : Type} (e : Engine σ) (shape : ShapeId)
    (records : List Record) :
    (e.insertMany shape records).Records ((e.recorded id).insertMany shape records)
      fun calls result => InsertedInBatches e shape records calls result := by
  refine (e.insertMany_records id shape records).mono ?_
  intro calls result ran
  have failed {err : Error} (h : e.batches shape records = .error err) :
      calls = [] ∧ result = .error (.error err) := by
    obtain ⟨err', h', rfl, rfl⟩ | ⟨ss, _, h', _⟩ := ran
    · cases h.symm.trans h'
      exact ⟨rfl, rfl⟩
    · cases h.symm.trans h'
  have run {ss : List Statement} (h : e.batches shape records = .ok ss) :
      RunInOrder 0 ss calls result := by
    obtain ⟨err, h', _⟩ | ⟨ss', calls, h', run, rfl⟩ := ran
    · cases h.symm.trans h'
    · cases h.symm.trans h'
      rwa [List.map_id]
  refine ⟨?nothing, ?unregistered, ?refused, ?batches⟩
  case nothing =>
    rintro rfl
    exact (run rfl).of_nil
  case unregistered => exact fun given h => failed (e.batches_of_unregistered given h)
  case refused =>
    intro m err given h fault
    obtain ⟨plan, unbuilt⟩ := e.batches_of_fault given h fault
    exact ⟨plan, failed unbuilt⟩
  case batches =>
    intro m given h faultless
    obtain ⟨plan, ss, built, several⟩ := e.exists_batches_of_faultless given h faultless
    have ordered : RunInOrder 0 ss calls result := run several
    refine ⟨plan, ss, built, fun s => InsertPlan.names_of_batches built,
      (InsertPlan.flatMap_tuples_of_batches built).trans List.map_map, ordered, ?counted,
      ordered.overflow_iff.trans ?past⟩
    case counted =>
      rintro n rfl
      rw [ordered.affected, UInt64.toNat_zero, Nat.zero_add]
    case past => rw [UInt64.toNat_zero, Nat.zero_add]

end RecordQuery
