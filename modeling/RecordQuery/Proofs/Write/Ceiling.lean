import Mathlib.Data.List.Range
import RecordQuery.Proofs.Write.Width

/-!
# What a statement may carry

A dialect bounds the parameters of a statement, and `maxRows` its rows. `build` refuses what is too
much for one statement; `batches` puts as many rows into each as fit, but never none. So a batch
never has too many rows, and it has too many parameters just when a single row does
(`ceilings_kept_iff`).
-/

namespace RecordQuery

open Sql

theorem Statement.Tabulates.length_tuples {s : Statement} {columns : List String}
    {rows : List (List Value)} (h : s.Tabulates columns rows) :
    s.tuples.length = rows.length := by
  simp [Statement.tuples, h.text]

namespace Write

/-! ## Stretches -/

theorem length_le_of_mem_chunks {size : Nat} (hs : 0 < size) {xs c : List α}
    (h : c ∈ chunks size xs) : c.length ≤ size := by
  fun_induction chunks size xs with
  | case1 => cases h
  | case2 x xs ih =>
    obtain rfl | h := List.mem_cons.mp h
    · rw [List.length_cons, List.length_take]
      omega
    · exact ih h

theorem chunks_one (xs : List α) : chunks 1 xs = xs.map ([·]) := by
  induction xs with
  | nil => rw [chunks, List.map_nil]
  | cons x xs ih => rw [chunks_cons, List.take_zero, List.drop_zero, ih, List.map_cons]

namespace InsertPlan

variable {p : InsertPlan} {d : Dialect} {s : Statement} {ss : List Statement}

/-- Rows that do not fit into a statement are batched one by one. -/
theorem batchSize_of_wide (wide : d.maxParameters < p.columns.length) : p.batchSize d = 1 := by
  have quotient : d.maxParameters / max p.columns.length 1 = 0 :=
    Nat.div_eq_of_lt (Nat.lt_of_lt_of_le wide (Nat.le_max_left ..))
  rw [batchSize, quotient, Nat.zero_min]
  rfl

/-- The values of a full batch fit, as long as those of one row do. -/
theorem batchSize_mul_le (narrow : p.columns.length ≤ d.maxParameters) :
    p.batchSize d * p.columns.length ≤ d.maxParameters := by
  by_cases none : p.columns.length = 0
  · rw [none, Nat.mul_zero]
    exact Nat.zero_le _
  · have some : 0 < p.columns.length := Nat.pos_of_ne_zero none
    calc p.batchSize d * p.columns.length
        = min (d.maxParameters / p.columns.length) maxRows * p.columns.length := by
          rw [batchSize_of_fits some narrow]
      _ ≤ d.maxParameters / p.columns.length * p.columns.length :=
          Nat.mul_le_mul_right _ (Nat.min_le_left ..)
      _ ≤ d.maxParameters := Nat.div_mul_le_self ..

/-! ## Statements -/

theorem Aligned.length_build (hp : p.Aligned) (h : p.build d = .ok s) :
    s.params.length ≤ d.maxParameters ∧ s.tuples.length ≤ maxRows := by
  have tabulates := hp.build h
  have fits := (build_ok_iff.mp h).1
  rw [tabulates.count, tabulates.length_tuples, List.length_map]
  exact fits

/-- A batch has the rows of a stretch, with as many parameters as they have values. -/
theorem Aligned.exists_chunk (hp : p.Aligned) (h : p.batches d = .ok ss) (hs : s ∈ ss) :
    ∃ rows ∈ chunks (p.batchSize d) p.rows, s.tuples.length = rows.length ∧
      s.params.length = rows.length * p.columns.length := by
  obtain ⟨rows, mem, hrows⟩ := mapM_ok_mem h hs
  have tabulates := tabulates_statement (hp.width_of_mem_chunks mem) hrows
  exact ⟨rows, mem, tabulates.length_tuples, by rw [tabulates.count, List.length_map]⟩

theorem Aligned.length_batch_le (hp : p.Aligned) (h : p.batches d = .ok ss) (hs : s ∈ ss) :
    s.tuples.length ≤ maxRows := by
  obtain ⟨rows, mem, tuples, _⟩ := hp.exists_chunk h hs
  rw [tuples]
  exact Nat.le_trans (length_le_of_mem_chunks (p.batchSize_pos d) mem) (p.batchSize_le_maxRows d)

theorem Aligned.params_batch_le (hp : p.Aligned) (narrow : p.columns.length ≤ d.maxParameters)
    (h : p.batches d = .ok ss) (hs : s ∈ ss) : s.params.length ≤ d.maxParameters := by
  obtain ⟨rows, mem, _, params⟩ := hp.exists_chunk h hs
  rw [params]
  exact Nat.le_trans
    (Nat.mul_le_mul_right _ (length_le_of_mem_chunks (p.batchSize_pos d) mem))
    (batchSize_mul_le narrow)

/-- Each row that is too wide is a batch of its own. -/
theorem Aligned.wide_batches (hp : p.Aligned) (wide : d.maxParameters < p.columns.length)
    (h : p.batches d = .ok ss) :
    ss.length = p.rows.length ∧
      ∀ s ∈ ss, s.tuples.length = 1 ∧ s.params.length = p.columns.length := by
  have single : chunks (p.batchSize d) p.rows = p.rows.map ([·]) := by
    rw [batchSize_of_wide wide, chunks_one]
  constructor
  · have same := (mapM_ok_iff.mp h).length_eq
    rw [single, List.length_map] at same
    exact same.symm
  · intro s hs
    obtain ⟨rows, mem, tuples, params⟩ := hp.exists_chunk h hs
    rw [single] at mem
    obtain ⟨row, _, rfl⟩ := List.mem_map.mp mem
    exact ⟨tuples, by rw [params, List.length_singleton, Nat.one_mul]⟩

theorem Aligned.params_batches_iff (hp : p.Aligned) (h : p.batches d = .ok ss) :
    (∀ s ∈ ss, s.params.length ≤ d.maxParameters) ↔
      p.rows = [] ∨ p.columns.length ≤ d.maxParameters := by
  constructor
  · intro kept
    refine Decidable.or_iff_not_imp_left.mpr fun some => Nat.le_of_not_lt fun wide => ?_
    obtain ⟨length, each⟩ := hp.wide_batches wide h
    have sent : ss ≠ [] := by
      rintro rfl
      exact some (List.length_eq_zero_iff.mp length.symm)
    obtain ⟨s, hs⟩ := List.exists_mem_of_ne_nil ss sent
    have few := kept s hs
    rw [(each s hs).2] at few
    omega
  · rintro (none | narrow) s hs
    · obtain ⟨rows, mem, _⟩ := hp.exists_chunk h hs
      rw [none, chunks] at mem
      cases mem
    · exact hp.params_batch_le narrow h hs

/-- Batches are built unless a key is asked for that the table does not have. -/
theorem Aligned.exists_batches_iff (hp : p.Aligned) (d : Dialect) :
    (∃ ss, p.batches d = .ok ss) ↔ p.rows = [] ∨ ∃ key, p.returning = .ok key := by
  constructor
  · rintro ⟨ss, h⟩
    refine Decidable.or_iff_not_imp_left.mpr fun some => ?_
    obtain ⟨rows, mem⟩ := List.exists_mem_of_ne_nil _ (chunks_ne_nil (p.batchSize d) some)
    obtain ⟨s, _, hs⟩ := ok_of_mapM_ok h mem
    obtain ⟨_, _, key, returning, _⟩ := statement_ok_iff.mp hs
    exact ⟨key, returning⟩
  · rintro (none | ⟨key, returning⟩)
    · refine ⟨[], ?_⟩
      rw [InsertPlan.batches, none, chunks]
      rfl
    · refine exists_mapM_ok fun rows mem => ?_
      have some : p.rows ≠ [] := by
        intro none
        rw [none, chunks] at mem
        cases mem
      exact ⟨_, statement_ok_iff.mpr
        ⟨hp.columns some, ne_nil_of_mem_chunks mem, key, returning, rfl⟩⟩

end InsertPlan

open InsertPlan

/-- Whatever is attempted on a new plan, a statement with all its rows keeps both ceilings, and so
do its batches where a single row does: they never have too many rows, and they have too many
parameters exactly if there are rows and their columns are too many for one statement. Then no
statement is built of all rows, but batches are, one for each row with a parameter for every column.
Batches fail to be built only for a key that the table does not have. -/
theorem ceilings_kept_iff {r : Registry} {shape : ShapeId} {p : InsertPlan}
    (h : ofShape r shape = .ok p) (steps : List Step) (d : Dialect) :
    let q := p.attemptAll steps
    (∀ s, q.build d = .ok s → s.params.length ≤ d.maxParameters ∧ s.tuples.length ≤ maxRows) ∧
    (∀ ss, q.batches d = .ok ss →
      (∀ s ∈ ss, s.tuples.length ≤ maxRows) ∧
      ((∀ s ∈ ss, s.params.length ≤ d.maxParameters) ↔
        q.rows = [] ∨ q.columns.length ≤ d.maxParameters)) ∧
    (d.maxParameters < q.columns.length →
      (∀ s, q.build d ≠ .ok s) ∧
      ∀ ss, q.batches d = .ok ss → ss.length = q.rows.length ∧
        ∀ s ∈ ss, s.tuples.length = 1 ∧ s.params.length = q.columns.length) ∧
    ((∃ ss, q.batches d = .ok ss) ↔ q.rows = [] ∨ ∃ key, q.returning = .ok key) := by
  intro q
  obtain ⟨t, _, rfl⟩ := map_ok_iff.mp h
  have aligned : q.Aligned := ((aligned_new t).attemptAll steps).1
  refine ⟨fun s => aligned.length_build, fun ss hss =>
    ⟨fun s => aligned.length_batch_le hss, aligned.params_batches_iff hss⟩, fun wide =>
    ⟨fun s hs => ?_, fun ss => aligned.wide_batches wide⟩, aligned.exists_batches_iff d⟩
  obtain ⟨fits, built⟩ := build_ok_iff.mp hs
  have some := List.length_pos_iff.mpr (statement_ok_iff.mp built).2.1
  have := Nat.le_mul_of_pos_left q.columns.length some
  omega

/-- A table of one column more than a statement of `sqlServer` has parameters. -/
def wideMetadata : Metadata where
  table := "Readings"
  columns := (List.range 2001).map fun i => ⟨"f" ++ Number.natText i, "F" ++ Number.natText i⟩

theorem wideMetadata_wellFormed : wideMetadata.WellFormed := by
  refine ⟨rfl, by simp [wideMetadata], ?_, nofun⟩
  rw [wideMetadata, List.map_map]
  refine List.nodup_range.map fun i j same => natText_injective (String.toList_inj.mp ?_)
  have letters := congrArg String.toList same
  simpa [Function.comp] using letters

def wideRegistry : Registry where
  entries := [("Reading", wideMetadata)]
  sound := by simpa using Metadata.fault?_eq_none_iff.mpr wideMetadata_wellFormed

/-- A row of nulls for all columns of the table. -/
def wideRow : List Value := List.replicate wideMetadata.columns.length .null

/-- The columns are named one by one. -/
def wideSteps : List Step := [.setColumns (wideMetadata.columns.map (·.field)), .addRow wideRow]

def wideListed : InsertPlan where
  target := ⟨"Reading", wideMetadata⟩
  columns := wideMetadata.columns

def wideInsert : InsertPlan := { wideListed with rows := [wideRow] }

theorem length_wideInsert : wideInsert.columns.length = 2001 := by
  rw [wideInsert, wideListed, wideMetadata, List.length_map, List.length_range]

theorem setColumns_wide :
    setColumns { target := ⟨"Reading", wideMetadata⟩ } (wideMetadata.columns.map (·.field))
      = .ok wideListed :=
  setColumns_ok_iff.mpr ⟨rfl, wideMetadata.columns,
    Target.mapM_writable_fields (Metadata.fault?_eq_none_iff.mpr wideMetadata_wellFormed)
      fun _ declared => Metadata.mem_writable_iff.mpr ⟨declared, rfl⟩, rfl⟩

theorem addRow_wide : addRow wideListed wideRow = .ok wideInsert := by
  refine addRow_ok_iff.mpr ⟨?_, ?_, rfl⟩
  · simpa only [wideListed] using wideMetadata_wellFormed.columns
  · rw [wideRow, List.length_replicate, wideListed]

theorem attemptAll_wideSteps :
    attemptAll { target := ⟨"Reading", wideMetadata⟩ } wideSteps = wideInsert := by
  have first : attempt { target := ⟨"Reading", wideMetadata⟩ }
      (.setColumns (wideMetadata.columns.map (·.field))) = wideListed := by
    rw [attempt, apply, setColumns_wide]
  have last : attempt wideListed (.addRow wideRow) = wideInsert := by
    rw [attempt, apply, addRow_wide]
  rw [attemptAll, wideSteps, List.foldl_cons, first, List.foldl_cons, last, List.foldl_nil]

/-- The same row keeps the ceiling of one dialect and not that of the other. -/
theorem ceilings_kept_iff_wide :
    ofShape wideRegistry "Reading" = .ok { target := ⟨"Reading", wideMetadata⟩ } ∧
    (∃ ss, wideInsert.batches .sqlite = .ok ss ∧
      ∀ s ∈ ss, s.params.length ≤ Dialect.sqlite.maxParameters) ∧
    Dialect.sqlServer.maxParameters < wideInsert.columns.length ∧
    ∃ s, wideInsert.batches .sqlServer = .ok [s] ∧ s.params.length = 2001 := by
  have started : ofShape wideRegistry "Reading" = .ok { target := ⟨"Reading", wideMetadata⟩ } := rfl
  have run := ceilings_kept_iff started wideSteps
  simp only [attemptAll_wideSteps] at run
  obtain ⟨_, lite, _, built⟩ := run .sqlite
  obtain ⟨_, _, server, built'⟩ := run .sqlServer
  obtain ⟨ss, hss⟩ := built.mpr (.inr ⟨none, rfl⟩)
  obtain ⟨ss', hss'⟩ := built'.mpr (.inr ⟨none, rfl⟩)
  have wide : Dialect.sqlServer.maxParameters < wideInsert.columns.length := by
    rw [length_wideInsert]
    decide
  have narrow : wideInsert.columns.length ≤ Dialect.sqlite.maxParameters := by
    rw [length_wideInsert]
    decide
  obtain ⟨one, each⟩ := (server wide).2 ss' hss'
  obtain ⟨s, rfl⟩ := List.length_eq_one_iff.mp one
  exact ⟨started, ⟨ss, hss, (lite ss hss).2.mpr (.inr narrow)⟩, wide, s, hss',
    (each s List.mem_cons_self).2.trans length_wideInsert⟩

/-- A single row is sent with more parameters than its dialect takes. -/
theorem wide_row_passes_ceiling :
    ofShape wideRegistry "Reading" = .ok { target := ⟨"Reading", wideMetadata⟩ } ∧
    applyAll { target := ⟨"Reading", wideMetadata⟩ } wideSteps = .ok wideInsert ∧
    ∃ s, wideInsert.batches .sqlServer = .ok [s] ∧
      s.params.length = 2001 ∧ Dialect.sqlServer.maxParameters = 2000 := by
  refine ⟨rfl, ?run, ?sent⟩
  case run =>
    rw [applyAll, wideSteps, List.foldlM_cons]
    exact bind_ok_iff.mpr ⟨_, setColumns_wide, bind_ok_iff.mpr ⟨_, addRow_wide, rfl⟩⟩
  case sent =>
    have aligned : wideInsert.Aligned := by
      rw [← attemptAll_wideSteps]
      exact ((aligned_new _).attemptAll wideSteps).1
    obtain ⟨ss, hss⟩ := (aligned.exists_batches_iff .sqlServer).mpr (.inr ⟨none, rfl⟩)
    have wide : Dialect.sqlServer.maxParameters < wideInsert.columns.length := by
      rw [length_wideInsert]
      decide
    obtain ⟨one, each⟩ := aligned.wide_batches wide hss
    obtain ⟨s, rfl⟩ := List.length_eq_one_iff.mp one
    exact ⟨s, hss, (each s List.mem_cons_self).2.trans length_wideInsert, rfl⟩

end Write

end RecordQuery
