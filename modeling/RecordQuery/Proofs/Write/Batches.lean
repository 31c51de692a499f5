import RecordQuery.Proofs.Result
import RecordQuery.Proofs.Write.Insert

/-!
# Batches carry the rows of an insert

The batches of a plan have its rows in order, each row once, as many in every batch but the last
(`batches_keep_rows`). A plan that can be built in one statement has that statement as its only
batch.
-/

namespace RecordQuery.Write

/-! ## Stretches of a list -/

theorem chunks_cons (size : Nat) (x : α) (xs : List α) :
    chunks size (x :: xs) = (x :: xs.take (size - 1)) :: chunks size (xs.drop (size - 1)) := by
  rw [chunks]

theorem chunks_ne_nil (size : Nat) {xs : List α} (h : xs ≠ []) : chunks size xs ≠ [] := by
  cases xs with
  | nil => exact absurd rfl h
  | cons x xs => simp [chunks_cons]

theorem flatten_chunks (size : Nat) (xs : List α) : (chunks size xs).flatten = xs := by
  fun_induction chunks size xs with
  | case1 => rfl
  | case2 x xs ih => rw [List.flatten_cons, ih, List.cons_append, List.take_append_drop]

theorem ne_nil_of_mem_chunks {size : Nat} {xs c : List α} (h : c ∈ chunks size xs) : c ≠ [] := by
  fun_induction chunks size xs with
  | case1 => cases h
  | case2 x xs ih =>
    obtain rfl | h := List.mem_cons.mp h
    · exact List.cons_ne_nil _ _
    · exact ih h

theorem length_of_mem_dropLast_chunks {size : Nat} (hs : 0 < size) {xs c : List α}
    (h : c ∈ (chunks size xs).dropLast) : c.length = size := by
  fun_induction chunks size xs with
  | case1 => cases h
  | case2 x xs ih =>
    -- a stretch that another one follows did not use up the list
    by_cases hrest : xs.drop (size - 1) = []
    · rw [hrest, chunks] at h
      cases h
    · rw [List.dropLast_cons_of_ne_nil (chunks_ne_nil size hrest)] at h
      obtain rfl | h := List.mem_cons.mp h
      · have : size - 1 < xs.length := by simpa using hrest
        rw [List.length_cons, List.length_take]
        omega
      · exact ih h

theorem chunks_eq_singleton_iff {size : Nat} (hs : 0 < size) {xs ys : List α} :
    chunks size xs = [ys] ↔ xs ≠ [] ∧ xs.length ≤ size ∧ ys = xs := by
  cases xs with
  | nil => simp [chunks]
  | cons x xs =>
    have rest : chunks size (xs.drop (size - 1)) = [] ↔ xs.length ≤ size - 1 := by
      rw [← List.drop_eq_nil_iff]
      refine ⟨fun h => ?_, fun h => by rw [h, chunks]⟩
      exact Classical.byContradiction fun hne => chunks_ne_nil size hne h
    rw [chunks_cons, List.cons.injEq, rest, List.length_cons]
    constructor
    · rintro ⟨rfl, hl⟩
      exact ⟨List.cons_ne_nil _ _, by omega, by rw [List.take_of_length_le hl]⟩
    · rintro ⟨-, hl, rfl⟩
      have hl : xs.length ≤ size - 1 := by omega
      exact ⟨by rw [List.take_of_length_le hl], hl⟩

namespace InsertPlan

variable {p : InsertPlan} {d : Dialect} {s : Statement} {ss : List Statement}

theorem batchSize_pos (p : InsertPlan) (d : Dialect) : 0 < p.batchSize d := by
  unfold batchSize
  omega

theorem batchSize_le_maxRows (p : InsertPlan) (d : Dialect) : p.batchSize d ≤ maxRows := by
  unfold batchSize maxRows
  omega

/-- Rows that fit into a statement are batched by what it may carry. -/
theorem batchSize_of_fits (hpos : 0 < p.columns.length)
    (hfit : p.columns.length ≤ d.maxParameters) :
    p.batchSize d = min (d.maxParameters / p.columns.length) maxRows := by
  have quotient : 1 ≤ d.maxParameters / p.columns.length :=
    (Nat.one_le_div_iff hpos).mpr hfit
  rw [batchSize, Nat.max_eq_left hpos]
  exact Nat.max_eq_right (Nat.le_min.mpr ⟨quotient, by decide⟩)

/-- The rows fit into one batch just when they may be built in one statement. -/
theorem length_le_batchSize_iff (hpos : 0 < p.columns.length)
    (hfit : p.columns.length ≤ d.maxParameters) :
    p.rows.length ≤ p.batchSize d ↔
      p.rows.length * p.columns.length ≤ d.maxParameters ∧ p.rows.length ≤ maxRows := by
  rw [batchSize_of_fits hpos hfit, Nat.le_min, Nat.le_div_iff_mul_le hpos]

theorem build_ok_iff :
    p.build d = .ok s ↔
      (p.rows.length * p.columns.length ≤ d.maxParameters ∧ p.rows.length ≤ maxRows) ∧
        p.statement d p.rows = .ok s := by
  unfold build
  split
  · next h =>
    constructor
    · rintro ⟨⟩
    · rintro ⟨fits, _⟩
      omega
  · next h => exact ⟨fun h' => ⟨by omega, h'⟩, And.right⟩

theorem batches_ok_singleton_iff :
    p.batches d = .ok [s] ↔ p.rows.length ≤ p.batchSize d ∧ p.statement d p.rows = .ok s := by
  have one (rows : List (List Value)) :
      [rows].mapM (p.statement d) = .ok [s] ↔ p.statement d rows = .ok s := by
    rw [mapM_cons_ok_iff]
    constructor
    · rintro ⟨_, _, h, _, he⟩
      cases he
      exact h
    · exact fun h => ⟨s, [], h, rfl, rfl⟩
  constructor
  · intro h
    have length : (chunks (p.batchSize d) p.rows).length = 1 := by
      have same := mapM_ok_map (g := fun _ => ()) (k := fun _ => ()) (fun _ _ _ => rfl) h
      simpa using (congrArg List.length same).symm
    obtain ⟨rows, hrows⟩ := List.length_eq_one_iff.mp length
    obtain ⟨_, fits, rfl⟩ := (chunks_eq_singleton_iff (p.batchSize_pos d)).mp hrows
    rw [batches, hrows, one] at h
    exact ⟨fits, h⟩
  · rintro ⟨fits, h⟩
    have rows := (statement_ok_iff.mp h).2.1
    rw [batches, (chunks_eq_singleton_iff (p.batchSize_pos d)).mpr ⟨rows, fits, rfl⟩, one]
    exact h

/-- More rows than any statement may carry are batched in several. -/
theorem exists_two_batches (h : p.batches d = .ok ss) (many : maxRows < p.rows.length) :
    ∃ s t rest, ss = s :: t :: rest := by
  match ss with
  | [] =>
    have rows : p.rows ≠ [] := List.ne_nil_of_length_pos (Nat.zero_lt_of_lt many)
    obtain ⟨c, cs, hc⟩ := List.exists_cons_of_ne_nil (chunks_ne_nil (p.batchSize d) rows)
    rw [batches, hc] at h
    obtain ⟨_, _, _, _, ⟨⟩⟩ := mapM_cons_ok_iff.mp h
  | [s] =>
    have fits := (batches_ok_singleton_iff.mp h).1
    exact absurd (Nat.le_trans fits (p.batchSize_le_maxRows d)) (Nat.not_le.mpr many)
  | s :: t :: rest => exact ⟨s, t, rest, rfl⟩

theorem map_tuples_of_batches (h : p.batches d = .ok ss) :
    ss.map Statement.tuples = (chunks (p.batchSize d) p.rows).map (·.map (·.map Value.bound)) :=
  mapM_ok_map (fun _ _ => tuples_statement) h

theorem tuples_ne_nil_of_batches (h : p.batches d = .ok ss) (hs : s ∈ ss) : s.tuples ≠ [] := by
  have mem : s.tuples ∈ ss.map Statement.tuples := List.mem_map_of_mem hs
  rw [map_tuples_of_batches h] at mem
  obtain ⟨rows, hrows, he⟩ := List.mem_map.mp mem
  rw [← he]
  exact fun hnil => ne_nil_of_mem_chunks hrows (List.map_eq_nil_iff.mp hnil)

theorem length_tuples_of_batches (h : p.batches d = .ok ss) (hs : s ∈ ss.dropLast) :
    s.tuples.length = p.batchSize d := by
  have mem : s.tuples ∈ (ss.map Statement.tuples).dropLast := by
    rw [← List.map_dropLast]
    exact List.mem_map_of_mem hs
  rw [map_tuples_of_batches h, ← List.map_dropLast] at mem
  obtain ⟨rows, hrows, he⟩ := List.mem_map.mp mem
  rw [← he, List.length_map, length_of_mem_dropLast_chunks (p.batchSize_pos d) hrows]

theorem flatMap_tuples_of_batches (h : p.batches d = .ok ss) :
    ss.flatMap Statement.tuples = p.rows.map (·.map Value.bound) := by
  rw [List.flatMap_def, map_tuples_of_batches h, ← List.map_flatten, flatten_chunks]

theorem flatMap_values_of_batches (h : p.batches d = .ok ss) :
    (ss.flatMap fun s => s.params.map (·.value)) = p.rows.flatten.map Value.bound := by
  have values := mapM_ok_map (fun _ _ => values_statement) h
  have flattened : (chunks (p.batchSize d) p.rows).map (fun rows => rows.flatten.map Value.bound)
      = ((chunks (p.batchSize d) p.rows).map List.flatten).map (List.map Value.bound) := by
    rw [List.map_map]
    rfl
  rw [List.flatMap_def, values, flattened, ← List.map_flatten,
    ← List.flatten_flatten, flatten_chunks]

end InsertPlan

/-- Every batch has rows, all but the last have equally many, and together they have the rows of the
plan in order, as they are bound. A plan is built in one statement just when that is its only
batch, unless a single row is too long for it. -/
theorem batches_keep_rows (p : InsertPlan) (d : Dialect) :
    (∀ ss, p.batches d = .ok ss →
      (∀ s ∈ ss, s.tuples ≠ []) ∧
      (∀ s ∈ ss.dropLast, s.tuples.length = p.batchSize d) ∧
      ss.flatMap Statement.tuples = p.rows.map (·.map Value.bound) ∧
      (ss.flatMap fun s => s.params.map (·.value)) = p.rows.flatten.map Value.bound) ∧
    (∀ s, p.build d = .ok s → p.batches d = .ok [s]) ∧
    (∀ s, p.batches d = .ok [s] → p.columns.length ≤ d.maxParameters → p.build d = .ok s) := by
  refine ⟨?carried, ?built, ?single⟩
  case carried =>
    intro ss h
    exact ⟨fun s => InsertPlan.tuples_ne_nil_of_batches h,
      fun s => InsertPlan.length_tuples_of_batches h, InsertPlan.flatMap_tuples_of_batches h,
      InsertPlan.flatMap_values_of_batches h⟩
  case built =>
    intro s h
    obtain ⟨fits, h⟩ := InsertPlan.build_ok_iff.mp h
    obtain ⟨columns, rows, _⟩ := InsertPlan.statement_ok_iff.mp h
    have width : p.columns.length ≤ d.maxParameters :=
      Nat.le_trans (Nat.le_mul_of_pos_left _ (List.length_pos_iff.mpr rows)) fits.1
    exact InsertPlan.batches_ok_singleton_iff.mpr
      ⟨(InsertPlan.length_le_batchSize_iff (List.length_pos_iff.mpr columns) width).mpr fits, h⟩
  case single =>
    intro s h width
    obtain ⟨fits, h⟩ := InsertPlan.batches_ok_singleton_iff.mp h
    have columns := (InsertPlan.statement_ok_iff.mp h).1
    exact InsertPlan.build_ok_iff.mpr
      ⟨(InsertPlan.length_le_batchSize_iff (List.length_pos_iff.mpr columns) width).mp fits, h⟩

/-- One row more than a statement may carry. -/
def crowdedInsert : InsertPlan :=
  { target := oddTarget, columns := [⟨"id", "@p1"⟩], rows := List.replicate 1001 [.int 7] }

theorem batches_keep_rows_crowded :
    (∃ s t, crowdedInsert.batches .sqlite = .ok [s, t] ∧ s.tuples.length = 1000 ∧ t.tuples ≠ [] ∧
      s.tuples ++ t.tuples = List.replicate 1001 [.int 7]) ∧
    (∃ s, oddInsert.build .sqlServer = .ok s ∧ oddInsert.batches .sqlServer = .ok [s]) ∧
    (∃ s, oddInsert.batches .sqlServer = .ok [s] ∧
      oddInsert.columns.length ≤ Dialect.sqlServer.maxParameters ∧
      oddInsert.build .sqlServer = .ok s) := by
  obtain ⟨carried, _, _⟩ := batches_keep_rows crowdedInsert .sqlite
  obtain ⟨_, built, single⟩ := batches_keep_rows oddInsert .sqlServer
  have stretches : chunks (crowdedInsert.batchSize .sqlite) crowdedInsert.rows
      = [List.replicate 1000 [.int 7], [[.int 7]]] := by
    have size : crowdedInsert.batchSize .sqlite = 1000 := rfl
    have rows : crowdedInsert.rows = [.int 7] :: List.replicate 1000 [.int 7] := rfl
    rw [size, rows, chunks_cons, List.take_replicate, List.drop_replicate,
      show min (1000 - 1) 1000 = 999 from rfl, show 1000 - (1000 - 1) = 1 from rfl,
      List.replicate_one, chunks_cons, ← List.replicate_succ, List.take_nil, List.drop_nil, chunks]
  have statement (rows : List (List Value)) (h : rows ≠ []) :
      ∃ s, crowdedInsert.statement .sqlite rows = .ok s :=
    ⟨_, InsertPlan.statement_ok_iff.mpr ⟨List.cons_ne_nil _ _, h, none, rfl, rfl⟩⟩
  obtain ⟨s, hs⟩ := statement (List.replicate 1000 [.int 7]) (List.cons_ne_nil _ _)
  obtain ⟨t, ht⟩ := statement [[.int 7]] (List.cons_ne_nil _ _)
  have two : crowdedInsert.batches .sqlite = .ok [s, t] := by
    rw [InsertPlan.batches, stretches]
    exact mapM_cons_ok_iff.mpr ⟨s, [t], hs, mapM_cons_ok_iff.mpr ⟨t, [], ht, rfl, rfl⟩, rfl⟩
  obtain ⟨filled, equal, rows, _⟩ := carried _ two
  have kept : s.tuples ++ (t.tuples ++ []) = List.replicate 1001 [.int 7] := by
    rw [crowdedInsert, List.map_replicate] at rows
    exact rows
  rw [List.append_nil] at kept
  have batch := built _ rfl
  exact ⟨⟨s, t, two, equal s (.head _), filled t (.tail _ (.head _)), kept⟩, ⟨_, rfl, batch⟩,
    ⟨_, batch, by decide, single _ batch (by decide)⟩⟩

end RecordQuery.Write
