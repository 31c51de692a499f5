import Mathlib.Data.List.Forall2
import Mathlib.Data.List.Nodup
import RecordQuery.Proofs.Write.Batches
import RecordQuery.Proofs.Write.Target

/-!
# Rows as wide as the column list

A plan of rows starts without columns. They are set, replaced or emptied while there are no rows,
or come from the first record, and rows come as they are or out of records. `InsertPlan.apply` keeps
`InsertPlan.Aligned` at every operation, so it holds after any operations, failed ones among them
(`InsertPlan.attemptAll`). A statement of an aligned plan `Statement.Tabulates` its rows: the
placeholder of a value is found by counting.
-/

namespace RecordQuery

open Sql

/-- The text names the columns and has a tuple of placeholders for every row. Of `w` columns, the
placeholder in tuple `i` at position `j` is number `i * w + j`, and the parameter of that number is
the value there. There are no other parameters. -/
structure Statement.Tabulates (s : Statement) (columns : List String) (rows : List (List Value)) :
    Prop where
  text : parenthesized none (tokens s.sql) = nameTokens columns ::
    (List.range rows.length).map fun i =>
      slotTokens ((List.range columns.length).map (i * columns.length + ·))
  bound : ∀ i row, rows[i]? = some row → ∀ j v, row[j]? = some v →
    s.params[i * columns.length + j]?
      = some ⟨placeholder (i * columns.length + j), v.bound⟩
  count : s.params.length = rows.length * columns.length

namespace Write

/-! ## Numbers of rows of one width -/

variable {w : Nat} {rows : List (List Value)}

theorem slotRows_of_width (h : ∀ row ∈ rows, row.length = w) (n : Nat) :
    slotRows n rows
      = (List.range rows.length).map fun i => (List.range w).map (n + i * w + ·) := by
  induction rows generalizing n with
  | nil => rfl
  | cons row rows ih =>
    have first : row.length = w := h row List.mem_cons_self
    have later := ih (fun r hr => h r (List.mem_cons_of_mem _ hr)) (n + w)
    rw [slotRows, first, later, List.length_cons, List.range_succ_eq_map, List.map_cons,
      List.map_map, List.range'_eq_map_range]
    congr 1
    · simp
    · refine List.map_congr_left fun i _ => ?_
      have start : n + w + i * w = n + (i + 1) * w := by rw [Nat.succ_mul]; omega
      simp only [start, Function.comp]

theorem length_flatten_of_width (h : ∀ row ∈ rows, row.length = w) :
    rows.flatten.length = rows.length * w := by
  induction rows with
  | nil => simp
  | cons row rows ih =>
    rw [List.flatten_cons, List.length_append, h row List.mem_cons_self,
      ih fun r hr => h r (List.mem_cons_of_mem _ hr), List.length_cons, Nat.succ_mul, Nat.add_comm]

theorem getElem?_flatten_of_width (h : ∀ row ∈ rows, row.length = w) {i : Nat} {row : List Value}
    (hr : rows[i]? = some row) {j : Nat} {v : Value} (hv : row[j]? = some v) :
    rows.flatten[i * w + j]? = some v := by
  induction rows generalizing i with
  | nil => cases hr
  | cons first rows ih =>
    have length : first.length = w := h first List.mem_cons_self
    rw [List.flatten_cons]
    cases i with
    | zero =>
      cases hr
      have inside : j < row.length := (List.getElem?_eq_some_iff.mp hv).1
      rw [Nat.zero_mul, Nat.zero_add, List.getElem?_append_left inside, hv]
    | succ i =>
      have later := ih (fun r hr => h r (List.mem_cons_of_mem _ hr)) hr
      rw [List.getElem?_append_right (by rw [length, Nat.succ_mul]; omega), ← later, length]
      congr 1
      rw [Nat.succ_mul]
      omega

theorem getElem?_number {vs : List Value} {n : Nat} {v : Value} (h : vs[n]? = some v) :
    (Param.number vs)[n]? = some ⟨placeholder n, v.bound⟩ := by
  simp [Param.number, h]

namespace InsertPlan

variable {p q : InsertPlan} {d : Dialect} {s : Statement}

/-- A statement with rows as wide as the column list has each value in its place. -/
theorem tabulates_statement (hw : ∀ row ∈ rows, row.length = p.columns.length)
    (h : p.statement d rows = .ok s) : s.Tabulates (p.columns.map (·.column)) rows := by
  obtain ⟨_, _, returning, _, rfl⟩ := statement_ok_iff.mp h
  have width : (p.columns.map (·.column)).length = p.columns.length := List.length_map ..
  constructor
  · rw [Statement.ofPieces, Insert.parenthesized_pieces, slotRows_of_width hw, List.map_map, width]
    simp only [Function.comp_def, Nat.zero_add]
  · intro i row hr j v hv
    rw [width]
    exact getElem?_number (getElem?_flatten_of_width hw hr hv)
  · rw [width, ← length_flatten_of_width hw]
    simp [Statement.ofPieces, Param.number]

/-! ## Operations -/

/-- Every row has a value for each column, there are columns once there are rows, and a write may
set each of them. -/
structure Aligned (p : InsertPlan) : Prop where
  width : ∀ row ∈ p.rows, row.length = p.columns.length
  columns : p.rows ≠ [] → p.columns ≠ []
  writable : ∀ c ∈ p.columns, c ∈ p.target.metadata.writable

theorem aligned_new (t : Target) : ({ target := t } : InsertPlan).Aligned :=
  ⟨nofun, absurd rfl, nofun⟩

variable {names : List String} {row : List Value} {record : Record} {st : Step}
  {steps : List Step}

theorem setColumns_ok_iff :
    p.setColumns names = .ok q ↔
      p.rows = [] ∧ ∃ cs, names.mapM p.target.writable = .ok cs ∧ q = { p with columns := cs } := by
  unfold setColumns
  by_cases empty : p.rows = []
  · simp only [empty, List.isEmpty_nil, Bool.not_true, Bool.false_eq_true, if_false, true_and]
    refine bind_ok_iff.trans (exists_congr fun cs => and_congr_right fun _ => ?_)
    simp [pure, Except.pure, eq_comm]
  · simp [empty, bind, Except.bind, throw, throwThe, MonadExceptOf.throw]

theorem addRow_ok_iff :
    p.addRow row = .ok q ↔
      p.columns ≠ [] ∧ row.length = p.columns.length ∧ q = { p with rows := p.rows ++ [row] } := by
  unfold addRow
  split
  · next none => simp [List.isEmpty_iff.mp none]
  split
  · next other => simp [other]
  · next some width =>
    have some : p.columns ≠ [] := by simpa using some
    simp [some, Decidable.not_not.mp width, eq_comm]

/-- A record brings the columns a write may set, unless there are columns. -/
theorem addRecord_ok (h : p.addRecord record = .ok q) :
    ∃ cs row, (cs = p.columns ∨ p.columns = [] ∧ cs = p.target.metadata.writable) ∧
      { p with columns := cs }.addRow row = .ok q := by
  obtain ⟨row, _, h⟩ := bind_ok_iff.mp h
  refine ⟨_, row, ?_, h⟩
  split
  · next empty => exact .inr ⟨by simpa using empty, rfl⟩
  · exact .inl rfl

theorem Aligned.addRow (hp : p.Aligned) (h : p.addRow row = .ok q) : q.Aligned := by
  obtain ⟨some, width, rfl⟩ := addRow_ok_iff.mp h
  refine ⟨fun r hr => ?_, fun _ => some, hp.writable⟩
  obtain hr | hr := List.mem_append.mp hr
  · exact hp.width r hr
  · rw [List.mem_singleton.mp hr, width]

/-- An operation that succeeds keeps a plan aligned, and its target. -/
theorem Aligned.apply (hp : p.Aligned) (h : p.apply st = .ok q) :
    q.Aligned ∧ q.target = p.target := by
  cases st with
  | setColumns names =>
    obtain ⟨empty, cs, hcs, rfl⟩ := setColumns_ok_iff.mp h
    refine ⟨⟨fun r hr => ?_, fun some => absurd empty some, fun c hc => ?_⟩, rfl⟩
    · rw [empty] at hr
      cases hr
    · obtain ⟨name, _, named⟩ := mapM_ok_mem hcs hc
      exact Target.mem_writable_of_ok named
  | addRow row => exact ⟨hp.addRow h, by obtain ⟨_, _, rfl⟩ := addRow_ok_iff.mp h; rfl⟩
  | addRecord record =>
    obtain ⟨cs, row, hcs, h⟩ := addRecord_ok h
    have filled : { p with columns := cs }.Aligned := by
      obtain rfl | ⟨empty, rfl⟩ := hcs
      · exact hp
      · -- without columns there were no rows
        have none : p.rows = [] := Decidable.not_not.mp fun some => hp.columns some empty
        exact ⟨by simp [none], by simp [none], fun c hc => hc⟩
    exact ⟨filled.addRow h, by obtain ⟨_, _, rfl⟩ := addRow_ok_iff.mp h; rfl⟩
  | returningKey =>
    cases h
    exact ⟨⟨hp.width, hp.columns, hp.writable⟩, rfl⟩

/-- The plan after an operation, or as it was if that fails. -/
def attempt (p : InsertPlan) (st : Step) : InsertPlan :=
  match p.apply st with
  | .ok q => q
  | .error _ => p

def attemptAll (p : InsertPlan) (steps : List Step) : InsertPlan := steps.foldl attempt p

theorem Aligned.attempt (hp : p.Aligned) (st : Step) :
    (p.attempt st).Aligned ∧ (p.attempt st).target = p.target := by
  unfold InsertPlan.attempt
  split
  · next h => exact hp.apply h
  · exact ⟨hp, rfl⟩

theorem Aligned.attemptAll (hp : p.Aligned) (steps : List Step) :
    (p.attemptAll steps).Aligned ∧ (p.attemptAll steps).target = p.target := by
  induction steps generalizing p with
  | nil => exact ⟨hp, rfl⟩
  | cons st steps ih =>
    obtain ⟨once, same⟩ := hp.attempt st
    obtain ⟨all, kept⟩ := ih once
    exact ⟨all, kept.trans same⟩

/-! ## Statements of aligned plans -/

theorem Aligned.build (hp : p.Aligned) (h : p.build d = .ok s) :
    s.Tabulates (p.columns.map (·.column)) p.rows :=
  tabulates_statement hp.width (build_ok_iff.mp h).2

theorem Aligned.width_of_mem_chunks (hp : p.Aligned) {size : Nat}
    (h : rows ∈ chunks size p.rows) : ∀ row ∈ rows, row.length = p.columns.length := by
  intro row hrow
  refine hp.width row ?_
  rw [← flatten_chunks size p.rows]
  exact List.mem_flatten.mpr ⟨rows, h, hrow⟩

theorem Aligned.batches {ss : List Statement} (hp : p.Aligned) (h : p.batches d = .ok ss) :
    List.Forall₂ (fun s rows => s.Tabulates (p.columns.map (·.column)) rows) ss
      (chunks (p.batchSize d) p.rows) := by
  have width (rows) (h : rows ∈ chunks (p.batchSize d) p.rows) := hp.width_of_mem_chunks h
  unfold InsertPlan.batches at h
  have each := mapM_ok_iff.mp h
  clear h
  generalize chunks (p.batchSize d) p.rows = batches at each width
  refine List.Forall₂.flip ?_
  induction each with
  | nil => exact .nil
  | cons first _ ih =>
    exact .cons (tabulates_statement (width _ List.mem_cons_self) first)
      (ih fun rows h => width rows (List.mem_cons_of_mem _ h))

end InsertPlan

/-- Whatever is attempted on a new plan, its rows are as wide as its column list, a column that the
storage computes is not in that list, and every statement of the plan has the values of its rows in
their places. -/
theorem attempted_rows_line_up {r : Registry} {shape : ShapeId} {p : InsertPlan}
    (h : InsertPlan.ofShape r shape = .ok p) (steps : List InsertPlan.Step) :
    let q := p.attemptAll steps
    (∀ row ∈ q.rows, row.length = q.columns.length) ∧
    (q.rows ≠ [] → q.columns ≠ []) ∧
    (∃ m, r.get? shape = some m ∧ q.target = ⟨shape, m⟩ ∧
      (∀ c ∈ q.columns, c ∈ m.columns ∧ m.isComputed c.field = false) ∧
      ((m.columns.map (·.column)).Nodup →
        ∀ c ∈ m.columns, m.isComputed c.field = true → c.column ∉ q.columns.map (·.column))) ∧
    (∀ d s, q.build d = .ok s → s.Tabulates (q.columns.map (·.column)) q.rows) ∧
    (∀ d ss, q.batches d = .ok ss →
      List.Forall₂ (fun s rows => s.Tabulates (q.columns.map (·.column)) rows) ss
        (chunks (q.batchSize d) q.rows)) := by
  intro q
  obtain ⟨t, ht, rfl⟩ := map_ok_iff.mp h
  obtain ⟨m, hm, rfl⟩ := Target.ofShape_ok_iff.mp ht
  obtain ⟨aligned, target⟩ := (InsertPlan.aligned_new ⟨shape, m⟩).attemptAll steps
  have free : ∀ c ∈ q.columns, c ∈ m.columns ∧ m.isComputed c.field = false := by
    intro c hc
    have writable := aligned.writable c hc
    rw [target] at writable
    exact Metadata.mem_writable_iff.mp writable
  refine ⟨aligned.width, aligned.columns, ⟨m, hm, target, free, ?_⟩,
    fun d s => aligned.build, fun d ss => aligned.batches⟩
  intro distinct c hc computed named
  obtain ⟨c', hc', same⟩ := List.mem_map.mp named
  obtain ⟨declared, notComputed⟩ := free c' hc'
  -- a column of the list under that name is the computed one
  rw [List.inj_on_of_nodup_map distinct declared hc same, computed] at notComputed
  cases notComputed

/-- The column of one field is called like another field, which the storage computes. -/
def ledgerMetadata : Metadata where
  table := "Ledger"
  columns := [⟨"id", "No"⟩, ⟨"note", "id"⟩, ⟨"sum", "Sum"⟩]
  keys := ["id"]
  computed := ["id"]

def ledgerRegistry : Registry where
  entries := [("Entry", ledgerMetadata)]
  sound := by decide

/-- Computed columns under both their names, rows before columns and rows of another width fail. -/
def ledgerSteps : List InsertPlan.Step := [
  .setColumns ["No"], .setColumns ["note", "id"], .addRow [.int 1],
  .setColumns ["Sum"], .setColumns ["Sum", "note"],
  .addRow [.int 1], .addRow [.int 1, .bytes []], .setColumns [],
  .addRecord ⟨"Entry", [({ name := "sum", type := .required .int }, .int 2),
    ({ name := "note", type := .required .text }, .text "@p0")]⟩]

theorem attempted_rows_line_up_ledger :
    InsertPlan.ofShape ledgerRegistry "Entry" = .ok { target := ⟨"Entry", ledgerMetadata⟩ } ∧
    ∃ s, (InsertPlan.attemptAll { target := ⟨"Entry", ledgerMetadata⟩ } ledgerSteps).build .sqlite
        = .ok s ∧
      s.Tabulates ["Sum", "id"] [[.int 1, .bytes []], [.int 2, .text "@p0"]] := by
  have started : InsertPlan.ofShape ledgerRegistry "Entry"
      = .ok { target := ⟨"Entry", ledgerMetadata⟩ } := rfl
  obtain ⟨_, _, _, built, _⟩ := attempted_rows_line_up started ledgerSteps
  exact ⟨started, _, rfl, built .sqlite _ rfl⟩

end Write

end RecordQuery
