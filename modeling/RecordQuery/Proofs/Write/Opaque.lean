import RecordQuery.Proofs.Compile.Opaque
import RecordQuery.Write.Insert
import RecordQuery.Write.Update

/-!
# Constants do not reach the text of writes

The operations of a write commute with masking, errors included, and the statement of a plan agrees
with that of the masked plan. With what holds of queries this makes the text of every statement
independent of its constants (`text_independent_of_constants`).
-/

namespace RecordQuery

open Lowering

/-- Name and value with the value masked. -/
def maskedValue (p : α × Value) : α × Value := (p.1, p.2.masked)

def Record.masked (x : Record) : Record := { x with cells := x.cells.map maskedValue }

namespace Write

theorem takeValue?_masked (name : String) (ps : List (String × Value)) :
    takeValue? name (ps.map maskedValue)
      = (takeValue? name ps).map fun x => (x.1.masked, x.2.map maskedValue) := by
  induction ps with
  | nil => rfl
  | cons p ps ih =>
    obtain ⟨n, v⟩ := p
    simp only [List.map_cons, takeValue?, maskedValue]
    split
    · rfl
    · rw [ih]
      cases takeValue? name ps <;> rfl

theorem takeRow_masked (shape : String) (ps : List (String × Value)) (cs : List Mapping) :
    takeRow shape (ps.map maskedValue) cs
      = (takeRow shape ps cs).map (·.map Value.masked) := by
  induction cs generalizing ps with
  | nil => rfl
  | cons c cs ih =>
    simp only [takeRow, takeValue?_masked]
    cases takeValue? c.field ps with
    | none => rfl
    | some x =>
      simp only [Option.map_some, ih]
      cases takeRow shape x.2 cs <;> rfl

theorem rowOf_masked (x : Record) (cs : List Mapping) :
    rowOf x.masked cs = (rowOf x cs).map (·.map Value.masked) := by
  have values : x.masked.toValues = x.toValues.map maskedValue := by
    simp [Record.toValues, Record.masked, maskedValue]
  rw [rowOf, values]
  exact takeRow_masked x.shape.name x.toValues cs

/-- If one operation does the same to masked plans, so do several in a row. -/
theorem foldlM_masked {f : σ → α → Except Error σ} {mask : σ → σ} {g : α → α}
    (h : ∀ p a, f (mask p) (g a) = (f p a).map mask) (p : σ) (xs : List α) :
    (xs.map g).foldlM f (mask p) = (xs.foldlM f p).map mask := by
  induction xs generalizing p with
  | nil => rfl
  | cons x xs ih =>
    simp only [List.map_cons, List.foldlM_cons, h]
    cases f p x with
    | error e => rfl
    | ok p => exact ih p

theorem observed_foldlM {f : σ → α → Except Error σ} {mask : σ → σ} {g : α → α}
    {compile : σ → Except Error β} {view : β → γ}
    (hf : ∀ p a, f (mask p) (g a) = (f p a).map mask)
    (hc : ∀ p, observed view (compile p) = observed view (compile (mask p)))
    (p : σ) {xs ys : List α} (h : xs.map g = ys.map g) :
    observed view (xs.foldlM f p >>= compile) = observed view (ys.foldlM f p >>= compile) := by
  have masked (xs : List α) : observed view (xs.foldlM f p >>= compile)
      = observed view ((xs.map g).foldlM f (mask p) >>= compile) := by
    rw [foldlM_masked hf]
    cases xs.foldlM f p with
    | error e => rfl
    | ok p => exact hc p
  rw [masked xs, masked ys, h]

namespace InsertPlan

def masked (p : InsertPlan) : InsertPlan := { p with rows := p.rows.map (·.map Value.masked) }

def Step.masked : Step → Step
  | addRow row => addRow (row.map Value.masked)
  | addRecord x => addRecord x.masked
  | st => st

theorem addRow_masked (p : InsertPlan) (row : List Value) :
    p.masked.addRow (row.map Value.masked) = (p.addRow row).map masked := by
  simp only [addRow, masked, List.length_map]
  split
  · rfl
  · split
    · rfl
    · simp [Except.map, masked]

theorem apply_masked (p : InsertPlan) (st : Step) :
    p.masked.apply st.masked = (p.apply st).map masked := by
  cases st with
  | setColumns names =>
    have empty : p.masked.rows.isEmpty = p.rows.isEmpty := by simp [masked]
    simp only [apply, Step.masked, setColumns, empty]
    cases p.rows.isEmpty with
    | false => rfl
    | true =>
      simp only [Bool.not_true, Bool.false_eq_true, ↓reduceIte]
      have target : p.masked.target = p.target := rfl
      rw [target]
      cases names.mapM p.target.writable <;> rfl
  | addRow row => exact p.addRow_masked row
  | addRecord x =>
    have columns : p.masked.columns = p.columns := rfl
    have target : p.masked.target = p.target := rfl
    simp only [apply, Step.masked, addRecord, columns, target, rowOf_masked]
    exact map_bind_comm _ fun row => addRow_masked { p with columns := _ } row
  | returningKey => rfl

theorem command_agree (p : InsertPlan) (rows : List (List Value)) :
    Agree (p.command rows) (p.masked.command (rows.map (·.map Value.masked))) := by
  have columns : p.masked.columns = p.columns := rfl
  unfold command
  rw [columns, List.isEmpty_map]
  split
  · exact .refl _
  · refine (Agree.refl _).bind fun key => ?_
    refine (Agree.mapM (fun row => ?_) rows).bind fun rows => .refl _
    exact .mapM (fun v => .push v v.masked) row

theorem statement_outline (p : InsertPlan) (d : Dialect) (rows : List (List Value)) :
    observed Statement.outline (p.statement d rows)
      = observed Statement.outline (p.masked.statement d (rows.map (·.map Value.masked))) :=
  (p.command_agree rows).statement (·.pieces d)

theorem build_outline (p : InsertPlan) (d : Dialect) :
    observed Statement.outline (p.build d) = observed Statement.outline (p.masked.build d) := by
  have rows : p.masked.rows = p.rows.map (·.map Value.masked) := rfl
  have columns : p.masked.columns = p.columns := rfl
  unfold build
  rw [rows, columns, List.length_map]
  split
  · rfl
  · exact p.statement_outline d p.rows

theorem chunks_map (g : α → β) (size : Nat) (xs : List α) :
    chunks size (xs.map g) = (chunks size xs).map (·.map g) := by
  fun_induction chunks size xs with
  | case1 => simp [chunks]
  | case2 x xs ih =>
    rw [List.map_drop] at ih
    simp [chunks, ih]

theorem observed_mapM {f f' : α → Except Error β} {g : α → α} {view : β → γ}
    (h : ∀ a, observed view (f a) = observed view (f' (g a))) (xs : List α) :
    observed (List.map view) (xs.mapM f) = observed (List.map view) ((xs.map g).mapM f') := by
  induction xs with
  | nil => rfl
  | cons x xs ih =>
    rw [List.map_cons, List.mapM_cons, List.mapM_cons]
    obtain ⟨e, e', he, he', hkind⟩ | ⟨a, b, ha, hb, hab⟩ := observed_cases (h x)
    · rw [he, he']
      exact observed_error hkind
    rw [ha, hb]
    obtain ⟨e, e', he, he', hkind⟩ | ⟨as, bs, has, hbs, hs⟩ := observed_cases ih
    · rw [he, he']
      exact observed_error hkind
    · rw [has, hbs]
      refine observed_ok ?_
      rw [List.map_cons, List.map_cons, hab, hs]

theorem batches_outline (p : InsertPlan) (d : Dialect) :
    observed (List.map Statement.outline) (p.batches d)
      = observed (List.map Statement.outline) (p.masked.batches d) := by
  have rows : p.masked.rows = p.rows.map (·.map Value.masked) := rfl
  have size : p.masked.batchSize d = p.batchSize d := rfl
  unfold batches
  rw [rows, size, chunks_map]
  exact observed_mapM (p.statement_outline d) _

end InsertPlan

/-! ## Updates and deletes -/

def Criterion.masked : Criterion → Criterion
  | equals column v => equals column v.masked
  | predicate e => predicate e.masked

/-- Only null is matched in another way than the other values. -/
theorem condition_agree (t : Target) (c : Criterion) :
    Agree (c.condition t) (c.masked.condition t) := by
  cases c with
  | predicate e => exact e.toCondition_agree t.scope
  | equals column v =>
    cases v with
    | null => exact .refl _
    | _ => exact (Agree.push _ _).bind fun slot => .refl _

theorem conditions_agree (t : Target) (cs : List Criterion) :
    Agree (conditions t cs) (conditions t (cs.map Criterion.masked)) :=
  .mapM (condition_agree t) cs

theorem keyCriteria_masked (keys : List Mapping) (x : Record) :
    keyCriteria keys x.masked = (keyCriteria keys x).map (·.map Criterion.masked) := by
  unfold keyCriteria
  rw [rowOf_masked]
  cases rowOf x keys with
  | error e => rfl
  | ok vs => simp [Except.map, List.zip_map_right, Criterion.masked]

namespace UpdatePlan

def masked (p : UpdatePlan) : UpdatePlan :=
  { p with
    assignments := p.assignments.map maskedValue
    criteria := p.criteria.map Criterion.masked }

def Step.masked : Step → Step
  | set name v => set name v.masked
  | whereEqual name v => whereEqual name v.masked
  | filter e => filter e.masked
  | setRecord x => setRecord x.masked

theorem setRecord_masked (p : UpdatePlan) (x : Record) :
    p.masked.setRecord x.masked = (p.setRecord x).map masked := by
  have target : p.masked.target = p.target := rfl
  simp only [setRecord, target, rowOf_masked, keyCriteria_masked]
  split
  · rfl
  · refine bind_comm _ fun keys => map_bind_comm _ fun values => map_bind_comm _ fun cs => ?_
    simp [pure, Except.pure, Except.map, masked, maskedValue, List.zip_map_right]

theorem apply_masked (p : UpdatePlan) (st : Step) :
    p.masked.apply st.masked = (p.apply st).map masked := by
  have target : p.masked.target = p.target := rfl
  cases st with
  | set name v =>
    simp only [apply, Step.masked, set, target]
    cases p.target.writable name with
    | error e => rfl
    | ok c => simp [Except.map, masked, maskedValue]
  | whereEqual name v =>
    simp only [apply, Step.masked, whereEqual, target]
    cases p.target.mapping name with
    | error e => rfl
    | ok c => simp [Except.map, masked, Criterion.masked]
  | filter e => simp [apply, Step.masked, filter, Except.map, masked, Criterion.masked]
  | setRecord x => exact p.setRecord_masked x

theorem command_agree (p : UpdatePlan) : Agree p.command p.masked.command := by
  have empty : p.masked.assignments.isEmpty = p.assignments.isEmpty := by simp [masked]
  unfold command
  rw [empty]
  split
  · exact .refl _
  · refine (Agree.mapM (fun a => ?_) p.assignments).bind fun assignments => ?_
    · exact (Agree.push _ _).bind fun slot => .refl _
    · exact (conditions_agree p.target p.criteria).bind fun filters => .refl _

end UpdatePlan

namespace DeletePlan

def masked (p : DeletePlan) : DeletePlan := { p with criteria := p.criteria.map Criterion.masked }

def Step.masked : Step → Step
  | whereEqual name v => whereEqual name v.masked
  | filter e => filter e.masked
  | matchRecord x => matchRecord x.masked

theorem apply_masked (p : DeletePlan) (st : Step) :
    p.masked.apply st.masked = (p.apply st).map masked := by
  have target : p.masked.target = p.target := rfl
  cases st with
  | whereEqual name v =>
    simp only [apply, Step.masked, whereEqual, target]
    cases p.target.mapping name with
    | error e => rfl
    | ok c => simp [Except.map, masked, Criterion.masked]
  | filter e => simp [apply, Step.masked, filter, Except.map, masked, Criterion.masked]
  | matchRecord x =>
    simp only [apply, Step.masked, matchRecord, target, keyCriteria_masked]
    refine bind_comm _ fun keys => ?_
    split
    · rfl
    · refine map_bind_comm _ fun cs => ?_
      simp [pure, Except.pure, Except.map, masked]

theorem command_agree (p : DeletePlan) : Agree p.command p.masked.command :=
  (conditions_agree p.target p.criteria).bind fun _ => .refl _

end DeletePlan

end Write

/-- Runs of the same operations whose constants differ within their classes only give the same text
with the same parameter names, or fail with errors of one kind. -/
theorem text_independent_of_constants (r : Registry) (d : Dialect) :
    (∀ (s : Shape) (xs ys : List Query.Step) (t t' : Query.Terminal),
      xs.map Query.Step.masked = ys.map Query.Step.masked → t.masked = t'.masked →
      observed Statement.outline (((Query.ofShape s).applyAll xs).statement r d t)
        = observed Statement.outline (((Query.ofShape s).applyAll ys).statement r d t')) ∧
    (∀ (s : Shape) (x y : SearchRequest) (xs ys : List Query.Step) (t t' : Query.Terminal),
      x.masked = y.masked → xs.map Query.Step.masked = ys.map Query.Step.masked →
      t.masked = t'.masked →
      observed Statement.outline (((Query.search s x).applyAll xs).statement r d t)
        = observed Statement.outline (((Query.search s y).applyAll ys).statement r d t')) ∧
    (∀ (shape : ShapeId) (xs ys : List Write.InsertPlan.Step),
      xs.map Write.InsertPlan.Step.masked = ys.map Write.InsertPlan.Step.masked →
      observed Statement.outline
          (do (← (← Write.InsertPlan.ofShape r shape).applyAll xs).build d)
        = observed Statement.outline
          (do (← (← Write.InsertPlan.ofShape r shape).applyAll ys).build d) ∧
      observed (List.map Statement.outline)
          (do (← (← Write.InsertPlan.ofShape r shape).applyAll xs).batches d)
        = observed (List.map Statement.outline)
          (do (← (← Write.InsertPlan.ofShape r shape).applyAll ys).batches d)) ∧
    (∀ (shape : ShapeId) (xs ys : List Write.UpdatePlan.Step),
      xs.map Write.UpdatePlan.Step.masked = ys.map Write.UpdatePlan.Step.masked →
      observed Statement.outline (do (← (← Write.UpdatePlan.ofShape r shape).applyAll xs).build)
        = observed Statement.outline
          (do (← (← Write.UpdatePlan.ofShape r shape).applyAll ys).build)) ∧
    (∀ (shape : ShapeId) (xs ys : List Write.DeletePlan.Step),
      xs.map Write.DeletePlan.Step.masked = ys.map Write.DeletePlan.Step.masked →
      observed Statement.outline (do (← (← Write.DeletePlan.ofShape r shape).applyAll xs).build)
        = observed Statement.outline
          (do (← (← Write.DeletePlan.ofShape r shape).applyAll ys).build)) := by
  refine ⟨?query, ?search, ?insert, ?update, ?delete⟩
  case query =>
    intro s xs ys t t' h ht
    exact Query.statement_outline r d (Query.applyAll_masked rfl h) ht
  case search =>
    intro s x y xs ys t t' hr h ht
    exact Query.statement_outline r d (Query.applyAll_masked (Query.search_masked s hr) h) ht
  case insert =>
    intro shape xs ys h
    cases Write.InsertPlan.ofShape r shape with
    | error e => exact ⟨rfl, rfl⟩
    | ok p =>
      exact ⟨Write.observed_foldlM Write.InsertPlan.apply_masked (·.build_outline d) p h,
        Write.observed_foldlM Write.InsertPlan.apply_masked (·.batches_outline d) p h⟩
  case update =>
    intro shape xs ys h
    cases Write.UpdatePlan.ofShape r shape with
    | error e => rfl
    | ok p =>
      exact Write.observed_foldlM Write.UpdatePlan.apply_masked
        (fun p => p.command_agree.statement (·.pieces)) p h
  case delete =>
    intro shape xs ys h
    cases Write.DeletePlan.ofShape r shape with
    | error e => rfl
    | ok p =>
      exact Write.observed_foldlM Write.DeletePlan.apply_masked
        (fun p => p.command_agree.statement (·.pieces)) p h

def noteRegistry : Registry where
  entries := [("Note", { table := "note", columns := [⟨"id", "id"⟩, ⟨"title", "title"⟩] })]
  sound := by decide
  distinct := by decide

/-- A search for a title and a number, in one of two runs with a title that looks like SQL. -/
def noteQuery (title : String) (id : Value) : List Query.Step :=
  [.filter (.callWith (.text .contains) (.named "title") (.constant (.text title))),
    .filter (.compare .equal (.named "id") (.constant id)), .page 1 10]

def noteInsert (title : String) (id : Value) : List Write.InsertPlan.Step :=
  [.setColumns ["title", "id"], .addRow [.text title, id]]

def noteUpdate (title : String) (id : Value) : List Write.UpdatePlan.Step :=
  [.set "title" (.text title), .whereEqual "id" id]

def noteDelete (title : String) (id : Value) : List Write.DeletePlan.Step :=
  [.whereEqual "title" (.text title), .whereEqual "id" id]

theorem text_independent_of_constants_hostile :
    (∃ seen, observed Statement.outline (((Query.ofShape ⟨"Note", []⟩).applyAll
          (noteQuery "'); DROP TABLE [note]" (.bytes []))).statement noteRegistry .sqlite .count)
        = .ok seen ∧
      observed Statement.outline (((Query.ofShape ⟨"Note", []⟩).applyAll
          (noteQuery "a" (.int 1))).statement noteRegistry .sqlite .count) = .ok seen) ∧
    (∃ seen, observed Statement.outline (do
          (← (← Write.InsertPlan.ofShape noteRegistry "Note").applyAll
            (noteInsert "@p1, 0" (.bytes []))).build .sqlServer) = .ok seen ∧
      observed Statement.outline (do
          (← (← Write.InsertPlan.ofShape noteRegistry "Note").applyAll
            (noteInsert "a" (.int 1))).build .sqlServer) = .ok seen) ∧
    (∃ seen, observed Statement.outline (do
          (← (← Write.UpdatePlan.ofShape noteRegistry "Note").applyAll
            (noteUpdate "@p1, 0" (.bytes []))).build) = .ok seen ∧
      observed Statement.outline (do
          (← (← Write.UpdatePlan.ofShape noteRegistry "Note").applyAll
            (noteUpdate "a" (.int 1))).build) = .ok seen) ∧
    (∃ seen, observed Statement.outline (do
          (← (← Write.DeletePlan.ofShape noteRegistry "Note").applyAll
            (noteDelete "' OR 1 = 1" (.bytes []))).build) = .ok seen ∧
      observed Statement.outline (do
          (← (← Write.DeletePlan.ofShape noteRegistry "Note").applyAll
            (noteDelete "a" (.int 1))).build) = .ok seen) := by
  obtain ⟨query, _⟩ := text_independent_of_constants noteRegistry .sqlite
  obtain ⟨_, _, insert, update, delete⟩ := text_independent_of_constants noteRegistry .sqlServer
  refine ⟨⟨_, ?_, rfl⟩, ⟨_, ?_, rfl⟩, ⟨_, ?_, rfl⟩, ⟨_, ?_, rfl⟩⟩
  · exact query _ (noteQuery _ (.bytes [])) (noteQuery _ (.int 1)) .count .count rfl rfl
  · exact (insert "Note" (noteInsert _ (.bytes [])) (noteInsert _ (.int 1)) rfl).1
  · exact update "Note" (noteUpdate _ (.bytes [])) (noteUpdate _ (.int 1)) rfl
  · exact delete "Note" (noteDelete _ (.bytes [])) (noteDelete _ (.int 1)) rfl

end RecordQuery
