import RecordQuery.Proofs.Compile.Relabel
import RecordQuery.Proofs.Compile.Total
import RecordQuery.Proofs.Rows.Stored
import RecordQuery.Proofs.Write.Target
import RecordQuery.Write.Update

/-!
# Conditions of queries and of writes

A condition of a query is lowered in a scope of tables under aliases, one of a write in the scope
of its table under its own name, and a value of a column without any scope. The three agree: the
condition of a write is that of a query under another label, and a value of a column is asked for
as a comparison of its field is (`filtered_alike`).
-/

namespace RecordQuery

open Sql Lowering

/-! ## A query with one filter -/

namespace Query

variable {r : Registry} {s : Shape} {m : Metadata}

theorem filter_ofShape (s : Shape) (e : Expr) :
    (ofShape s).filter e = { ofShape s with filters := [e] } :=
  Plain.filter ⟨rfl, rfl, rfl⟩ e

theorem toSelect_filter (hm : r.get? s.id = some m) (e : Expr) :
    ((ofShape s).filter e).toSelect r
      = (fun c => { selectAll s.id m with filters := [c] }) <$>
        e.toCondition ⟨[⟨s.id, baseAlias, m⟩], 1⟩ := by
  let scope : Scope := ⟨[⟨s.id, baseAlias, m⟩], 1⟩
  rw [filter_ofShape]
  have outputs : outputs scope { ofShape s with filters := [e] }
      = ofExcept (.ok (selectAll s.id m).columns) := rfl
  have joins : joinClauses r scope 0 [] = pure [] := rfl
  have orders : orderKeys scope { ofShape s with filters := [e] } none = pure [] := rfl
  change (ofExcept (.ok ()) >>= fun _ => ofExcept (.ok none) >>= fun window =>
    ofExcept (Scope.ofSources r (ofShape s).sources) >>= fun scope => _) = _
  rw [ofExcept_ok_bind, ofExcept_ok_bind, Scope.ofSources_ofShape hm, ofExcept_ok_bind]
  change (Query.outputs scope _ >>= fun columns => ofExcept (.ok ⟨s.id, baseAlias, m⟩) >>=
    fun base : ScopedTable => joinClauses r scope 0 [] >>= fun joins =>
      [e].mapM (Expr.toCondition scope ·) >>= fun filters => pure [] >>= fun group =>
        orderKeys scope _ none >>= fun orders => pure _) = _
  simp only [outputs, joins, orders, ofExcept_ok_bind, pure_bind, List.mapM_cons, List.mapM_nil,
    bind_assoc, map_eq_pure_bind]
  rfl

theorem statement_filter (hm : r.get? s.id = some m) (d : Dialect) (e : Expr) :
    ((ofShape s).filter e).statement r d .rows
      = (e.toCondition ⟨[⟨s.id, baseAlias, m⟩], 1⟩).statement fun c =>
        (selectAll s.id m).pieces d ++ wherePieces [c] := by
  rw [statement_rows, toSelect_filter hm, statement_fmap]
  congr 1
  funext c
  simp [Select.pieces, Select.corePieces, Select.orderPieces,
    Select.pagingPieces, selectAll, wherePieces, listClause]

theorem statement_ofShape (hm : r.get? s.id = some m) (d : Dialect) :
    (ofShape s).statement r d .rows = .ok (.ofPieces ((selectAll s.id m).pieces d) []) := by
  rw [statement_rows]
  exact statement_ok_iff.mpr ⟨_, _, toSelect_ofShape hm 0, rfl⟩

end Query

/-! ## A write with one condition -/

/-- The condition with one label in place of another. -/
def Sql.Condition.requalified (c : Condition) (old new : String) : Condition :=
  c.relabel fun label => if label = old then new else label

namespace Write

/-- The table of a write under the alias of a query. -/
theorem Target.scope_eq (shape : ShapeId) (m : Metadata) :
    Target.scope ⟨shape, m⟩ = Scope.relabel ⟨[⟨shape, Query.baseAlias, m⟩], 1⟩
      fun label => if label = Query.baseAlias then m.table else label := by
  simp [Target.scope, Target.table, Scope.relabel]

theorem DeletePlan.build_filter (shape : ShapeId) (m : Metadata) {e : Expr} (he : e.Unaliased) :
    (DeletePlan.filter { target := ⟨shape, m⟩ } e).build
      = (e.toCondition ⟨[⟨shape, Query.baseAlias, m⟩], 1⟩).statement fun c =>
        Delete.pieces ⟨m.table, []⟩ ++ wherePieces [c.requalified Query.baseAlias m.table] := by
  have command : (DeletePlan.filter { target := ⟨shape, m⟩ } e).command
      = (fun c => ⟨m.table, [c]⟩) <$> e.toCondition (Target.scope ⟨shape, m⟩) := by
    simp [DeletePlan.command, DeletePlan.filter, conditions, Criterion.condition,
      Target.table]
  rw [build, command, Target.scope_eq, e.toCondition_relabel he, statement_fmap, statement_fmap]
  rfl

/-! ## A value of a column -/

/-- A field that stands for a column of the table. -/
def Target.Owns (t : Target) (ref : FieldRef) (c : Mapping) : Prop :=
  (ref.table = .current ∨ ref.table = .shape t.shape) ∧
    t.metadata.columnFor? ref.field = some c

/-- A comparison of a field with a constant. -/
def isEqual (ref : FieldRef) (v : Value) : Expr := .compare .equal (.field ref) (.constant v)

/-- A column that is to have a value is asked for as the comparison of its field, with null too. -/
theorem Target.Owns.condition {t : Target} {ref : FieldRef} {c : Mapping} (h : t.Owns ref c)
    (v : Value) :
    (Criterion.equals c.column v).condition t = (Criterion.predicate (isEqual ref v)).condition t
    := by
  have column : t.scope.resolve ref = .ok (.column t.table c.column) := by
    obtain ⟨table, field⟩ := ref
    obtain ⟨rfl | rfl, named⟩ := h
    · simp [Scope.resolve, Scope.tableFor, Scope.visibleTables, Target.scope, named, bind,
        Except.bind, pure, Except.pure]
    · simp [Scope.resolve, Scope.tableFor, Scope.visibleTables, Target.scope, named, bind,
        Except.bind, pure, Except.pure]
  by_cases hv : v = .null
  · subst hv
    simp [Criterion.condition, isEqual, Expr.compare, Expr.toCondition, Expr.toComparison,
      Expr.isNullConstant, Expr.toOperand, column, Expr.nullTest]
    rfl
  · have constant : (Expr.constant v).isNullConstant = false := by
      cases v with
      | null => exact absurd rfl hv
      | _ => rfl
    have field : (Expr.field ref).isNullConstant = false := rfl
    simp [Criterion.condition, isEqual, Expr.compare, Expr.toCondition, Expr.toComparison,
      constant, field, Expr.toOperand, column, ofExcept_ok_bind]

/-! ## Operations in a row -/

section

variable {f : σ → α → Except ε σ} {view : σ → γ} {build : σ → Except ε β}

theorem bind_agree {x y : Except ε σ} {k k' : σ → Except ε β} (h : x.map view = y.map view)
    (hk : ∀ p q, view p = view q → k p = k' q) : (x >>= k) = (y >>= k') := by
  cases x with
  | error e =>
    cases y with
    | error e' =>
      cases h
      rfl
    | ok q => cases h
  | ok p =>
    cases y with
    | error e' => cases h
    | ok q => exact hk p q (Except.ok.inj h)

/-- If one operation does the same to what cannot be told apart, so do several in a row. -/
theorem foldlM_agree
    (step : ∀ p q a, view p = view q → (f p a).map view = (f q a).map view)
    (built : ∀ p q, view p = view q → build p = build q) {p q : σ} (h : view p = view q)
    (xs : List α) : (xs.foldlM f p >>= build) = (xs.foldlM f q >>= build) := by
  induction xs generalizing p q with
  | nil => exact built p q h
  | cons x xs ih =>
    rw [List.foldlM_cons, List.foldlM_cons, bind_assoc, bind_assoc]
    exact bind_agree (step p q x h) fun p' q' h' => ih h'

/-- One operation may stand for another between any others. -/
theorem foldlM_replace {I : σ → Prop} (keep : ∀ p a q, I p → f p a = .ok q → I q)
    (step : ∀ p q a, view p = view q → (f p a).map view = (f q a).map view)
    (built : ∀ p q, view p = view q → build p = build q) {a b : α}
    (same : ∀ p, I p → (f p a).map view = (f p b).map view) {p : σ} (hp : I p)
    (xs ys : List α) :
    ((xs ++ a :: ys).foldlM f p >>= build) = ((xs ++ b :: ys).foldlM f p >>= build) := by
  induction xs generalizing p with
  | nil =>
    rw [List.nil_append, List.nil_append, List.foldlM_cons, List.foldlM_cons, bind_assoc,
      bind_assoc]
    exact bind_agree (same p hp) fun p' q' h => foldlM_agree step built h ys
  | cons x xs ih =>
    rw [List.cons_append, List.cons_append, List.foldlM_cons, List.foldlM_cons, bind_assoc,
      bind_assoc]
    cases hx : f p x with
    | error e => rfl
    | ok p' => exact ih (keep p x p' hp hx)

end

theorem conditions_congr {t : Target} {cs ds : List Criterion}
    (h : cs.map (·.condition t) = ds.map (·.condition t)) : conditions t cs = conditions t ds := by
  have lowered (cs : List Criterion) : conditions t cs = (cs.map (·.condition t)).mapM id := by
    rw [List.mapM_map]
    rfl
  rw [lowered, lowered, h]

namespace UpdatePlan

/-- The plan with the conditions its criteria are lowered to. -/
def lowered (p : UpdatePlan) : Target × List (Mapping × Value) × List (Lowering Condition) :=
  (p.target, p.assignments, p.criteria.map (·.condition p.target))

/-- An operation adds to what a plan has, whatever that is. -/
theorem apply_eq (p : UpdatePlan) (st : Step) :
    p.apply st = (apply { target := p.target } st).map fun q =>
      { p with
        assignments := p.assignments ++ q.assignments
        criteria := p.criteria ++ q.criteria } := by
  cases st with
  | set name v => cases h : p.target.writable name <;> simp [apply, set, h, Except.map]
  | whereEqual name v => cases h : p.target.mapping name <;> simp [apply, whereEqual, h, Except.map]
  | filter e => simp [apply, filter, Except.map]
  | setRecord record =>
    simp only [apply, setRecord, bind, Except.bind]
    split
    · rfl
    cases p.target.keyMappings with
    | error e => rfl
    | ok keys =>
      dsimp only
      split
      · rfl
      · cases keyCriteria keys record <;> simp [Except.map, pure, Except.pure]

theorem target_of_apply {p q : UpdatePlan} {st : Step} (h : p.apply st = .ok q) :
    q.target = p.target := by
  rw [apply_eq, map_ok_iff] at h
  obtain ⟨_, _, rfl⟩ := h
  rfl

theorem target_of_applyAll {p q : UpdatePlan} {steps : List Step} (h : p.applyAll steps = .ok q) :
    q.target = p.target :=
  foldlM_ok_keeps (fun _ _ _ => target_of_apply) h

theorem apply_lowered {p q : UpdatePlan} (st : Step) (h : p.lowered = q.lowered) :
    (p.apply st).map lowered = (q.apply st).map lowered := by
  obtain ⟨t, as, cs⟩ := p
  obtain ⟨t', as', ds⟩ := q
  obtain ⟨rfl, rfl, same⟩ :
      t = t' ∧ as = as' ∧ cs.map (·.condition t) = ds.map (·.condition t') := by
    simpa [lowered] using h
  rw [apply_eq, apply_eq ⟨t, as, ds⟩]
  cases apply { target := t } st with
  | error e => rfl
  | ok q => simp [Except.map, lowered, same]

theorem build_lowered {p q : UpdatePlan} (h : p.lowered = q.lowered) : p.build = q.build := by
  obtain ⟨t, as, cs⟩ := p
  obtain ⟨t', as', ds⟩ := q
  obtain ⟨rfl, rfl, same⟩ :
      t = t' ∧ as = as' ∧ cs.map (·.condition t) = ds.map (·.condition t') := by
    simpa [lowered] using h
  simp only [build, command, conditions_congr same]

end UpdatePlan

namespace DeletePlan

/-- The plan with the conditions its criteria are lowered to. -/
def lowered (p : DeletePlan) : Target × List (Lowering Condition) :=
  (p.target, p.criteria.map (·.condition p.target))

/-- An operation adds to what a plan has, whatever that is. -/
theorem apply_eq (p : DeletePlan) (st : Step) :
    p.apply st = (apply { target := p.target } st).map fun q =>
      { p with criteria := p.criteria ++ q.criteria } := by
  cases st with
  | whereEqual name v => cases h : p.target.mapping name <;> simp [apply, whereEqual, h, Except.map]
  | filter e => simp [apply, filter, Except.map]
  | matchRecord record =>
    simp only [apply, matchRecord, bind, Except.bind]
    cases p.target.keyMappings with
    | error e => rfl
    | ok keys =>
      dsimp only
      split
      · rfl
      · cases keyCriteria keys record <;> simp [Except.map, pure, Except.pure]

theorem target_of_apply {p q : DeletePlan} {st : Step} (h : p.apply st = .ok q) :
    q.target = p.target := by
  rw [apply_eq, map_ok_iff] at h
  obtain ⟨_, _, rfl⟩ := h
  rfl

theorem target_of_applyAll {p q : DeletePlan} {steps : List Step} (h : p.applyAll steps = .ok q) :
    q.target = p.target :=
  foldlM_ok_keeps (fun _ _ _ => target_of_apply) h

theorem apply_lowered {p q : DeletePlan} (st : Step) (h : p.lowered = q.lowered) :
    (p.apply st).map lowered = (q.apply st).map lowered := by
  obtain ⟨t, cs⟩ := p
  obtain ⟨t', ds⟩ := q
  obtain ⟨rfl, same⟩ : t = t' ∧ cs.map (·.condition t) = ds.map (·.condition t') := by
    simpa [lowered] using h
  rw [apply_eq, apply_eq ⟨t, ds⟩]
  cases apply { target := t } st with
  | error e => rfl
  | ok q => simp [Except.map, lowered, same]

theorem build_lowered {p q : DeletePlan} (h : p.lowered = q.lowered) : p.build = q.build := by
  obtain ⟨t, cs⟩ := p
  obtain ⟨t', ds⟩ := q
  obtain ⟨rfl, same⟩ : t = t' ∧ cs.map (·.condition t) = ds.map (·.condition t') := by
    simpa [lowered] using h
  simp only [build, command, conditions_congr same]

end DeletePlan

/-! ## Agreement -/

/-- The statement of a delete that several operations collect. -/
def DeletePlan.collected (r : Registry) (shape : ShapeId) (steps : List Step) :
    Except Error Statement := do
  let p ← ofShape r shape
  (← p.applyAll steps).build

/-- The statement of an update that several operations collect. -/
def UpdatePlan.collected (r : Registry) (shape : ShapeId) (steps : List Step) :
    Except Error Statement := do
  let p ← ofShape r shape
  (← p.applyAll steps).build

variable {r : Registry} {shape : ShapeId} {m : Metadata}

theorem DeletePlan.collected_eq (hm : r.get? shape = some m) (steps : List Step) :
    collected r shape steps
      = steps.foldlM apply ({ target := ⟨shape, m⟩ } : DeletePlan) >>= build := by
  rw [collected, ofShape_of_get? hm]
  rfl

theorem UpdatePlan.collected_eq (hm : r.get? shape = some m) (steps : List Step) :
    collected r shape steps
      = steps.foldlM apply ({ target := ⟨shape, m⟩ } : UpdatePlan) >>= build := by
  rw [collected, ofShape_of_get? hm]
  rfl

theorem DeletePlan.collected_replace (hm : r.get? shape = some m) {ref : FieldRef} {c : Mapping}
    (h : Target.Owns ⟨shape, m⟩ ref c) (v : Value) (xs ys : List Step) :
    collected r shape (xs ++ .whereEqual ref.field v :: ys)
      = collected r shape (xs ++ .filter (isEqual ref v) :: ys) := by
  rw [collected_eq hm, collected_eq hm]
  refine foldlM_replace (I := fun p => p.target = ⟨shape, m⟩) ?_ (fun p q st => apply_lowered st)
    (fun p q => build_lowered) ?_ rfl xs ys
  · exact fun p st q hp hq => (target_of_apply hq).trans hp
  · intro p hp
    have column : p.target.mapping ref.field = .ok c := by
      rw [hp]
      exact Target.mapping_ok_iff.mpr h.2
    have same : (Criterion.equals c.column v).condition p.target
        = (Criterion.predicate (isEqual ref v)).condition p.target := by
      rw [hp]
      exact h.condition v
    simp [apply, whereEqual, filter, column, Except.map, lowered, same]

theorem UpdatePlan.collected_replace (hm : r.get? shape = some m) {ref : FieldRef} {c : Mapping}
    (h : Target.Owns ⟨shape, m⟩ ref c) (v : Value) (xs ys : List Step) :
    collected r shape (xs ++ .whereEqual ref.field v :: ys)
      = collected r shape (xs ++ .filter (isEqual ref v) :: ys) := by
  rw [collected_eq hm, collected_eq hm]
  refine foldlM_replace (I := fun p => p.target = ⟨shape, m⟩) ?_ (fun p q st => apply_lowered st)
    (fun p q => build_lowered) ?_ rfl xs ys
  · exact fun p st q hp hq => (target_of_apply hq).trans hp
  · intro p hp
    have column : p.target.mapping ref.field = .ok c := by
      rw [hp]
      exact Target.mapping_ok_iff.mpr h.2
    have same : (Criterion.equals c.column v).condition p.target
        = (Criterion.predicate (isEqual ref v)).condition p.target := by
      rw [hp]
      exact h.condition v
    simp [apply, whereEqual, filter, column, Except.map, lowered, same]

theorem DeletePlan.collected_filter (hm : r.get? shape = some m) {e : Expr} (he : e.Unaliased) :
    collected r shape [.filter e]
      = (e.toCondition ⟨[⟨shape, Query.baseAlias, m⟩], 1⟩).statement fun c =>
        Delete.pieces ⟨m.table, []⟩ ++ wherePieces [c.requalified Query.baseAlias m.table] :=
  (collected_eq hm _).trans (build_filter shape m he)

/-- A condition means the same in a write as in a query. A filter that a query refuses a delete
refuses for the same reason; otherwise the statements go on after those for all rows with one
condition, under the alias in the one and under the table in the other, and bind the same values.
A value of a column is asked for as the comparison of its field, at any place among the
conditions. -/
theorem filtered_alike {s : Shape} (hm : r.get? s.id = some m) (d : Dialect) :
    (∀ e : Expr, e.Unaliased →
      (∀ err, ((Query.ofShape s).filter e).statement r d .rows = .error err ↔
        DeletePlan.collected r s.id [.filter e] = .error err) ∧
      ∀ selected, ((Query.ofShape s).filter e).statement r d .rows = .ok selected →
        ∃ c all everything, (Query.ofShape s).statement r d .rows = .ok all ∧
          DeletePlan.collected r s.id [] = .ok everything ∧
          selected.sql = all.sql ++ sqlOf (wherePieces [c]) ∧
          DeletePlan.collected r s.id [.filter e] = .ok
            ⟨everything.sql ++ sqlOf (wherePieces [c.requalified Query.baseAlias m.table]),
              selected.params⟩) ∧
    (∀ ref c, Target.Owns ⟨s.id, m⟩ ref c → ∀ v,
      (∀ xs ys, DeletePlan.collected r s.id (xs ++ .whereEqual ref.field v :: ys)
        = DeletePlan.collected r s.id (xs ++ .filter (isEqual ref v) :: ys)) ∧
      (∀ xs ys, UpdatePlan.collected r s.id (xs ++ .whereEqual ref.field v :: ys)
        = UpdatePlan.collected r s.id (xs ++ .filter (isEqual ref v) :: ys))) := by
  refine ⟨?filter, fun ref c h v =>
    ⟨DeletePlan.collected_replace hm h v, UpdatePlan.collected_replace hm h v⟩⟩
  case filter =>
    intro e he
    rw [Query.statement_filter hm, DeletePlan.collected_filter hm he]
    refine ⟨fun err => statement_error_iff.trans statement_error_iff.symm, fun selected h => ?_⟩
    obtain ⟨vs, c, hc, rfl⟩ := statement_ok_iff.mp h
    refine ⟨c, _, _, Query.statement_ofShape hm d, DeletePlan.collected_eq hm [],
      sqlOf_append _ _, statement_ok_iff.mpr ⟨vs, c, hc, ?_⟩⟩
    exact congrArg (Statement.mk · (Param.number vs)) (sqlOf_append _ _).symm

/-- Two fields are stored under the name of each other. -/
def legMetadata : Metadata where
  table := "Legs]"
  columns := [⟨"from", "to"⟩, ⟨"to", "from"⟩]
  keys := ["from"]

def legRegistry : Registry where
  entries := [("Leg", legMetadata)]
  sound := by decide

/-- The legs from a place that do not end in a place named like an alias. -/
def legFilter : Expr :=
  .binary (.logical .and) (isEqual ⟨.shape "Leg", "from"⟩ (.text "t0"))
    (.negation (.callWith (.text .endsWith) (.named "to") (.constant (.text "[t0]."))))

theorem filtered_alike_legs :
    legRegistry.get? "Leg" = some legMetadata ∧ legFilter.Unaliased ∧
    (∃ (selected : Statement) (c : Condition) (all everything : Statement),
      ((Query.ofShape ⟨"Leg", []⟩).filter legFilter).statement legRegistry .sqlite .rows
        = .ok selected ∧
      selected.sql = "SELECT [t0].[to] AS [from], [t0].[from] AS [to] FROM [Legs]]] AS [t0]"
        ++ " WHERE (([t0].[to] = @p0 AND NOT ([t0].[from] LIKE @p1)))" ∧
      selected.sql = all.sql ++ sqlOf (wherePieces [c]) ∧
      DeletePlan.collected legRegistry "Leg" [.filter legFilter] = .ok
        ⟨everything.sql ++ sqlOf (wherePieces [c.requalified Query.baseAlias "Legs]"]),
          selected.params⟩) ∧
    Target.Owns ⟨"Leg", legMetadata⟩ ⟨.current, "to"⟩ ⟨"to", "from"⟩ ∧
    DeletePlan.collected legRegistry "Leg" [.filter legFilter, .whereEqual "to" .null]
      = DeletePlan.collected legRegistry "Leg"
        [.filter legFilter, .filter (isEqual ⟨.current, "to"⟩ .null)] := by
  have registered : legRegistry.get? "Leg" = some legMetadata := rfl
  have plain : legFilter.Unaliased := by
    simp [Expr.Unaliased, legFilter, isEqual, Expr.compare, Expr.named, Expr.refs]
  have owned : Target.Owns ⟨"Leg", legMetadata⟩ ⟨.current, "to"⟩ ⟨"to", "from"⟩ := ⟨.inl rfl, rfl⟩
  obtain ⟨filters, values⟩ := filtered_alike (s := ⟨"Leg", []⟩) registered .sqlite
  obtain ⟨c, all, everything, _, _, selected, deleted⟩ := (filters legFilter plain).2 _ rfl
  exact ⟨registered, plain, ⟨_, c, all, everything, rfl, rfl, selected, deleted⟩, owned,
    (values _ _ owned .null).1 [.filter legFilter] []⟩

end Write

end RecordQuery
