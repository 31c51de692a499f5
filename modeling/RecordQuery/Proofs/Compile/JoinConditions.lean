import RecordQuery.Proofs.Compile.Paging
import RecordQuery.Proofs.Compile.Supported
import RecordQuery.Proofs.Query.Tables
import RecordQuery.Proofs.Rows.Injected

/-!
# Conditions of joins

A condition given to a join is the ON clause of it, read as what the condition stood for when it was
given and over the tables up to the join. A cross join has no ON clause, whether or not it was given
a condition, and every other join has one (`join_conditions_kept`).
-/

namespace RecordQuery

open Sql Lowering

/-- The text of a condition is read in one way, and so is as true as the expression, over the tables
of a scope and with the parameters of a statement. -/
def Sql.Condition.Renders (s : Scope) (ps : List Param) (c : Condition) (e : Expr) : Prop :=
  ∃ r, (∀ r', ReadsAs (sqlOf c.pieces) r' ↔ r' = r) ∧
    ∀ (db : Storage) (row : RowValues), r.truth db row ps = e.truth db s row

/-- What the clause of a join is written from: the condition is that of the join, and left out where
the join is a cross join. -/
structure Sql.JoinClause.Renders (s : Scope) (ps : List Param) (c : JoinClause) (j : Join) :
    Prop where
  kind : c.kind = j.kind
  label : c.label = j.source.label
  cross : j.kind = .cross → c.on = none
  on : j.kind ≠ .cross → ∃ e on, j.on = some e ∧ c.on = some on ∧ on.Renders s ps e

section

variable {s : Scope} {ps : List Param} {n : Nat} {vs : List Value}

theorem Expr.toCondition_renders {e : Expr} {c : Condition}
    (h : (e.toCondition s).run n = (vs, .ok c)) (hb : Binds ps n vs) : c.Renders s ps e := by
  obtain ⟨r, image, reads⟩ := toCondition_image h
  have text : ReadsAs (sqlOf c.pieces) r := by
    rw [ReadsAs, c.legible.tokens_sqlOf]
    exact .ofAnd (.ofNot reads)
  exact ⟨r, fun r' => ⟨fun h' => h'.unique text, fun h' => h' ▸ text⟩,
    fun db row => image.truth db row hb⟩

namespace Query

theorem joinCondition_renders {j : Join} {on : Option Condition} {table : String}
    (h : (joinCondition s j).run n = (vs, .ok on)) (hb : Binds ps n vs) :
    (⟨j.kind, table, j.source.label, on⟩ : JoinClause).Renders s ps j := by
  unfold joinCondition at h
  split at h
  · next cross =>
    cases h
    exact ⟨rfl, rfl, fun _ => rfl, fun other => absurd cross other⟩
  · next e given other =>
    obtain ⟨c, hc, rfl⟩ := run_map_ok_iff.mp h
    exact ⟨rfl, rfl, fun cross => absurd cross other,
      fun _ => ⟨e, c, given, rfl, Expr.toCondition_renders hc hb⟩⟩
  · cases h

/-- Every join has the clause at its position. -/
theorem joinClauses_renders {r : Registry} {i : Nat} {js : List Join} {cs : List JoinClause}
    (h : (joinClauses r s i js).run n = (vs, .ok cs)) (hb : Binds ps n vs) :
    cs.length = js.length ∧ ∀ (k : Nat) (j : Join), js[k]? = some j →
      ∃ c, cs[k]? = some c ∧ c.Renders (s.limited (i + k + 2)) ps j := by
  induction js generalizing i n vs cs with
  | nil =>
    cases h
    exact ⟨rfl, fun k j hj => by cases hj⟩
  | cons first rest ih =>
    obtain ⟨m, _, h⟩ := run_ofExcept_bind_ok_iff.mp h
    obtain ⟨us, on, ws, hon, hlast, rfl⟩ := run_bind_ok_iff.mp h
    obtain ⟨cs, hcs, rfl⟩ := run_map_ok_iff.mp hlast
    obtain ⟨length, others⟩ := ih hcs hb.right
    refine ⟨by rw [List.length_cons, List.length_cons, length], fun k j hj => ?_⟩
    cases k with
    | zero =>
      cases hj
      exact ⟨_, rfl, joinCondition_renders hon hb.left⟩
    | succ k =>
      obtain ⟨c, hc, renders⟩ := others k j hj
      exact ⟨c, hc, by rwa [Nat.add_right_comm i 1 k] at renders⟩

/-- The clauses of a SELECT, those of the joins of its query. -/
theorem toSelect_joins {r : Registry} {q : Query} {x : Select}
    (h : (q.toSelect r).run 0 = (vs, .ok x)) :
    ∃ s, Scope.ofSources r q.sources = .ok s ∧ x.joins.length = q.joins.length ∧
      ∀ (k : Nat) (j : Join), q.joins[k]? = some j →
        ∃ c, x.joins[k]? = some c ∧ c.Renders (s.limited (k + 2)) (Param.number vs) j := by
  obtain ⟨window, s, us, core, ws, orders, _, _, hs, hcore, _, rfl, rfl⟩ := toSelect_ok_iff.mp h
  have binds : Binds (Param.number (us ++ ws)) 0 (us ++ ws) := by
    simpa using Binds.number [] (us ++ ws) []
  obtain ⟨cs, js, fs, gs, base, _, _, _, _, _, hjoins, _, rfl⟩ := coreSelect_ok hcore
  obtain ⟨length, renders⟩ := joinClauses_renders hjoins binds.left.right.left
  simp only [Nat.zero_add] at renders
  exact ⟨s, hs, length, renders⟩

end Query

end

/-! ## Statements -/

/-- The text of a statement has the clauses of its joins in it. -/
theorem Sql.Retrieval.joinClause_infix (d : Dialect) (x : Retrieval) {c : JoinClause}
    (h : c ∈ x.inner.joins) : ∃ before after,
      sqlOf (x.pieces d) = before ++ sqlOf c.pieces ++ after := by
  have core : c.pieces <:+: x.inner.corePieces := by
    refine (List.infix_of_mem_flatten (List.mem_map_of_mem h)).trans ?_
    rw [Select.corePieces, List.append_assoc _ (wherePieces _), ← List.flatMap_def]
    exact List.infix_append _ _ _
  have inner : c.pieces <:+: x.inner.pieces d := by
    refine core.trans (List.IsPrefix.isInfix ?_)
    rw [Select.pieces, List.append_assoc]
    exact List.prefix_append _ _
  have whole : x.inner.pieces d <:+: x.pieces d := by
    obtain ⟨outer, select⟩ := x
    cases outer with
    | rows => exact List.infix_refl _
    | count => exact ⟨[_], _, rfl⟩
    | «exists» => exact ⟨[_], _, rfl⟩
    | aggregate f column => exact ⟨_, _, rfl⟩
  obtain ⟨before, after, text⟩ := inner.trans whole
  exact ⟨sqlOf before, sqlOf after, by rw [← text, sqlOf_append, sqlOf_append]⟩

namespace Query

variable {r : Registry} {q p : Query} {t : Terminal}

/-- A statement is of the tables of its query, and fails with what calls met before. -/
theorem part_tables (h : q.part r t = .ok p) :
    p.sources = q.sources ∧ p.joins = q.joins ∧ (p.deferred = none → q.deferred = none) := by
  have derived (q : Query) : q.derived.sources = q.sources ∧ q.derived.joins = q.joins ∧
      (q.derived.deferred = none → q.deferred = none) := by
    unfold Query.derived
    split <;> exact ⟨rfl, rfl, id⟩
  cases t with
  | rows =>
    cases h
    exact ⟨rfl, rfl, id⟩
  | count =>
    cases h
    exact derived q
  | totalCount =>
    cases h
    exact ⟨rfl, rfl, id⟩
  | «exists» =>
    cases h
    exact derived q
  | aggregate f selector =>
    obtain ⟨column, _, rfl⟩ := map_ok_iff.mp h
    cases column with
    | some column => exact derived q
    | none =>
      obtain ⟨sources, joins, deferred⟩ := derived (q.select scalarShape [(scalarAlias, selector)])
      have projected : (q.select scalarShape [(scalarAlias, selector)]).joins = q.joins ∧
          ((q.select scalarShape [(scalarAlias, selector)]).deferred = none →
            q.deferred = none) := by
        rw [select, deferAll_eq]
        exact ⟨rfl, fun h => (Option.or_eq_none_iff.mp h).1⟩
      exact ⟨sources.trans (sources_select _ _ _), joins.trans projected.1,
        fun h => projected.2 (deferred h)⟩

/-- A condition given to a join stands for something where no error is met. -/
theorem rebase_of_call {q : Query} {st : Step} {call : JoinCall} {on : Expr}
    (hcall : st.join? = some call) (given : call.on = some on) (faultless : q.fault? st = none) :
    ∃ e, q.rebase on = .ok e ∧ (q.joined call).on = some e := by
  have resolved : q.unresolved? on = none := by
    cases st with
    | join shape kind on' =>
      cases hcall
      cases given
      simpa [fault?, Step.exprs] using faultless
    | joinAs shape label kind on' =>
      cases hcall
      cases given
      simpa [fault?, Step.exprs] using faultless
    | crossJoin shape =>
      cases hcall
      cases given
    | _ => cases hcall
  obtain ⟨e, he⟩ := rebase_ok_of_resolved resolved
  exact ⟨e, he, by rw [joined, given, Option.map_some, rebaseOrDefer_of_ok he]⟩

end Query

open Query

/-- A statement has the clause of every call that made a join, at the position of the join and in
its text. A clause of a cross join has no condition; every other was given one, and has it as what
it stood for when it was given, over the tables up to the join. -/
theorem join_conditions_kept {s : Shape} {steps : List Step} {r : Registry} {d : Dialect}
    {t : Terminal} {st : Statement}
    (h : ((ofShape s).applyAll steps).statement r d t = .ok st) :
    ∃ vs x sc, (((ofShape s).applyAll steps).retrieval r t).run 0 = (vs, .ok x) ∧
      st = .ofPieces (x.pieces d) vs ∧
      Scope.ofSources r ((ofShape s).applyAll steps).sources = .ok sc ∧
      x.inner.joins.length = (steps.filterMap Step.join?).length ∧
      ∀ before step call, before ++ [step] <+: steps → step.join? = some call →
        ∃ clause, x.inner.joins[(before.filterMap Step.join?).length]? = some clause ∧
          (∃ left right, st.sql = left ++ sqlOf clause.pieces ++ right) ∧
          clause.kind = call.kind ∧ clause.label = ((ofShape s).applyAll before).label call ∧
          (call.kind = .cross → clause.on = none) ∧
          (call.kind ≠ .cross → ∃ given e on, call.on = some given ∧
            ((ofShape s).applyAll before).rebase given = .ok e ∧ clause.on = some on ∧
            on.Renders (sc.limited ((before.filterMap Step.join?).length + 2)) st.params e) := by
  obtain ⟨vs, x, hx, rfl⟩ := statement_ok_iff.mp h
  obtain ⟨_, p, hp, hinner⟩ := retrieval_part hx
  obtain ⟨sources, joins, undeferred⟩ := part_tables hp
  obtain ⟨sc, hs, length, clauses⟩ := toSelect_joins hinner
  rw [sources] at hs
  rw [joins] at length clauses
  refine ⟨vs, x, sc, hx, rfl, hs, length.trans (length_joins s steps), ?_⟩
  have supported := (p.toSelect_succeedsIff r 0).mp ⟨vs, _, hinner⟩
  have faultless := (faultless_of_undeferred (undeferred supported.undeferred)).2
  intro before step call split hcall
  obtain ⟨clause, at_join, renders⟩ := clauses _ _ (joins_getElem? s steps split hcall)
  refine ⟨clause, at_join, ?_, renders.kind, renders.label, renders.cross, fun conditional => ?_⟩
  · exact x.joinClause_infix d (List.mem_of_getElem? at_join)
  · obtain ⟨e, on, kept, hon, text⟩ := renders.on conditional
    obtain ⟨given, hgiven, _⟩ := Option.map_eq_some_iff.mp kept
    obtain ⟨e', he, kept'⟩ := rebase_of_call hcall hgiven (faultless before step split)
    cases kept.symm.trans kept'
    exact ⟨given, e, on, hgiven, he, hon, text⟩

/-- Lines of orders, once by a left join and once by a cross join with the same condition. -/
def crossedLines : List Step :=
  let sameOrder : Expr := .compare .equal (.field ⟨.aliased "t1", "order"⟩) (.named "id")
  [.join "Line" .left sameOrder, .join "Item" .cross sameOrder]

theorem join_conditions_kept_crossedLines :
    ∃ (st : Statement) (x : Retrieval),
      ((ofShape ⟨"Order", []⟩).applyAll crossedLines).statement orderRegistry .sqlite .rows
        = .ok st ∧
      st.sql = sqlOf (x.pieces .sqlite) ∧
      (∃ clause, x.inner.joins[0]? = some clause ∧ clause.on ≠ none) ∧
      ∃ clause, x.inner.joins[1]? = some clause ∧ clause.on = none := by
  have run : ((ofShape ⟨"Order", []⟩).applyAll crossedLines).statement orderRegistry .sqlite .rows
      = .ok _ := rfl
  obtain ⟨vs, x, sc, hx, text, _, _, clauses⟩ := join_conditions_kept run
  obtain ⟨left, at_left, _, _, _, _, conditional⟩ := clauses [] _ _ ⟨_, rfl⟩ rfl
  obtain ⟨cross, at_cross, _, _, _, unconditional, _⟩ :=
    clauses [_] _ _ (List.prefix_refl _) rfl
  obtain ⟨_, _, on, _, _, hon, _⟩ := conditional nofun
  refine ⟨_, x, rfl, congrArg Statement.sql text, ⟨left, at_left, ?_⟩, cross, at_cross, ?_⟩
  · simp [hon]
  · exact unconditional rfl

/-- Both joins are given a condition, and one of them is not in the text. -/
theorem crossedLines_condition_lost :
    (((ofShape ⟨"Order", []⟩).applyAll crossedLines).statement orderRegistry .sqlite .rows).map
        (·.sql)
      = .ok ("SELECT [t0].[id] AS [id], [t0].[sum] AS [total] FROM [order] AS [t0] "
        ++ "LEFT JOIN [line] AS [t1] ON [t1].[order_id] = [t0].[id] "
        ++ "CROSS JOIN [item] AS [t2]") ∧
    ¬∀ (s : Shape) (steps : List Step) (vs : List Value) (x : Select),
      (((ofShape s).applyAll steps).toSelect orderRegistry).run 0 = (vs, .ok x) →
        (∀ step ∈ steps, ∀ call ∈ step.join?, call.on ≠ none) → ∀ c ∈ x.joins, c.on ≠ none := by
  refine ⟨by decide +kernel, fun kept => ?_⟩
  refine kept ⟨"Order", []⟩ crossedLines _ _ rfl ?_ ⟨.cross, "item", "t2", none⟩ ?_ rfl
  · refine List.forall_mem_cons.mpr ⟨?_, List.forall_mem_singleton.mpr ?_⟩
    all_goals
      rintro call ⟨rfl⟩
      exact nofun
  · exact List.mem_cons_of_mem _ (List.mem_singleton_self _)

end RecordQuery
