import RecordQuery.Proofs.Compile.Paging
import RecordQuery.Proofs.Query.Grouping
import RecordQuery.Proofs.Query.Tables

/-!
# Aggregates that are asked for

A projection takes the place of the aggregates asked for before it, and one asked for after it is
kept beside it and not selected. So an aggregate is in the select list exactly if there was no
projection when it was asked for, or the projection has it too (`aggregate_selected_iff`).
-/

namespace RecordQuery

open Sql Lowering

namespace Query

def Step.IsSelect : Step → Prop
  | .select _ _ => True
  | _ => False

/-! ## One operation -/

/-- The columns that an operation other than a projection leaves: the projection and the aggregates
there are. -/
theorem columns_apply (q : Query) {st : Step} (h : ¬st.IsSelect) :
    (q.apply st).projection = q.projection ∧ q.aggregates <+: (q.apply st).aggregates := by
  have kept := q.apply_leaves st
  have unselected : st.part ≠ .projection := by
    cases st with
    | select s items => exact absurd trivial h
    | _ => exact nofun
  refine ⟨kept.projection unselected, ?_⟩
  cases st with
  | aggregate f selector label =>
    cases selector with
    | none => exact List.prefix_append _ _
    | some e =>
      have rebased := (Leaves.rebases .filters q e).aggregates nofun nofun
      exact rebased ▸ List.prefix_append (q.rebaseOrDefer e).1.aggregates _
  | select s items => exact absurd rfl unselected
  | _ => exact (kept.aggregates nofun nofun) ▸ List.prefix_refl _

/-- An aggregate that meets no error is one more, of what its selector stands for. -/
theorem aggregates_aggregate {q : Query} {f : AggregateFunction} {selector : Option Expr}
    {label : String} (faultless : q.fault? (.aggregate f selector label) = none) :
    ∃ kept, selector.mapM q.rebase = .ok kept ∧
      (q.aggregate f selector label).aggregates = q.aggregates ++ [⟨f, kept, label⟩] := by
  cases selector with
  | none => exact ⟨none, rfl, rfl⟩
  | some e =>
    have resolved : q.unresolved? e = none := by simpa [fault?, Step.exprs] using faultless
    obtain ⟨e', he⟩ := rebase_ok_of_resolved resolved
    refine ⟨some e', ?_, by rw [aggregate, rebaseOrDefer_of_ok he]⟩
    rw [Option.mapM_some, he]
    rfl

/-! ## A run of operations -/

/-- A query has no projection exactly if none was made. -/
theorem projection_eq_none_iff (s : Shape) (steps : List Step) :
    ((ofShape s).applyAll steps).projection = none ↔ ∀ st ∈ steps, ¬st.IsSelect := by
  induction steps using List.reverseRecOn with
  | nil => simp [applyAll, ofShape]
  | append_singleton steps st ih =>
    rw [applyAll_concat]
    by_cases h : st.IsSelect
    · refine iff_of_false ?_ fun none => none st (by simp) h
      cases st with
      | select s items => exact Option.some_ne_none _
      | _ => exact absurd h id
    · rw [(columns_apply _ h).1, ih]
      simp [or_imp, forall_and, h]

/-- Without a projection operations leave the columns there are. -/
theorem columns_applyAll (q : Query) {steps : List Step} (h : ∀ st ∈ steps, ¬st.IsSelect) :
    (q.applyAll steps).projection = q.projection ∧
      q.aggregates <+: (q.applyAll steps).aggregates := by
  induction steps generalizing q with
  | nil => exact ⟨rfl, List.prefix_refl _⟩
  | cons st steps ih =>
    obtain ⟨first, rest⟩ := List.forall_mem_cons.mp h
    obtain ⟨projection, aggregates⟩ := q.columns_apply first
    obtain ⟨later, more⟩ := ih (q.apply st) rest
    exact ⟨later.trans projection, aggregates.trans more⟩

/-- An aggregate that no projection follows stays, with the projection there was before it. -/
theorem columns_aggregate {q : Query} {f : AggregateFunction} {selector : Option Expr}
    {label : String} {after : List Step} (unselected : ∀ st ∈ after, ¬st.IsSelect)
    (faultless : q.fault? (.aggregate f selector label) = none) :
    ∃ kept, selector.mapM q.rebase = .ok kept ∧
      ((q.aggregate f selector label).applyAll after).projection = q.projection ∧
      ⟨f, kept, label⟩ ∈ ((q.aggregate f selector label).applyAll after).aggregates := by
  obtain ⟨kept, hkept, asked⟩ := aggregates_aggregate faultless
  obtain ⟨projection, aggregates⟩ := columns_applyAll (q.aggregate f selector label) unselected
  have added : ⟨f, kept, label⟩ ∈ (q.aggregate f selector label).aggregates := by
    rw [asked]
    exact List.mem_append_right _ (List.mem_singleton_self _)
  have unprojecting : ¬(Step.aggregate f selector label).IsSelect := id
  exact ⟨kept, hkept, projection.trans (columns_apply q unprojecting).1, aggregates.subset added⟩

end Query

/-! ## Select lists -/

/-- A column of this name stands for what the expression does. -/
def Sql.Select.Selects (s : Scope) (ps : List Param) (x : Select) (label : String) (e : Expr) :
    Prop :=
  ∃ c ∈ x.columns, c.label = label ∧ e.quantity? s = some (c.term.quantity ps)

namespace Query

/-- The columns of a SELECT are those of its query. -/
theorem selects_iff {r : Registry} {q : Query} {vs : List Value} {x : Select}
    (figures : q.projection.isSome = true ∨ q.isGrouped = true)
    (h : (q.toSelect r).run 0 = (vs, .ok x)) :
    ∃ s, Scope.ofSources r q.sources = .ok s ∧ ∀ label e,
      x.Selects s (Param.number vs) label e ↔
        ∃ i ∈ q.outputItems, i.1 = label ∧ i.2.quantity? s = e.quantity? s := by
  obtain ⟨s, rendered, columns⟩ := labelled_columns figures h
  refine ⟨s, rendered.scope, fun label e => ?_⟩
  have pairs (p : String × Option Quantity) :
      (∃ c ∈ x.columns, (c.label, some (c.term.quantity (Param.number vs))) = p) ↔
        ∃ i ∈ q.outputItems, (i.1, i.2.quantity? s) = p := by
    rw [← List.mem_map, ← List.mem_map, ← columns, Select.labelled, List.map_map]
    rfl
  have found := pairs (label, e.quantity? s)
  simp only [Prod.mk.injEq] at found
  rw [← found, Select.Selects]
  exact exists_congr fun c => and_congr_right fun _ => and_congr_right fun _ => eq_comm

end Query

open Query

/-- An aggregate is asked for and no projection is made after it, and the rows can be selected. Then
it is a column under its name exactly if no projection was made before it, or the projection has an
item of this name that stands for the same in the tables of the query. -/
theorem aggregate_selected_iff {s : Shape} {before after : List Step} {f : AggregateFunction}
    {selector : Option Expr} {label : String} {r : Registry} {d : Dialect} {st : Statement}
    (unselected : ∀ step ∈ after, ¬step.IsSelect)
    (h : ((ofShape s).applyAll (before ++ .aggregate f selector label :: after)).statement r d .rows
      = .ok st) :
    ∃ vs x sc kept,
      (((ofShape s).applyAll (before ++ .aggregate f selector label :: after)).toSelect r).run 0
        = (vs, .ok x) ∧
      st = .ofPieces (x.pieces d) vs ∧
      Scope.ofSources r ((ofShape s).applyAll
        (before ++ .aggregate f selector label :: after)).sources = .ok sc ∧
      selector.mapM ((ofShape s).applyAll before).rebase = .ok kept ∧
      (x.Selects sc st.params label (.aggregateOf f kept) ↔
        (∀ step ∈ before, ¬step.IsSelect) ∨
        ∃ p item, ((ofShape s).applyAll before).projection = some p ∧ item ∈ p.items ∧
          item.field = label ∧
          item.expr.quantity? sc = (Expr.aggregateOf f kept).quantity? sc) := by
  obtain ⟨vs, _, rows, rfl⟩ := statement_ok_iff.mp h
  obtain ⟨x, hx, rfl⟩ := run_map_ok_iff.mp rows
  have supported := (toSelect_succeedsIff r _ 0).mp ⟨vs, x, hx⟩
  have faultless := (faultless_of_undeferred supported.undeferred).2 before _
    ⟨after, (List.append_cons before (.aggregate f selector label) after).symm⟩
  have run : (ofShape s).applyAll (before ++ .aggregate f selector label :: after)
      = (((ofShape s).applyAll before).aggregate f selector label).applyAll after := by
    rw [applyAll_append]
    rfl
  obtain ⟨kept, hkept, projection, mem⟩ := columns_aggregate unselected faultless
  rw [← run] at projection mem
  have grouped : ((ofShape s).applyAll
      (before ++ .aggregate f selector label :: after)).isGrouped = true := by
    simp [isGrouped, List.ne_nil_of_mem mem]
  obtain ⟨sc, scope, selects⟩ := selects_iff (.inr grouped) hx
  refine ⟨vs, x, sc, kept, hx, rfl, scope, hkept, ?_⟩
  refine (selects label _).trans ?_
  rw [outputItems, projection, ← projection_eq_none_iff s before]
  cases ((ofShape s).applyAll before).projection with
  | none =>
    refine iff_of_true ⟨(label, .aggregateOf f kept), ?_, rfl, rfl⟩ (.inl rfl)
    exact List.mem_append_right _ (List.mem_map_of_mem mem)
  | some p => simp

/-- The lines of each order are counted after a projection to the order. -/
def countedLate : List Step := [
  .groupBy [("order", .named "order")],
  .select ⟨"OrderLines", [{ name := "order", type := .required .any }]⟩ [("order", .named "order")]]

theorem aggregate_selected_iff_countedLate :
    ∃ st x sc, ((ofShape ⟨"Line", []⟩).applyAll
        (countedLate ++ [.aggregate .count none "lines"])).statement orderRegistry .sqlite .rows
          = .ok st ∧
      st.sql = sqlOf (Select.pieces .sqlite x) ∧
      Scope.ofSources orderRegistry [⟨"Line", baseAlias⟩] = .ok sc ∧
      ¬x.Selects sc st.params "lines" (.aggregateAll .count) := by
  have run : ((ofShape ⟨"Line", []⟩).applyAll
      (countedLate ++ .aggregate .count none "lines" :: [])).statement orderRegistry .sqlite .rows
        = .ok _ := rfl
  obtain ⟨vs, x, sc, kept, _, text, scope, hkept, selected⟩ :=
    aggregate_selected_iff (fun _ h => by cases h) run
  cases hkept
  refine ⟨_, x, sc, rfl, congrArg Statement.sql text, scope, fun selects => ?_⟩
  obtain unprojected | ⟨p, item, hp, hitem, name, _⟩ := selected.mp selects
  · exact unprojected _ (List.mem_cons_of_mem _ (List.mem_singleton_self _)) trivial
  · cases hp
    cases List.mem_singleton.mp hitem
    exact absurd name (by decide)

/-- The rows are selected without the number of lines. -/
theorem countedLate_not_selected :
    (((ofShape ⟨"Line", []⟩).applyAll (countedLate ++ [.aggregate .count none "lines"])).statement
        orderRegistry .sqlite .rows).map (·.sql)
      = .ok ("SELECT [t0].[order_id] AS [order] FROM [line] AS [t0] "
        ++ "GROUP BY [t0].[order_id]") ∧
    ¬∀ (s : Shape) (before : List Step) (f : AggregateFunction) (selector : Option Expr)
      (label : String) (vs : List Value) (x : Select),
      (((ofShape s).applyAll (before ++ [.aggregate f selector label])).toSelect
        orderRegistry).run 0 = (vs, .ok x) → label ∈ x.columns.map (·.label) :=
  ⟨rfl, fun selected =>
    absurd (selected ⟨"Line", []⟩ countedLate .count none "lines" _ _ rfl) (by decide)⟩

end RecordQuery
