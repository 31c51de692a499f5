import RecordQuery.Proofs.Compile.Paging
import RecordQuery.Proofs.Compile.Supported
import RecordQuery.Proofs.Rows.Injected

/-!
# Select lists

A select list comes from a projection, else from group keys and aggregates, else from the table of a
query, and the clauses beside it do not ask which. The names in it are apart where a projection has
been checked for that, and are those that group keys and aggregates were given otherwise
(`output_names_apart_iff`). Its columns are aggregates or group keys unless the query has a
projection beside group keys of its own (`grouped_columns_iff`), and a distinct page is ordered by
columns unless it has such a projection, aggregates beside a projection, or joins and nothing else
(`distinct_order_selected_iff`). Terms are compared by what they stand for.
-/

namespace RecordQuery

open Sql Lowering

/-! ## Names -/

namespace Query

variable {r : Registry} {q p : Query} {t : Terminal} {x : Select} {n : Nat} {vs : List Value}

/-- A projection is checked for names of its own; group keys and aggregates have different ones. -/
def NamesApart (q : Query) : Prop :=
  q.projection.isSome = true ∨ (q.group.map (·.label) ++ q.aggregates.map (·.label)).Nodup

/-- The statement aggregates what is no column of the query, so the query is projected to it. -/
def Reprojects (r : Registry) (q : Query) (t : Terminal) : Prop :=
  ∃ f selector, t = .aggregate f selector ∧ q.outputColumn? r selector = .ok none

/-- The columns of a SELECT have names of their own exactly if those of its query have. -/
theorem nodup_labels_iff (h : (q.toSelect r).run n = (vs, .ok x)) :
    (x.columns.map (·.label)).Nodup ↔ q.NamesApart := by
  have named := (q.toSelect_scoped r n vs x h).2
  obtain ⟨s, _, clauses⟩ := ((q.toSelect_succeedsIff r n).mp ⟨vs, x, h⟩).clauses
  have columns := clauses.columns
  unfold outputColumns at named
  unfold HasColumns at columns
  cases hp : q.projection with
  | some p =>
    simp only [hp] at named columns
    rw [← Except.ok.inj named]
    exact iff_of_true columns.distinct (.inl (by rw [hp]; rfl))
  | none =>
    simp only [hp] at named
    split at named
    · rw [← Except.ok.inj named, NamesApart, hp]
      simp
    · next plain =>
      have empty : q.group = [] ∧ q.aggregates = [] := by simpa [isGrouped] using plain
      obtain ⟨m, hm, fields⟩ := map_ok_iff.mp named
      have sound := Registry.fault?_of_get? (Registry.get_eq_ok_iff.mp hm)
      rw [fields]
      exact iff_of_true (Metadata.nodup_fields sound) (.inr (by simp [empty]))

theorem namesApart_part (h : q.part r t = .ok p) :
    p.NamesApart ↔ q.NamesApart ∨ q.Reprojects r t := by
  have derived (q : Query) : q.derived.NamesApart ↔ q.NamesApart := by
    unfold derived
    split <;> rfl
  cases t with
  | aggregate f selector =>
    obtain ⟨column, hcolumn, rfl⟩ := map_ok_iff.mp h
    cases column with
    | none => exact iff_of_true ((derived _).mpr (.inl rfl)) (.inr ⟨f, selector, rfl, hcolumn⟩)
    | some column =>
      have same : ¬q.Reprojects r (.aggregate f selector) := by
        rintro ⟨_, _, ⟨⟩, none⟩
        cases hcolumn.symm.trans none
      simp [same, derived]
  | rows =>
    cases h
    exact iff_self_or.mpr nofun
  | count =>
    cases h
    exact (derived q).trans (iff_self_or.mpr nofun)
  | totalCount =>
    cases h
    exact (derived q.allRows).trans (iff_self_or.mpr nofun)
  | «exists» =>
    cases h
    exact (derived q).trans (iff_self_or.mpr nofun)

end Query

/-- Two columns of a statement have one name exactly if group keys and aggregates of the query were
given one name, and the query is not projected: not by the query itself, whose projection is refused
if a name is in it twice, nor by an aggregate of something else than its columns. -/
theorem output_names_apart_iff {r : Registry} {d : Dialect} {q : Query} {t : Query.Terminal}
    {s : Statement} (h : q.statement r d t = .ok s) :
    ∃ vs x, (q.retrieval r t).run 0 = (vs, .ok x) ∧ s = .ofPieces (x.pieces d) vs ∧
      ((x.inner.columns.map (·.label)).Nodup ↔ q.NamesApart ∨ q.Reprojects r t) := by
  obtain ⟨vs, x, hx, rfl⟩ := statement_ok_iff.mp h
  obtain ⟨_, p, hp, hinner⟩ := Query.retrieval_part hx
  refine ⟨vs, x, hx, rfl, ?_⟩
  rw [Query.nodup_labels_iff hinner, Query.namesApart_part hp]

/-- The orders of each total are counted, under the name of the total. -/
def sharedName : Query :=
  Query.applyAll (.ofShape ⟨"Order", []⟩) [
    .groupBy [("id", .named "total")],
    .aggregate .count none "id"]

theorem output_names_apart_iff_sharedName :
    ∃ s, sharedName.statement orderRegistry .sqlServer .count = .ok s ∧
      ∃ vs x, (sharedName.retrieval orderRegistry .count).run 0 = (vs, .ok x) ∧
        s = .ofPieces (x.pieces .sqlServer) vs ∧ ¬(x.inner.columns.map (·.label)).Nodup := by
  obtain ⟨vs, x, hx, hs, apart⟩ := output_names_apart_iff
    (r := orderRegistry) (d := .sqlServer) (q := sharedName) (t := .count) rfl
  refine ⟨_, rfl, vs, x, hx, hs, fun nodup => ?_⟩
  obtain (projected | nodup) | ⟨_, _, ⟨⟩, _⟩ := apart.mp nodup
  · cases projected
  · exact absurd nodup (by decide)

/-- The rows are selected, and counted, with two columns of one name. -/
theorem sharedName_not_apart :
    (sharedName.statement orderRegistry .sqlServer .rows).map (·.sql)
      = .ok ("SELECT [t0].[sum] AS [id], COUNT(*) AS [id] FROM [order] AS [t0] "
        ++ "GROUP BY [t0].[sum]") ∧
    ¬∀ (q : Query) (vs : List Value) (x : Select),
      (q.toSelect orderRegistry).run 0 = (vs, .ok x) → (x.columns.map (·.label)).Nodup :=
  ⟨rfl, fun apart => absurd (apart sharedName _ _ rfl) (by decide)⟩

/-! ## Terms and what they stand for -/

namespace Means

variable {s : Scope} {ps : List Param} {e : Expr} {es : List Expr} {t : Term} {ts : List Term}

theorem uncons (h : Means s ps (e :: es) (t :: ts)) :
    e.quantity? s = some (t.quantity ps) ∧ Means s ps es ts := by
  unfold Means at h
  rw [List.map_cons, List.map_cons, List.map_cons, List.cons.injEq] at h
  exact h

theorem exists_of_term (h : Means s ps es ts) (ht : t ∈ ts) :
    ∃ e ∈ es, e.quantity? s = some (t.quantity ps) := by
  have mem : some (t.quantity ps) ∈ es.map (·.quantity? s) :=
    h ▸ List.mem_map_of_mem (List.mem_map_of_mem ht)
  exact List.mem_map.mp mem

/-- What can be said of the expressions can be said of the terms. -/
theorem forall_iff (h : Means s ps es ts) {P : Expr → Prop} {Q : Term → Prop}
    (hPQ : ∀ e t, e.quantity? s = some (t.quantity ps) → (P e ↔ Q t)) :
    (∀ t ∈ ts, Q t) ↔ ∀ e ∈ es, P e := by
  induction es generalizing ts with
  | nil => simp [h.nil_iff.mpr rfl]
  | cons e es ih =>
    cases ts with
    | nil => cases h.nil_iff.mp rfl
    | cons t ts =>
      obtain ⟨first, rest⟩ := h.uncons
      rw [List.forall_mem_cons, List.forall_mem_cons, hPQ e t first, ih rest]

/-- A term is among terms exactly if what it stands for is among what they stand for. -/
theorem exists_iff (h : Means s ps es ts) (he : e.quantity? s = some (t.quantity ps)) :
    (∃ u ∈ ts, u.quantity ps = t.quantity ps) ↔ ∃ g ∈ es, g.quantity? s = e.quantity? s := by
  rw [he]
  constructor
  · rintro ⟨u, hu, same⟩
    obtain ⟨g, hg, value⟩ := h.exists_of_term hu
    exact ⟨g, hg, value.trans (congrArg some same)⟩
  · rintro ⟨g, hg, value⟩
    obtain ⟨u, hu, stands⟩ := h.exists_of_mem hg
    exact ⟨u, hu, Option.some.inj (stands.symm.trans value)⟩

end Means

namespace Query

variable {r : Registry} {q : Query} {s : Scope} {ps : List Param} {x : Select}

theorem groupExprs_of_keys (h : q.group ≠ []) : q.groupExprs = q.group.map (·.expr) := by
  simp [groupExprs, h]

/-- Without group keys, those of a projection are its items without aggregates, if it has others. -/
theorem mem_groupExprs_iff {e : Expr} (hg : q.group = []) (hp : q.projection.isSome = true) :
    e ∈ q.groupExprs ↔ e ∈ q.outputExprs ∧ e.containsAggregate = false ∧
      ∃ a ∈ q.outputExprs, a.containsAggregate = true := by
  obtain ⟨p, hp⟩ := Option.isSome_iff_exists.mp hp
  rw [outputExprs_projected hp, groupExprs, hg, hp]
  simp only [List.isEmpty_nil, if_true, ← List.any_eq_true]
  split
  · next some => simp [List.mem_filter, some]
  · next none => simp [none]

/-- A query without projection, group keys and aggregates groups by nothing. -/
theorem groupExprs_of_plain (hp : q.projection = none) (plain : q.isGrouped = false) :
    q.group = [] ∧ q.aggregates = [] ∧ q.groupExprs = [] := by
  have empty : q.group = [] ∧ q.aggregates = [] := by simpa [isGrouped] using plain
  refine ⟨empty.1, empty.2, ?_⟩
  rw [groupExprs_eq hp, empty.1]
  rfl

end Query

/-- The SELECT of a statement, with what its parts stand for. -/
theorem Query.rendered_of_statement {r : Registry} {d : Dialect} {q : Query} {t : Query.Terminal}
    {st : Statement} (h : q.statement r d t = .ok st) :
    ∃ vs x p s, (q.retrieval r t).run 0 = (vs, .ok x) ∧ st = .ofPieces (x.pieces d) vs ∧
      q.part r t = .ok p ∧ p.Rendered r s st.params x.inner := by
  obtain ⟨vs, x, hx, rfl⟩ := statement_ok_iff.mp h
  obtain ⟨_, p, hp, hinner⟩ := retrieval_part hx
  obtain ⟨s, rendered⟩ := toSelect_rendered hinner
  exact ⟨vs, x, p, s, hx, rfl, hp, rendered⟩

/-! ## Groups -/

/-- The SELECT makes rows of several: it has a GROUP BY or an aggregate in its select list. -/
def Sql.Select.Grouped (x : Select) : Prop :=
  x.group ≠ [] ∨ ∃ c ∈ x.columns, c.term.isAggregate = true

/-- Every column is an aggregate or has what one of the keys of the GROUP BY has. -/
def Sql.Select.ColumnsGrouped (ps : List Param) (x : Select) : Prop :=
  ∀ c ∈ x.columns, c.term.isAggregate = true ∨ ∃ g ∈ x.group, g.quantity ps = c.term.quantity ps

/-- Beside group keys, the items of a projection are aggregates or stand for keys. -/
def Query.ProjectsGroups (s : Scope) (q : Query) : Prop :=
  ∀ p, q.projection = some p → q.group ≠ [] → ∀ i ∈ p.items,
    i.expr.containsAggregate = true ∨ ∃ k ∈ q.group, k.expr.quantity? s = i.expr.quantity? s

namespace Query.Rendered

variable {r : Registry} {q : Query} {s : Scope} {ps : List Param} {x : Select}

/-- The columns of a table alone are not grouped. -/
theorem figures_of_grouped (h : q.Rendered r s ps x) (grouped : x.Grouped) :
    q.projection.isSome = true ∨ q.isGrouped = true := by
  by_contra plain
  obtain ⟨unprojected, ungrouped⟩ : q.projection = none ∧ q.isGrouped = false := by
    simpa using plain
  obtain ⟨t, _, table⟩ := h.table unprojected ungrouped
  obtain some | ⟨c, hc, aggregate⟩ := grouped
  · exact some (h.group.nil_iff.mpr (groupExprs_of_plain unprojected ungrouped).2.2)
  · rw [table] at hc
    obtain ⟨m, _, rfl⟩ := List.mem_map.mp hc
    cases aggregate

theorem columnsGrouped_iff_exprs (h : q.Rendered r s ps x) (grouped : x.Grouped) :
    x.ColumnsGrouped ps ↔ ∀ e ∈ q.outputExprs,
      e.containsAggregate = true ∨ ∃ g ∈ q.groupExprs, g.quantity? s = e.quantity? s := by
  calc x.ColumnsGrouped ps
    _ ↔ ∀ t ∈ x.columns.map (·.term),
          t.isAggregate = true ∨ ∃ g ∈ x.group, g.quantity ps = t.quantity ps := by
      simp [Select.ColumnsGrouped]
    _ ↔ ∀ e ∈ q.outputExprs,
          e.containsAggregate = true ∨ ∃ g ∈ q.groupExprs, g.quantity? s = e.quantity? s :=
      (h.columns (h.figures_of_grouped grouped)).forall_iff fun e t same => by
        rw [Expr.isAggregate_eq same, h.group.exists_iff same]

/-- A projection of a statement that groups without keys of its own has an aggregate. -/
theorem exists_aggregate (h : q.Rendered r s ps x) (grouped : x.Grouped) (keyless : q.group = [])
    (projected : q.projection.isSome = true) :
    ∃ a ∈ q.outputExprs, a.containsAggregate = true := by
  obtain some | ⟨c, hc, aggregate⟩ := grouped
  · obtain ⟨e, he⟩ := List.exists_mem_of_ne_nil _ fun none => some (h.group.nil_iff.mpr none)
    exact ((mem_groupExprs_iff keyless projected).mp he).2.2
  · obtain ⟨e, he, same⟩ :=
      (h.columns (.inl projected)).exists_of_term (List.mem_map_of_mem hc)
    exact ⟨e, he, (Expr.isAggregate_eq same).symm.trans aggregate⟩

theorem columnsGrouped_iff (h : q.Rendered r s ps x) (grouped : x.Grouped) :
    x.ColumnsGrouped ps ↔ q.ProjectsGroups s := by
  rw [h.columnsGrouped_iff_exprs grouped]
  cases hp : q.projection with
  | none =>
    -- what is selected are the keys and the aggregates
    refine iff_of_true (fun e he => ?_) fun p hp' => by cases hp.symm.trans hp'
    rw [outputExprs_unprojected hp] at he
    obtain key | aggregate := List.mem_append.mp he
    · exact .inr ⟨e, groupExprs_eq hp ▸ key, rfl⟩
    · obtain ⟨a, _, rfl⟩ := List.mem_map.mp aggregate
      exact .inl (containsAggregate_toExpr a)
  | some p =>
    by_cases keyless : q.group = []
    · -- the keys are the items that have no aggregate
      have projected : q.projection.isSome = true := by rw [hp]; rfl
      have aggregate := h.exists_aggregate grouped keyless projected
      refine iff_of_true (fun e he => ?_) fun p _ keys => absurd keyless keys
      cases plain : e.containsAggregate with
      | true => exact .inl rfl
      | false =>
        exact .inr ⟨e, (mem_groupExprs_iff keyless projected).mpr ⟨he, plain, aggregate⟩, rfl⟩
    · rw [ProjectsGroups, groupExprs_of_keys keyless, outputExprs_projected hp]
      simp [hp, keyless]

end Query.Rendered

/-- A statement with groups or aggregates selects aggregates and group keys alone, unless its query
has a projection and group keys of its own: then the items of the projection are not compared with
the keys, and the statement is as it should be exactly if they are among them. -/
theorem grouped_columns_iff {r : Registry} {d : Dialect} {q : Query} {t : Query.Terminal}
    {st : Statement} (h : q.statement r d t = .ok st) :
    ∃ vs x p s, (q.retrieval r t).run 0 = (vs, .ok x) ∧ st = .ofPieces (x.pieces d) vs ∧
      q.part r t = .ok p ∧ Scope.ofSources r p.sources = .ok s ∧
      (x.inner.Grouped → (x.inner.ColumnsGrouped st.params ↔ p.ProjectsGroups s)) := by
  obtain ⟨vs, x, p, s, hx, pieces, hp, rendered⟩ := Query.rendered_of_statement h
  exact ⟨vs, x, p, s, hx, pieces, hp, rendered.scope, rendered.columnsGrouped_iff⟩

/-- The orders are grouped by identifier, and their totals selected. -/
def ungroupedTotal : Query :=
  Query.applyAll (.ofShape ⟨"Order", []⟩) [
    .groupBy [("id", .named "id")],
    .select ⟨"Total", [{ name := "total", type := .required .any }]⟩ [("total", .named "total")]]

theorem grouped_columns_iff_ungroupedTotal :
    ∃ st vs x, ungroupedTotal.statement orderRegistry .sqlite .rows = .ok st ∧
      (ungroupedTotal.retrieval orderRegistry .rows).run 0 = (vs, .ok x) ∧
      x.inner.Grouped ∧ ¬x.inner.ColumnsGrouped st.params := by
  obtain ⟨_, _, _, _, hx, _, hp, hs, iff⟩ := grouped_columns_iff
    (r := orderRegistry) (d := .sqlite) (q := ungroupedTotal) (t := .rows) rfl
  cases hx
  cases hp
  cases hs
  have grouped := iff (.inl (List.cons_ne_nil _ _))
  refine ⟨_, _, _, rfl, rfl, .inl (List.cons_ne_nil _ _), fun columns => ?_⟩
  obtain aggregate | ⟨k, hk, same⟩ :=
    grouped.mp columns _ rfl (List.cons_ne_nil _ _) _ List.mem_cons_self
  · cases aggregate
  · cases List.mem_singleton.mp hk
    exact absurd same (by decide)

/-- One total is selected of each group, and nothing says which. -/
theorem ungroupedTotal_not_grouped :
    (ungroupedTotal.statement orderRegistry .sqlite .rows).map (·.sql)
      = .ok "SELECT [t0].[sum] AS [total] FROM [order] AS [t0] GROUP BY [t0].[id]" ∧
    ¬∀ (q : Query) (vs : List Value) (x : Select),
      (q.toSelect orderRegistry).run 0 = (vs, .ok x) → x.Grouped →
        x.ColumnsGrouped (Param.number vs) := by
  refine ⟨rfl, fun grouped => ?_⟩
  obtain aggregate | ⟨g, hg, same⟩ :=
    grouped ungroupedTotal _ _ rfl (.inl (List.cons_ne_nil _ _)) _ List.mem_cons_self
  · cases aggregate
  · cases List.mem_singleton.mp hg
    exact absurd same (by decide)

/-! ## Orders of distinct pages -/

/-- Every key of the order stands for what one of the columns does. -/
def Sql.Select.SelectsOrder (ps : List Param) (x : Select) : Prop :=
  ∀ o ∈ x.orders, ∃ c ∈ x.columns, c.term.quantity ps = o.term.quantity ps

namespace Query

variable {r : Registry} {q : Query} {s : Scope} {ps : List Param} {x : Select} {es : List Expr}

/-- What the expression stands for is selected. -/
def Offers (s : Scope) (q : Query) (e : Expr) : Prop :=
  ∃ e' ∈ q.outputExprs, e'.quantity? s = e.quantity? s

/-- What a distinct page without an order is ordered by is selected. A projection may leave out
group keys, and an aggregate that is asked for beside it; a table is ordered with those joined to
it, but selected alone. -/
structure OffersOrder (s : Scope) (q : Query) : Prop where
  keys : ∀ k ∈ q.group, q.Offers s k.expr
  aggregate : q.groupExprs = [] → ∀ a ∈ q.aggregates.head?, q.Offers s a.toExpr
  tables : q.projection = none → q.isGrouped = false → q.joins = []

theorem offers_groupExprs (keyless : q.group = []) : ∀ e ∈ q.groupExprs, q.Offers s e := by
  intro e he
  cases hp : q.projection with
  | none =>
    rw [groupExprs_eq hp, keyless] at he
    cases he
  | some p =>
    have selected := (mem_groupExprs_iff keyless (by rw [hp]; rfl)).mp he
    exact ⟨e, selected.1, rfl⟩

/-- Without group keys and aggregates beside it, a projection leaves nothing out. -/
theorem offersOrder_of_projected (keyless : q.group = []) (alone : q.aggregates = [])
    (projected : q.projection.isSome = true) : q.OffersOrder s := by
  refine ⟨by simp [keyless], fun _ => by simp [alone], fun unprojected => ?_⟩
  rw [unprojected] at projected
  cases projected

/-- A page that is ordered by expressions has all of them selected exactly if it has those selected
that may be left out. -/
theorem offersOrder_iff (h : q.figureOrder? = some es) :
    (∀ e ∈ es, q.Offers s e) ↔ q.OffersOrder s := by
  have spec := figureOrder_spec q
  rw [h] at spec
  have keyless (none : q.groupExprs = []) : q.group = [] := by
    by_contra keys
    rw [groupExprs_of_keys keys] at none
    exact keys (List.map_eq_nil_iff.mp none)
  cases spec with
  | groupKeys some =>
    have grouped : q.projection = none → q.isGrouped = false → q.joins = [] :=
      fun unprojected plain => absurd (groupExprs_of_plain unprojected plain).2.2 some
    by_cases none : q.group = []
    · exact iff_of_true (offers_groupExprs none)
        ⟨by simp [none], fun empty => absurd empty some, grouped⟩
    · rw [groupExprs_of_keys none, List.forall_mem_map]
      exact ⟨fun keys => ⟨keys, fun empty => absurd empty some, grouped⟩, (·.keys)⟩
  | aggregate a none first =>
    rw [List.forall_mem_singleton]
    refine ⟨fun offered => ⟨by simp [keyless none], fun _ b hb => ?_, fun unprojected plain => ?_⟩,
      fun order => order.aggregate none a first⟩
    · cases Option.mem_unique hb first
      exact offered
    · rw [(groupExprs_of_plain unprojected plain).2.1] at first
      cases first
  | item e none alone projected selected aggregate =>
    rw [List.forall_mem_singleton]
    exact iff_of_true ⟨e, selected, rfl⟩ (offersOrder_of_projected (keyless none) alone projected)
  | items none alone projected distinct =>
    exact iff_of_true (fun e he => ⟨e, he, rfl⟩)
      (offersOrder_of_projected (keyless none) alone projected)

/-- What is ordered by expressions selects expressions. -/
theorem figures_of_figureOrder? (h : q.figureOrder? = some es) :
    q.projection.isSome = true ∨ q.isGrouped = true := by
  by_contra plain
  obtain ⟨unprojected, ungrouped⟩ : q.projection = none ∧ q.isGrouped = false := by
    simpa using plain
  obtain ⟨_, aggregates, none⟩ := groupExprs_of_plain unprojected ungrouped
  have spec := figureOrder_spec q
  rw [h] at spec
  cases spec with
  | groupKeys some => exact some none
  | aggregate a _ first => simp [aggregates] at first
  | item e _ _ projected => simp [unprojected] at projected
  | items _ _ projected => simp [unprojected] at projected

/-- What is distinct and ordered by nothing but its tables selects a table. -/
theorem plain_of_figureOrder? (distinct : q.distinct = true) (h : q.figureOrder? = none) :
    q.projection = none ∧ q.isGrouped = false := by
  have spec := figureOrder_spec q
  rw [h] at spec
  cases spec with
  | tables keyless aggregates plain =>
    have unprojected : q.projection = none := by simpa [distinct] using plain
    rw [groupExprs_eq unprojected, List.map_eq_nil_iff] at keyless
    exact ⟨unprojected, by simp [isGrouped, keyless, aggregates]⟩

/-- The columns that tell the rows of a registered table apart are some of its columns. -/
theorem mem_identifiers {src : Source} {t : Term} (h : t ∈ r.identifiers src) :
    ∃ m c, r.get? src.shape = some m ∧ c ∈ m.columns ∧ t = .column src.label c.column := by
  unfold Registry.identifiers at h
  cases hm : r.get? src.shape with
  | none =>
    rw [hm] at h
    cases h
  | some m =>
    rw [hm] at h
    obtain ⟨c, hc, rfl⟩ := List.mem_map.mp h
    have sound := Registry.fault?_of_get? hm
    exact ⟨m, c, rfl, (Metadata.identifies_fallbackOrder sound).declared c hc, rfl⟩

theorem identifiers_ne_nil {tables : List ScopedTable} {src : Source}
    (hs : Stands r tables q.sources) (h : src ∈ q.sources) : r.identifiers src ≠ [] := by
  obtain ⟨t, ht, rfl⟩ := List.mem_map.mp (hs.same ▸ h)
  have found : r.get? t.source.shape = some t.metadata := hs.registered t ht
  rw [Registry.identifiers, found]
  simpa using Metadata.fallbackOrder_ne_nil (Registry.fault?_of_get? found)

namespace Rendered

/-- The base table is selected and nothing else, so joined tables order by what is not. -/
theorem selectsOrder_table_iff (h : q.Rendered r s ps x) (unprojected : q.projection = none)
    (plain : q.isGrouped = false)
    (orders : x.orders.map (·.term) = q.sources.flatMap r.identifiers) :
    x.SelectsOrder ps ↔ q.joins = [] := by
  obtain ⟨t, ht, table⟩ := h.table unprojected plain
  obtain ⟨stands, _⟩ := Scope.stands_of_ofSources h.scope
  have base : t.source = q.base := stands.base ht
  constructor
  · intro selects
    by_contra joined
    obtain ⟨j, hj⟩ := List.exists_mem_of_ne_nil _ joined
    have source : j.source ∈ q.sources := List.mem_cons_of_mem _ (List.mem_map_of_mem hj)
    obtain ⟨u, hu⟩ := List.exists_mem_of_ne_nil _ (identifiers_ne_nil stands source)
    obtain ⟨_, k, _, _, rfl⟩ := mem_identifiers hu
    obtain ⟨o, ho, term⟩ := List.mem_map.mp (orders ▸ List.mem_flatMap_of_mem source hu)
    obtain ⟨c, hc, same⟩ := selects o ho
    rw [table] at hc
    obtain ⟨m, _, rfl⟩ := List.mem_map.mp hc
    rw [term] at same
    -- the aliases of the tables are apart
    have label : q.base.label = j.source.label := by
      rw [← base]
      exact (Quantity.column.inj same).1
    have apart : q.base.label ∉ (q.joins.map (·.source)).map (·.label) :=
      (List.nodup_cons.mp stands.labels).1
    rw [label] at apart
    exact apart (List.mem_map_of_mem (List.mem_map_of_mem hj))
  · intro alone o ho
    have mem : o.term ∈ q.sources.flatMap r.identifiers := orders ▸ List.mem_map_of_mem ho
    rw [sources, alone, List.map_nil, List.flatMap_singleton] at mem
    obtain ⟨m, c, found, hc, term⟩ := mem_identifiers mem
    have registered := stands.registered t (List.mem_of_mem_head? (Scope.head_of_base ht))
    obtain rfl : t.metadata = m := by
      rw [← base] at found
      exact Option.some.inj (registered.symm.trans found)
    rw [table, term, ← base]
    exact ⟨_, List.mem_map_of_mem hc, rfl⟩

/-- The keys of a distinct page without an order are columns of it exactly if nothing is left out of
them. -/
theorem selectsOrder_iff (h : q.Rendered r s ps x) (distinct : q.distinct = true)
    (paged : q.pagination.isSome = true) (unordered : q.orders = []) :
    x.SelectsOrder ps ↔ q.OffersOrder s := by
  have page := h.order paged unordered
  cases hf : q.figureOrder? with
  | some es =>
    calc x.SelectsOrder ps
      _ ↔ ∀ t ∈ x.orders.map (·.term), ∃ u ∈ x.columns.map (·.term),
            u.quantity ps = t.quantity ps := by
        simp [Select.SelectsOrder]
      _ ↔ ∀ e ∈ es, q.Offers s e :=
        (page.figures es hf).forall_iff fun _ _ same =>
          ((h.columns (figures_of_figureOrder? hf)).exists_iff same).symm
      _ ↔ q.OffersOrder s := offersOrder_iff hf
  | none =>
    obtain ⟨unprojected, plain⟩ := plain_of_figureOrder? distinct hf
    rw [h.selectsOrder_table_iff unprojected plain (page.identifiers hf)]
    have empty := groupExprs_of_plain unprojected plain
    exact ⟨fun joins => ⟨by simp [empty.1], fun _ => by simp [empty.2.1], fun _ _ => joins⟩,
      fun order => order.tables unprojected plain⟩

end Rendered

end Query

/-- A distinct page without an order is ordered by its columns alone exactly if its query selects
what orders it: group keys, an aggregate asked for beside a projection, and the tables it joins. -/
theorem distinct_order_selected_iff {r : Registry} {d : Dialect} {q : Query} {t : Query.Terminal}
    {st : Statement} (h : q.statement r d t = .ok st) :
    ∃ vs x p s, (q.retrieval r t).run 0 = (vs, .ok x) ∧ st = .ofPieces (x.pieces d) vs ∧
      q.part r t = .ok p ∧ Scope.ofSources r p.sources = .ok s ∧
      (p.distinct = true → p.pagination.isSome = true → p.orders = [] →
        x.inner.distinct = true ∧ (x.inner.SelectsOrder st.params ↔ p.OffersOrder s)) := by
  obtain ⟨vs, x, p, s, hx, pieces, hp, rendered⟩ := Query.rendered_of_statement h
  refine ⟨vs, x, p, s, hx, pieces, hp, rendered.scope, fun distinct paged unordered => ?_⟩
  exact ⟨rendered.distinct.trans distinct, rendered.selectsOrder_iff distinct paged unordered⟩

/-- Distinct orders beside all lines, a page at a time. -/
def distinctOrders : Query :=
  Query.applyAll (.ofShape ⟨"Order", []⟩) [.crossJoin "Line", .distinct, .page 1 5]

theorem distinct_order_selected_iff_distinctOrders :
    ∃ st vs x, distinctOrders.statement orderRegistry .sqlServer .rows = .ok st ∧
      (distinctOrders.retrieval orderRegistry .rows).run 0 = (vs, .ok x) ∧
      x.inner.distinct = true ∧ ¬x.inner.SelectsOrder st.params := by
  obtain ⟨_, _, _, _, hx, _, hp, _, iff⟩ := distinct_order_selected_iff
    (r := orderRegistry) (d := .sqlServer) (q := distinctOrders) (t := .rows) rfl
  cases hp
  obtain ⟨distinct, selected⟩ := iff rfl rfl rfl
  refine ⟨_, _, _, rfl, hx, distinct, fun selects => ?_⟩
  cases (selected.mp selects).tables rfl rfl

/-- The columns of the line order the page, and are not selected. -/
theorem distinctOrders_order_not_selected :
    (distinctOrders.statement orderRegistry .sqlServer .rows).map (·.sql)
      = .ok ("SELECT DISTINCT [t0].[id] AS [id], [t0].[sum] AS [total] FROM [order] AS [t0] "
        ++ "CROSS JOIN [line] AS [t1] "
        ++ "ORDER BY [t0].[id] ASC, [t1].[order_id] ASC, [t1].[item_id] ASC "
        ++ "OFFSET 0 ROWS FETCH NEXT 5 ROWS ONLY") ∧
    ¬∀ (q : Query) (vs : List Value) (x : Select),
      (q.toSelect orderRegistry).run 0 = (vs, .ok x) → x.distinct = true →
        q.pagination.isSome = true → q.orders = [] → x.SelectsOrder (Param.number vs) := by
  refine ⟨by decide +kernel, fun selects => ?_⟩
  have line := selects distinctOrders _ _ rfl rfl rfl rfl ⟨.column "t1" "order_id", true⟩
    (List.mem_cons_of_mem _ List.mem_cons_self)
  exact absurd line (by decide)

end RecordQuery
