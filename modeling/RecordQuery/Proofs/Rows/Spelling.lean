import RecordQuery.Proofs.Compile.SelectList
import RecordQuery.Proofs.Query.Substitution
import RecordQuery.Proofs.Rows.Ranges

/-!
# Aggregates of a column by either of its names

An aggregate of a field of the base table is taken of a column of the rows of the query. If the
field is named by its column, the query is projected to that column before duplicates are left out
and the page is cut (`Query.aggregateRetrieval_column`). The values are the same without DISTINCT,
and with it only where none comes twice (`scalar_aggregate_spelling`).
-/

namespace RecordQuery

open Sql Lowering

/-- A name by which a column is found, other than that of its field, is no field. -/
theorem Metadata.column_not_field {m : Metadata} {c : Mapping}
    (found : m.columnFor? c.column = some c) (other : c.field ≠ c.column) :
    c.column ∉ m.columns.map (·.field) := by
  intro mem
  obtain ⟨k, hk, named⟩ := List.mem_map.mp mem
  have known : (m.columns.find? (·.field == c.column)).isSome = true :=
    List.find?_isSome.mpr ⟨k, hk, beq_iff_eq.mpr named⟩
  obtain ⟨c', hc'⟩ := Option.isSome_iff_exists.mp known
  rw [columnFor?, hc', Option.some_or] at found
  cases found
  exact other (by simpa using List.find?_some hc')

namespace Query

/-- A query of plain rows, projected to a value of its base table. -/
def single (q : Query) (name : String) : Query :=
  { q with
    result := scalarShape
    projection := some ⟨scalarShape.name, [⟨scalarAlias, .named name⟩]⟩ }

/-- The order of such a query: a distinct page without an order is ordered by the value. -/
def singleKeys (q : Query) (value : Term) (orders : List OrderKey) : List OrderKey :=
  if q.distinct = true ∧ q.pagination.isSome = true ∧ q.orders = [] then [⟨value, true⟩] else orders

/-- The SELECT of such a query, by that of the rows. -/
def singleColumn (q : Query) (column : String) (x : Select) : Select :=
  { x with
    columns := [⟨.column x.label column, scalarAlias⟩]
    orders := q.singleKeys (.column x.label column) x.orders }

theorem Plain.derived {q : Query} (h : q.Plain) : q.derived.Plain := by
  unfold Query.derived
  split <;> exact ⟨h.projection, h.group, h.aggregates⟩

theorem Plain.select_single {q : Query} (h : q.Plain) (name : String) :
    (q.select scalarShape [(scalarAlias, .named name)]).derived = q.derived.single name := by
  have projects : q.Projects scalarShape [(scalarAlias, .named name)] :=
    ⟨List.forall_mem_singleton.mpr rfl, List.forall_mem_singleton.mpr ⟨_, h.rebase _, rfl⟩⟩
  have item : q.projected (scalarAlias, .named name) = ⟨scalarAlias, .named name⟩ := by
    rw [projected, h.rebase]
    rfl
  have aggregates : ([] : List AggregateColumn) = q.aggregates := h.aggregates.symm
  rw [projects.select, List.map_singleton, item, aggregates]
  unfold Query.derived
  split <;> rfl

section

variable {r : Registry} {q : Query} {m : Metadata} {c : Mapping} {name : String} {s : Scope}

/-- The base table of a query is in sight, with the metadata registered for it. -/
theorem base_of_registered (hm : r.get? q.base.shape = some m)
    (hs : Scope.ofSources r q.sources = .ok s) :
    ∃ t, s.base = .ok t ∧ s.visibleTables.head? = some t ∧ t.metadata = m ∧
      t.label = q.base.label := by
  obtain ⟨t, ht⟩ := exists_base hs
  obtain ⟨stands, visible⟩ := Scope.stands_of_ofSources hs
  have head := Scope.head_of_base ht
  have source : t.source = q.base := stands.base ht
  have registered := stands.registered t (List.mem_of_mem_head? head)
  refine ⟨t, ht, by rw [visible, head], ?_, congrArg Source.label source⟩
  rw [← source] at hm
  exact Option.some.inj (registered.symm.trans hm)

theorem toSelector_named {t : ScopedTable} (visible : s.visibleTables.head? = some t)
    (hc : t.metadata.columnFor? name = some c) :
    (Expr.named name).toSelector s = pure (.column t.label c.column) := by
  have resolved : s.resolve ⟨.current, name⟩ = .ok (.column t.label c.column) := by
    simp [Scope.resolve, Scope.tableFor, visible, hc, bind, Except.bind, pure, Except.pure]
  have lowered : (Expr.named name).toSelector s = .ofExcept (s.resolve ⟨.current, name⟩) := rfl
  rw [lowered, resolved]
  rfl

theorem groupExprs_single (h : q.Plain) : (q.single name).groupExprs = [] := by
  simp [groupExprs, single, h.group, Expr.named, Expr.containsAggregate]

theorem orderKeys_single (h : q.Plain) {w : Option Window} (hw : q.window = .ok w)
    (hk : keyTerms s ≠ []) {value : Term} (hv : (Expr.named name).toSelector s = pure value) :
    orderKeys s (q.single name) w = q.singleKeys value <$> orderKeys s q w := by
  have windowed := window_isSome hw
  have keys : fallbackOrder s q = pure (keyTerms s) := by
    simp [fallbackOrder, figureOrder?, groupExprs_eq h.projection, h.group, h.aggregates,
      h.projection, hk]
  have figures : (q.single name).figureOrder?
      = if q.distinct then some [.named name] else none := by
    rw [figureOrder?, groupExprs_single h]
    simp [single, h.aggregates, Expr.named, Expr.containsAggregate]
  have same : (q.single name).orders = q.orders ∧
      (q.single name).sortedOrders = q.sortedOrders := ⟨rfl, rfl⟩
  by_cases unordered : q.orders = []
  case neg =>
    have kept : q.singleKeys value = id := by
      funext orders
      simp [singleKeys, unordered]
    simp [orderKeys, same, unordered, kept]
  cases paged : q.pagination.isSome with
  | false => simp [orderKeys, same, unordered, windowed, paged, singleKeys]
  | true =>
    cases distinct : q.distinct with
    | true =>
      have alone : fallbackOrder s (q.single name) = pure [value] := by
        simp [fallbackOrder, figures, distinct, hv]
      simp [orderKeys, same, unordered, windowed, paged, keys, alone, singleKeys, distinct]
    | false =>
      have tables : fallbackOrder s (q.single name) = pure (keyTerms s) := by
        simp [fallbackOrder, figures, distinct, hk]
      simp [orderKeys, same, unordered, windowed, paged, keys, tables, singleKeys, distinct]

theorem toSelect_single (h : q.Plain) (hm : r.get? q.base.shape = some m)
    (hc : m.columnFor? name = some c) :
    (q.single name).toSelect r = q.singleColumn c.column <$> q.toSelect r := by
  rw [toSelect_eq, toSelect_eq]
  refine ofExcept_bind_eq_map fun _ _ => ofExcept_bind_eq_map fun w hw =>
    ofExcept_bind_eq_map fun s hs => ?_
  obtain ⟨t, base, visible, rfl, _⟩ := base_of_registered hm hs
  have value := toSelector_named visible hc
  have columns : outputs s (q.single name) = pure [⟨.column t.label c.column, scalarAlias⟩] := by
    simp [outputs, single, projectedColumns, value]
  have table : outputs s q = pure (tableColumns t) := by
    rw [outputs, h.projection]
    simp [isGrouped, h.group, h.aggregates, base, Except.map]
    rfl
  have ungrouped : q.groupExprs = [] := by rw [groupExprs_eq h.projection, h.group]; rfl
  have order := orderKeys_single h hw (keyTerms_ne_nil hs) value
  rw [coreSelect, coreSelect, columns, table, groupExprs_single h, ungrouped, base, order]
  simp only [pure_bind, ofExcept_ok_bind, bind_assoc, map_bind, map_pure, bind_map_left]
  rfl

/-! ## The two statements -/

theorem Plain.outputColumns (h : q.Plain) (hm : r.get? q.base.shape = some m) :
    q.outputColumns r = .ok (m.columns.map (·.field)) := by
  simp [Query.outputColumns, h.projection, isGrouped, h.group, h.aggregates,
    Registry.get_eq_ok_iff.mpr hm, Except.map]

/-- An aggregate of a field is of the rows of the query. -/
theorem aggregateRetrieval_field (h : q.Plain) (hm : r.get? q.base.shape = some m)
    (hc : c ∈ m.columns) (f : AggregateFunction) :
    q.retrieval r (.aggregate f (.named c.field))
      = (⟨.aggregate f c.field, ·⟩) <$> q.derived.toSelect r := by
  have named : q.outputColumn? r (.named c.field) = .ok (some c.field) := by
    have found : (m.columns.map (·.field)).find? (· == c.field) = some c.field := by
      have known : ((m.columns.map (·.field)).find? (· == c.field)).isSome = true :=
        List.find?_isSome.mpr ⟨c.field, List.mem_map_of_mem hc, beq_self_eq_true _⟩
      obtain ⟨name, hname⟩ := Option.isSome_iff_exists.mp known
      have same : name = c.field := by simpa using List.find?_some hname
      rw [hname, same]
    rw [Expr.named, outputColumn?, h.outputColumns hm, Except.map, found]
  rw [retrieval, aggregateRetrieval, named, ofExcept_ok_bind]
  exact (map_eq_pure_bind _ _).symm

/-- An aggregate of a field by the name of its column is of the query projected to it. -/
theorem aggregateRetrieval_column (h : q.Plain) (hm : r.get? q.base.shape = some m)
    (found : m.columnFor? c.column = some c) (other : c.field ≠ c.column)
    (f : AggregateFunction) :
    q.retrieval r (.aggregate f (.named c.column))
      = (fun x => ⟨.aggregate f scalarAlias, q.derived.singleColumn c.column x⟩)
        <$> q.derived.toSelect r := by
  have unnamed : q.outputColumn? r (.named c.column) = .ok none := by
    have absent : (m.columns.map (·.field)).find? (· == c.column) = none := by
      rw [List.find?_eq_none]
      intro name hname same
      exact Metadata.column_not_field found other (beq_iff_eq.mp same ▸ hname)
    rw [Expr.named, outputColumn?, h.outputColumns hm, Except.map, absent]
  have base : r.get? q.derived.base.shape = some m := by rwa [base_derived]
  rw [retrieval, aggregateRetrieval, unnamed, ofExcept_ok_bind]
  simp only [h.select_single, toSelect_single h.derived base found, bind_map_left]
  exact (map_eq_pure_bind _ _).symm

/-- The SELECT of plain rows has the columns of its table, and no groups. -/
structure Tabular (q : Query) (m : Metadata) (x : Select) : Prop where
  distinct : x.distinct = q.distinct
  columns : x.columns = m.columns.map fun c => ⟨.column x.label c.column, c.field⟩
  group : x.group = []
  orders : q.pagination.isSome = true → q.orders = [] → ∀ o ∈ x.orders, o.term.isAggregate = false

theorem toSelect_tabular (h : q.Plain) (hm : r.get? q.base.shape = some m) {vs : List Value}
    {x : Select} (hx : (q.toSelect r).run 0 = (vs, .ok x)) : q.Tabular m x := by
  obtain ⟨s, rendered⟩ := toSelect_rendered hx
  have plain : q.isGrouped = false := by simp [isGrouped, h.group, h.aggregates]
  have ungrouped := groupExprs_of_plain h.projection plain
  have figures : q.figureOrder? = none := by
    simp [figureOrder?, ungrouped.2.2, h.aggregates, h.projection]
  obtain ⟨t, ht, columns⟩ := rendered.table h.projection plain
  obtain ⟨t', ht', _, rfl, label⟩ := base_of_registered hm rendered.scope
  obtain rfl : t = t' := Except.ok.inj (ht.symm.trans ht')
  have base : x.label = q.base.label :=
    (List.cons.inj (q.toSelect_scoped r 0 vs x hx).1.labels).1
  refine ⟨rendered.distinct, ?_, rendered.group.nil_iff.mpr ungrouped.2.2, ?_⟩
  · rw [columns, tableColumns, base, label]
  · intro paged unordered o ho
    have keys := (rendered.order paged unordered).identifiers figures
    obtain ⟨src, _, mem⟩ := List.mem_flatMap.mp (keys ▸ List.mem_map_of_mem ho)
    obtain ⟨_, _, _, _, term⟩ := mem_identifiers mem
    rw [term]
    rfl

namespace Tabular

variable {x : Select} {db : Database} {ps : List Param}

theorem apart (h : q.Tabular m x) (sound : m.fault? = none) :
    (x.columns.map (·.label)).Nodup := by
  rw [h.columns, List.map_map]
  exact Metadata.nodup_fields sound

theorem mem (h : q.Tabular m x) (hc : c ∈ m.columns) :
    ⟨.column x.label c.column, c.field⟩ ∈ x.columns := by
  rw [h.columns]
  exact List.mem_map_of_mem hc

/-- Projected to one column, it is of the same groups. -/
theorem groups_single (h : q.Tabular m x) (column : String) :
    (q.singleColumn column x).groups db ps = x.groups db ps := by
  have columns : x.columns.any (·.term.isAggregate) = false := by
    rw [h.columns]
    simp [Term.isAggregate]
  have aggregates : (q.singleColumn column x).aggregates = x.aggregates := by
    rw [Select.aggregates, Select.aggregates, columns, singleColumn, singleKeys]
    split
    · next injected =>
      have orders : x.orders.any (·.term.isAggregate) = false := by
        simpa using h.orders injected.2.1 injected.2.2
      rw [orders]
      rfl
    · rfl
  rw [Select.groups, Select.groups, aggregates]
  rfl

variable {le : List Value → List Value → Prop} {f : AggregateFunction}

/-- Without DISTINCT, the column alone has the values that it has among the others. -/
theorem rangesLike (h : q.Tabular m x) (sound : m.fault? = none) (hc : c ∈ m.columns)
    (all : q.distinct = false) :
    Retrieval.RangesLike db ps le ⟨.aggregate f c.field, x⟩
      ⟨.aggregate f scalarAlias, q.singleColumn c.column x⟩ := by
  intro values
  have among : Retrieval.RangesOver db ps le ⟨.aggregate f c.field, x⟩ values ↔ _ :=
    Select.rangesOver_iff (h.distinct.trans all) (h.apart sound) (h.mem hc)
  have alone : Retrieval.RangesOver db ps le
      ⟨.aggregate f scalarAlias, q.singleColumn c.column x⟩ values ↔ _ :=
    Select.rangesOver_iff (x := q.singleColumn c.column x) (h.distinct.trans all)
      (List.nodup_singleton _) (List.mem_singleton_self _)
  have orders : (q.singleColumn c.column x).orders = x.orders := by
    simp [singleColumn, singleKeys, all]
  rw [h.groups_single, orders] at alone
  exact among.trans alone.symm

/-- With DISTINCT, the column alone has no value twice. -/
theorem nodup_single (h : q.Tabular m x) (distinct : q.distinct = true) {values : Multiset Value}
    (hv : Retrieval.RangesOver db ps le
      ⟨.aggregate f scalarAlias, q.singleColumn c.column x⟩ values) : values.Nodup :=
  Select.nodup_of_rangesOver (x := q.singleColumn c.column x)
    (c := ⟨.column x.label c.column, scalarAlias⟩) (h.distinct.trans distinct) rfl hv

/-- With DISTINCT and all rows shown, the column alone has the values that it has among the others
where none of them comes twice. -/
theorem rangesLike_of_nodup (h : q.Tabular m x) (sound : m.fault? = none) (hc : c ∈ m.columns)
    (distinct : q.distinct = true) (unordered : x.orders = []) (whole : x.window = none)
    (unpaged : q.pagination = none) (refl : ∀ keys, le keys keys)
    (nodup : ∀ values, Retrieval.RangesOver db ps le ⟨.aggregate f c.field, x⟩ values →
      values.Nodup) :
    Retrieval.RangesLike db ps le ⟨.aggregate f c.field, x⟩
      ⟨.aggregate f scalarAlias, q.singleColumn c.column x⟩ := by
  intro values
  have orders : (q.singleColumn c.column x).orders = [] := by
    simp [singleColumn, singleKeys, unpaged, unordered]
  have among (values : Multiset Value) :
      Retrieval.RangesOver db ps le ⟨.aggregate f c.field, x⟩ values ↔ _ :=
    Select.rangesOver_iff_of_unordered unordered whole refl
  have alone : Retrieval.RangesOver db ps le
      ⟨.aggregate f scalarAlias, q.singleColumn c.column x⟩ values ↔ _ :=
    Select.rangesOver_iff_of_unordered orders whole refl
  have once := nodup _ ((among _).mpr rfl)
  have same := (Select.same_values_iff (y := q.singleColumn c.column x)
    (c := ⟨.column x.label c.column, c.field⟩) (d := ⟨.column x.label c.column, scalarAlias⟩)
    (h.groups_single c.column) (h.distinct.trans distinct) (h.apart sound) (h.mem hc) rfl
    rfl).mpr once
  rw [among, alone]
  exact same ▸ Iff.rfl

end Tabular

end

end Query

/-- An aggregate of a field of the base table, over a query of plain rows, by the name of the field
and by that of its column: both fail alike, and by the name of the field it is taken of the rows of
the query. By the name of the column it is taken of the same values where the names are one or the
rows are not DISTINCT. Otherwise it is so only where no value comes twice in the rows, and over the
whole of them wherever none does. -/
theorem scalar_aggregate_spelling {r : Registry} {q : Query} {m : Metadata} {c : Mapping}
    (plain : q.Plain) (registered : r.get? q.base.shape = some m) (declared : c ∈ m.columns)
    (found : m.columnFor? c.column = some c) (f : AggregateFunction) :
    (∀ d e, q.statement r d (.aggregate f (.named c.field)) = .error e ↔
      q.statement r d (.aggregate f (.named c.column)) = .error e) ∧
    ∀ vs x, (q.retrieval r (.aggregate f (.named c.field))).run 0 = (vs, .ok x) →
      (q.derived.toSelect r).run 0 = (vs, .ok x.inner) ∧
      ∃ y, (q.retrieval r (.aggregate f (.named c.column))).run 0 = (vs, .ok y) ∧
        ∀ db le,
          (c.field = c.column ∨ q.distinct = false →
            Retrieval.RangesLike db (Param.number vs) le x y) ∧
          (c.field ≠ c.column → q.distinct = true →
            (Retrieval.RangesLike db (Param.number vs) le x y →
              ∀ values, x.RangesOver db (Param.number vs) le values → values.Nodup) ∧
            (q.pagination = none → (∀ keys, le keys keys) →
              (∀ values, x.RangesOver db (Param.number vs) le values → values.Nodup) →
              Retrieval.RangesLike db (Param.number vs) le x y)) := by
  have sound := Registry.fault?_of_get? registered
  have field := Query.aggregateRetrieval_field plain registered declared f
  by_cases same : c.field = c.column
  · have spelled : Expr.named c.column = .named c.field := by rw [same]
    rw [spelled]
    refine ⟨fun _ _ => Iff.rfl, fun vs x hx => ?_⟩
    obtain ⟨a, ha, rfl⟩ := run_fmap_ok_iff.mp (field ▸ hx)
    exact ⟨ha, _, hx, fun db le => ⟨fun _ _ => Iff.rfl, fun other => absurd same other⟩⟩
  have column := Query.aggregateRetrieval_column plain registered found same f
  refine ⟨fun d e => ?fails, fun vs x hx => ?ranges⟩
  case fails =>
    rw [Query.statement, Query.statement, statement_error_iff, statement_error_iff, field, column,
      run_map, run_map]
    cases ((q.derived.toSelect r).run 0).2 <;> simp [Except.map]
  case ranges =>
    obtain ⟨a, ha, rfl⟩ := run_fmap_ok_iff.mp (field ▸ hx)
    have base : r.get? q.derived.base.shape = some m := by rwa [Query.base_derived]
    have distinct := q.distinct_derived
    have tabular := Query.toSelect_tabular plain.derived base ha
    refine ⟨ha, _, column ▸ run_fmap_ok_iff.mpr ⟨a, ha, rfl⟩, fun db le => ⟨fun all => ?_, ?_⟩⟩
    · exact tabular.rangesLike sound declared (distinct.trans (all.resolve_left same))
    · intro _ marked
      have marked := distinct.trans marked
      refine ⟨fun like values hv => tabular.nodup_single marked ((like values).mp hv), ?_⟩
      intro unpaged refl nodup
      have pages : q.derived.pagination = none := (Query.pagination_derived q).trans unpaged
      obtain ⟨window, orders⟩ := Query.toSelect_window_orders r q.derived 0 vs a ha
      have whole : a.window = none := by simpa [pages] using Query.window_isSome window
      have unordered : a.orders = [] := orders.mpr ⟨Query.orders_derived pages, whole⟩
      exact tabular.rangesLike_of_nodup sound declared marked unordered whole pages refl nodup

/-- Distinct orders; two of those in `orderRows` have one total. -/
def everyOrder : Query := Query.applyAll (.ofShape ⟨"Order", []⟩) [.distinct]

/-- The SELECT of `everyOrder`. -/
def everyOrderSelect : Select where
  distinct := true
  columns := [⟨.column "t0" "id", "id"⟩, ⟨.column "t0" "sum", "total"⟩]
  table := "order"
  label := "t0"
  joins := []
  filters := []
  group := []
  orders := []
  window := none

theorem everyOrder_totals : Retrieval.RangesOver orderRows [] (fun _ _ => True)
    ⟨.aggregate .sum "total", everyOrderSelect⟩ ([.long 7, .long 7] : List Value) :=
  ⟨.sum, "total", _, rfl, ⟨_, .refl _, List.pairwise_of_forall fun _ _ => trivial, rfl⟩, rfl⟩

theorem scalar_aggregate_spelling_everyOrder :
    ∃ x y, (everyOrder.retrieval orderRegistry (.aggregate .sum (.named "total"))).run 0
        = ([], .ok x) ∧
      (everyOrder.retrieval orderRegistry (.aggregate .sum (.named "sum"))).run 0 = ([], .ok y) ∧
      ¬Retrieval.RangesLike orderRows [] (fun _ _ => True) x y := by
  obtain ⟨_, ranges⟩ := scalar_aggregate_spelling (r := orderRegistry) (q := everyOrder)
    (c := ⟨"total", "sum"⟩) ⟨rfl, rfl, rfl⟩ rfl (List.mem_cons_of_mem _ List.mem_cons_self) rfl .sum
  obtain ⟨_, y, hy, like⟩ := ranges [] ⟨.aggregate .sum "total", everyOrderSelect⟩ rfl
  obtain ⟨_, apart⟩ := like orderRows fun _ _ => True
  refine ⟨_, y, rfl, hy, fun same => ?_⟩
  have once := (apart (by decide) rfl).1 same _ everyOrder_totals
  exact absurd (Multiset.coe_nodup.mp once) (by decide)

/-- Both are sums of the totals of distinct orders, of 7 and 7 and of 7 alone. -/
theorem everyOrder_spelled_apart :
    (everyOrder.statement orderRegistry .sqlite (.aggregate .sum (.named "total"))).map (·.sql)
      = .ok ("SELECT COALESCE(SUM([sub].[total]), 0) AS [value] FROM (SELECT DISTINCT "
        ++ "[t0].[id] AS [id], [t0].[sum] AS [total] FROM [order] AS [t0]) AS [sub]") ∧
    (everyOrder.statement orderRegistry .sqlite (.aggregate .sum (.named "sum"))).map (·.sql)
      = .ok ("SELECT COALESCE(SUM([sub].[value]), 0) AS [value] FROM (SELECT DISTINCT "
        ++ "[t0].[sum] AS [value] FROM [order] AS [t0]) AS [sub]") ∧
    ¬∀ (q : Query) (m : Metadata) (c : Mapping) (f : AggregateFunction) (x y : Retrieval),
      q.Plain → orderRegistry.get? q.base.shape = some m → c ∈ m.columns →
        m.columnFor? c.column = some c →
        (q.retrieval orderRegistry (.aggregate f (.named c.field))).run 0 = ([], .ok x) →
        (q.retrieval orderRegistry (.aggregate f (.named c.column))).run 0 = ([], .ok y) →
        Retrieval.RangesLike orderRows [] (fun _ _ => True) x y := by
  refine ⟨by decide +kernel, by decide +kernel, fun like => ?_⟩
  have same := like everyOrder _ ⟨"total", "sum"⟩ .sum
    ⟨.aggregate .sum "total", everyOrderSelect⟩ _ ⟨rfl, rfl, rfl⟩ rfl
    (List.mem_cons_of_mem _ List.mem_cons_self) rfl rfl rfl
  have once := Select.nodup_of_rangesOver (c := ⟨.column "t0" "sum", scalarAlias⟩) rfl rfl
    ((same _).mp everyOrder_totals)
  exact absurd (Multiset.coe_nodup.mp once) (by decide)

end RecordQuery
