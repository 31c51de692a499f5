import RecordQuery.Proofs.Compile.Clauses
import RecordQuery.Proofs.Result
import RecordQuery.Proofs.Rows.Basic

/-!
# The order of a page without one

A page whose query has no order is ordered by its group keys, by its columns where it is distinct,
or by the key columns of all its tables (`Query.figureOrder_spec`, `Query.toSelect_injected`).
Expressions that are lowered twice bind their values twice, so terms are compared by what they stand
for (`Term.quantity`): what the parts of a SELECT stand for is said once (`Query.Rendered`).
-/

namespace RecordQuery

open Sql Lowering

/-! ## What expressions stand for -/

/-- What a field, a constant or an aggregate stands for. -/
def Expr.quantity? (s : Scope) : Expr → Option Quantity
  | field r =>
    match s.resolve r with
    | .ok (.column label name) => some (.column label name)
    | _ => none
  | constant v => some (.constant v.bound)
  | aggregateAll _ => some .countAll
  | aggregate f a => (a.quantity? s).map (.aggregate f)
  | _ => none

def Sql.Quantity.isAggregate : Quantity → Bool
  | countAll => true
  | aggregate _ _ => true
  | _ => false

theorem Sql.Term.isAggregate_quantity (t : Term) (ps : List Param) :
    (t.quantity ps).isAggregate = t.isAggregate := by
  cases t <;> rfl

/-- Only aggregates stand for aggregates. -/
theorem Expr.isAggregate_of_quantity? {s : Scope} {e : Expr} {v : Quantity}
    (h : e.quantity? s = some v) : v.isAggregate = e.containsAggregate := by
  cases e with
  | field r =>
    rw [quantity?] at h
    split at h
    · cases h
      rfl
    · cases h
  | constant v =>
    cases h
    rfl
  | aggregateAll f =>
    cases h
    rfl
  | aggregate f a =>
    obtain ⟨_, _, rfl⟩ := Option.map_eq_some_iff.mp h
    rfl
  | _ => cases h

theorem Expr.isAggregate_eq {s : Scope} {ps : List Param} {e : Expr} {t : Term}
    (h : e.quantity? s = some (t.quantity ps)) : t.isAggregate = e.containsAggregate :=
  (t.isAggregate_quantity ps).symm.trans (isAggregate_of_quantity? h)

/-- The terms stand for what the expressions do. -/
def Means (s : Scope) (ps : List Param) (es : List Expr) (ts : List Term) : Prop :=
  es.map (·.quantity? s) = (ts.map (·.quantity ps)).map some

theorem Means.same {s : Scope} {ps : List Param} {es : List Expr} {ts us : List Term}
    (ht : Means s ps es ts) (hu : Means s ps es us) :
    ts.map (·.quantity ps) = us.map (·.quantity ps) :=
  List.map_inj_right (fun _ _ h => Option.some.inj h) |>.mp (ht.symm.trans hu)

section

variable {s : Scope} {ps : List Param} {n : Nat} {vs : List Value}

theorem Means.cons {e : Expr} {es : List Expr} {t : Term} {ts : List Term}
    (h : e.quantity? s = some (t.quantity ps)) (hs : Means s ps es ts) :
    Means s ps (e :: es) (t :: ts) := by
  unfold Means at hs ⊢
  rw [List.map_cons, List.map_cons, List.map_cons, h, hs]

theorem Means.append {es fs : List Expr} {ts us : List Term} (ht : Means s ps es ts)
    (hu : Means s ps fs us) : Means s ps (es ++ fs) (ts ++ us) := by
  unfold Means at ht hu ⊢
  rw [List.map_append, List.map_append, List.map_append, ht, hu]

theorem Means.length {es : List Expr} {ts : List Term} (h : Means s ps es ts) :
    es.length = ts.length := by
  simpa [Means] using congrArg List.length h

theorem Means.nil_iff {es : List Expr} {ts : List Term} (h : Means s ps es ts) :
    ts = [] ↔ es = [] := by
  rw [← List.length_eq_zero_iff, ← List.length_eq_zero_iff, h.length]

theorem Means.exists_of_mem {e : Expr} {es : List Expr} {ts : List Term} (h : Means s ps es ts)
    (he : e ∈ es) : ∃ t ∈ ts, e.quantity? s = some (t.quantity ps) := by
  have mem : e.quantity? s ∈ (ts.map (·.quantity ps)).map some := h ▸ List.mem_map_of_mem he
  rw [List.map_map] at mem
  obtain ⟨t, ht, value⟩ := List.mem_map.mp mem
  exact ⟨t, ht, value.symm⟩

theorem Expr.toOperand_quantity {e : Expr} {t : Term} (h : (e.toOperand s).run n = (vs, .ok t))
    (hb : Binds ps n vs) : e.quantity? s = some (t.quantity ps) := by
  cases e with
  | field r =>
    have hr := (Prod.mk.inj h).2
    obtain ⟨table, _, c, _, rfl⟩ := Scope.resolve_ok hr
    rw [quantity?, hr]
    rfl
  | constant v =>
    cases h
    rw [quantity?, Term.quantity, hb.one]
  | _ => cases h

theorem Expr.toSelector_quantity {e : Expr} {t : Term} (h : (e.toSelector s).run n = (vs, .ok t))
    (hb : Binds ps n vs) : e.quantity? s = some (t.quantity ps) := by
  unfold toSelector at h
  split at h
  · cases h
    rfl
  · cases h
  · obtain ⟨u, hu, rfl⟩ := run_map_ok_iff.mp h
    rw [quantity?, toOperand_quantity hu hb]
    rfl
  · exact toOperand_quantity h hb

/-- Expressions lowered one after the other into anything that has their terms. -/
theorem means_mapM {α β : Type} (expr : α → Expr) (make : α → Term → β) (term : β → Term)
    (hterm : ∀ a t, term (make a t) = t) {xs : List α} {ys : List β}
    (h : (xs.mapM fun x => do return make x (← (expr x).toSelector s)).run n = (vs, .ok ys))
    (hb : Binds ps n vs) : Means s ps (xs.map expr) (ys.map term) := by
  induction xs generalizing n vs ys with
  | nil =>
    cases h
    rfl
  | cons x xs ih =>
    rw [List.mapM_cons] at h
    obtain ⟨us, y, ws, hx, hlast, rfl⟩ := run_bind_ok_iff.mp h
    obtain ⟨ys, hxs, rfl⟩ := run_map_ok_iff.mp hlast
    obtain ⟨t, ht, rfl⟩ := run_map_ok_iff.mp hx
    rw [List.map_cons, List.map_cons, hterm]
    exact .cons (Expr.toSelector_quantity ht hb.left) (ih hxs hb.right)

theorem means_selectors {es : List Expr} {ts : List Term}
    (h : (es.mapM (Expr.toSelector s)).run n = (vs, .ok ts)) (hb : Binds ps n vs) :
    Means s ps es ts := by
  have same : (es.mapM fun e => do return id (← (id e).toSelector s))
      = es.mapM (Expr.toSelector s) := by simp
  have means := means_mapM id (fun _ => id) id (fun _ _ => rfl) (same ▸ h) hb
  rwa [List.map_id, List.map_id] at means

theorem means_projectedColumns {shape : String} {seen : List String} {items : List ProjectionItem}
    {cs : List OutputColumn}
    (h : (Query.projectedColumns s shape seen items).run n = (vs, .ok cs)) (hb : Binds ps n vs) :
    Means s ps (items.map (·.expr)) (cs.map (·.term)) := by
  induction items generalizing seen n vs cs with
  | nil =>
    cases h
    rfl
  | cons item rest ih =>
    unfold Query.projectedColumns at h
    split at h
    · cases h
    · obtain ⟨us, t, ws, ht, hlast, rfl⟩ := run_bind_ok_iff.mp h
      obtain ⟨cs, hrest, rfl⟩ := run_map_ok_iff.mp hlast
      exact .cons (Expr.toSelector_quantity ht hb.left) (ih hrest hb.right)

namespace Query

/-- What the columns are computed from, if they are not those of the base table. -/
def outputExprs (q : Query) : List Expr :=
  match q.projection with
  | some p => p.items.map (·.expr)
  | none => q.group.map (·.expr) ++ q.aggregates.map (·.toExpr)

theorem means_outputs {q : Query} {cs : List OutputColumn}
    (hq : q.projection.isSome = true ∨ q.isGrouped = true)
    (h : (outputs s q).run n = (vs, .ok cs)) (hb : Binds ps n vs) :
    Means s ps q.outputExprs (cs.map (·.term)) := by
  unfold outputs at h
  unfold outputExprs
  cases hp : q.projection with
  | some p =>
    simp only [hp] at h ⊢
    split at h
    · cases h
    · exact means_projectedColumns h hb
  | none =>
    have grouped : q.isGrouped = true := by simpa [hp] using hq
    simp only [hp, grouped, if_true] at h ⊢
    obtain ⟨us, keys, ws, hkeys, hlast, rfl⟩ := run_bind_ok_iff.mp h
    obtain ⟨aggregates, haggregates, rfl⟩ := run_map_ok_iff.mp hlast
    rw [List.map_append]
    refine .append (means_mapM _ _ _ ?_ hkeys hb.left) (means_mapM _ _ _ ?_ haggregates hb.right)
    · exact fun _ _ => rfl
    · exact fun _ _ => rfl

theorem outputExprs_projected {q : Query} {p : Projection} (h : q.projection = some p) :
    q.outputExprs = p.items.map (·.expr) := by
  rw [outputExprs, h]

theorem outputExprs_unprojected {q : Query} (h : q.projection = none) :
    q.outputExprs = q.group.map (·.expr) ++ q.aggregates.map (·.toExpr) := by
  rw [outputExprs, h]

theorem containsAggregate_toExpr (a : AggregateColumn) : a.toExpr.containsAggregate = true := by
  rw [AggregateColumn.toExpr]
  cases a.selector <;> rfl

/-- What orders a page without an order: the group keys, an aggregate, an aggregate in a projection,
what a distinct projection is of, or nothing but the tables. -/
inductive FigureOrder (q : Query) : Option (List Expr) → Prop
  | groupKeys (group : q.groupExprs ≠ []) : FigureOrder q (some q.groupExprs)
  | aggregate (a : AggregateColumn) (group : q.groupExprs = []) (first : a ∈ q.aggregates.head?) :
      FigureOrder q (some [a.toExpr])
  | item (e : Expr) (group : q.groupExprs = []) (aggregates : q.aggregates = [])
      (projected : q.projection.isSome = true) (selected : e ∈ q.outputExprs)
      (aggregate : e.containsAggregate = true) : FigureOrder q (some [e])
  | items (group : q.groupExprs = []) (aggregates : q.aggregates = [])
      (projected : q.projection.isSome = true) (distinct : q.distinct = true) :
      FigureOrder q (some q.outputExprs)
  | tables (group : q.groupExprs = []) (aggregates : q.aggregates = [])
      (plain : ¬(q.distinct = true ∧ q.projection.isSome = true)) : FigureOrder q none

theorem figureOrder_spec (q : Query) : q.FigureOrder q.figureOrder? := by
  unfold figureOrder?
  by_cases hg : q.groupExprs = []
  case neg =>
    rw [if_neg (by simpa using hg)]
    exact .groupKeys hg
  rw [if_pos (by simpa using hg)]
  cases ha : q.aggregates with
  | cons a as => exact .aggregate a hg (by rw [ha]; rfl)
  | nil =>
    cases hp : q.projection with
    | none => exact .tables hg ha (by simp [hp])
    | some p =>
      have projected : q.projection.isSome = true := by rw [hp]; rfl
      simp only [List.head?_nil, ← outputExprs_projected hp]
      cases hf : q.outputExprs.find? (·.containsAggregate) with
      | some e =>
        exact .item e hg ha projected (List.mem_of_find?_eq_some hf) (List.find?_some hf)
      | none =>
        cases hd : q.distinct with
        | true => exact .items hg ha projected hd
        | false => exact .tables hg ha (by simp [hd])

end Query

end

/-- The columns that tell the rows of a source apart. -/
def Registry.identifiers (r : Registry) (s : Source) : List Term :=
  ((r.get? s.shape).elim [] Metadata.fallbackOrder).map fun c => .column s.label c.column

theorem Query.keyTerms_eq {r : Registry} {sources : List Source} {s : Scope}
    (hs : Stands r s.tables sources) (hv : s.visibleTables = s.tables) :
    keyTerms s = sources.flatMap r.identifiers := by
  rw [keyTerms, hv, ← hs.same, List.flatMap_map, List.flatMap_def, List.flatMap_def]
  refine congrArg List.flatten (List.map_congr_left fun t ht => ?_)
  rw [Registry.identifiers, ScopedTable.source, hs.registered t ht]
  rfl

/-- What a page without an order is ordered by. -/
inductive Injected (r : Registry) (q : Query) (ps : List Param) (x : Select) : Prop
  | groupKeys (group : x.group ≠ [])
    (keys : x.orders.map (·.term.quantity ps) = x.group.map (·.quantity ps))
  | aggregate (group : x.group = []) (single : x.columns.any (·.term.isAggregate) = true)
  | columns (group : x.group = []) (distinct : x.distinct = true)
    (projected : q.projection.isSome = true)
    (keys : x.orders.map (·.term.quantity ps) = x.columns.map (·.term.quantity ps))
  | identifiers (group : x.group = [])
    (plain : ¬(x.distinct = true ∧ q.projection.isSome = true))
    (keys : x.orders.map (·.term) = q.sources.flatMap r.identifiers)

namespace Injected

variable {r : Registry} {q : Query} {ps : List Param} {x : Select}

theorem group_keys (h : Injected r q ps x) (group : x.group ≠ []) :
    x.orders.map (·.term.quantity ps) = x.group.map (·.quantity ps) := by
  cases h with
  | groupKeys _ keys => exact keys
  | aggregate ungrouped => exact absurd ungrouped group
  | columns ungrouped => exact absurd ungrouped group
  | identifiers ungrouped => exact absurd ungrouped group

theorem distinct_keys (h : Injected r q ps x) (ungrouped : x.group = [])
    (plain : x.columns.any (·.term.isAggregate) = false) (distinct : x.distinct = true)
    (projected : q.projection.isSome = true) :
    x.orders.map (·.term.quantity ps) = x.columns.map (·.term.quantity ps) := by
  cases h with
  | groupKeys group _ => exact absurd ungrouped group
  | aggregate _ single => simp [single] at plain
  | columns _ _ _ keys => exact keys
  | identifiers _ other _ => exact absurd ⟨distinct, projected⟩ other

theorem plain_keys (h : Injected r q ps x) (ungrouped : x.group = [])
    (plain : x.columns.any (·.term.isAggregate) = false)
    (other : ¬(x.distinct = true ∧ q.projection.isSome = true)) :
    x.orders.map (·.term) = q.sources.flatMap r.identifiers := by
  cases h with
  | groupKeys group _ => exact absurd ungrouped group
  | aggregate _ single => simp [single] at plain
  | columns _ distinct projected _ => exact absurd ⟨distinct, projected⟩ other
  | identifiers _ _ keys => exact keys

end Injected

/-- The order that a page without one is given: ascending, of what `figureOrder?` has, or else of
what tells the rows of the tables apart. -/
structure Query.PageOrder (r : Registry) (q : Query) (s : Scope) (ps : List Param)
    (orders : List OrderKey) : Prop where
  ascending : ∀ o ∈ orders, o.ascending = true
  figures : ∀ es, q.figureOrder? = some es → Means s ps es (orders.map (·.term))
  identifiers : q.figureOrder? = none →
    orders.map (·.term) = q.sources.flatMap r.identifiers

theorem Query.pageOrder_of_orderKeys {r : Registry} {q : Query} {s : Scope} {ps : List Param}
    {n : Nat} {vs : List Value} {w : Option Window} {orders : List OrderKey}
    (hs : Scope.ofSources r q.sources = .ok s) (windowed : w.isSome = true)
    (unordered : q.orders = []) (h : (orderKeys s q w).run n = (vs, .ok orders))
    (hb : Binds ps n vs) : q.PageOrder r s ps orders := by
  have injected : orderKeys s q w = do return (← fallbackOrder s q).map fun t => ⟨t, true⟩ := by
    simp [orderKeys, unordered, windowed]
  rw [injected] at h
  obtain ⟨ts, hts, rfl⟩ := run_map_ok_iff.mp h
  have terms : (ts.map fun t => (⟨t, true⟩ : OrderKey)).map (·.term) = ts := by
    rw [List.map_map]
    exact List.map_id ts
  unfold fallbackOrder at hts
  refine ⟨by simp, fun es figures => ?_, fun none => ?_⟩
  · rw [figures] at hts
    rw [terms]
    exact means_selectors hts hb
  · simp only [none] at hts
    split at hts
    · cases hts
    · obtain ⟨stands, visible⟩ := Scope.stands_of_ofSources hs
      have found := Except.ok.inj (Prod.mk.inj hts).2
      exact terms.trans (found.symm.trans (keyTerms_eq stands visible))

/-- What the parts of a SELECT stand for that are lowered from the select list and the group keys of
its query, and its order where the query has a page and no order. -/
structure Query.Rendered (r : Registry) (q : Query) (s : Scope) (ps : List Param) (x : Select) :
    Prop where
  scope : Scope.ofSources r q.sources = .ok s
  distinct : x.distinct = q.distinct
  columns : q.projection.isSome = true ∨ q.isGrouped = true →
    Means s ps q.outputExprs (x.columns.map (·.term))
  table : q.projection = none → q.isGrouped = false →
    ∃ t, s.base = .ok t ∧ x.columns = tableColumns t
  group : Means s ps q.groupExprs x.group
  order : q.pagination.isSome = true → q.orders = [] → q.PageOrder r s ps x.orders

theorem Query.toSelect_rendered {r : Registry} {q : Query} {vs : List Value} {x : Select}
    (h : (q.toSelect r).run 0 = (vs, .ok x)) : ∃ s, q.Rendered r s (Param.number vs) x := by
  obtain ⟨window, s, us, core, ws, orders, _, hwindow, hs, hcore, horders, rfl, rfl⟩ :=
    toSelect_ok_iff.mp h
  have binds : Binds (Param.number (us ++ ws)) 0 (us ++ ws) := by
    simpa using Binds.number [] (us ++ ws) []
  obtain ⟨cs, js, fs, gs, base, hcolumns, _, _, _, hdistinct, _, hgroup, rfl⟩ := coreSelect_ok hcore
  refine ⟨s, hs, hdistinct, fun figures => means_outputs figures hcolumns binds.left.left,
    fun unprojected plain => ?_, means_selectors hgroup binds.left.right.right.right,
    fun paged unordered => ?_⟩
  · unfold outputs at hcolumns
    simp only [unprojected, plain, Bool.false_eq_true, if_false] at hcolumns
    obtain ⟨t, ht, table⟩ := map_ok_iff.mp (Prod.mk.inj hcolumns).2
    exact ⟨t, ht, table⟩
  · have windowed := (window_isSome hwindow).trans paged
    exact pageOrder_of_orderKeys hs windowed unordered horders binds.right

theorem Query.toSelect_injected {r : Registry} {q : Query} {vs : List Value} {x : Select}
    (h : (q.toSelect r).run 0 = (vs, .ok x)) (paged : q.pagination.isSome = true)
    (unordered : q.orders = []) (one : q.projection = none ∨ q.aggregates = []) :
    (∀ o ∈ x.orders, o.ascending = true) ∧ Injected r q (Param.number vs) x := by
  obtain ⟨s, rendered⟩ := toSelect_rendered h
  have page := rendered.order paged unordered
  refine ⟨page.ascending, ?_⟩
  have keys : x.orders.map (·.term.quantity (Param.number vs))
      = (x.orders.map (·.term)).map (·.quantity (Param.number vs)) := by
    rw [List.map_map]
    rfl
  have ungrouped (keyless : q.groupExprs = []) : x.group = [] := rendered.group.nil_iff.mpr keyless
  have single {e : Expr} (figures : q.projection.isSome = true ∨ q.isGrouped = true)
      (he : e ∈ q.outputExprs) (ha : e.containsAggregate = true) :
      x.columns.any (·.term.isAggregate) = true := by
    obtain ⟨t, ht, value⟩ := (rendered.columns figures).exists_of_mem he
    obtain ⟨c, hc, rfl⟩ := List.mem_map.mp ht
    exact List.any_eq_true.mpr ⟨c, hc, (Expr.isAggregate_eq value).trans ha⟩
  have figures := page.figures
  have identifiers := page.identifiers
  have spec := figureOrder_spec q
  generalize q.figureOrder? = order at figures identifiers spec
  cases spec with
  | groupKeys some =>
    refine .groupKeys (fun empty => some (rendered.group.nil_iff.mp empty)) ?_
    exact keys.trans ((figures _ rfl).same rendered.group)
  | aggregate a keyless first =>
    have mem := List.mem_of_mem_head? first
    have unprojected : q.projection = none := one.resolve_right (List.ne_nil_of_mem mem)
    have grouped : q.isGrouped = true := by simp [isGrouped, List.ne_nil_of_mem mem]
    refine .aggregate (ungrouped keyless) (single (.inr grouped) ?_ (containsAggregate_toExpr a))
    rw [outputExprs_unprojected unprojected]
    exact List.mem_append_right _ (List.mem_map_of_mem mem)
  | item e keyless _ projected he ha =>
    exact .aggregate (ungrouped keyless) (single (.inl projected) he ha)
  | items keyless _ projected distinct =>
    have means := (figures _ rfl).same (rendered.columns (.inl projected))
    rw [← keys, List.map_map] at means
    exact .columns (ungrouped keyless) (rendered.distinct.trans distinct) projected means
  | tables keyless _ plain =>
    refine .identifiers (ungrouped keyless) (fun h => plain ?_) (identifiers rfl)
    exact ⟨rendered.distinct.symm.trans h.1, h.2⟩

end RecordQuery
