import RecordQuery.Proofs.Compile.Compared
import RecordQuery.Proofs.Compile.Supported
import RecordQuery.Proofs.Query.Orders
import RecordQuery.Proofs.Rows.Injected

/-!
# The order clause

The order clause of a query lists the keys of the calls that order since the order was last cleared,
each as what it stood for when it was given (`ordered_by_calls`). A page without such calls has an
order of its own.
-/

namespace RecordQuery

open Sql Lowering

/-- What is found in the first list has its like at the same place of the second. -/
theorem getElem?_of_forall₂ {R : α → β → Prop} {xs : List α} {ys : List β}
    (h : List.Forall₂ R xs ys) {i : Nat} {x : α} (hx : xs[i]? = some x) :
    ∃ y, ys[i]? = some y ∧ R x y := by
  induction h generalizing i with
  | nil => cases hx
  | cons first _ ih =>
    cases i with
    | zero =>
      cases hx
      exact ⟨_, rfl, first⟩
    | succ i => exact ih hx

/-- The key of an order clause stands for what an order does, in its direction. -/
structure Sql.OrderKey.Renders (s : Scope) (ps : List Param) (o : Order) (k : OrderKey) :
    Prop where
  direction : k.ascending = o.ascending
  value : o.key.quantity? s = some (k.term.quantity ps)

namespace Query

theorem orderKeys_renders (s : Scope) {q : Query} (w : Option Window) (given : q.orders ≠ []) :
    Ensures (orderKeys s q w) fun ps keys =>
      List.Forall₂ (OrderKey.Renders s ps) q.sortedOrders keys := by
  have each (o : Order) : Ensures (do return (⟨← o.key.toSelector s, o.ascending⟩ : OrderKey))
      fun ps k => OrderKey.Renders s ps o k := by
    have lowered : Ensures (o.key.toSelector s) fun ps t =>
        o.key.quantity? s = some (t.quantity ps) :=
      fun n vs t h ps hb => Expr.toSelector_quantity h hb
    exact lowered.map fun ps t value => ⟨rfl, value⟩
  have some : q.orders.isEmpty = false := by simpa using given
  rw [orderKeys, some]
  exact .mapM_forall₂ each q.sortedOrders

/-- The order clause of a SELECT: the keys of its query, or those of a page without any. -/
structure OrderedIn (r : Registry) (q : Query) (s : Scope) (ps : List Param)
    (x : Select) : Prop where
  scope : Scope.ofSources r q.sources = .ok s
  window : q.window = .ok x.window
  given : q.orders ≠ [] → List.Forall₂ (OrderKey.Renders s ps) q.sortedOrders x.orders
  none : q.orders = [] → x.window = none → x.orders = []
  page : q.orders = [] → x.window.isSome = true → q.PageOrder r s ps x.orders

theorem toSelect_orderedIn {r : Registry} {q : Query} {vs : List Value} {x : Select}
    (h : (q.toSelect r).run 0 = (vs, .ok x)) : ∃ s, q.OrderedIn r s (Param.number vs) x := by
  have keys := (q.toSelect_window_orders r 0 vs x h).2
  obtain ⟨window, s, us, core, ws, orders, _, hwindow, hs, hcore, horders, rfl, rfl⟩ :=
    toSelect_ok_iff.mp h
  have binds : Binds (Param.number (us ++ ws)) 0 (us ++ ws) := by
    simpa using Binds.number [] (us ++ ws) []
  refine ⟨s, hs, hwindow, fun given => ?_, fun none whole => keys.mpr ⟨none, whole⟩,
    fun none windowed => pageOrder_of_orderKeys hs windowed none horders binds.right⟩
  exact orderKeys_renders s window given _ _ _ horders _ binds.right

/-! ## Calls -/

/-- The keys are those of the calls that order, one for each in their order. The key of a call
stands for what its expression did when the call was made. -/
structure KeysOf (q : Query) (calls : List Step) (s : Scope) (ps : List Param)
    (keys : List OrderKey) : Prop where
  length : keys.length = (calls.filterMap Step.orderKey?).length
  key : ∀ before st call, before ++ [st] <+: calls → st.orderKey? = some call →
    ∃ k e, keys[(before.filterMap Step.orderKey?).length]? = some k ∧ k.ascending = call.2 ∧
      (q.applyAll before).rebase call.1 = .ok e ∧ e.quantity? s = some (k.term.quantity ps)

/-- The key that a call orders by stands for something where no error is met. -/
theorem rebase_of_orderKey {q : Query} {st : Step} {call : Expr × Bool}
    (hcall : st.orderKey? = some call) (faultless : q.fault? st = none) :
    ∃ e, q.rebase call.1 = .ok e ∧ (q.ordered call).key = e := by
  have resolved : q.unresolved? call.1 = none := by
    cases st with
    | orderBy key ascending =>
      cases hcall
      simpa [fault?, Step.exprs] using faultless
    | sort k =>
      cases hcall
      simpa [fault?, Step.exprs] using faultless
    | _ => cases hcall
  obtain ⟨e, he⟩ := rebase_ok_of_resolved resolved
  exact ⟨e, he, by rw [ordered, rebaseOrDefer_of_ok he]⟩

/-- The keys of a query are those of its calls since the order was last cleared. -/
theorem keysOf_of_renders {shape : Shape} {steps : List Step} {s : Scope} {ps : List Param}
    {keys : List OrderKey} (undeferred : ((ofShape shape).applyAll steps).deferred = none)
    (renders : List.Forall₂ (OrderKey.Renders s ps) ((ofShape shape).applyAll steps).orders keys) :
    ((ofShape shape).applyAll (untilCleared steps)).KeysOf (sinceCleared steps) s ps keys where
  length := renders.length_eq.symm.trans (length_orders shape steps)
  key before st call split hcall := by
    obtain ⟨k, at_call, key⟩ :=
      getElem?_of_forall₂ renders (orders_getElem? shape steps split hcall)
    rw [applyAll_sinceCleared] at undeferred
    have faultless := (faultless_of_undeferred undeferred).2 before st split
    obtain ⟨e, he, stands⟩ := rebase_of_orderKey hcall faultless
    exact ⟨k, e, at_call, key.direction, he, stands ▸ key.value⟩

end Query

open Query

/-- The text ends with the order clause of these keys, if there are any, and the paging clause of a
window, and has no other. -/
def EndsWith (d : Dialect) (sql : String) (keys : List OrderKey) (w : Option Window) : Prop :=
  ∃ core, Endless core ∧ tokens sql = core ++ orderTokens keys ++ w.elim [] (pagingTokens d)

/-- The order clause of the rows of a query has the keys of the calls that order since the order was
last cleared. Where no such call is made there is none, except that a page has the order that pages
without one are given. The priorities, by which the keys are sorted, stay below the number of
calls. -/
theorem ordered_by_calls {s : Shape} {steps : List Step} {r : Registry} {d : Dialect}
    {st : Statement} (h : ((ofShape s).applyAll steps).statement r d .rows = .ok st) :
    ∃ sc keys w, Scope.ofSources r ((ofShape s).applyAll steps).sources = .ok sc ∧
      ((ofShape s).applyAll steps).window = .ok w ∧ EndsWith d st.sql keys w ∧
      ((sinceCleared steps).filterMap Step.orderKey? ≠ [] ∨ w = none →
        ((ofShape s).applyAll (untilCleared steps)).KeysOf (sinceCleared steps) sc st.params keys) ∧
      ((sinceCleared steps).filterMap Step.orderKey? = [] → w.isSome = true →
        ((ofShape s).applyAll steps).PageOrder r sc st.params keys) ∧
      ∀ o ∈ ((ofShape s).applyAll steps).orders, o.priority < steps.length := by
  obtain ⟨vs, x, hx, rfl⟩ := statement_rows_ok_iff.mp h
  obtain ⟨sc, order⟩ := toSelect_orderedIn hx
  obtain ⟨core, endless, text⟩ := x.ending d
  have numbered : Numbered ((ofShape s).applyAll steps).orders :=
    numbered_applyAll (q := ofShape s) rfl steps
  have supported := (((ofShape s).applyAll steps).toSelect_succeedsIff r 0).mp ⟨vs, _, hx⟩
  have unordered : ((ofShape s).applyAll steps).orders = [] ↔
      (sinceCleared steps).filterMap Step.orderKey? = [] := by
    rw [← List.length_eq_zero_iff, length_orders, List.length_eq_zero_iff]
  refine ⟨sc, x.orders, x.window, order.scope, order.window, ⟨core, endless, text⟩,
    fun plain => keysOf_of_renders supported.undeferred ?_,
    fun none => order.page (unordered.mpr none),
    fun o ho => (numbered.lt_nextPriority o ho).trans_le (nextPriority_le s steps)⟩
  by_cases none : ((ofShape s).applyAll steps).orders = []
  · have whole := plain.resolve_left fun some => some (unordered.mp none)
    rw [order.none none whole, none]
    exact .nil
  · have given := order.given none
    rwa [sortedOrders_of_numbered numbered] at given

/-- Orders in the order of their totals and then of their keys, which are called totals by then. -/
def reordered : List Step := [
  .orderBy (.named "id") true,
  .clearOrdering,
  .sort ⟨"total", .descending⟩,
  .select ⟨"Total", [{ name := "total", type := .required .any }]⟩ [("total", .named "id")],
  .orderBy (.named "total") true]

theorem toSelect_reordered :
    (((ofShape ⟨"Order", []⟩).applyAll reordered).toSelect orderRegistry).run 0 = ([], .ok {
      distinct := false, columns := [⟨.column "t0" "id", "total"⟩], table := "order", label := "t0"
      joins := [], filters := [], group := []
      orders := [⟨.column "t0" "sum", false⟩, ⟨.column "t0" "id", true⟩], window := none }) := by
  refine toSelect_ok_iff.mpr ⟨none, _, [], _, [],
    [⟨.column "t0" "sum", false⟩, ⟨.column "t0" "id", true⟩], rfl, rfl, rfl, rfl, ?_, rfl, rfl⟩
  rw [orderKeys, sortedOrders_of_numbered (by rfl)]
  rfl

theorem ordered_by_calls_reordered :
    ((ofShape ⟨"Order", []⟩).applyAll reordered).statement orderRegistry .sqlite .rows
      = .ok ⟨"SELECT [t0].[id] AS [total] FROM [order] AS [t0] " ++
        "ORDER BY [t0].[sum] DESC, [t0].[id] ASC", []⟩ ∧
    ∃ sc keys, EndsWith .sqlite ("SELECT [t0].[id] AS [total] FROM [order] AS [t0] " ++
        "ORDER BY [t0].[sum] DESC, [t0].[id] ASC") keys none ∧
      keys.length = 2 ∧ ∃ k, keys[1]? = some k ∧ k.ascending = true ∧
        (Expr.named "id").quantity? sc = some (k.term.quantity []) := by
  have run : ((ofShape ⟨"Order", []⟩).applyAll reordered).statement orderRegistry .sqlite .rows
      = .ok _ := statement_rows_ok_iff.mpr ⟨_, _, toSelect_reordered, rfl⟩
  obtain ⟨sc, keys, w, _, window, text, calls, _, _⟩ := ordered_by_calls run
  cases window
  have made := calls (.inr rfl)
  obtain ⟨k, e, at_last, direction, rebased, value⟩ :=
    made.key [_, _] _ _ (List.prefix_refl _) rfl
  cases rebased
  exact ⟨run, sc, keys, text, made.length, k, at_last, direction, value⟩

/-- The first orders, in the order of their keys. -/
def firstOrders : Statement :=
  ⟨"SELECT [t0].[id] AS [id], [t0].[sum] AS [total] FROM [order] AS [t0] " ++
    "ORDER BY [t0].[id] ASC LIMIT 5 OFFSET 0", []⟩

/-- A page has an order clause without any call that orders. -/
theorem firstOrders_ordered_without_calls :
    ((ofShape ⟨"Order", []⟩).applyAll [.take 5]).statement orderRegistry .sqlite .rows
      = .ok firstOrders ∧
    ¬∀ (s : Shape) (steps : List Step) (st : Statement), steps.length < 4294967296 →
      ((ofShape s).applyAll steps).statement orderRegistry .sqlite .rows = .ok st →
      ∃ sc keys w, ((ofShape s).applyAll steps).window = .ok w ∧ EndsWith .sqlite st.sql keys w ∧
        ((ofShape s).applyAll (untilCleared steps)).KeysOf (sinceCleared steps) sc st.params
          keys := by
  have run : ((ofShape ⟨"Order", []⟩).applyAll [.take 5]).statement orderRegistry .sqlite .rows
      = .ok firstOrders := rfl
  refine ⟨run, fun listed => ?_⟩
  obtain ⟨sc, keys, w, window, ⟨core, endless, text⟩, calls⟩ :=
    listed ⟨"Order", []⟩ [.take 5] _ (by decide) run
  cases window
  obtain rfl : keys = [] := List.length_eq_zero_iff.mp calls.length
  have order : .word "ORDER" ∈ tokens firstOrders.sql := by decide
  rw [text, List.append_assoc] at order
  obtain inner | paging := List.mem_append.mp order
  · exact endless.not_order inner
  · revert paging
    decide

end RecordQuery
