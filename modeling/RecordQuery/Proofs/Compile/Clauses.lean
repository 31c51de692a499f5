import RecordQuery.Proofs.Compile.Scoping

/-!
# The core of a SELECT and its order

The clauses before ORDER BY do not depend on the order and the page of a query. `Query.coreSelect`
lowers them alone, and a SELECT is its core with the order and the window of its query
(`Query.toSelect_ok_iff`). There are order keys wherever there is a window
(`Query.orderKeys_eq_nil_iff`).
-/

namespace RecordQuery

open Sql

namespace Lowering

theorem ofExcept_ok_bind (a : α) (f : α → Lowering β) : (ofExcept (.ok a) >>= f) = f a :=
  pure_bind a f

theorem run_ofExcept_bind_ok_iff {x : Except Error α} {f : α → Lowering β} {n : Nat}
    {vs : List Value} {b : β} :
    (ofExcept x >>= f).run n = (vs, .ok b) ↔ ∃ a, x = .ok a ∧ (f a).run n = (vs, .ok b) := by
  rw [run_bind_ok_iff]
  constructor
  · rintro ⟨us, a, ws, ha, hf, rfl⟩
    obtain ⟨rfl, rfl⟩ := Prod.mk.inj ha
    exact ⟨a, rfl, hf⟩
  · rintro ⟨a, rfl, hf⟩
    exact ⟨[], a, vs, rfl, hf, rfl⟩

theorem run_map_ok_iff {m : Lowering α} {f : α → β} {n : Nat} {vs : List Value} {b : β} :
    (m >>= fun a => pure (f a)).run n = (vs, .ok b) ↔ ∃ a, m.run n = (vs, .ok a) ∧ b = f a := by
  rw [run_bind_ok_iff]
  constructor
  · rintro ⟨us, a, ws, ha, hf, rfl⟩
    cases hf
    exact ⟨a, by rw [ha, List.append_nil], rfl⟩
  · rintro ⟨a, ha, rfl⟩
    exact ⟨vs, a, [], ha, rfl, by rw [List.append_nil]⟩

theorem statement_ok_iff {m : Lowering α} {pieces : α → List Piece} {s : Statement} :
    m.statement pieces = .ok s ↔ ∃ vs a, m.run 0 = (vs, .ok a) ∧ s = .ofPieces (pieces a) vs := by
  unfold statement
  rcases m.run 0 with ⟨vs, _ | a⟩
  · simp [Except.map]
  · constructor
    · rintro h
      cases h
      exact ⟨vs, a, rfl, rfl⟩
    · rintro ⟨_, _, h, rfl⟩
      cases h
      rfl

theorem statement_error_iff {m : Lowering α} {pieces : α → List Piece} {e : Error} :
    m.statement pieces = .error e ↔ (m.run 0).2 = .error e := by
  unfold statement
  rcases m.run 0 with ⟨vs, _ | a⟩ <;> simp [Except.map]

theorem run_map (m : Lowering α) (f : α → β) (n : Nat) :
    (f <$> m).run n = ((m.run n).1, (m.run n).2.map f) := by
  rw [map_eq_pure_bind]
  rcases h : m.run n with ⟨vs, _ | a⟩
  · rw [run_bind_of_error h]
    rfl
  · rw [run_bind_of_ok h, run_pure, List.append_nil]
    rfl

theorem run_fmap_ok_iff {m : Lowering α} {f : α → β} {n : Nat} {vs : List Value} {b : β} :
    (f <$> m).run n = (vs, .ok b) ↔ ∃ a, m.run n = (vs, .ok a) ∧ b = f a := by
  rw [map_eq_pure_bind]
  exact run_map_ok_iff

/-- Two binds of one result are a map apart if what follows it is. -/
theorem ofExcept_bind_eq_map {x : Except Error α} {k : α → Lowering β} {k' : α → Lowering γ}
    {f : β → γ} (h : ∀ a, x = .ok a → k' a = f <$> k a) :
    (ofExcept x >>= k') = f <$> (ofExcept x >>= k) := by
  cases x with
  | error e => rfl
  | ok a => rw [ofExcept_ok_bind, ofExcept_ok_bind, h a rfl]

theorem statement_fmap (m : Lowering α) (f : α → β) (pieces : β → List Piece) :
    (f <$> m).statement pieces = m.statement fun a => pieces (f a) := by
  rw [statement, statement, run_map]
  rcases m.run 0 with ⟨vs, _ | a⟩ <;> rfl

theorem Yields.length_mapM (k : α → Lowering β) (xs : List α) :
    Yields (xs.mapM k) fun ys => ys.length = xs.length := by
  induction xs with
  | nil => exact .pure rfl
  | cons x xs ih =>
    rw [List.mapM_cons]
    refine Yields.bind (P := fun _ => True) (fun _ _ _ _ => trivial) fun y _ => ?_
    refine ih.map fun ys hys => ?_
    rw [List.length_cons, List.length_cons, hys]

end Lowering

open Lowering

namespace Query

/-- The SELECT without order and window. -/
def coreSelect (r : Registry) (s : Scope) (q : Query) : Lowering Select := do
  let columns ← outputs s q
  let base ← ofExcept s.base
  let joins ← joinClauses r s 0 q.joins
  let filters ← q.filters.mapM (·.toCondition s)
  let group ← q.groupExprs.mapM (·.toSelector s)
  return {
    distinct := q.distinct, columns, table := base.metadata.table, label := base.label
    joins, filters, group, orders := [], window := none }

theorem toSelect_eq (r : Registry) (q : Query) :
    q.toSelect r = do
      ofExcept q.check
      let window ← ofExcept q.window
      let scope ← ofExcept (Scope.ofSources r q.sources)
      let core ← q.coreSelect r scope
      let orders ← orderKeys scope q window
      return { core with orders, window } := by
  simp [toSelect, coreSelect]

/-- A SELECT is its core with the order and the window of its query; the values of the core are
bound first. -/
theorem toSelect_ok_iff {r : Registry} {q : Query} {n : Nat} {vs : List Value} {x : Select} :
    (q.toSelect r).run n = (vs, .ok x) ↔
      ∃ window scope us core ws orders,
        q.check = .ok () ∧ q.window = .ok window ∧ Scope.ofSources r q.sources = .ok scope ∧
        (q.coreSelect r scope).run n = (us, .ok core) ∧
        (orderKeys scope q window).run (n + us.length) = (ws, .ok orders) ∧
        vs = us ++ ws ∧ x = { core with orders, window } := by
  rw [toSelect_eq, run_ofExcept_bind_ok_iff]
  constructor
  · rintro ⟨_, hcheck, h⟩
    obtain ⟨window, hwindow, h⟩ := run_ofExcept_bind_ok_iff.mp h
    obtain ⟨scope, hscope, h⟩ := run_ofExcept_bind_ok_iff.mp h
    obtain ⟨us, core, ws, hcore, hlast, rfl⟩ := run_bind_ok_iff.mp h
    obtain ⟨orders, horders, rfl⟩ := run_map_ok_iff.mp hlast
    exact ⟨window, scope, us, core, ws, orders, hcheck, hwindow, hscope, hcore, horders, rfl, rfl⟩
  · rintro ⟨window, scope, us, core, ws, orders, hcheck, hwindow, hscope, hcore, horders, rfl, rfl⟩
    refine ⟨(), hcheck, run_ofExcept_bind_ok_iff.mpr ⟨window, hwindow, ?_⟩⟩
    refine run_ofExcept_bind_ok_iff.mpr ⟨scope, hscope, run_bind_ok_iff.mpr ?_⟩
    exact ⟨us, core, ws, hcore, run_map_ok_iff.mpr ⟨orders, horders, rfl⟩, rfl⟩

/-- What the clauses of a core are lowered from, and the values they bind in their order. -/
theorem coreSelect_ok {r : Registry} {s : Scope} {q : Query} {n : Nat} {us : List Value}
    {core : Select} (h : (q.coreSelect r s).run n = (us, .ok core)) :
    ∃ cs js fs gs base, (outputs s q).run n = (cs, .ok core.columns) ∧ s.base = .ok base ∧
      core.table = base.metadata.table ∧ core.label = base.label ∧ core.distinct = q.distinct ∧
      (joinClauses r s 0 q.joins).run (n + cs.length) = (js, .ok core.joins) ∧
      (q.groupExprs.mapM (Expr.toSelector s)).run (n + cs.length + js.length + fs.length)
        = (gs, .ok core.group) ∧
      us = cs ++ (js ++ (fs ++ gs)) := by
  obtain ⟨cs, columns, us, hcolumns, afterColumns, rfl⟩ := run_bind_ok_iff.mp h
  obtain ⟨base, hbase, afterBase⟩ := run_ofExcept_bind_ok_iff.mp afterColumns
  obtain ⟨js, joins, us, hjoins, afterJoins, rfl⟩ := run_bind_ok_iff.mp afterBase
  obtain ⟨fs, filters, gs, hfilters, afterFilters, rfl⟩ := run_bind_ok_iff.mp afterJoins
  obtain ⟨group, hgroup, rfl⟩ := run_map_ok_iff.mp afterFilters
  exact ⟨cs, js, fs, gs, base, hcolumns, hbase, rfl, rfl, rfl, hjoins, hgroup, rfl⟩

/-! ## Order keys -/

theorem window_isSome {q : Query} {w : Option Window} (h : q.window = .ok w) :
    w.isSome = q.pagination.isSome := by
  unfold window at h
  cases hp : q.pagination with
  | none =>
    rw [hp] at h
    cases h
    rfl
  | some page =>
    rw [hp] at h
    cases hw : page.window with
    | error e => simp [hw, Except.map] at h
    | ok w =>
      simp only [hw, Except.map] at h
      cases h
      rfl

/-- A projection that can be lowered has items. -/
theorem items_ne_nil_of_outputs {s : Scope} {q : Query} {p : Projection}
    (hp : q.projection = some p) {n : Nat} {vs : List Value} {cs : List OutputColumn}
    (h : (outputs s q).run n = (vs, .ok cs)) : p.items ≠ [] := by
  intro empty
  unfold outputs at h
  rw [hp] at h
  simp [empty] at h

/-- What orders a page of aggregates or of distinct rows is never nothing. -/
theorem figureOrder_ne_nil {q : Query} (hp : ∀ p, q.projection = some p → p.items ≠ [])
    {exprs : List Expr} (h : q.figureOrder? = some exprs) : exprs ≠ [] := by
  unfold figureOrder? at h
  split at h
  · split at h
    · cases h
      simp
    · cases h
    · next p _ hq =>
      simp only at h
      split at h
      · cases h
        simp
      · split at h
        · cases h
          simpa using hp p hq
        · cases h
  · next hg =>
    cases h
    simpa using hg

theorem fallbackOrder_ne_nil (s : Scope) {q : Query}
    (hp : ∀ p, q.projection = some p → p.items ≠ []) :
    Yields (fallbackOrder s q) fun ts => ts ≠ [] := by
  unfold fallbackOrder
  split
  · next exprs hf =>
    intro n vs ts h
    have length := Yields.length_mapM _ _ n vs ts h
    rintro rfl
    exact figureOrder_ne_nil hp hf (List.length_eq_zero_iff.mp length.symm)
  · split
    · exact .fail
    · next hk => exact .pure (by simpa using hk)

/-- There are order keys exactly where the query has some or has a window. -/
theorem orderKeys_eq_nil_iff (s : Scope) {q : Query} (w : Option Window)
    (hp : ∀ p, q.projection = some p → p.items ≠ []) :
    Yields (orderKeys s q w) fun os => os = [] ↔ q.orders = [] ∧ w = none := by
  unfold orderKeys
  split
  · next given =>
    intro n vs os h
    have length := Yields.length_mapM _ _ n vs os h
    have some : q.orders ≠ [] := by simpa using given
    have sorted : os.length = q.orders.length := by
      rw [length, sortedOrders, List.length_mergeSort]
    constructor
    · rintro rfl
      exact absurd (List.length_eq_zero_iff.mp sorted.symm) some
    · exact fun h => absurd h.1 some
  · next given =>
    have none : q.orders = [] := by simpa using given
    split
    · next window =>
      refine (fallbackOrder_ne_nil s hp).map fun ts hts => ?_
      constructor
      · exact fun h => absurd (List.map_eq_nil_iff.mp h) hts
      · exact fun h => by simp [h.2] at window
    · next window =>
      exact .pure (iff_of_true rfl ⟨none, by simpa using window⟩)

theorem toSelect_window_orders (r : Registry) (q : Query) :
    Yields (q.toSelect r) fun x =>
      q.window = .ok x.window ∧ (x.orders = [] ↔ q.orders = [] ∧ x.window = none) := by
  intro n vs x h
  obtain ⟨window, scope, us, core, ws, orders, _, hwindow, _, hcore, horders, _, rfl⟩ :=
    toSelect_ok_iff.mp h
  refine ⟨hwindow, ?_⟩
  obtain ⟨_, _, _, hcolumns, _, _⟩ := run_bind_ok_iff.mp hcore
  have items (p : Projection) (hp : q.projection = some p) := items_ne_nil_of_outputs hp hcolumns
  exact orderKeys_eq_nil_iff scope window items _ _ _ horders

theorem statement_rows_ok_iff {r : Registry} {d : Dialect} {q : Query} {s : Statement} :
    q.statement r d .rows = .ok s ↔
      ∃ vs x, (q.toSelect r).run 0 = (vs, .ok x) ∧ s = .ofPieces (x.pieces d) vs := by
  refine statement_ok_iff.trans ?_
  constructor
  · rintro ⟨vs, _, h, rfl⟩
    obtain ⟨x, hx, rfl⟩ := run_map_ok_iff.mp h
    exact ⟨vs, x, hx, rfl⟩
  · rintro ⟨vs, x, hx, rfl⟩
    exact ⟨vs, ⟨.rows, x⟩, run_map_ok_iff.mpr ⟨x, hx, rfl⟩, rfl⟩

end Query

end RecordQuery
