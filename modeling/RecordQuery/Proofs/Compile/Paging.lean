import RecordQuery.Proofs.Compile.Clauses
import RecordQuery.Proofs.Sql.Ending

/-!
# Paging clauses of statements

Every statement has one SELECT, which is compiled from the query or from a part of it
(`Query.part`). It has a paging clause exactly if that part has pages, with the keys of an order
right before it, and as a derived table it has no order without a paging clause
(`statements_paged`).
-/

namespace RecordQuery

open Sql Lowering

namespace Query

/-- The query that the SELECT of a statement is compiled from. -/
def part (r : Registry) (q : Query) : Terminal → Except Error Query
  | .rows => .ok q
  | .count => .ok q.derived
  | .totalCount => .ok q.allRows
  | .exists => .ok q.derived
  | .aggregate _ selector =>
    (q.outputColumn? r selector).map fun
      | some _ => q.derived
      | none => (q.select scalarShape [(scalarAlias, selector)]).derived

variable {r : Registry} {q p : Query} {t : Terminal}

theorem window_congr {p q : Query} (h : p.pagination = q.pagination) : p.window = q.window := by
  rw [window, window, h]

theorem pagination_derived (q : Query) : q.derived.pagination = q.pagination := by
  unfold derived
  split <;> rfl

theorem orders_derived (h : q.derived.pagination = none) : q.derived.orders = [] := by
  rw [pagination_derived] at h
  rw [derived, h]
  rfl

theorem pagination_select (q : Query) (s : Shape) (items : List (String × Expr)) :
    (q.select s items).pagination = q.pagination := by
  rw [select, deferAll_eq]

/-- Of an aggregate as of a count, the derived table is that of a query with the same pages. -/
theorem exists_derived_of_part (ht : t ≠ .rows) (hc : t ≠ .totalCount) (h : q.part r t = .ok p) :
    ∃ q' : Query, p = q'.derived ∧ q'.pagination = q.pagination := by
  cases t with
  | rows => exact absurd rfl ht
  | totalCount => exact absurd rfl hc
  | count =>
    cases h
    exact ⟨q, rfl, rfl⟩
  | «exists» =>
    cases h
    exact ⟨q, rfl, rfl⟩
  | aggregate f selector =>
    rw [part] at h
    cases hcolumn : q.outputColumn? r selector with
    | error e => simp [hcolumn, Except.map] at h
    | ok column =>
      rw [hcolumn] at h
      cases h
      cases column with
      | none => exact ⟨_, rfl, pagination_select q _ _⟩
      | some column => exact ⟨q, rfl, rfl⟩

/-- A total is of all rows; everything else is of the page asked for. -/
theorem pagination_part (h : q.part r t = .ok p) :
    p.pagination = if t = .totalCount then none else q.pagination := by
  split
  · next ht =>
    subst ht
    cases h
    rfl
  · next hc =>
    by_cases ht : t = .rows
    · subst ht
      cases h
      rfl
    · obtain ⟨q', rfl, same⟩ := exists_derived_of_part ht hc h
      rw [pagination_derived, same]

/-- In a derived table an order is kept for a page only. -/
theorem orders_part (ht : t ≠ .rows) (h : q.part r t = .ok p) (hp : p.pagination = none) :
    p.orders = [] := by
  by_cases hc : t = .totalCount
  · subst hc
    cases h
    rfl
  · obtain ⟨q', rfl, _⟩ := exists_derived_of_part ht hc h
    exact orders_derived hp

theorem retrieval_part {n : Nat} {vs : List Value} {x : Retrieval}
    (h : (q.retrieval r t).run n = (vs, .ok x)) :
    (x.outer = .rows ↔ t = .rows) ∧
      ∃ p, q.part r t = .ok p ∧ (p.toSelect r).run n = (vs, .ok x.inner) := by
  cases t with
  | rows =>
    obtain ⟨s, hs, rfl⟩ := run_map_ok_iff.mp h
    exact ⟨by simp, _, rfl, hs⟩
  | count =>
    obtain ⟨s, hs, rfl⟩ := run_map_ok_iff.mp h
    exact ⟨by simp, _, rfl, hs⟩
  | totalCount =>
    obtain ⟨s, hs, rfl⟩ := run_map_ok_iff.mp h
    exact ⟨by simp, _, rfl, hs⟩
  | «exists» =>
    obtain ⟨s, hs, rfl⟩ := run_map_ok_iff.mp h
    exact ⟨by simp, _, rfl, hs⟩
  | aggregate f selector =>
    rw [retrieval, aggregateRetrieval] at h
    obtain ⟨column, hcolumn, h⟩ := run_ofExcept_bind_ok_iff.mp h
    rw [part, hcolumn]
    cases column with
    | none =>
      obtain ⟨s, hs, rfl⟩ := run_map_ok_iff.mp h
      exact ⟨by simp, (q.select scalarShape [(scalarAlias, selector)]).derived, rfl, hs⟩
    | some column =>
      obtain ⟨s, hs, rfl⟩ := run_map_ok_iff.mp h
      exact ⟨by simp, _, rfl, hs⟩

end Query

/-- The text of a SELECT of a query: its paging clause is there exactly if the query has pages, at
the end of the text and right after an order clause with at least one key, and nothing before that
has words of either clause. -/
structure WellPaged (d : Dialect) (p : Query) (sql : String) : Prop where
  paged : HasPaging sql ↔ p.pagination.isSome = true
  ordered : HasPaging sql → ∃ core keys w, Endless core ∧ keys ≠ [] ∧ p.window = .ok (some w) ∧
    tokens sql = core ++ (.word "ORDER" :: .word "BY" :: keyTokens keys) ++ pagingTokens d w

theorem Query.toSelect_paged (r : Registry) (d : Dialect) (p : Query) :
    Yields (p.toSelect r) fun x => WellPaged d p (sqlOf (x.pieces d)) := by
  intro n vs x h
  obtain ⟨window, orders⟩ := p.toSelect_window_orders r n vs x h
  refine ⟨by rw [x.hasPaging_iff, Query.window_isSome window], fun paging => ?_⟩
  obtain ⟨w, hw⟩ := Option.isSome_iff_exists.mp ((x.hasPaging_iff d).mp paging)
  have keys : x.orders ≠ [] := fun h => by simpa [hw] using (orders.mp h).2
  obtain ⟨core, endless, text⟩ := x.ending d
  refine ⟨core, x.orders, w, endless, keys, hw ▸ window, ?_⟩
  rw [text, hw, orderTokens, if_neg (by simpa using keys), Option.elim]

/-- The window of a query is read off the text of its statement. -/
theorem Query.windowIn_statement {r : Registry} {d : Dialect} {q : Query} {s : Statement}
    (h : q.statement r d .rows = .ok s) : q.window = .ok (windowIn s.sql) := by
  obtain ⟨vs, x, hx, rfl⟩ := Query.statement_rows_ok_iff.mp h
  rw [(q.toSelect_window_orders r 0 vs x hx).1]
  exact congrArg Except.ok (x.windowIn_pieces d).symm

theorem statements_paged {r : Registry} {d : Dialect} {q : Query} {t : Query.Terminal}
    {s : Statement} (h : q.statement r d t = .ok s) :
    ∃ vs x p, (q.retrieval r t).run 0 = (vs, .ok x) ∧ s.sql = sqlOf (x.pieces d) ∧
      q.part r t = .ok p ∧ (p.toSelect r).run 0 = (vs, .ok x.inner) ∧
      p.pagination = (if t = .totalCount then none else q.pagination) ∧
      WellPaged d p (sqlOf (x.inner.pieces d)) ∧
      if t = .rows then s.sql = sqlOf (x.inner.pieces d)
      else
        Encloses (tokens s.sql) (tokens (sqlOf (x.inner.pieces d))) ∧
        (HasOrder (sqlOf (x.inner.pieces d)) → HasPaging (sqlOf (x.inner.pieces d))) := by
  obtain ⟨vs, x, hx, rfl⟩ := Lowering.statement_ok_iff.mp h
  obtain ⟨rows, p, hp, hinner⟩ := Query.retrieval_part hx
  obtain ⟨window, orders⟩ := p.toSelect_window_orders r 0 vs x.inner hinner
  have paged := p.toSelect_paged r d 0 vs x.inner hinner
  have surround := x.surround d
  refine ⟨vs, x, p, hx, rfl, hp, hinner, Query.pagination_part hp, paged, ?_⟩
  by_cases ht : t = .rows
  · rw [if_pos (rows.mpr ht)] at surround
    rw [if_pos ht, Statement.ofPieces, surround]
  · rw [if_neg fun hr => ht (rows.mp hr)] at surround
    rw [if_neg ht]
    refine ⟨surround, fun order => paged.paged.mpr ?_⟩
    cases hpages : p.pagination with
    | some page => rfl
    | none =>
      have noWindow : x.inner.window = none := by
        simpa [hpages] using Query.window_isSome window
      have noKeys := orders.mpr ⟨Query.orders_part ht hp hpages, noWindow⟩
      exact absurd order (Select.not_hasOrder d noKeys noWindow)

theorem statements_paged_joinedOrders :
    ∃ s, joinedOrders.statement orderRegistry .sqlServer .count = .ok s ∧
      ∃ vs x p, (joinedOrders.retrieval orderRegistry .count).run 0 = (vs, .ok x) ∧
        s.sql = sqlOf (x.pieces .sqlServer) ∧ joinedOrders.part orderRegistry .count = .ok p ∧
        WellPaged .sqlServer p (sqlOf (x.inner.pieces .sqlServer)) ∧
        HasPaging (sqlOf (x.inner.pieces .sqlServer)) := by
  obtain ⟨vs, x, p, hx, hs, hp, _, pages, paged, _⟩ :=
    statements_paged (r := orderRegistry) (d := .sqlServer) (q := joinedOrders) (t := .count) rfl
  exact ⟨_, rfl, vs, x, p, hx, hs, hp, paged, paged.paged.mpr (by rw [pages]; rfl)⟩

end RecordQuery
