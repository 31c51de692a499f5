import RecordQuery.Proofs.Compile.Clauses
import RecordQuery.Proofs.Sql.Legible

/-!
# Totals and the pages they are for

The total of a query counts the rows of the text its pages start with: a page has an ORDER BY and a
paging clause after that text, and its parameters start with those of the total
(`total_ranges_over_pages`). So a page does not compile where its total does not, and otherwise only
for its order (`Query.statement_rows_error_iff`).
-/

namespace RecordQuery

open Sql Lowering

/-! ## Statements around a statement -/

/-- The statement with a text before it and one after it. -/
def Statement.wrapped (before after : String) (s : Statement) : Statement :=
  { s with sql := before ++ s.sql ++ after }

namespace Sql.Retrieval

variable (d : Dialect) (x : Select) (vs : List Value)

theorem ofPieces_count :
    Statement.ofPieces (Retrieval.pieces d ⟨.count, x⟩) vs
      = (Statement.ofPieces (x.pieces d) vs).wrapped "SELECT COUNT(1) FROM (" ") AS [sub]" := by
  have after : sqlOf [.text ") AS ", .ident derivedAlias] = ") AS [sub]" := by decide
  have text : sqlOf (Retrieval.pieces d ⟨.count, x⟩)
      = "SELECT COUNT(1) FROM (" ++ sqlOf (x.pieces d) ++ ") AS [sub]" := by
    rw [pieces, List.cons_append, sqlOf_cons, sqlOf_append, after, Piece.sql, String.append_assoc]
  rw [Statement.ofPieces, text]
  rfl

theorem ofPieces_exists :
    Statement.ofPieces (Retrieval.pieces d ⟨.exists, x⟩) vs
      = (Statement.ofPieces (x.pieces d) vs).wrapped "SELECT CASE WHEN EXISTS ("
          ") THEN 1 ELSE 0 END" := by
  have after : sqlOf [.text ") THEN 1 ELSE 0 END"] = ") THEN 1 ELSE 0 END" := by decide
  have shape : Retrieval.pieces d ⟨.exists, x⟩
      = .text "SELECT CASE WHEN EXISTS (" :: (x.pieces d ++ [.text ") THEN 1 ELSE 0 END"]) := rfl
  have text : sqlOf (Retrieval.pieces d ⟨.exists, x⟩)
      = "SELECT CASE WHEN EXISTS (" ++ sqlOf (x.pieces d) ++ ") THEN 1 ELSE 0 END" := by
    rw [shape, sqlOf_cons, sqlOf_append, after, Piece.sql, String.append_assoc]
  rw [Statement.ofPieces, text]
  rfl

end Sql.Retrieval

/-- A statement made of what another one is made of. -/
theorem Lowering.statement_map {m : Lowering α} {f : α → β} {pieces : β → List Piece}
    {inner : α → List Piece} {g : Statement → Statement}
    (h : ∀ a vs, Statement.ofPieces (pieces (f a)) vs = g (.ofPieces (inner a) vs)) :
    (m >>= fun a => pure (f a)).statement pieces = (m.statement inner).map g := by
  unfold Lowering.statement
  rcases hm : m.run 0 with ⟨vs, _ | a⟩
  · rw [run_bind_of_error hm]
    rfl
  · rw [run_bind_of_ok hm]
    simp [Except.map, h]

namespace Query

variable (r : Registry) (d : Dialect) (q : Query)

theorem statement_rows : q.statement r d .rows = (q.toSelect r).statement (·.pieces d) := by
  have bare : (q.toSelect r >>= fun x => pure (⟨.rows, x⟩ : Retrieval)).statement (·.pieces d)
      = ((q.toSelect r).statement (·.pieces d)).map id := statement_map fun x vs => rfl
  refine bare.trans ?_
  cases (q.toSelect r).statement (·.pieces d) <;> rfl

theorem statement_count :
    q.statement r d .count = (q.derived.statement r d .rows).map
      (·.wrapped "SELECT COUNT(1) FROM (" ") AS [sub]") := by
  rw [statement_rows]
  exact (q.derived.toSelect r).statement_map (Retrieval.ofPieces_count d)

theorem statement_totalCount :
    q.statement r d .totalCount = (q.allRows.statement r d .rows).map
      (·.wrapped "SELECT COUNT(1) FROM (" ") AS [sub]") := by
  rw [statement_rows]
  exact (q.allRows.toSelect r).statement_map (Retrieval.ofPieces_count d)

theorem statement_exists :
    q.statement r d .exists = (q.derived.statement r d .rows).map
      (·.wrapped "SELECT CASE WHEN EXISTS (" ") THEN 1 ELSE 0 END") := by
  rw [statement_rows]
  exact (q.derived.toSelect r).statement_map (Retrieval.ofPieces_exists d)

/-! ## Pages -/

/-- Without pages the derived table has all rows. -/
theorem derived_eq_allRows {q : Query} (h : q.pagination = none) : q.derived = q.allRows := by
  unfold derived allRows clearOrdering
  rw [h]
  rfl

/-- A query that compiles does so without order and page, to its core. -/
theorem toSelect_allRows {r : Registry} {q : Query} {n : Nat} {vs : List Value} {x : Select}
    (h : (q.toSelect r).run n = (vs, .ok x)) :
    ∃ us ws, vs = us ++ ws ∧
      (q.allRows.toSelect r).run n = (us, .ok { x with orders := [], window := none }) := by
  obtain ⟨window, scope, us, core, ws, orders, hcheck, _, hscope, hcore, _, rfl, rfl⟩ :=
    toSelect_ok_iff.mp h
  refine ⟨us, ws, rfl, toSelect_ok_iff.mpr ?_⟩
  have noOrder : (orderKeys scope q.allRows none).run (n + us.length) = ([], .ok []) := rfl
  exact ⟨none, scope, us, core, [], [], hcheck, rfl, hscope, hcore, noOrder, by simp, rfl⟩

end Query

theorem Param.number_append (us ws : List Value) :
    ∃ more, Param.number (us ++ ws) = Param.number us ++ more := by
  refine ⟨(ws.zipIdx us.length).map fun p => ⟨placeholder p.2, p.1.bound⟩, ?_⟩
  rw [Param.number, Param.number, List.zipIdx_append, List.map_append, Nat.zero_add]

/-- Text of an ORDER BY with at least one key and the paging clause of the window, or neither. -/
def Trails (d : Dialect) (w : Option Window) (suffix : String) : Prop :=
  (suffix = "" ∧ w = none) ∨
    ∃ keys : List OrderKey, keys ≠ [] ∧
      suffix = " ORDER BY " ++ sqlOf (separated ", " (keys.map OrderKey.pieces))
        ++ w.elim "" d.paging

theorem Sql.Select.sqlOf_pagingPieces (d : Dialect) (x : Select) :
    sqlOf (x.pagingPieces d) = x.window.elim "" d.paging := by
  unfold pagingPieces
  cases x.window with
  | none => rfl
  | some w => rw [sqlOf_cons, sqlOf_nil, String.append_empty, Piece.sql, Option.elim]

theorem Sql.Select.trails (d : Dialect) {x : Select} (h : x.orders = [] → x.window = none) :
    Trails d x.window (sqlOf (x.orderPieces ++ x.pagingPieces d)) := by
  rw [sqlOf_append, sqlOf_pagingPieces]
  by_cases ho : x.orders = []
  · left
    rw [orderPieces, ho, h ho]
    exact ⟨rfl, rfl⟩
  · right
    refine ⟨x.orders, ho, ?_⟩
    rw [orderPieces, listClause, if_neg (by simpa using ho), sqlOf_cons, Piece.sql]

/-- A page is the text that the total counts the rows of and an order and paging clause after it,
and its parameters are those of the total and more; the total is the same for every page. Without
pages it is the number of rows, and whether there are any is asked of the same text. -/
theorem total_ranges_over_pages (r : Registry) (d : Dialect) (q : Query) :
    (∀ s, q.statement r d .rows = .ok s →
      ∃ core suffix params more w,
        s = ⟨core ++ suffix, params ++ more⟩ ∧ q.window = .ok w ∧ Trails d w suffix ∧
        q.statement r d .totalCount
          = .ok ⟨"SELECT COUNT(1) FROM (" ++ core ++ ") AS [sub]", params⟩ ∧
        (q.pagination = none → q.statement r d .exists
          = .ok ⟨"SELECT CASE WHEN EXISTS (" ++ core ++ ") THEN 1 ELSE 0 END", params⟩)) ∧
    (∀ p, Query.statement r d .totalCount { q with pagination := p }
      = q.statement r d .totalCount) ∧
    (q.pagination = none → q.statement r d .count = q.statement r d .totalCount) := by
  refine ⟨?pages, fun p => rfl, ?unpaged⟩
  case pages =>
    intro s h
    rw [Query.statement_rows] at h
    obtain ⟨vs, x, hx, rfl⟩ := Lowering.statement_ok_iff.mp h
    obtain ⟨window, orders⟩ := q.toSelect_window_orders r 0 vs x hx
    obtain ⟨us, ws, rfl, hcore⟩ := Query.toSelect_allRows hx
    obtain ⟨more, params⟩ := Param.number_append us ws
    have inner : q.allRows.statement r d .rows
        = .ok ⟨sqlOf x.corePieces, Param.number us⟩ := by
      rw [Query.statement_rows]
      refine Lowering.statement_ok_iff.mpr ⟨us, _, hcore, ?_⟩
      have bare : Select.pieces d { x with orders := [], window := none } = x.corePieces := by
        simp [Select.pieces, Select.orderPieces, Select.pagingPieces, Select.corePieces, listClause]
      rw [Statement.ofPieces, bare]
    refine ⟨sqlOf x.corePieces, sqlOf (x.orderPieces ++ x.pagingPieces d), Param.number us, more,
      x.window, ?_, window, Select.trails d fun ho => (orders.mp ho).2, ?_, ?_⟩
    · rw [Statement.ofPieces, params, Select.pieces, List.append_assoc, sqlOf_append]
    · rw [Query.statement_totalCount, inner]
      rfl
    · intro hp
      rw [Query.statement_exists, Query.derived_eq_allRows hp, inner]
      rfl
  case unpaged =>
    intro hp
    rw [Query.statement_count, Query.statement_totalCount, Query.derived_eq_allRows hp]

/-- The rows of the joined orders, without pages. -/
def allJoinedOrders : Query := { joinedOrders with pagination := none }

theorem total_ranges_over_pages_joinedOrders :
    (∃ s core suffix params more w,
      joinedOrders.statement orderRegistry .sqlite .rows = .ok s ∧
      s = ⟨core ++ suffix, params ++ more⟩ ∧ joinedOrders.window = .ok w ∧
      Trails .sqlite w suffix ∧
      joinedOrders.statement orderRegistry .sqlite .totalCount
        = .ok ⟨"SELECT COUNT(1) FROM (" ++ core ++ ") AS [sub]", params⟩) ∧
    (∃ s core params,
      allJoinedOrders.statement orderRegistry .sqlite .rows = .ok s ∧
      allJoinedOrders.statement orderRegistry .sqlite .count
        = .ok ⟨"SELECT COUNT(1) FROM (" ++ core ++ ") AS [sub]", params⟩ ∧
      allJoinedOrders.statement orderRegistry .sqlite .exists
        = .ok ⟨"SELECT CASE WHEN EXISTS (" ++ core ++ ") THEN 1 ELSE 0 END", params⟩) := by
  refine ⟨?paged, ?all⟩
  case paged =>
    obtain ⟨core, suffix, params, more, w, hs, hw, trails, total, _⟩ :=
      (total_ranges_over_pages orderRegistry .sqlite joinedOrders).1 _ rfl
    exact ⟨_, core, suffix, params, more, w, rfl, hs, hw, trails, total⟩
  case all =>
    have unpaged := total_ranges_over_pages orderRegistry .sqlite allJoinedOrders
    obtain ⟨core, _, params, _, _, _, _, _, total, any⟩ := unpaged.1 _ rfl
    exact ⟨_, core, params, rfl, (unpaged.2.2 rfl).trans total, any rfl⟩

/-! ## Faults -/

namespace Query

/-- The part of a SELECT that is the same for a page and for the total: the tables a query is about
and the clauses before the order. -/
def scopedCore (r : Registry) (q : Query) : Lowering (Scope × Select) := do
  ofExcept q.check
  let scope ← ofExcept (Scope.ofSources r q.sources)
  let core ← q.coreSelect r scope
  return (scope, core)

variable {r : Registry} {d : Dialect} {q : Query}

theorem toSelect_eq_scopedCore {w : Option Window} (h : q.window = .ok w) :
    q.toSelect r = do
      let (scope, core) ← q.scopedCore r
      let orders ← orderKeys scope q w
      return { core with orders, window := w } := by
  rw [toSelect_eq, h]
  simp only [scopedCore, bind_assoc, pure_bind, ofExcept_ok_bind]

/-- The total counts what the page starts with. -/
theorem statement_totalCount_eq (r : Registry) (d : Dialect) (q : Query) :
    q.statement r d .totalCount = (q.scopedCore r).statement fun p =>
      Retrieval.pieces d ⟨.count, { p.2 with orders := [], window := none }⟩ := by
  have counted : q.retrieval r .totalCount
      = (fun p : Scope × Select => ⟨.count, { p.2 with orders := [], window := none }⟩) <$>
        q.scopedCore r := by
    rw [retrieval, toSelect_eq_scopedCore (q := q.allRows) rfl, map_eq_pure_bind, bind_assoc]
    rfl
  rw [statement, counted, statement_fmap]

/-- A page that is none is the fault of the rows, unless an error was met before. -/
theorem statement_rows_of_window {err : Error} (h : q.window = .error err) :
    q.statement r d .rows = .error (q.deferred.getD err) := by
  rw [statement_rows, statement_error_iff, toSelect_eq, check, h]
  cases q.deferred <;> rfl

/-- A fault of the total is one of the rows. -/
theorem statement_rows_of_totalCount {w : Option Window} (h : q.window = .ok w) {err : Error}
    (total : q.statement r d .totalCount = .error err) : q.statement r d .rows = .error err := by
  rw [statement_totalCount_eq, statement_error_iff] at total
  rw [statement_rows, statement_error_iff, toSelect_eq_scopedCore h]
  rcases hcore : (q.scopedCore r).run 0 with ⟨us, err' | p⟩
  · rw [hcore] at total
    cases total
    rw [run_bind_of_error hcore]
  · rw [hcore] at total
    cases total

/-- A page whose total can be counted has no fault but one of its order. -/
theorem statement_rows_error_iff {w : Option Window} (h : q.window = .ok w) {total : Statement}
    (ht : q.statement r d .totalCount = .ok total) (err : Error) :
    q.statement r d .rows = .error err ↔
      ∃ scope, Scope.ofSources r q.sources = .ok scope ∧
        ((orderKeys scope q w).run total.params.length).2 = .error err := by
  rw [statement_totalCount_eq] at ht
  obtain ⟨us, ⟨scope, core⟩, hcore, rfl⟩ := statement_ok_iff.mp ht
  obtain ⟨_, _, afterCheck⟩ := run_ofExcept_bind_ok_iff.mp hcore
  obtain ⟨scope', hscope, afterScope⟩ := run_ofExcept_bind_ok_iff.mp afterCheck
  obtain ⟨_, _, same⟩ := run_map_ok_iff.mp afterScope
  cases same
  have slots : (Param.number us).length = us.length := by simp [Param.number]
  have ordered : ((orderKeys scope q w >>= fun orders =>
        (pure { core with orders, window := w } : Lowering Select)).run (0 + us.length)).2
      = .error err ↔ ((orderKeys scope q w).run us.length).2 = .error err := by
    rw [← map_eq_pure_bind, run_map, Nat.zero_add]
    cases ((orderKeys scope q w).run us.length).2 <;> simp [Except.map]
  rw [statement_rows, statement_error_iff, toSelect_eq_scopedCore h, run_bind_of_ok hcore]
  refine ordered.trans ?_
  simp [hscope, Statement.ofPieces, slots]

end Query

end RecordQuery
