import RecordQuery.Proofs.Compile.Accepted
import RecordQuery.Proofs.Compile.Clauses
import RecordQuery.Proofs.Metadata.Keys

/-!
# The queries that have SQL

A query compiles exactly if no error was deferred, its page is one, its tables are registered under
labels of their own, and the trees in its clauses have SQL in the scope of the clause
(`Query.toSelect_succeedsIff`). The order that a page without one is given is never missing.
-/

namespace RecordQuery

open Lowering

namespace Lowering.SucceedsIff

/-- What is lowered from a result needs the result. -/
theorem ofExcept_bind {x : Except Error α} {k : α → Lowering β} {P : α → Prop}
    (h : ∀ a, x = .ok a → SucceedsIff (k a) (P a)) :
    SucceedsIff (Lowering.ofExcept x >>= k) (∃ a, x = .ok a ∧ P a) := by
  intro n
  constructor
  · rintro ⟨vs, b, hb⟩
    obtain ⟨a, ha, hk⟩ := run_ofExcept_bind_ok_iff.mp hb
    exact ⟨a, ha, (h a ha n).mp ⟨vs, b, hk⟩⟩
  · rintro ⟨a, ha, hp⟩
    obtain ⟨vs, b, hb⟩ := (h a ha n).mpr hp
    exact ⟨vs, b, run_ofExcept_bind_ok_iff.mpr ⟨a, ha, hb⟩⟩

end Lowering.SucceedsIff

/-- A join of a registered shape, with a condition unless it is a cross join. -/
structure Join.Supported (r : Registry) (s : Scope) (j : Join) : Prop where
  registered : ∃ m, r.get j.source.shape = .ok m
  condition : j.kind = .cross ∨ ∃ on, j.on = some on ∧ on.IsCondition s

namespace Query

section

variable {s : Scope}

/-- Selectors, each for another field. -/
structure Projectable (s : Scope) (items : List ProjectionItem) : Prop where
  some : items ≠ []
  distinct : (items.map (·.field)).Nodup
  selectors : ∀ i ∈ items, i.expr.IsSelector s

/-- What the select list needs. -/
def HasColumns (s : Scope) (q : Query) : Prop :=
  match q.projection with
  | some p => Projectable s p.items
  | none => (∀ k ∈ q.group, k.expr.IsSelector s) ∧ ∀ a ∈ q.aggregates, a.toExpr.IsSelector s

theorem projectedColumns_succeedsIff (shape : String) (seen : List String)
    (items : List ProjectionItem) :
    SucceedsIff (projectedColumns s shape seen items)
      ((∀ i ∈ items, i.field ∉ seen) ∧ (items.map (·.field)).Nodup ∧
        ∀ i ∈ items, i.expr.IsSelector s) := by
  induction items generalizing seen with
  | nil => exact (SucceedsIff.pure _).congr (by simp)
  | cons item rest ih =>
    unfold projectedColumns
    split
    · next repeated =>
      have mem : item.field ∈ seen := by simpa using repeated
      exact (SucceedsIff.fail _).congr
        (iff_of_false id fun h => (List.forall_mem_cons.mp h.1).1 mem)
    · next fresh =>
      have free : item.field ∉ seen := by simpa using fresh
      refine ((item.expr.toSelector_succeedsIff).bind fun _ _ t _ =>
        (ih (item.field :: seen)).map _).congr ?_
      rw [List.forall_mem_cons, List.forall_mem_cons, List.map_cons, List.nodup_cons]
      simp only [List.mem_cons, not_or, List.mem_map, not_exists, not_and]
      constructor
      · rintro ⟨selector, others, nodup, selectors⟩
        exact ⟨⟨free, fun i hi => (others i hi).2⟩, ⟨fun i hi => (others i hi).1, nodup⟩, selector,
          selectors⟩
      · rintro ⟨⟨_, unseen⟩, ⟨others, nodup⟩, selector, selectors⟩
        exact ⟨selector, fun i hi => ⟨others i hi, unseen i hi⟩, nodup, selectors⟩

theorem outputs_succeedsIff {q : Query} {b : ScopedTable} (hb : s.base = .ok b) :
    SucceedsIff (outputs s q) (q.HasColumns s) := by
  unfold outputs HasColumns
  cases q.projection with
  | some p =>
    simp only
    split
    · next empty =>
      exact (SucceedsIff.fail _).congr (iff_of_false id fun h => h.some (by simpa using empty))
    · next items =>
      refine (projectedColumns_succeedsIff p.shape [] p.items).congr ?_
      exact ⟨fun h => ⟨by simpa using items, h.2.1, h.2.2⟩,
        fun h => ⟨by simp, h.distinct, h.selectors⟩⟩
  | none =>
    simp only
    split
    · have columns {α : Type} (expr : α → Expr) (label : α → String) (xs : List α) :
          SucceedsIff
            (xs.mapM fun x => do return (⟨← (expr x).toSelector s, label x⟩ : Sql.OutputColumn))
            (∀ x ∈ xs, (expr x).IsSelector s) :=
        .mapM (fun x => ((expr x).toSelector_succeedsIff).map _) xs
      exact (columns _ _ q.group).bind fun _ _ keys _ => (columns _ _ q.aggregates).map _
    · next plain =>
      have empty : q.group = [] ∧ q.aggregates = [] := by simpa [isGrouped] using plain
      rw [hb, empty.1, empty.2]
      exact (SucceedsIff.pure _).congr (by simp)

theorem joinCondition_succeedsIff (s : Scope) (j : Join) :
    SucceedsIff (joinCondition s j)
      (j.kind = .cross ∨ ∃ on, j.on = some on ∧ on.IsCondition s) := by
  obtain ⟨source, kind, on⟩ := j
  cases kind with
  | cross => exact (SucceedsIff.pure _).congr (by simp)
  | _ =>
    cases on with
    | none => exact (SucceedsIff.fail _).congr (by simp)
    | some on => exact ((on.toCondition_succeedsIff).map _).congr (by simp)

theorem joinClauses_succeedsIff (r : Registry) (s : Scope) (i : Nat) (js : List Join) :
    SucceedsIff (joinClauses r s i js)
      (∀ (k : Nat) (j : Join), js[k]? = some j → j.Supported r (s.limited (i + k + 2))) := by
  induction js generalizing i with
  | nil => exact (SucceedsIff.pure _).congr (by simp)
  | cons j rest ih =>
    refine (SucceedsIff.ofExcept_bind fun m _ =>
      (joinCondition_succeedsIff _ j).bind fun _ _ on _ => (ih (i + 1)).map _).congr ?_
    constructor
    · rintro ⟨m, hm, on, others⟩ k j' hk
      cases k with
      | zero =>
        cases hk
        exact ⟨⟨m, hm⟩, on⟩
      | succ k =>
        have later := others k j' hk
        rwa [Nat.add_right_comm i 1 k] at later
    · intro all
      obtain ⟨⟨m, hm⟩, on⟩ := all 0 j rfl
      refine ⟨m, hm, on, fun k j' hk => ?_⟩
      rw [Nat.add_right_comm i 1 k]
      exact all (k + 1) j' hk

/-- What an order needs, one that a page is given included. -/
structure HasOrder (s : Scope) (q : Query) : Prop where
  keys : ∀ o ∈ q.orders, o.key.IsSelector s
  figures : q.orders = [] → q.pagination.isSome = true →
    ∀ es, q.figureOrder? = some es → ∀ e ∈ es, e.IsSelector s

theorem orderKeys_succeedsIff {q : Query} {w : Option Window}
    (hw : w.isSome = q.pagination.isSome) (hk : keyTerms s ≠ []) :
    SucceedsIff (orderKeys s q w) (q.HasOrder s) := by
  unfold orderKeys
  split
  · next given =>
    have some : q.orders ≠ [] := by simpa using given
    refine (SucceedsIff.mapM (fun o => (o.key.toSelector_succeedsIff).map _) _).congr ?_
    simp only [sortedOrders, List.mem_mergeSort]
    exact ⟨fun keys => ⟨keys, fun none => absurd none some⟩, HasOrder.keys⟩
  · next given =>
    have none : q.orders = [] := by simpa using given
    have keys : ∀ o ∈ q.orders, o.key.IsSelector s := by simp [none]
    rw [hw]
    split
    · next paged =>
      have fallback : SucceedsIff (fallbackOrder s q)
          (∀ es, q.figureOrder? = some es → ∀ e ∈ es, e.IsSelector s) := by
        unfold fallbackOrder
        split
        · next es figures =>
          exact (SucceedsIff.mapM Expr.toSelector_succeedsIff es).congr (by simp [figures])
        · next none =>
          rw [if_neg (by simpa using hk)]
          exact (SucceedsIff.pure _).congr (by simp [none])
      exact (fallback.map _).congr ⟨fun h => ⟨keys, fun _ _ => h⟩, fun h => h.figures none paged⟩
    · next unpaged =>
      exact (SucceedsIff.pure _).congr
        (iff_of_true trivial ⟨keys, fun _ paged => absurd paged unpaged⟩)

end

theorem keyTerms_ne_nil {r : Registry} {q : Query} {s : Scope}
    (h : Scope.ofSources r q.sources = .ok s) : keyTerms s ≠ [] := by
  obtain ⟨stands, visible⟩ := Scope.stands_of_ofSources h
  have some : s.tables ≠ [] := fun empty => by
    have sources := stands.same
    rw [empty] at sources
    cases sources
  obtain ⟨t, ht⟩ := List.exists_mem_of_ne_nil _ some
  have columns := Metadata.fallbackOrder_ne_nil (Registry.fault?_of_get? (stands.registered t ht))
  obtain ⟨c, hc⟩ := List.exists_mem_of_ne_nil _ columns
  rw [keyTerms, visible]
  exact List.ne_nil_of_mem (List.mem_flatMap.mpr ⟨t, ht, List.mem_map_of_mem hc⟩)

theorem exists_base {r : Registry} {q : Query} {s : Scope}
    (h : Scope.ofSources r q.sources = .ok s) : ∃ b, s.base = .ok b := by
  obtain ⟨stands, _⟩ := Scope.stands_of_ofSources h
  unfold Scope.base
  cases hh : s.tables.head? with
  | some b => exact ⟨b, rfl⟩
  | none =>
    have sources := stands.same
    rw [List.head?_eq_none_iff.mp hh] at sources
    cases sources

theorem check_ok_iff {q : Query} : q.check = .ok () ↔ q.deferred = none := by
  unfold check
  cases q.deferred <;> simp

theorem groupExprs_eq {q : Query} (hp : q.projection = none) :
    q.groupExprs = q.group.map (·.expr) := by
  unfold groupExprs
  split
  · next empty =>
    have none : q.group = [] := by simpa using empty
    rw [hp, none]
    rfl
  · rfl

/-- What the clauses of a query need over the tables of a scope. -/
structure HasClauses (r : Registry) (s : Scope) (q : Query) : Prop where
  columns : q.HasColumns s
  /-- A join condition sees the tables up to its own. -/
  joins : ∀ (i : Nat) (j : Join), q.joins[i]? = some j → j.Supported r (s.limited (i + 2))
  filters : ∀ e ∈ q.filters, e.IsCondition s
  group : ∀ e ∈ q.groupExprs, e.IsSelector s
  order : q.HasOrder s

/-- What a query needs to have a SELECT over the tables of a registry. -/
structure Supported (r : Registry) (q : Query) : Prop where
  undeferred : q.deferred = none
  window : ∃ w, q.window = .ok w
  clauses : ∃ s, Scope.ofSources r q.sources = .ok s ∧ q.HasClauses r s

theorem clauses_succeedsIff {r : Registry} {s : Scope} {q : Query} {w : Option Window}
    (hw : q.window = .ok w) (hs : Scope.ofSources r q.sources = .ok s) :
    SucceedsIff (do
      let core ← q.coreSelect r s
      let orders ← orderKeys s q w
      return { core with orders, window := w }) (q.HasClauses r s) := by
  obtain ⟨b, hb⟩ := exists_base hs
  have joins := joinClauses_succeedsIff r s 0 q.joins
  simp only [Nat.zero_add] at joins
  have core : SucceedsIff (q.coreSelect r s) (q.HasColumns s ∧
      (∀ (i : Nat) (j : Join), q.joins[i]? = some j → j.Supported r (s.limited (i + 2))) ∧
      (∀ e ∈ q.filters, e.IsCondition s) ∧ ∀ e ∈ q.groupExprs, e.IsSelector s) := by
    rw [coreSelect, hb]
    refine (outputs_succeedsIff hb).bind fun _ _ columns _ => ?_
    rw [ofExcept_ok_bind]
    refine joins.bind fun _ _ joins _ => ?_
    refine (SucceedsIff.mapM Expr.toCondition_succeedsIff _).bind fun _ _ filters _ => ?_
    exact (SucceedsIff.mapM Expr.toSelector_succeedsIff _).map _
  -- a page without an order always has key columns to be ordered by
  have order := orderKeys_succeedsIff (window_isSome hw) (keyTerms_ne_nil hs)
  refine (core.bind fun _ _ core _ => order.map _).congr ?_
  constructor
  · rintro ⟨⟨columns, joins, filters, group⟩, order⟩
    exact ⟨columns, joins, filters, group, order⟩
  · exact fun h => ⟨⟨h.columns, h.joins, h.filters, h.group⟩, h.order⟩

/-- A query has a SELECT exactly if each part of it has what it needs. -/
theorem toSelect_succeedsIff (r : Registry) (q : Query) :
    SucceedsIff (q.toSelect r) (q.Supported r) := by
  rw [toSelect_eq]
  refine (SucceedsIff.ofExcept_bind (P := fun _ =>
    ∃ w, q.window = .ok w ∧ ∃ s, Scope.ofSources r q.sources = .ok s ∧ q.HasClauses r s)
    fun _ _ => .ofExcept_bind fun w hw => .ofExcept_bind fun s hs =>
      clauses_succeedsIff hw hs).congr ?_
  constructor
  · rintro ⟨_, check, w, hw, clauses⟩
    exact ⟨check_ok_iff.mp check, ⟨w, hw⟩, clauses⟩
  · rintro ⟨undeferred, ⟨w, hw⟩, clauses⟩
    exact ⟨(), check_ok_iff.mpr undeferred, w, hw, clauses⟩

theorem statement_ok_iff_supported {r : Registry} {d : Dialect} {q : Query} :
    (∃ s, q.statement r d .rows = .ok s) ↔ q.Supported r := by
  rw [← toSelect_succeedsIff r q 0]
  constructor
  · rintro ⟨s, h⟩
    obtain ⟨vs, x, hx, _⟩ := statement_rows_ok_iff.mp h
    exact ⟨vs, x, hx⟩
  · rintro ⟨vs, x, hx⟩
    exact ⟨_, statement_rows_ok_iff.mpr ⟨vs, x, hx, rfl⟩⟩

end Query

end RecordQuery
