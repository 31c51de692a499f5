import RecordQuery.Proofs.Query.Masked

/-!
# Constants do not reach the text

Two lowerings `Agree` if they give the same result, or fail with errors of one kind, and bind as
many values; the values may differ. The lowering of an expression, and of each statement, agrees
with that of the masked one, so the text of a query depends on its constants only through their
classes (`Query.statement_outline`).
-/

namespace RecordQuery

/-- What can be seen of a result besides what a view of it leaves out: the view, or the kind of
the error. -/
def observed (view : α → β) (x : Except Error α) : Except ErrorKind β :=
  (x.map view).mapError Error.kind

/-- Two results that look the same are failures of one kind or successes with the same view. -/
theorem observed_cases {view : α → β} {x y : Except Error α}
    (h : observed view x = observed view y) :
    (∃ e e', x = .error e ∧ y = .error e' ∧ e.kind = e'.kind) ∨
      ∃ a b, x = .ok a ∧ y = .ok b ∧ view a = view b := by
  cases x with
  | error e =>
    cases y with
    | error e' => exact .inl ⟨e, e', rfl, rfl, Except.error.inj h⟩
    | ok b => cases h
  | ok a =>
    cases y with
    | error e' => cases h
    | ok b => exact .inr ⟨a, b, rfl, rfl, Except.ok.inj h⟩

theorem observed_error {view : α → β} {e e' : Error} (h : e.kind = e'.kind) :
    observed view (.error e) = observed view (.error e') := congrArg Except.error h

theorem observed_ok {view : α → β} {a b : α} (h : view a = view b) :
    observed view (.ok a) = observed view (.ok b) := congrArg Except.ok h

namespace Lowering

structure Agree (m m' : Lowering α) : Prop where
  bound : ∀ n, (m.run n).1.length = (m'.run n).1.length
  result : ∀ n, observed id (m.run n).2 = observed id (m'.run n).2

namespace Agree

theorem refl (m : Lowering α) : Agree m m := ⟨fun _ => rfl, fun _ => rfl⟩

theorem symm {m m' : Lowering α} (h : Agree m m') : Agree m' m :=
  ⟨fun n => (h.bound n).symm, fun n => (h.result n).symm⟩

theorem trans {m m' m'' : Lowering α} (h : Agree m m') (h' : Agree m' m'') : Agree m m'' :=
  ⟨fun n => (h.bound n).trans (h'.bound n), fun n => (h.result n).trans (h'.result n)⟩

theorem fail {e e' : Error} (h : e.kind = e'.kind) :
    Agree (Lowering.fail e : Lowering α) (Lowering.fail e') :=
  ⟨fun _ => rfl, fun _ => congrArg Except.error h⟩

theorem unsupported (s s' : String) :
    Agree (Lowering.unsupported s : Lowering α) (Lowering.unsupported s') := fail rfl

theorem push (v w : Value) : Agree (Lowering.push v) (Lowering.push w) :=
  ⟨fun _ => rfl, fun _ => rfl⟩

theorem bind {m m' : Lowering α} {k k' : α → Lowering β} (h : Agree m m')
    (hk : ∀ a, Agree (k a) (k' a)) : Agree (m >>= k) (m' >>= k') := by
  have runs (n : Nat) : ((m >>= k).run n).1.length = ((m' >>= k').run n).1.length ∧
      observed id ((m >>= k).run n).2 = observed id ((m' >>= k').run n).2 := by
    have hb := h.bound n
    obtain ⟨e, e', he, he', hkind⟩ | ⟨a, b, ha, ha', hab⟩ := observed_cases (h.result n)
    · rw [run_bind_of_error (Prod.ext rfl he), run_bind_of_error (Prod.ext rfl he')]
      exact ⟨hb, observed_error hkind⟩
    · cases hab
      rw [run_bind_of_ok (Prod.ext rfl ha), run_bind_of_ok (Prod.ext rfl ha'), ← hb]
      refine ⟨?_, (hk a).result _⟩
      rw [List.length_append, List.length_append, hb, (hk a).bound]
  exact ⟨fun n => (runs n).1, fun n => (runs n).2⟩

theorem mapM {k : α → Lowering β} {k' : α' → Lowering β} {g : α → α'}
    (h : ∀ a, Agree (k a) (k' (g a))) (xs : List α) : Agree (xs.mapM k) ((xs.map g).mapM k') := by
  induction xs with
  | nil => exact refl _
  | cons x xs ih =>
    rw [List.map_cons, List.mapM_cons, List.mapM_cons]
    exact (h x).bind fun b => ih.bind fun bs => refl _

end Agree

end Lowering

open Lowering

/-! ## Expressions -/

namespace Expr

theorem toOperand_agree (s : Scope) (e : Expr) :
    Agree (e.toOperand s) (e.masked.toOperand s) := by
  cases e with
  | field r => exact .refl _
  | constant v => exact (Agree.push _ _).bind fun slot => .refl _
  | _ => exact .unsupported _ _

theorem toSelector_agree (s : Scope) (e : Expr) :
    Agree (e.toSelector s) (e.masked.toSelector s) := by
  cases e with
  | aggregateAll f => exact .refl _
  | aggregate f a => exact (a.toOperand_agree s).bind fun t => .refl _
  | field r => exact toOperand_agree s (field r)
  | constant v => exact toOperand_agree s (constant v)
  | _ => exact .unsupported _ _

theorem toComparison_agree (s : Scope) (op : Comparison) (l r : Expr) :
    Agree (toComparison s op l r) (toComparison s op l.masked r.masked) := by
  unfold toComparison
  rw [isNullConstant_masked, isNullConstant_masked]
  split
  · exact .refl _
  · exact (l.toOperand_agree s).bind fun t => .refl _
  · exact (r.toOperand_agree s).bind fun t => .refl _
  · exact (l.toOperand_agree s).bind fun lt => (r.toOperand_agree s).bind fun rt => .refl _

/-- A text as the argument is a text after masking. -/
theorem toTextMatch_agree (s : Scope) (m : TextMatch) (target : Expr) (argument : Option Expr) :
    Agree (toTextMatch s m target argument)
      (toTextMatch s m target.masked (argument.map masked)) := by
  refine (target.toOperand_agree s).bind fun t => ?_
  cases argument with
  | none => exact .refl _
  | some a =>
    cases a with
    | constant v =>
      cases v with
      | text x => exact (Agree.push _ _).bind fun slot => .refl _
      | _ => exact .refl _
    | _ => exact .refl _

theorem toMethodTest_agree (s : Scope) (m : Method) (target : Expr) (argument : Option Expr) :
    Agree (toMethodTest s m target argument)
      (toMethodTest s m target.masked (argument.map masked)) := by
  cases m with
  | text m => exact toTextMatch_agree s m target argument
  | isNull => exact (target.toOperand_agree s).bind fun t => .refl _
  | isNotNull => exact (target.toOperand_agree s).bind fun t => .refl _
  | other name => exact .refl _

theorem toCondition_agree (s : Scope) (e : Expr) :
    Agree (e.toCondition s) (e.masked.toCondition s) := by
  induction e with
  | field r => exact .refl _
  | constant v => exact (toOperand_agree s (constant v)).bind fun t => .refl _
  | binary op l r hl hr =>
    cases op with
    | logical op => exact hl.bind fun lc => hr.bind fun rc => .refl _
    | comparison op => exact toComparison_agree s op l r
    | arithmetic op => exact .refl _
  | call m t => exact toMethodTest_agree s m t none
  | callWith m t a => exact toMethodTest_agree s m t (some a)
  | negation e ih => exact ih.bind fun c => .refl _
  | aggregateAll f => exact .refl _
  | aggregate f a => exact .unsupported _ _

end Expr

/-! ## Clauses -/

namespace Query

theorem projectedColumns_agree (s : Scope) (shape : String) (seen : List String)
    (items : List ProjectionItem) :
    Agree (projectedColumns s shape seen items)
      (projectedColumns s shape seen (items.map ProjectionItem.masked)) := by
  induction items generalizing seen with
  | nil => exact .refl _
  | cons item rest ih =>
    have field : item.masked.field = item.field := rfl
    rw [List.map_cons]
    unfold projectedColumns
    rw [field]
    split
    · exact .refl _
    · exact (item.expr.toSelector_agree s).bind fun t => (ih _).bind fun cs => .refl _

@[simp] theorem isGrouped_masked (q : Query) : q.masked.isGrouped = q.isGrouped := by
  simp [isGrouped, masked]

theorem groupedColumns_agree (s : Scope) (q : Query) :
    Agree (groupedColumns s q) (groupedColumns s q.masked) := by
  unfold groupedColumns
  refine (Agree.mapM (fun k => ?_) q.group).bind fun keys => ?_
  · exact (k.expr.toSelector_agree s).bind fun t => .refl _
  refine (Agree.mapM (fun a => ?_) q.aggregates).bind fun columns => .refl _
  rw [AggregateColumn.toExpr_masked]
  exact (a.toExpr.toSelector_agree s).bind fun t => .refl _

theorem outputs_agree (s : Scope) (q : Query) : Agree (outputs s q) (outputs s q.masked) := by
  have projection : q.masked.projection = q.projection.map Projection.masked := rfl
  unfold outputs
  rw [projection, isGrouped_masked]
  cases q.projection with
  | none =>
    simp only [Option.map_none]
    split
    · exact groupedColumns_agree s q
    · exact .refl _
  | some p =>
    have empty : p.masked.items.isEmpty = p.items.isEmpty := by simp [Projection.masked]
    simp only [Option.map_some, empty]
    split
    · exact .refl _
    · exact projectedColumns_agree s p.shape [] p.items

theorem joinCondition_agree (s : Scope) (j : Join) :
    Agree (joinCondition s j) (joinCondition s j.masked) := by
  obtain ⟨source, kind, on⟩ := j
  cases on with
  | none => exact .refl _
  | some e =>
    cases kind with
    | cross => exact .refl _
    | _ => exact (e.toCondition_agree s).bind fun c => .refl _

theorem joinClauses_agree (r : Registry) (s : Scope) (i : Nat) (js : List Join) :
    Agree (joinClauses r s i js) (joinClauses r s i (js.map Join.masked)) := by
  induction js generalizing i with
  | nil => exact .refl _
  | cons j rest ih =>
    refine (Agree.refl _).bind fun m => ?_
    exact (joinCondition_agree _ j).bind fun on => (ih _).bind fun cs => .refl _

theorem groupExprs_masked (q : Query) : q.masked.groupExprs = q.groupExprs.map Expr.masked := by
  have group : q.masked.group = q.group.map GroupKey.masked := rfl
  have projection : q.masked.projection = q.projection.map Projection.masked := rfl
  unfold groupExprs
  rw [group, projection, List.isEmpty_map]
  split
  · cases q.projection with
    | none => rfl
    | some p =>
      have exprs : p.masked.items.map (·.expr) = (p.items.map (·.expr)).map Expr.masked := by
        simp [Projection.masked, ProjectionItem.masked]
      simp only [Option.map_some, exprs, List.any_map, List.filter_map, Function.comp_def,
        Expr.containsAggregate_masked]
      split <;> simp
  · simp [GroupKey.masked]

theorem sortedOrders_masked (q : Query) :
    q.masked.sortedOrders = q.sortedOrders.map Order.masked :=
  (List.map_mergeSort (f := Order.masked) fun _ _ _ _ => rfl).symm

theorem find?_containsAggregate_masked (es : List Expr) :
    (es.map Expr.masked).find? (·.containsAggregate)
      = (es.find? (·.containsAggregate)).map Expr.masked := by
  simp only [List.find?_map, Function.comp_def, Expr.containsAggregate_masked]

theorem figureOrder?_masked (q : Query) :
    q.masked.figureOrder? = q.figureOrder?.map (·.map Expr.masked) := by
  have head : q.masked.aggregates.head? = q.aggregates.head?.map AggregateColumn.masked :=
    List.head?_map
  have projection : q.masked.projection = q.projection.map Projection.masked := rfl
  have distinct : q.masked.distinct = q.distinct := rfl
  unfold figureOrder?
  rw [groupExprs_masked, List.isEmpty_map, head, projection, distinct]
  split
  · cases q.aggregates.head? with
    | some a => simp
    | none =>
      cases q.projection with
      | none => rfl
      | some p =>
        have exprs : p.masked.items.map (·.expr) = (p.items.map (·.expr)).map Expr.masked := by
          simp [Projection.masked, ProjectionItem.masked]
        simp only [Option.map_none, Option.map_some, exprs, find?_containsAggregate_masked]
        cases (p.items.map (·.expr)).find? (·.containsAggregate) with
        | some e => rfl
        | none => cases q.distinct <;> rfl
  · rfl

theorem fallbackOrder_agree (s : Scope) (q : Query) :
    Agree (fallbackOrder s q) (fallbackOrder s q.masked) := by
  unfold fallbackOrder
  rw [figureOrder?_masked]
  cases q.figureOrder? with
  | some exprs => exact .mapM (Expr.toSelector_agree s) exprs
  | none => exact .refl _

theorem orderKeys_agree (s : Scope) (q : Query) (w : Option Window) :
    Agree (orderKeys s q w) (orderKeys s q.masked w) := by
  have empty : q.masked.orders.isEmpty = q.orders.isEmpty := by simp [masked]
  unfold orderKeys
  rw [sortedOrders_masked, empty]
  split
  · exact .mapM (fun o => (o.key.toSelector_agree s).bind fun t => .refl _) q.sortedOrders
  · split
    · exact (fallbackOrder_agree s q).bind fun ts => .refl _
    · exact .refl _

/-- Of the deferred error only the kind is the same. -/
theorem check_agree (q : Query) : Agree (ofExcept q.check) (ofExcept q.masked.check) := by
  have deferred : q.masked.deferred = q.deferred.map Error.muted := rfl
  unfold check
  rw [deferred]
  cases q.deferred with
  | none => exact .refl _
  | some e => exact .fail e.kind_muted.symm

theorem toSelect_agree_masked (r : Registry) (q : Query) :
    Agree (q.toSelect r) (q.masked.toSelect r) := by
  have sources : q.masked.sources = q.sources := by simp [Query.sources, masked, Join.masked]
  unfold toSelect
  rw [groupExprs_masked, sources]
  refine q.check_agree.bind fun _ => (Agree.refl _).bind fun window => ?_
  refine (Agree.refl _).bind fun scope => (outputs_agree scope q).bind fun columns => ?_
  refine (Agree.refl _).bind fun base => (joinClauses_agree r scope 0 q.joins).bind fun joins => ?_
  refine (Agree.mapM (Expr.toCondition_agree scope) q.filters).bind fun filters => ?_
  refine (Agree.mapM (Expr.toSelector_agree scope) q.groupExprs).bind fun group => ?_
  exact (orderKeys_agree scope q window).bind fun orders => .refl _

theorem toSelect_agree (r : Registry) {q q' : Query} (h : q.masked = q'.masked) :
    Agree (q.toSelect r) (q'.toSelect r) := by
  have left := q.toSelect_agree_masked r
  rw [h] at left
  exact left.trans (q'.toSelect_agree_masked r).symm

end Query

/-! ## Statements -/

/-- The text of a statement and the names of its parameters. -/
def Statement.outline (s : Statement) : String × List String := (s.sql, s.params.map (·.name))

theorem Lowering.Agree.statement {m m' : Lowering α} (h : Agree m m')
    (pieces : α → List Sql.Piece) :
    observed Statement.outline (m.statement pieces)
      = observed Statement.outline (m'.statement pieces) := by
  unfold Lowering.statement
  obtain ⟨e, e', he, he', hkind⟩ | ⟨a, b, ha, ha', hab⟩ := observed_cases (h.result 0)
  · simp only [he, he']
    exact observed_error hkind
  · cases hab
    simp only [ha, ha']
    refine observed_ok ?_
    have names : (Param.number (m.run 0).1).map (·.name)
        = (Param.number (m'.run 0).1).map (·.name) := by
      rw [Param.names_number, Param.names_number, h.bound 0]
    exact congrArg (Sql.sqlOf (pieces a), ·) names

namespace Query

theorem outputColumn?_masked (r : Registry) (q : Query) (selector : Expr) :
    q.masked.outputColumn? r selector.masked = q.outputColumn? r selector := by
  have columns : q.masked.outputColumns r = q.outputColumns r := by
    have projection : q.masked.projection = q.projection.map Projection.masked := rfl
    unfold outputColumns
    rw [projection, isGrouped_masked]
    cases q.projection with
    | some p => simp [Projection.masked, ProjectionItem.masked]
    | none => simp [masked, GroupKey.masked, AggregateColumn.masked, Function.comp_def]
  unfold outputColumn?
  rw [columns]
  cases selector <;> rfl

theorem derived_masked (q : Query) : q.derived.masked = q.masked.derived := by
  have pagination : q.masked.pagination = q.pagination := rfl
  unfold derived
  rw [pagination]
  split <;> rfl

def Terminal.masked : Terminal → Terminal
  | aggregate f selector => aggregate f selector.masked
  | t => t

theorem aggregateRetrieval_agree (r : Registry) (q : Query) (f : AggregateFunction)
    (selector : Expr) :
    Agree (q.aggregateRetrieval r f selector)
      (q.masked.aggregateRetrieval r f selector.masked) := by
  unfold aggregateRetrieval
  rw [outputColumn?_masked]
  refine (Agree.refl _).bind fun column => ?_
  cases column with
  | some c =>
    have inner := q.derived.toSelect_agree_masked r
    rw [derived_masked] at inner
    exact (inner.trans (toSelect_agree r (by simp [derived_masked]))).bind fun s => .refl _
  | none =>
    have projected := q.select_masked scalarShape [(Sql.scalarAlias, selector)]
    refine (toSelect_agree r ?_).bind fun s => .refl _
    rw [derived_masked, derived_masked, projected]
    rfl

theorem retrieval_agree (r : Registry) (q : Query) (t : Terminal) :
    Agree (q.retrieval r t) (q.masked.retrieval r t.masked) := by
  have inner {x y : Query} (h : x.masked = y.masked) (outer : Sql.Outer) :
      Agree (do return (⟨outer, ← x.toSelect r⟩ : Sql.Retrieval))
        (do return (⟨outer, ← y.toSelect r⟩ : Sql.Retrieval)) :=
    (toSelect_agree r h).bind fun s => .refl _
  have derived : q.derived.masked = q.masked.derived.masked := by simp [derived_masked]
  cases t with
  | rows => exact inner q.masked_masked.symm .rows
  | count => exact inner derived .count
  | totalCount =>
    have rows : q.allRows.masked = q.masked.allRows.masked :=
      congrArg allRows q.masked_masked.symm
    exact inner rows .count
  | «exists» => exact inner derived .exists
  | aggregate f selector => exact q.aggregateRetrieval_agree r f selector

theorem statement_outline (r : Registry) (d : Dialect) {q q' : Query} (hq : q.masked = q'.masked)
    {t t' : Terminal} (ht : t.masked = t'.masked) :
    observed Statement.outline (statement r d t q)
      = observed Statement.outline (statement r d t' q') := by
  have left := q.retrieval_agree r t
  rw [hq, ht] at left
  exact (left.trans (q'.retrieval_agree r t').symm).statement (·.pieces d)

end Query

end RecordQuery
