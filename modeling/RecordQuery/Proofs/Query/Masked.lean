import RecordQuery.Compile.Select

/-!
# Queries with their constants masked

`masked` replaces every constant by a representative of its class: null, a text, or any other
value. Two runs of the same operations that differ in constants only, class by class, are runs
whose masked operations are equal, and the queries they build are equal once masked
(`Query.applyAll_masked`). A deferred error is masked with them, since its text shows the constants
of the expression it is about.
-/

namespace RecordQuery

/-- A value that stands for its class. -/
def Value.masked : Value → Value
  | null => null
  | text _ => text ""
  | _ => bool false

@[simp] theorem Value.masked_masked (v : Value) : v.masked.masked = v.masked := by cases v <;> rfl

/-- The error without its detail, if a detail is all that it has. -/
def Error.muted (e : Error) : Error := (ofDetail? "" e.kind).getD e

@[simp] theorem Error.kind_muted (e : Error) : e.muted.kind = e.kind := by cases e <;> rfl

@[simp] theorem Error.muted_muted (e : Error) : e.muted.muted = e.muted := by cases e <;> rfl

/-- A step of a sequence that starts from a translated result. -/
theorem map_bind_comm {f : α → α'} {g : β → β'} {k : α → Except ε β} {k' : α' → Except ε β'}
    (x : Except ε α) (h : ∀ a, k' (f a) = (k a).map g) : (x.map f >>= k') = (x >>= k).map g := by
  cases x with
  | error e => rfl
  | ok a => exact h a

/-- A step of a sequence that starts from the same result. -/
theorem bind_comm {g : β → β'} {k : α → Except ε β} {k' : α → Except ε β'}
    (x : Except ε α) (h : ∀ a, k' a = (k a).map g) : (x >>= k') = (x >>= k).map g := by
  cases x with
  | error e => rfl
  | ok a => exact h a

namespace Expr

def masked : Expr → Expr
  | field r => field r
  | constant v => constant v.masked
  | binary op l r => binary op l.masked r.masked
  | call m t => call m t.masked
  | callWith m t a => callWith m t.masked a.masked
  | negation e => negation e.masked
  | aggregateAll f => aggregateAll f
  | aggregate f a => aggregate f a.masked

@[simp] theorem masked_masked (e : Expr) : e.masked.masked = e.masked := by
  induction e <;> simp_all [masked]

@[simp] theorem containsAggregate_masked (e : Expr) :
    e.masked.containsAggregate = e.containsAggregate := by
  induction e <;> simp_all [masked, containsAggregate]

@[simp] theorem isProjectable_masked (e : Expr) : e.masked.isProjectable = e.isProjectable := by
  cases e <;> rfl

@[simp] theorem isNullConstant_masked (e : Expr) : e.masked.isNullConstant = e.isNullConstant := by
  cases e with
  | constant v => cases v <;> rfl
  | _ => rfl

/-- References are replaced in a masked tree as in the tree itself. -/
theorem mapFields_masked {f g : FieldRef → Except Error Expr}
    (h : ∀ r, g r = (f r).map masked) (e : Expr) :
    e.masked.mapFields g = (e.mapFields f).map masked := by
  induction e with
  | field r => exact h r
  | constant v => rfl
  | binary op l r hl hr =>
    simp only [masked, mapFields, hl, hr]
    refine map_bind_comm _ fun l => ?_
    exact map_bind_comm _ fun r => rfl
  | call m t ih =>
    simp only [masked, mapFields, ih]
    exact map_bind_comm _ fun t => rfl
  | callWith m t a ht ha =>
    simp only [masked, mapFields, ht, ha]
    refine map_bind_comm _ fun t => ?_
    exact map_bind_comm _ fun a => rfl
  | negation e ih =>
    simp only [masked, mapFields, ih]
    exact map_bind_comm _ fun e => rfl
  | aggregateAll f => rfl
  | aggregate f a ih =>
    simp only [masked, mapFields, ih]
    exact map_bind_comm _ fun a => rfl

end Expr

def Filter.masked (f : Filter) : Filter := { f with value := f.value.masked }

@[simp] theorem Filter.toExpr_masked (f : Filter) : f.masked.toExpr = f.toExpr.masked := by
  unfold Filter.toExpr
  simp only [Filter.masked]
  cases f.operator <;> rfl

def SearchRequest.masked (r : SearchRequest) : SearchRequest :=
  { r with filters := r.filters.map Filter.masked }

def Join.masked (j : Join) : Join := { j with on := j.on.map Expr.masked }

def Order.masked (o : Order) : Order := { o with key := o.key.masked }

def ProjectionItem.masked (i : ProjectionItem) : ProjectionItem := { i with expr := i.expr.masked }

def Projection.masked (p : Projection) : Projection :=
  { p with items := p.items.map ProjectionItem.masked }

def GroupKey.masked (k : GroupKey) : GroupKey := { k with expr := k.expr.masked }

def AggregateColumn.masked (a : AggregateColumn) : AggregateColumn :=
  { a with selector := a.selector.map Expr.masked }

@[simp] theorem AggregateColumn.toExpr_masked (a : AggregateColumn) :
    a.masked.toExpr = a.toExpr.masked := by
  unfold toExpr masked
  cases a.selector <;> rfl

namespace Query

def masked (q : Query) : Query :=
  { q with
    joins := q.joins.map Join.masked
    filters := q.filters.map Expr.masked
    projection := q.projection.map Projection.masked
    group := q.group.map GroupKey.masked
    aggregates := q.aggregates.map AggregateColumn.masked
    orders := q.orders.map Order.masked
    deferred := q.deferred.map Error.muted }

@[simp] theorem masked_masked (q : Query) : q.masked.masked = q.masked := by
  have item (i : ProjectionItem) : i.masked.masked = i.masked := by simp [ProjectionItem.masked]
  have projection (p : Projection) : p.masked.masked = p.masked := by
    simp [Projection.masked, Function.comp_def, item]
  have join (j : Join) : j.masked.masked = j.masked := by simp [Join.masked, Function.comp_def]
  have key (k : GroupKey) : k.masked.masked = k.masked := by simp [GroupKey.masked]
  have column (a : AggregateColumn) : a.masked.masked = a.masked := by
    simp [AggregateColumn.masked, Function.comp_def]
  have order (o : Order) : o.masked.masked = o.masked := by simp [Order.masked]
  simp [masked, Function.comp_def, projection, join, key, column, order]

/-! ## References -/

theorem resolve_masked (q : Query) (name : String) :
    q.masked.resolve name = (q.resolve name).map Expr.masked := by
  have item (p : Projection) : p.masked.items.find? (·.field == name)
      = (p.items.find? (·.field == name)).map ProjectionItem.masked := List.find?_map ..
  have key : q.masked.group.find? (·.label == name)
      = (q.group.find? (·.label == name)).map GroupKey.masked := List.find?_map ..
  have column : q.masked.aggregates.find? (·.label == name)
      = (q.aggregates.find? (·.label == name)).map AggregateColumn.masked := List.find?_map ..
  have projection : q.masked.projection = q.projection.map Projection.masked := rfl
  unfold resolve
  rw [projection, key, column]
  cases q.projection with
  | some p =>
    simp only [Option.map_some, item]
    cases p.items.find? (·.field == name) <;> rfl
  | none =>
    cases q.group.find? (·.label == name) with
    | some k => rfl
    | none =>
      cases q.aggregates.find? (·.label == name) with
      | some a => exact congrArg Except.ok a.toExpr_masked
      | none => rfl

theorem rebase_masked (q : Query) (e : Expr) :
    q.masked.rebase e.masked = (q.rebase e).map Expr.masked := by
  refine Expr.mapFields_masked (fun r => ?_) e
  unfold rebaseField
  split
  · exact q.resolve_masked r.field
  · rfl

theorem muted_deferredForm (e : Error) : (deferredForm e).muted = (deferredForm e.muted).muted := by
  cases e <;> rfl

theorem deferAll_masked (q : Query) {es es' : List Error}
    (h : es.map Error.muted = es'.map Error.muted) :
    (q.deferAll es).masked = (q.masked.deferAll es').masked := by
  have muted (es : List Error) : (es.head?.map deferredForm).map Error.muted
      = ((es.map Error.muted).head?.map deferredForm).map Error.muted := by
    cases es with
    | nil => rfl
    | cons e es => exact congrArg some (muted_deferredForm e)
  have head : (q.deferred.or (es.head?.map deferredForm)).map Error.muted
      = ((q.deferred.map Error.muted).or (es'.head?.map deferredForm)).map Error.muted := by
    cases q.deferred with
    | none => simp only [Option.none_or, Option.map_none, muted es, muted es', h]
    | some e => simp
  have same : (q.masked.deferAll es').masked
      = { q.masked.masked with
          deferred := ((q.deferred.map Error.muted).or (es'.head?.map deferredForm)).map
            Error.muted } := by
    rw [deferAll_eq]
    rfl
  rw [same, masked_masked, ← head, deferAll_eq]
  rfl

/-- The rebased expression and the query that remembers the failure, if it cannot be rebased. -/
theorem rebaseOrDefer_masked (q : Query) (e : Expr) :
    (q.rebaseOrDefer e).1.masked = (q.masked.rebaseOrDefer e.masked).1.masked ∧
      (q.rebaseOrDefer e).2.masked = (q.masked.rebaseOrDefer e.masked).2 := by
  unfold rebaseOrDefer
  rw [rebase_masked]
  cases q.rebase e with
  | ok e' => exact ⟨q.masked_masked.symm, rfl⟩
  | error err =>
    have deferred : (q.deferAll [err]).masked = (q.masked.deferAll [err]).masked :=
      q.deferAll_masked rfl
    exact ⟨deferred, rfl⟩

/-! ## Operations -/

theorem filter_masked (q : Query) (e : Expr) :
    (q.filter e).masked = (q.masked.filter e.masked).masked := by
  obtain ⟨hq, he⟩ := q.rebaseOrDefer_masked e
  have shape (q : Query) (e : Expr) : ({ q with filters := q.filters ++ [e] } : Query).masked
      = { q.masked with filters := q.masked.filters ++ [e.masked] } := by simp [masked]
  rw [filter, filter, shape, shape, ← hq, ← he, Expr.masked_masked]

theorem joinAs_masked (q : Query) (shape : ShapeId) (label : String) (kind : JoinKind) (on : Expr) :
    (q.joinAs shape label kind on).masked
      = (q.masked.joinAs shape label kind on.masked).masked := by
  obtain ⟨hq, he⟩ := q.rebaseOrDefer_masked on
  have step (q : Query) (e : Expr) :
      ({ q with joins := q.joins ++ [⟨⟨shape, label⟩, kind, some e⟩] } : Query).masked
        = { q.masked with joins := q.masked.joins ++ [⟨⟨shape, label⟩, kind, some e.masked⟩] } := by
    simp [masked, Join.masked]
  rw [joinAs, joinAs, step, step, ← hq, ← he, Expr.masked_masked]

@[simp] theorem nextAlias_masked (q : Query) : q.masked.nextAlias = q.nextAlias := by
  simp [nextAlias, masked]

@[simp] theorem nextPriority_masked (q : Query) : q.masked.nextPriority = q.nextPriority := by
  simp [nextPriority, masked, List.foldl_map, Order.masked]

theorem crossJoin_masked (q : Query) (shape : ShapeId) :
    (q.crossJoin shape).masked = (q.masked.crossJoin shape).masked := by
  have step (q : Query) (label : String) :
      ({ q with joins := q.joins ++ [⟨⟨shape, label⟩, .cross, none⟩] } : Query).masked
        = { q.masked with joins := q.masked.joins ++ [⟨⟨shape, label⟩, .cross, none⟩] } := by
    simp [masked, Join.masked]
  rw [crossJoin, crossJoin, step, step, nextAlias_masked, masked_masked]

theorem projectItem_masked (q : Query) (s : Shape) (item : String × Expr) :
    (q.projectItem s item).1.map Error.muted
        = (q.masked.projectItem s (item.1, item.2.masked)).1.map Error.muted ∧
      (q.projectItem s item).2.masked = (q.masked.projectItem s (item.1, item.2.masked)).2 := by
  obtain ⟨field, e⟩ := item
  unfold projectItem
  simp only [rebase_masked]
  cases q.rebase e with
  | ok e' =>
    simp only [Except.map, Expr.isProjectable_masked]
    refine ⟨?_, rfl⟩
    -- the two messages show different constants; muted they are equal
    cases e'.isProjectable <;> simp [Error.muted, Error.kind, Error.ofDetail?]
  | error err =>
    simp only [Except.map, Expr.isProjectable_masked]
    refine ⟨?_, rfl⟩
    cases e.isProjectable <;> simp [Error.muted, Error.kind, Error.ofDetail?]

def maskedPair (item : String × Expr) : String × Expr := (item.1, item.2.masked)

theorem select_masked (q : Query) (s : Shape) (items : List (String × Expr)) :
    (q.select s items).masked = (q.masked.select s (items.map maskedPair)).masked := by
  have errors : ((items.map (q.projectItem s)).flatMap (·.1)).map Error.muted
      = (((items.map maskedPair).map (q.masked.projectItem s)).flatMap (·.1)).map Error.muted := by
    simp only [List.map_flatMap, List.flatMap_map]
    rw [List.flatMap_def, List.flatMap_def]
    exact congrArg List.flatten
      (List.map_congr_left fun item _ => (q.projectItem_masked s item).1)
  have projected : ((items.map (q.projectItem s)).map (·.2)).map ProjectionItem.masked
      = ((items.map maskedPair).map (q.masked.projectItem s)).map (·.2) := by
    simp only [List.map_map]
    exact List.map_congr_left fun item _ => (q.projectItem_masked s item).2
  have step (q : Query) (es : List Error) (is : List ProjectionItem) :
      ({ q.deferAll es with result := s, projection := some ⟨s.name, is⟩, aggregates := [] }
        : Query).masked
      = { (q.deferAll es).masked with
          result := s, projection := some ⟨s.name, is.map ProjectionItem.masked⟩,
          aggregates := [] } := rfl
  have again (is : List ProjectionItem) :
      (is.map ProjectionItem.masked).map ProjectionItem.masked = is.map ProjectionItem.masked := by
    simp [ProjectionItem.masked]
  rw [select, select, step, step, ← q.deferAll_masked errors, ← projected, again]

theorem foldl_masked {f : Query → α → Query} {g : α → α}
    (h : ∀ q a, (f q a).masked = (f q.masked (g a)).masked) {q q' : Query}
    (hq : q.masked = q'.masked) {xs ys : List α} (hx : xs.map g = ys.map g) :
    (xs.foldl f q).masked = (ys.foldl f q').masked := by
  induction xs generalizing q q' ys with
  | nil =>
    cases ys with
    | nil => exact hq
    | cons y ys => simp at hx
  | cons x xs ih =>
    cases ys with
    | nil => simp at hx
    | cons y ys =>
      simp only [List.map_cons, List.cons.injEq] at hx
      have first : (f q x).masked = (f q' y).masked := by rw [h q x, h q' y, hq, hx.1]
      exact ih first hx.2

theorem pushGroupKey_masked (q : Query) (key : String × Expr) :
    (q.pushGroupKey key).masked = (q.masked.pushGroupKey (maskedPair key)).masked := by
  obtain ⟨hq, he⟩ := q.rebaseOrDefer_masked key.2
  have step (q : Query) (e : Expr) : ({ q with group := q.group ++ [⟨key.1, e⟩] } : Query).masked
      = { q.masked with group := q.masked.group ++ [⟨key.1, e.masked⟩] } := by
    simp [masked, GroupKey.masked]
  rw [pushGroupKey, pushGroupKey, maskedPair, step, step, ← hq, ← he, Expr.masked_masked]

theorem map_maskedPair_idem (xs : List (String × Expr)) :
    (xs.map maskedPair).map maskedPair = xs.map maskedPair := by
  simp [maskedPair]

theorem groupBy_masked (q : Query) (keys : List (String × Expr)) :
    (q.groupBy keys).masked = (q.masked.groupBy (keys.map maskedPair)).masked :=
  foldl_masked pushGroupKey_masked q.masked_masked.symm (map_maskedPair_idem keys).symm

theorem aggregate_masked (q : Query) (f : AggregateFunction) (selector : Option Expr)
    (label : String) :
    (q.aggregate f selector label).masked
      = (q.masked.aggregate f (selector.map Expr.masked) label).masked := by
  have step (q : Query) (e : Option Expr) :
      ({ q with aggregates := q.aggregates ++ [⟨f, e, label⟩] } : Query).masked
        = { q.masked with
            aggregates := q.masked.aggregates ++ [⟨f, e.map Expr.masked, label⟩] } := by
    simp [masked, AggregateColumn.masked]
  cases selector with
  | none => rw [Option.map_none, aggregate, aggregate, step, step, masked_masked]
  | some e =>
    obtain ⟨hq, he⟩ := q.rebaseOrDefer_masked e
    rw [Option.map_some, aggregate, aggregate, step, step, ← hq, ← he, Option.map_some,
      Option.map_some, Expr.masked_masked]

theorem orderBy_masked (q : Query) (key : Expr) (ascending : Bool) :
    (q.orderBy key ascending).masked = (q.masked.orderBy key.masked ascending).masked := by
  obtain ⟨hq, he⟩ := q.rebaseOrDefer_masked key
  have step (q : Query) (e : Expr) :
      ({ q with orders := q.orders ++ [⟨e, ascending, q.nextPriority⟩] } : Query).masked
        = { q.masked with
            orders := q.masked.orders ++ [⟨e.masked, ascending, q.masked.nextPriority⟩] } := by
    rw [nextPriority_masked]
    simp [masked, Order.masked]
  rw [orderBy, orderBy, step, step, ← hq, ← he, Expr.masked_masked]

def Step.masked : Step → Step
  | filter e => filter e.masked
  | whereFilter f => whereFilter f.masked
  | join shape kind on => join shape kind on.masked
  | joinAs shape label kind on => joinAs shape label kind on.masked
  | select s items => select s (items.map maskedPair)
  | groupBy keys => groupBy (keys.map maskedPair)
  | aggregate f selector label => aggregate f (selector.map Expr.masked) label
  | orderBy key ascending => orderBy key.masked ascending
  | st => st

/-- An operation on a query does to the masked query what it does to the query. -/
theorem apply_masked (q : Query) (st : Step) :
    (q.apply st).masked = (q.masked.apply st.masked).masked := by
  cases st with
  | filter e => exact q.filter_masked e
  | whereFilter f =>
    have h := q.filter_masked f.toExpr
    rwa [← Filter.toExpr_masked] at h
  | join shape kind on =>
    have h := q.joinAs_masked shape q.nextAlias kind on
    simpa only [apply, join, Step.masked, nextAlias_masked] using h
  | joinAs shape label kind on => exact q.joinAs_masked shape label kind on
  | crossJoin shape => exact q.crossJoin_masked shape
  | select s items => exact q.select_masked s items
  | groupBy keys => exact q.groupBy_masked keys
  | aggregate f selector label => exact q.aggregate_masked f selector label
  | orderBy key ascending => exact q.orderBy_masked key ascending
  | sort k => exact q.orderBy_masked (.named k.field) _
  | clearOrdering => exact congrArg clearOrdering q.masked_masked.symm
  | skip rows => exact congrArg (·.skip rows) q.masked_masked.symm
  | take rows => exact congrArg (·.take rows) q.masked_masked.symm
  | page page size => exact congrArg (·.page page size) q.masked_masked.symm
  | distinct => exact congrArg onlyDistinct q.masked_masked.symm

/-- Runs that differ in constants only build queries that differ in constants only. -/
theorem applyAll_masked {q q' : Query} (hq : q.masked = q'.masked) {xs ys : List Step}
    (h : xs.map Step.masked = ys.map Step.masked) :
    (q.applyAll xs).masked = (q'.applyAll ys).masked := foldl_masked apply_masked hq h

theorem search_masked (s : Shape) {x y : SearchRequest} (h : x.masked = y.masked) :
    (search s x).masked = (search s y).masked := by
  obtain ⟨hf, hs, hp, hn⟩ := SearchRequest.mk.inj h
  have filtered := foldl_masked (fun q f => apply_masked q (.whereFilter f))
    (q := ofShape s) rfl hf
  have sorted := foldl_masked (fun q k => apply_masked q (.sort k)) filtered
    (congrArg (List.map id) hs)
  unfold search
  rw [hp, hn]
  exact congrArg (·.page y.page y.pageSize) sorted

end Query

end RecordQuery
