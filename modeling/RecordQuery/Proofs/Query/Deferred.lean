import RecordQuery.Proofs.Compile.Clauses
import RecordQuery.Proofs.Query.Substitution

/-!
# The first error of a query is never lost

An operation meets an error of its own where an expression refers to a field that the projection
does not define, and a projection also at an item for no field of the shape or for neither a field
nor an aggregate (`Query.fault?`). The error of the first operation that meets one is what every
statement of the query fails with (`Query.first_error_never_lost`).
-/

namespace RecordQuery

/-- What a step fails with, if it does. -/
def failure? : Except ε α → Option ε
  | .ok _ => none
  | .error e => some e

/-- The first reference without a replacement decides the error. -/
theorem Expr.failure?_mapFields (f : FieldRef → Except Error Expr) (e : Expr) :
    failure? (e.mapFields f) = e.refs.findSome? fun r => failure? (f r) := by
  have one (x : Except Error Expr) (k : Expr → Expr) :
      failure? (x >>= fun t => pure (k t)) = failure? x := by
    cases x <;> rfl
  have two (x y : Except Error Expr) (k : Expr → Expr → Expr) :
      failure? (x >>= fun a => y >>= fun b => pure (k a b)) = (failure? x).or (failure? y) := by
    cases x <;> cases y <;> rfl
  induction e with
  | field r => cases h : failure? (f r) <;> simp [mapFields, refs, h]
  | constant v => rfl
  | binary op l r hl hr => rw [mapFields, two, hl, hr, refs, List.findSome?_append]
  | call m t ih => rw [mapFields, one, ih, refs]
  | callWith m t a ht ha => rw [mapFields, two, ht, ha, refs, List.findSome?_append]
  | negation e ih => rw [mapFields, one, ih, refs]
  | aggregateAll g => rfl
  | aggregate g a ih => rw [mapFields, one, ih, refs]

namespace Query

/-! ## Errors of operations -/

/-- A reference to the working shape is an error if there is a projection without that field. -/
def undefined? (q : Query) (r : FieldRef) : Option Error :=
  match q.projection with
  | none => none
  | some p =>
    if r.table = .current ∧ r.field ∉ p.items.map (·.field) then
      some (.unknownField p.shape r.field)
    else none

/-- The error of the first reference of an expression that is one. -/
def unresolved? (q : Query) (e : Expr) : Option Error := e.refs.findSome? q.undefined?

/-- An item of a projection is for a field of the shape, what it refers to is defined, and it stands
for a field or an aggregate. -/
def itemFault? (q : Query) (s : Shape) (item : String × Expr) : Option Error :=
  if s.hasField item.1 then
    match q.rebase item.2 with
    | .error _ => q.unresolved? item.2
    | .ok e =>
      if e.isProjectable then none
      else some (.unsupportedProjection (s.name ++ "." ++ item.1 ++ " = " ++ e.display))
  else some (.unknownField s.name item.1)

/-- The expressions an operation adds to a query. -/
def Step.exprs : Step → List Expr
  | .filter e => [e]
  | .whereFilter f => [f.toExpr]
  | .join _ _ on => [on]
  | .joinAs _ _ _ on => [on]
  | .select _ items => items.map (·.2)
  | .groupBy keys => keys.map (·.2)
  | .aggregate _ selector _ => selector.toList
  | .orderBy key _ => [key]
  | .sort k => [.named k.field]
  | _ => []

/-- The first error an operation meets. -/
def fault? (q : Query) : Step → Option Error
  | .select s items => items.findSome? (q.itemFault? s)
  | st => st.exprs.findSome? q.unresolved?

theorem failure?_rebaseField (q : Query) (r : FieldRef) :
    failure? (q.rebaseField r) = q.undefined? r := by
  obtain ⟨table, name⟩ := r
  unfold rebaseField undefined? resolve
  cases table with
  | shape label => cases q.projection <;> simp [failure?]
  | aliased label => cases q.projection <;> simp [failure?]
  | current =>
    cases q.projection with
    | none =>
      simp only
      split
      · rfl
      · split <;> rfl
    | some p =>
      simp only
      cases h : p.items.find? (·.field == name) with
      | none =>
        have missing : name ∉ p.items.map (·.field) := by simpa using h
        simp [failure?, missing]
      | some item =>
        have defined : name ∈ p.items.map (·.field) := by
          have same : item.field = name := by simpa using List.find?_some h
          exact same ▸ List.mem_map_of_mem (List.mem_of_find?_eq_some h)
        simp [failure?, defined]

/-- An expression can be rebased unless a reference of it is an error, the first of them. -/
theorem failure?_rebase (q : Query) (e : Expr) : failure? (q.rebase e) = q.unresolved? e := by
  rw [rebase, Expr.failure?_mapFields, unresolved?]
  exact congrArg (e.refs.findSome? ·) (funext q.failure?_rebaseField)

/-! ## One operation -/

theorem rebaseOrDefer_fst (q : Query) (e : Expr) :
    (q.rebaseOrDefer e).1
      = { q with deferred := q.deferred.or ((q.unresolved? e).map deferredForm) } := by
  rw [← failure?_rebase, rebaseOrDefer]
  cases q.rebase e with
  | ok e' => simp [failure?]
  | error err => rfl

/-- Errors are the same under the same projection. -/
theorem unresolved?_congr {q q' : Query} (h : q.projection = q'.projection) (e : Expr) :
    q.unresolved? e = q'.unresolved? e := by
  have each : q.undefined? = q'.undefined? := by
    funext r
    rw [undefined?, undefined?, h]
  rw [unresolved?, unresolved?, each]

theorem deferred_pushGroupKey (q : Query) (key : String × Expr) :
    (q.pushGroupKey key).deferred = q.deferred.or ((q.unresolved? key.2).map deferredForm) ∧
      (q.pushGroupKey key).projection = q.projection := by
  have pushed : q.pushGroupKey key = { (q.rebaseOrDefer key.2).1 with
    group := (q.rebaseOrDefer key.2).1.group ++ [⟨key.1, (q.rebaseOrDefer key.2).2⟩] } := rfl
  rw [pushed, rebaseOrDefer_fst]
  exact ⟨rfl, rfl⟩

/-- Keys do not change what the keys after them refer to in a projection. -/
theorem deferred_groupBy (q : Query) (keys : List (String × Expr)) :
    (q.groupBy keys).deferred
        = q.deferred.or (((keys.map (·.2)).findSome? q.unresolved?).map deferredForm) ∧
      (q.groupBy keys).projection = q.projection := by
  induction keys generalizing q with
  | nil => simp [groupBy]
  | cons key keys ih =>
    obtain ⟨first, same⟩ := q.deferred_pushGroupKey key
    obtain ⟨rest, kept⟩ := ih (q.pushGroupKey key)
    have later : (q.pushGroupKey key).unresolved? = q.unresolved? := funext (unresolved?_congr same)
    refine ⟨?_, kept.trans same⟩
    rw [groupBy, List.foldl_cons, ← groupBy, rest, first, later, List.map_cons,
      List.findSome?_cons]
    cases q.deferred <;> cases q.unresolved? key.2 <;> simp

theorem head?_projectItem (q : Query) (s : Shape) (item : String × Expr) :
    (q.projectItem s item).1.head? = q.itemFault? s item := by
  unfold projectItem itemFault?
  by_cases known : s.hasField item.1
  · cases h : q.rebase item.2 with
    | error err =>
      have unresolved := q.failure?_rebase item.2
      rw [h] at unresolved
      simp [known, h, ← unresolved, failure?]
    | ok e => by_cases fits : e.isProjectable <;> simp [known, h, fits]
  · simp [known]

/-- The error of an operation is deferred, unless an error is. A projection is kept or replaced. -/
theorem apply_frame (q : Query) (st : Step) :
    (q.apply st).deferred = q.deferred.or ((q.fault? st).map deferredForm) ∧
      ((q.apply st).projection = q.projection ∨ (q.apply st).projection.isSome = true) := by
  have one (e : Expr) : (q.rebaseOrDefer e).1.deferred
        = q.deferred.or (([e].findSome? q.unresolved?).map deferredForm) ∧
      ((q.rebaseOrDefer e).1.projection = q.projection ∨
        (q.rebaseOrDefer e).1.projection.isSome = true) := by
    rw [rebaseOrDefer_fst]
    refine ⟨?_, .inl rfl⟩
    cases h : q.unresolved? e <;> simp [h]
  have same : q.deferred = q.deferred.or ((none : Option Error).map deferredForm) := by simp
  cases st with
  | filter e => exact one e
  | whereFilter f => exact one f.toExpr
  | join shape kind on => exact one on
  | joinAs shape label kind on => exact one on
  | orderBy key ascending => exact one key
  | sort k => exact one (.named k.field)
  | aggregate f selector label =>
    cases selector with
    | none => exact ⟨same, .inl rfl⟩
    | some e => exact one e
  | groupBy keys =>
    obtain ⟨deferred, kept⟩ := q.deferred_groupBy keys
    exact ⟨deferred, .inl kept⟩
  | select s items =>
    refine ⟨?_, .inr rfl⟩
    rw [apply, select, deferAll_eq, List.head?_flatMap, List.findSome?_map, fault?]
    exact congrArg (fun f => q.deferred.or ((items.findSome? f).map deferredForm))
      (funext (q.head?_projectItem s))
  | _ => exact ⟨same, .inl rfl⟩

theorem projection_of_unresolved {q : Query} {e : Expr} {err : Error}
    (h : q.unresolved? e = some err) : q.projection.isSome = true := by
  obtain ⟨r, _, hr⟩ := List.exists_of_findSome?_eq_some h
  unfold undefined? at hr
  split at hr
  · cases hr
  · next p hp => rw [hp, Option.isSome_some]

/-- Without a projection no reference is an error. -/
theorem projection_of_fault {q : Query} {st : Step} {err : Error} (h : q.fault? st = some err) :
    (q.apply st).projection.isSome = true := by
  unfold fault? at h
  split at h
  · rfl
  · obtain ⟨e, _, he⟩ := List.exists_of_findSome?_eq_some h
    obtain kept | set := (q.apply_frame st).2
    · rw [kept, projection_of_unresolved he]
    · exact set

/-! ## Statements -/

section

variable {q : Query} {e : Error} (h : q.deferred = some e)
include h

theorem deferred_derived : q.derived.deferred = some e := by
  unfold derived
  split <;> exact h

theorem toSelect_of_deferred (r : Registry) (n : Nat) : (q.toSelect r).run n = ([], .error e) := by
  have fault : q.check = .error e := by rw [check, h]
  rw [toSelect, fault]
  rfl

/-- The columns of a projection are known without a registry, so the deferred error comes before any
other. -/
theorem statement_of_deferred (hp : q.projection.isSome = true) (r : Registry) (d : Dialect)
    (t : Terminal) : q.statement r d t = .error e := by
  have of_select {p : Query} (hd : p.deferred = some e) {m : Sql.Select → Lowering Sql.Retrieval} :
      (p.toSelect r >>= m).statement (Sql.Retrieval.pieces d) = .error e := by
    rw [Lowering.statement, Lowering.run_bind_of_error (toSelect_of_deferred hd r 0)]
    rfl
  unfold statement
  cases t with
  | rows => exact of_select h
  | count => exact of_select (deferred_derived h)
  | totalCount => exact of_select (p := q.allRows) h
  | «exists» => exact of_select (deferred_derived h)
  | aggregate f selector =>
    have columns : ∃ column, q.outputColumn? r selector = .ok column := by
      obtain ⟨p, hp⟩ := Option.isSome_iff_exists.mp hp
      have known : q.outputColumns r = .ok (p.items.map (·.field)) := by rw [outputColumns, hp]
      unfold outputColumn?
      split
      · rw [known]
        exact ⟨_, rfl⟩
      · exact ⟨_, rfl⟩
    obtain ⟨column, hc⟩ := columns
    rw [retrieval, aggregateRetrieval, hc, Lowering.ofExcept_ok_bind]
    cases column with
    | some column => exact of_select (deferred_derived h)
    | none =>
      refine of_select (deferred_derived ?_)
      rw [select, deferAll_eq, h, Option.some_or]

/-- Later operations keep a deferred error, and the projection it was met under or another one. -/
theorem deferred_applyAll (hp : q.projection.isSome = true) (steps : List Step) :
    (q.applyAll steps).deferred = some e ∧ (q.applyAll steps).projection.isSome = true := by
  induction steps generalizing q with
  | nil => exact ⟨h, hp⟩
  | cons st steps ih =>
    obtain ⟨deferred, kept | set⟩ := q.apply_frame st
    · exact ih (by rw [deferred, h, Option.some_or]) (by rw [kept, hp])
    · exact ih (by rw [deferred, h, Option.some_or]) set

end

/-- Operations that meet no error of their own defer none. -/
theorem deferred_applyAll_eq_none {q : Query} (h : q.deferred = none) {steps : List Step}
    (hs : ∀ before st after, steps = before ++ st :: after → (q.applyAll before).fault? st = none) :
    (q.applyAll steps).deferred = none := by
  induction steps generalizing q with
  | nil => exact h
  | cons st steps ih =>
    refine ih (q := q.apply st) ?_ fun before st' after split => ?_
    · have first : q.fault? st = none := hs [] st steps rfl
      rw [(q.apply_frame st).1, h, first]
      rfl
    · exact hs (st :: before) st' after (by rw [split, List.cons_append])

/-- A run that ends without a deferred error starts without one, and no operation of it meets
one. -/
theorem faultless_of_undeferred {q : Query} {steps : List Step}
    (h : (q.applyAll steps).deferred = none) :
    q.deferred = none ∧
      ∀ before st, before ++ [st] <+: steps → (q.applyAll before).fault? st = none := by
  induction steps generalizing q with
  | nil => exact ⟨h, fun before st split => by simp at split⟩
  | cons first steps ih =>
    obtain ⟨undeferred, rest⟩ := ih (q := q.apply first) h
    rw [(q.apply_frame first).1, Option.or_eq_none_iff, Option.map_eq_none_iff] at undeferred
    refine ⟨undeferred.1, fun before st split => ?_⟩
    cases before with
    | nil =>
      obtain ⟨rfl, _⟩ := List.cons_prefix_cons.mp split
      exact undeferred.2
    | cons st' before =>
      obtain ⟨rfl, later⟩ := List.cons_prefix_cons.mp split
      exact rest before st later

/-- An expression without an undefined reference can be rebased. -/
theorem rebase_ok_of_resolved {q : Query} {e : Expr} (h : q.unresolved? e = none) :
    ∃ e', q.rebase e = .ok e' := by
  rw [← failure?_rebase] at h
  cases hr : q.rebase e with
  | ok e' => exact ⟨e', rfl⟩
  | error err => simp [hr, failure?] at h

/-- A query without a deferred error takes the first that an operation meets, in the form in which
errors are deferred. Whatever operations follow, the query fails its check with that error and every
statement of it fails with that error. If no operation meets one, the query passes its check. -/
theorem first_error_never_lost {q : Query} (h : q.deferred = none) :
    (∀ st, (q.apply st).deferred = (q.fault? st).map deferredForm) ∧
    (∀ st e, (q.apply st).deferred = some e → ∀ after,
      ((q.apply st).applyAll after).check = .error e ∧
      ∀ r d t, ((q.apply st).applyAll after).statement r d t = .error e) ∧
    (∀ steps,
      (∀ before st after, steps = before ++ st :: after → (q.applyAll before).fault? st = none) →
      (q.applyAll steps).check = .ok ()) := by
  have first (st : Step) : (q.apply st).deferred = (q.fault? st).map deferredForm := by
    rw [(q.apply_frame st).1, h, Option.none_or]
  refine ⟨first, ?kept, ?clean⟩
  case kept =>
    intro st e he after
    have met := (first st).symm.trans he
    obtain ⟨err, fault, _⟩ := Option.map_eq_some_iff.mp met
    obtain ⟨deferred, projection⟩ := deferred_applyAll he (projection_of_fault fault) after
    exact ⟨by rw [check, deferred], statement_of_deferred deferred projection⟩
  case clean =>
    intro steps hs
    rw [check, deferred_applyAll_eq_none h hs]

/-- Faults of every sort: an item for no field, an unknown shape under an alias in use, page 0, a
sum of nothing. -/
def laterFaults : List Step := [
  .select cardShape [("colour", .constant .null)],
  .joinAs "Nowhere" baseAlias .left (.named "id"),
  .page 0 0,
  .aggregate .sum none "sum",
  .clearOrdering]

theorem first_error_never_lost_cards :
    (linesByCustomer.select cardShape cardItems).deferred = none ∧
    ((linesByCustomer.select cardShape cardItems).orderBy (.named "colour") true).deferred
      = some (.unknownField "Card" "colour") ∧
    (((linesByCustomer.select cardShape cardItems).orderBy (.named "colour") true).applyAll
      laterFaults).statement .empty .sqlite (.aggregate .max (.named "sum"))
        = .error (.unknownField "Card" "colour") ∧
    ((linesByCustomer.select cardShape cardItems).select cardShape
      [("sum", .negation (.named "title"))]).deferred
        = some (.unsupportedProjection "Unsupported projection: Card.sum = !customer_id") ∧
    ((linesByCustomer.select cardShape cardItems).orderBy (.named "sum") false).check = .ok () := by
  have start : (linesByCustomer.select cardShape cardItems).deferred = none := rfl
  obtain ⟨first, kept, clean⟩ := first_error_never_lost start
  refine ⟨start, first (.orderBy (.named "colour") true),
    (kept (.orderBy (.named "colour") true) _ rfl laterFaults).2 _ _ _,
    first (.select cardShape [("sum", .negation (.named "title"))]),
    clean [.orderBy (.named "sum") false] fun before st after split => ?_⟩
  cases before with
  | nil =>
    cases split
    rfl
  | cons st' before => simp at split

end Query

end RecordQuery
