import RecordQuery.Proofs.Compile.Supported
import RecordQuery.Proofs.Query.Tables
import RecordQuery.Proofs.Result

/-!
# Aliases that are bound twice

A join that is given no alias takes that of its number, whatever is bound to it. Every statement of
a query whose tables are not apart fails, and no statement fails with an alias that is bound twice
unless they are not, or with an unknown entity unless it is not registered (`Query.Failure`). They
are apart exactly if joins are given free aliases and none takes by its number what was given before
it (`alias_bound_twice_iff`).
-/

namespace RecordQuery

open Lowering

/-! ## Failures of clauses -/

/-- Two tables have this alias. -/
def Error.boundTwice (label : String) : Error :=
  .configuration ("alias '" ++ label ++ "' is bound twice")

/-- What a clause fails with where some shapes are not registered. -/
inductive Error.OfClause (absent : ShapeId → Prop) : Error → Prop
  | unknownEntity (shape : ShapeId) (h : absent shape) :
      OfClause absent (.unknownEntity shape.name)
  | unknownAlias (name : String) : OfClause absent (.unknownAlias name)
  | unknownField (shape field : String) : OfClause absent (.unknownField shape field)
  | unsupportedPredicate (detail : String) : OfClause absent (.unsupportedPredicate detail)
  | unsupportedProjection (detail : String) : OfClause absent (.unsupportedProjection detail)
  | noBase : OfClause absent (.configuration "query has no base table")

theorem Error.OfClause.ne_boundTwice {absent : ShapeId → Prop} {e : Error}
    (h : e.OfClause absent) (label : String) : e ≠ .boundTwice label := by
  rintro rfl
  cases hm : Error.boundTwice label with
  | configuration detail =>
    -- the two messages differ in their first letter
    have text : detail.toList = "alias '".toList ++ (label ++ "' is bound twice").toList := by
      rw [← String.toList_append, ← String.append_assoc, ← (Error.configuration.inj hm)]
    rw [hm] at h
    cases h
    cases text
  | _ => cases hm

/-- When a lowering fails, its error has the property. -/
def Lowering.Fails (m : Lowering α) (P : Error → Prop) : Prop :=
  ∀ n vs e, m.run n = (vs, .error e) → P e

namespace Lowering.Fails

variable {P : Error → Prop}

theorem pure (a : α) : Fails (Pure.pure a) P := by
  intro n vs e h
  cases h

theorem fail {e : Error} (h : P e) : Fails (Lowering.fail e : Lowering α) P := by
  intro n vs e' he
  cases he
  exact h

theorem ofExcept {x : Except Error α} (h : ∀ e, x = .error e → P e) :
    Fails (Lowering.ofExcept x) P := by
  intro n vs e he
  exact h e (Prod.mk.inj he).2

theorem push (v : Value) : Fails (Lowering.push v) P := by
  intro n vs e h
  cases h

theorem bind {m : Lowering α} {k : α → Lowering β} (hm : Fails m P) (hk : ∀ a, Fails (k a) P) :
    Fails (m >>= k) P := by
  intro n vs e h
  rcases hr : m.run n with ⟨us, err | a⟩
  · rw [run_bind_of_error hr] at h
    cases h
    exact hm n _ _ hr
  · rw [run_bind_of_ok hr] at h
    exact hk a _ _ e (Prod.ext rfl (Prod.mk.inj h).2)

theorem map {m : Lowering α} (hm : Fails m P) (f : α → β) :
    Fails (m >>= fun a => Pure.pure (f a)) P := hm.bind fun a => pure (f a)

theorem mapM {k : α → Lowering β} (h : ∀ a, Fails (k a) P) (xs : List α) :
    Fails (xs.mapM k) P := by
  induction xs with
  | nil => exact pure []
  | cons x xs ih =>
    rw [List.mapM_cons]
    exact (h x).bind fun b => ih.map _

/-- What is lowered from a result fails with the error of the result, or after it. -/
theorem ofExcept_bind {x : Except Error α} {k : α → Lowering β} (hx : ∀ e, x = .error e → P e)
    (hk : ∀ a, x = .ok a → Fails (k a) P) : Fails (Lowering.ofExcept x >>= k) P := by
  cases x with
  | ok a =>
    rw [ofExcept_ok_bind]
    exact hk a rfl
  | error err =>
    intro n vs e h
    rw [run_bind_of_error (run_ofExcept _ n)] at h
    cases h
    exact hx _ rfl

theorem unsupported (detail : String) {absent : ShapeId → Prop} :
    Fails (Lowering.unsupported detail : Lowering α) (Error.OfClause absent) :=
  fail (.unsupportedPredicate detail)

end Lowering.Fails

namespace Scope

variable {s : Scope} {e : Error} {absent : ShapeId → Prop}

theorem base_fails (h : s.base = .error e) : e.OfClause absent := by
  unfold base at h
  split at h
  · cases h
  · cases h
    exact .noBase

theorem tableFor_fails {r : TableRef} (h : s.tableFor r = .error e) : e.OfClause absent := by
  unfold tableFor at h
  split at h
  · split at h
    · cases h
    · cases h
      exact .noBase
  · split at h
    · cases h
    · cases h
      exact .unknownAlias _
  · split at h
    · cases h
    · cases h
      exact .unknownAlias _

theorem resolve_fails {r : FieldRef} (h : s.resolve r = .error e) : e.OfClause absent := by
  unfold resolve at h
  cases ht : s.tableFor r.table with
  | error err =>
    rw [ht] at h
    cases h
    exact tableFor_fails ht
  | ok t =>
    simp only [ht, bind, Except.bind] at h
    split at h
    · cases h
    · cases h
      exact .unknownField _ _

end Scope

theorem Registry.get_fails {r : Registry} {shape : ShapeId} {e : Error}
    {absent : ShapeId → Prop} (h : r.get shape = .error e)
    (asked : r.get? shape = none → absent shape) : e.OfClause absent := by
  unfold get at h
  split at h
  · cases h
  · next unknown =>
    cases h
    exact .unknownEntity shape (asked unknown)

namespace Expr

variable (s : Scope) {absent : ShapeId → Prop}

theorem toOperand_fails (e : Expr) : Fails (e.toOperand s) (Error.OfClause absent) := by
  cases e with
  | field r => exact .ofExcept fun _ => Scope.resolve_fails
  | constant v => exact (Fails.push v).map _
  | _ => exact .unsupported _

theorem toSelector_fails (e : Expr) : Fails (e.toSelector s) (Error.OfClause absent) := by
  unfold toSelector
  split
  · exact .pure _
  · exact .unsupported _
  · exact (toOperand_fails s _).map _
  · exact toOperand_fails s _

theorem nullTest_fails (op : Comparison) (t : Sql.Term) :
    Fails (nullTest op t) (Error.OfClause absent) := by
  cases op with
  | equal => exact .pure _
  | notEqual => exact .pure _
  | _ => exact .unsupported _

theorem toComparison_fails (op : Comparison) (l r : Expr) :
    Fails (toComparison s op l r) (Error.OfClause absent) := by
  unfold toComparison
  split
  · exact .unsupported _
  · exact (toOperand_fails s l).bind (nullTest_fails op)
  · exact (toOperand_fails s r).bind (nullTest_fails op)
  · exact (toOperand_fails s l).bind fun _ => (toOperand_fails s r).map _

theorem toMethodTest_fails (m : Method) (target : Expr) (argument : Option Expr) :
    Fails (toMethodTest s m target argument) (Error.OfClause absent) := by
  cases m with
  | text m =>
    refine (toOperand_fails s target).bind fun t => ?_
    split
    · exact (Fails.push _).map _
    · exact .unsupported _
  | isNull => exact (toOperand_fails s target).map _
  | isNotNull => exact (toOperand_fails s target).map _
  | other name => exact .unsupported _

theorem toCondition_fails (e : Expr) : Fails (e.toCondition s) (Error.OfClause absent) := by
  induction e with
  | field r => exact (toOperand_fails s _).map _
  | constant v => exact (toOperand_fails s _).map _
  | binary op l r ihl ihr =>
    cases op with
    | logical op => exact ihl.bind fun _ => ihr.map _
    | comparison op => exact toComparison_fails s op l r
    | arithmetic op => exact .unsupported _
  | call m t => exact toMethodTest_fails s m t none
  | callWith m t a => exact toMethodTest_fails s m t (some a)
  | negation e ih => exact ih.map _
  | aggregateAll f => exact .unsupported _
  | aggregate f a => exact .unsupported _

end Expr

namespace Query

section

variable (s : Scope) {absent : ShapeId → Prop}

theorem projectedColumns_fails (shape : String) (seen : List String)
    (items : List ProjectionItem) :
    Fails (projectedColumns s shape seen items) (Error.OfClause absent) := by
  induction items generalizing seen with
  | nil => exact .pure _
  | cons item rest ih =>
    unfold projectedColumns
    split
    · exact .fail (.unsupportedProjection _)
    · exact (Expr.toSelector_fails s _).bind fun t => (ih _).map _

theorem outputs_fails (q : Query) : Fails (outputs s q) (Error.OfClause absent) := by
  unfold outputs
  split
  · split
    · exact .fail (.unsupportedProjection _)
    · exact projectedColumns_fails s _ _ _
  · split
    · refine (Fails.mapM (fun k => ?_) q.group).bind fun keys =>
        (Fails.mapM (fun a => ?_) q.aggregates).map _
      · exact (Expr.toSelector_fails s _).map _
      · exact (Expr.toSelector_fails s _).map _
    · exact .ofExcept fun e h => Scope.base_fails (map_error_iff.mp h)

theorem joinClauses_fails (r : Registry) (i : Nat) (js : List Join)
    (asked : ∀ j ∈ js, r.get? j.source.shape = none → absent j.source.shape) :
    Fails (joinClauses r s i js) (Error.OfClause absent) := by
  have condition (s : Scope) (j : Join) : Fails (joinCondition s j) (Error.OfClause absent) := by
    unfold joinCondition
    split
    · exact .pure _
    · exact (Expr.toCondition_fails s _).map _
    · exact .unsupported _
  induction js generalizing i with
  | nil => exact .pure _
  | cons j rest ih =>
    obtain ⟨first, later⟩ := List.forall_mem_cons.mp asked
    refine (Fails.ofExcept fun _ h => Registry.get_fails h first).bind fun m => ?_
    exact (condition _ j).bind fun on => (ih (i + 1) later).map _

/-- The order that a page is given never fails for want of columns. -/
theorem orderKeys_fails (q : Query) (w : Option Window) (hk : keyTerms s ≠ []) :
    Fails (orderKeys s q w) (Error.OfClause absent) := by
  unfold orderKeys
  split
  · exact .mapM (fun o => (Expr.toSelector_fails s _).map _) _
  · split
    · refine Fails.map ?_ _
      unfold fallbackOrder
      split
      · exact .mapM (Expr.toSelector_fails s) _
      · rw [if_neg (by simpa using hk)]
        exact .pure _
    · exact .pure _

/-- A source of the query has a shape that is not registered. -/
def Lacks (r : Registry) (q : Query) (shape : ShapeId) : Prop :=
  r.get? shape = none ∧ ∃ src ∈ q.sources, src.shape = shape

theorem Lacks.of_mem {r : Registry} {q : Query} {src : Source} (mem : src ∈ q.sources)
    (unknown : r.get? src.shape = none) : q.Lacks r src.shape :=
  ⟨unknown, src, mem, rfl⟩

theorem coreSelect_fails (r : Registry) (q : Query) :
    Fails (q.coreSelect r s) (Error.OfClause (q.Lacks r)) := by
  have asked : ∀ j ∈ q.joins, r.get? j.source.shape = none → q.Lacks r j.source.shape :=
    fun j hj => .of_mem (List.mem_cons_of_mem _ (List.mem_map_of_mem hj))
  refine (outputs_fails s q).bind fun columns => ?_
  refine (Fails.ofExcept fun _ => Scope.base_fails).bind fun base => ?_
  refine (joinClauses_fails s r 0 q.joins asked).bind fun joins => ?_
  refine (Fails.mapM (Expr.toCondition_fails s) _).bind fun filters => ?_
  exact (Fails.mapM (Expr.toSelector_fails s) _).map _

end

end Query

/-! ## Failures of tables -/

/-- Tables are refused for a shape that is not registered, or two of them for their alias. -/
theorem Scope.tablesOf_fails {r : Registry} {seen : List ScopedTable} {sources : List Source}
    {e : Error} (h : tablesOf r seen sources = .error e) :
    (∃ src ∈ sources, r.get src.shape = .error e) ∨
      ∃ label, e = .boundTwice label ∧
        ¬(seen.map (·.label) ++ sources.map (·.label)).Nodup := by
  induction sources generalizing seen with
  | nil => cases h
  | cons src rest ih =>
    unfold tablesOf at h
    split at h
    · next bound =>
      cases h
      refine .inr ⟨src.label, rfl, fun apart => ?_⟩
      obtain ⟨t, ht, same⟩ : ∃ t ∈ seen, t.label = src.label := by simpa using bound
      have first : src.label ∈ (src :: rest).map (·.label) := List.mem_cons_self
      exact (List.nodup_append.mp apart).2.2 _ (List.mem_map_of_mem ht) _ first same
    · cases hm : r.get src.shape with
      | error err =>
        rw [hm] at h
        cases h
        exact .inl ⟨src, List.mem_cons_self, hm⟩
      | ok m =>
        rw [hm] at h
        obtain ⟨src', mem, unknown⟩ | ⟨label, rfl, bound⟩ := ih h
        · exact .inl ⟨src', List.mem_cons_of_mem _ mem, unknown⟩
        · refine .inr ⟨label, rfl, fun apart => bound ?_⟩
          rwa [List.map_append, List.append_assoc]

theorem Scope.ofSources_fails {r : Registry} {sources : List Source} {e : Error}
    (h : ofSources r sources = .error e) :
    (∃ src ∈ sources, r.get src.shape = .error e) ∨
      ∃ label, e = .boundTwice label ∧ ¬(sources.map (·.label)).Nodup := by
  unfold ofSources at h
  cases ht : tablesOf r [] sources with
  | error err =>
    rw [ht] at h
    cases h
    exact tablesOf_fails ht
  | ok tables =>
    rw [ht] at h
    cases h

/-! ## Failures of statements -/

namespace Query

/-- What a statement of a query fails with. -/
inductive Failure (r : Registry) (q : Query) : Error → Prop
  | clause {e : Error} (h : e.OfClause (q.Lacks r)) : Failure r q e
  | pages (detail : String) : Failure r q (.invalidPagination detail)
  | labels (label : String) (bound : ¬q.labels.Nodup) : Failure r q (.boundTwice label)

theorem Failure.not_nodup {r : Registry} {q : Query} {label : String}
    (h : q.Failure r (.boundTwice label)) : ¬q.labels.Nodup := by
  generalize he : Error.boundTwice label = e at h
  cases h with
  | clause h => exact absurd he.symm (h.ne_boundTwice label)
  | pages detail => cases he
  | labels _ bound => exact bound

/-- An entity is unknown only if a source of the query, of its name, is not registered. -/
theorem Failure.unregistered {r : Registry} {q : Query} {name : String}
    (h : q.Failure r (.unknownEntity name)) :
    ∃ src ∈ q.sources, src.shape.name = name ∧ r.get? src.shape = none := by
  generalize he : Error.unknownEntity name = e at h
  cases h with
  | clause h =>
    cases h with
    | unknownEntity _ lacks =>
      cases he
      obtain ⟨unknown, src, mem, rfl⟩ := lacks
      exact ⟨src, mem, rfl, unknown⟩
    | _ => cases he
  | pages detail => cases he
  | labels label bound => cases he

theorem window_fails {r : Registry} {q : Query} {e : Error} (h : q.window = .error e) :
    q.Failure r e := by
  unfold window at h
  split at h
  · cases h
  · replace h := map_error_iff.mp h
    unfold Pagination.window at h
    split at h
    · cases h
      exact .pages _
    · split at h
      · cases h
        exact .pages _
      · cases h

/-- Of the errors that calls meet, it keeps what a clause fails with. -/
theorem deferredForm_ofClause (absent : ShapeId → Prop) (e : Error) :
    (deferredForm e).OfClause absent := by
  cases e with
  | unknownField shape field => exact .unknownField shape field
  | _ => exact .unsupportedProjection _

/-- The error that a query carries is that of a clause. -/
def DefersClause (q : Query) : Prop := ∀ absent e, q.deferred = some e → e.OfClause absent

theorem defersClause_or {q q' : Query} (hq : q.DefersClause) {met : Option Error}
    (h : q'.deferred = q.deferred.or (met.map deferredForm)) : q'.DefersClause := by
  intro absent e he
  rw [h] at he
  obtain before | ⟨_, now⟩ := Option.or_eq_some_iff.mp he
  · exact hq absent e before
  · obtain ⟨err, _, rfl⟩ := Option.map_eq_some_iff.mp now
    exact deferredForm_ofClause absent err

theorem defersClause_applyAll (s : Shape) (steps : List Step) :
    ((ofShape s).applyAll steps).DefersClause := by
  induction steps using List.reverseRecOn with
  | nil => exact fun absent e he => by cases he
  | append_singleton steps st ih =>
    rw [applyAll_concat]
    exact defersClause_or ih (apply_frame _ st).1

theorem DefersClause.derived {q : Query} (h : q.DefersClause) : q.derived.DefersClause := by
  unfold Query.derived
  split <;> exact h

theorem DefersClause.select {q : Query} (h : q.DefersClause) (s : Shape)
    (items : List (String × Expr)) : (q.select s items).DefersClause :=
  defersClause_or h (by rw [Query.select, deferAll_eq])

variable {r : Registry} {q : Query}

theorem toSelect_fails (h : q.DefersClause) : Fails (q.toSelect r) (q.Failure r) := by
  rw [toSelect_eq]
  refine (Fails.ofExcept fun e he => ?_).bind fun _ => ?_
  · unfold check at he
    split at he
    · cases he
    · next deferred =>
      cases he
      exact .clause (h _ e deferred)
  refine (Fails.ofExcept fun e => window_fails).bind fun w => ?_
  refine Fails.ofExcept_bind (fun e he => ?_) fun s hs => ?_
  · obtain ⟨src, mem, unknown⟩ | ⟨label, rfl, bound⟩ := Scope.ofSources_fails he
    · exact .clause (Registry.get_fails unknown (.of_mem mem))
    · exact .labels label bound
  refine Fails.bind (fun n vs e he => ?_) fun core => Fails.map (fun n vs e he => ?_) _
  · exact .clause (coreSelect_fails s r q n vs e he)
  · exact .clause (orderKeys_fails s q w (keyTerms_ne_nil hs) n vs e he)

theorem outputColumn?_fails {selector : Expr} {e : Error}
    (h : q.outputColumn? r selector = .error e) : e.OfClause (q.Lacks r) := by
  unfold outputColumn? at h
  split at h
  · unfold outputColumns at h
    split at h
    · cases h
    · split at h
      · cases h
      · exact Registry.get_fails (map_error_iff.mp (map_error_iff.mp h))
          (.of_mem List.mem_cons_self)
  · cases h

/-- A statement fails with what its SELECT fails with, which is of the same tables. -/
theorem retrieval_fails (h : q.DefersClause) (t : Terminal) :
    Fails (q.retrieval r t) (q.Failure r) := by
  have part {p : Query} (hp : p.DefersClause) (same : p.sources = q.sources) :
      Fails (p.toSelect r) (q.Failure r) := by
    intro n vs e he
    cases toSelect_fails hp n vs e he with
    | clause h =>
      have lacks : p.Lacks r = q.Lacks r := funext fun _ => by rw [Lacks, Lacks, same]
      exact .clause (lacks ▸ h)
    | pages detail => exact .pages detail
    | labels label bound => exact .labels label (by rwa [labels, ← same])
  cases t with
  | rows => exact (part h rfl).map _
  | count => exact (part h.derived q.sources_derived).map _
  | totalCount => exact (part (p := q.allRows) h rfl).map _
  | «exists» => exact (part h.derived q.sources_derived).map _
  | aggregate f selector =>
    refine (Fails.ofExcept fun e he => .clause (outputColumn?_fails he)).bind fun column => ?_
    cases column with
    | some column => exact (part h.derived q.sources_derived).map _
    | none =>
      refine (part (h.select _ _).derived ?_).map _
      rw [sources_derived, sources_select]

/-- Over registered tables, a SELECT without other errors before fails exactly for its aliases. -/
theorem rows_boundTwice (undeferred : q.deferred = none) {w : Option Window}
    (hw : q.window = .ok w) (registered : ∀ src ∈ q.sources, ∃ m, r.get src.shape = .ok m)
    (d : Dialect) (bound : ¬q.labels.Nodup) :
    ∃ label, q.statement r d .rows = .error (.boundTwice label) := by
  cases hs : Scope.ofSources r q.sources with
  | ok s => exact absurd (Scope.stands_of_ofSources hs).1.labels bound
  | error e =>
    obtain ⟨src, hsrc, unknown⟩ | ⟨label, rfl, _⟩ := Scope.ofSources_fails hs
    · obtain ⟨m, hm⟩ := registered src hsrc
      cases hm.symm.trans unknown
    · have fails : (q.toSelect r).run 0 = ([], .error (.boundTwice label)) := by
        rw [toSelect_eq, check_ok_iff.mpr undeferred, ofExcept_ok_bind, hw, ofExcept_ok_bind, hs]
        rfl
      refine ⟨label, statement_error_iff.mpr ?_⟩
      rw [retrieval, run_bind_of_error fails]

/-! ## Free aliases -/

/-- A join that takes the alias of its number. -/
def Step.IsNumbered (st : Step) : Prop := ∃ call, st.join? = some call ∧ call.label = none

/-- No join is given an alias that is bound. -/
def GivenFree (s : Shape) (steps : List Step) : Prop :=
  ∀ before st, before ++ [st] <+: steps → ∀ label, st.givenLabel? = some label →
    label ∉ ((ofShape s).applyAll before).labels

/-- No join takes by its number an alias that was given before it. -/
def NumbersFree (s : Shape) (steps : List Step) : Prop :=
  ∀ before st, before ++ [st] <+: steps → st.IsNumbered →
    ((ofShape s).applyAll before).nextAlias ∉ before.filterMap Step.givenLabel?

theorem labels_nodup_iff (s : Shape) (steps : List Step) :
    ((ofShape s).applyAll steps).labels.Nodup ↔ GivenFree s steps ∧ NumbersFree s steps := by
  rw [labels_apart_iff]
  constructor
  · refine fun apart => ⟨fun before st split label given => ?_, fun before st split numbered => ?_⟩
    · obtain ⟨call, hcall, hlabel⟩ := Option.bind_eq_some_iff.mp given
      have free := apart before st split call hcall
      rwa [Query.label, hlabel] at free
    · obtain ⟨call, hcall, unlabelled⟩ := numbered
      have free := apart before st split call hcall
      rwa [Query.label, unlabelled, Option.getD_none, nextAlias_mem_labels_iff] at free
  · rintro ⟨given, numbers⟩ before st split call hcall
    cases hlabel : call.label with
    | some label =>
      have free := given before st split label (Option.bind_eq_some_iff.mpr ⟨call, hcall, hlabel⟩)
      rwa [Query.label, hlabel]
    | none =>
      rw [Query.label, hlabel, Option.getD_none, nextAlias_mem_labels_iff]
      exact numbers before st split ⟨call, hcall, hlabel⟩

end Query

open Query

/-- A join without an alias of its own takes that of its number, which is bound exactly if it was
given to a join before. A statement fails with an alias that is bound twice only where that happened
or a join was given an alias that was bound; and where one of the two happened the rows cannot be
selected. -/
theorem alias_bound_twice_iff (s : Shape) (steps : List Step) :
    let q := (ofShape s).applyAll steps
    (∀ st : Step, st.IsNumbered → (q.apply st).labels = q.labels ++ [q.nextAlias]) ∧
    (q.nextAlias ∈ q.labels ↔ q.nextAlias ∈ steps.filterMap Step.givenLabel?) ∧
    (∀ r d t label, q.statement r d t = .error (.boundTwice label) →
      ¬(GivenFree s steps ∧ NumbersFree s steps)) ∧
    (∀ r d, q.deferred = none → (∃ w, q.window = .ok w) →
      (∀ src ∈ q.sources, ∃ m, r.get src.shape = .ok m) →
      ((∃ label, q.statement r d .rows = .error (.boundTwice label)) ↔
        ¬(GivenFree s steps ∧ NumbersFree s steps))) := by
  intro q
  have only (r : Registry) (d : Dialect) (t : Terminal) (label : String)
      (h : q.statement r d t = .error (.boundTwice label)) :
      ¬(GivenFree s steps ∧ NumbersFree s steps) := by
    rw [← labels_nodup_iff]
    exact Failure.not_nodup <| retrieval_fails (defersClause_applyAll s steps) t 0 _ _
      (Prod.ext rfl (statement_error_iff.mp h))
  refine ⟨?takes, nextAlias_mem_labels_iff s steps, only, ?fails⟩
  case takes =>
    rintro st ⟨call, hcall, unlabelled⟩
    rw [labels_apply, hcall, Option.map_some, Query.label, unlabelled]
    rfl
  case fails =>
    rintro r d undeferred ⟨w, hw⟩ registered
    constructor
    · rintro ⟨label, h⟩
      exact only r d .rows label h
    · rw [← labels_nodup_iff]
      exact rows_boundTwice undeferred hw registered d

/-- The lines of orders, under the alias of the second join, and a second join. -/
def takenNumber : List Step := [
  .joinAs "Line" "t2" .inner (.compare .equal (.field ⟨.aliased "t2", "order"⟩) (.named "id")),
  .crossJoin "Item"]

theorem takenNumber_givenFree : GivenFree ⟨"Order", []⟩ takenNumber := by
  rintro before st ⟨after, split⟩ label given
  match before with
  | [] =>
    cases split
    cases given
    decide
  | [_] =>
    cases split
    cases given
  | _ :: _ :: _ => simp [takenNumber] at split

theorem takenNumber_not_numbersFree : ¬NumbersFree ⟨"Order", []⟩ takenNumber := fun free =>
  free [_] _ (List.prefix_refl _) ⟨_, rfl, rfl⟩ (by decide)

theorem alias_bound_twice_iff_takenNumber :
    ∃ label, ((ofShape ⟨"Order", []⟩).applyAll takenNumber).statement orderRegistry .sqlite .rows
      = .error (.boundTwice label) := by
  obtain ⟨_, _, _, fails⟩ := alias_bound_twice_iff ⟨"Order", []⟩ takenNumber
  have registered : ∀ src ∈ ((ofShape ⟨"Order", []⟩).applyAll takenNumber).sources,
      ∃ m, orderRegistry.get src.shape = .ok m := by
    refine List.forall_mem_cons.mpr ⟨⟨_, rfl⟩, List.forall_mem_cons.mpr ⟨⟨_, rfl⟩, ?_⟩⟩
    exact List.forall_mem_singleton.mpr ⟨_, rfl⟩
  refine (fails orderRegistry .sqlite rfl ⟨_, rfl⟩ registered).mpr fun free => ?_
  exact takenNumber_not_numbersFree free.2

/-- The one alias that was given was free, and the join after it is not bound to a free one. -/
theorem takenNumber_bound_twice :
    GivenFree ⟨"Order", []⟩ takenNumber ∧
    ((ofShape ⟨"Order", []⟩).applyAll takenNumber).statement orderRegistry .sqlServer .rows
      = .error (.configuration "alias 't2' is bound twice") ∧
    ¬∀ (s : Shape) (steps : List Step),
      ((ofShape s).applyAll steps).nextAlias ∉ ((ofShape s).applyAll steps).labels :=
  ⟨takenNumber_givenFree, rfl,
    fun free => free ⟨"Order", []⟩ (takenNumber.take 1) (by decide)⟩

end RecordQuery
