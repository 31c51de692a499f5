import RecordQuery.Proofs.Compile.Scope
import RecordQuery.Proofs.Sql.Reference
import RecordQuery.Compile.Select

/-!
# Queries are well scoped

Aliases are bound once, and every qualified name in the text of a query is one of a column that the
metadata of the table bound to the alias declares; a join condition names only tables before its
join and its own (`statements_scoped`). `Lowering.Yields` carries what a lowering says of its result
when it succeeds.
-/

namespace RecordQuery

open Sql

/-- When a lowering succeeds, its result has the property. -/
def Lowering.Yields (m : Lowering α) (P : α → Prop) : Prop :=
  ∀ n vs a, m.run n = (vs, .ok a) → P a

namespace Lowering.Yields

variable {P : α → Prop} {Q : β → Prop}

theorem pure {a : α} (h : P a) : Yields (Pure.pure a) P := by
  intro n vs b hb
  cases hb
  exact h

theorem fail {e : Error} : Yields (Lowering.fail e) P := by
  intro n vs b hb
  cases hb

theorem ofExcept (x : Except Error α) : Yields (Lowering.ofExcept x) (x = .ok ·) := by
  intro n vs b hb
  exact (Prod.mk.inj hb).2

theorem push (v : Value) : Yields (Lowering.push v) fun _ => True := fun _ _ _ _ => trivial

theorem bind {m : Lowering α} {k : α → Lowering β} (hm : Yields m P)
    (hk : ∀ a, P a → Yields (k a) Q) : Yields (m >>= k) Q := by
  intro n vs b hb
  obtain ⟨us, a, ws, ha, hf, rfl⟩ := run_bind_ok_iff.mp hb
  exact hk a (hm n us a ha) _ _ _ hf

theorem map {m : Lowering α} {f : α → β} (hm : Yields m P) (hk : ∀ a, P a → Q (f a)) :
    Yields (m >>= fun a => Pure.pure (f a)) Q := hm.bind fun a ha => pure (hk a ha)

theorem mapM {k : α → Lowering β} (h : ∀ a, Yields (k a) Q) (xs : List α) :
    Yields (xs.mapM k) fun ys => ∀ y ∈ ys, Q y := by
  induction xs with
  | nil => exact pure fun y hy => by cases hy
  | cons x xs ih =>
    rw [List.mapM_cons]
    refine (h x).bind fun b hb => ih.map fun bs hbs => ?_
    exact List.forall_mem_cons.mpr ⟨hb, hbs⟩

theorem mapM_map {k : α → Lowering β} {f : α → γ} {g : β → γ}
    (h : ∀ a, Yields (k a) (g · = f a)) (xs : List α) :
    Yields (xs.mapM k) fun ys => ys.map g = xs.map f := by
  induction xs with
  | nil => exact pure rfl
  | cons x xs ih =>
    rw [List.mapM_cons]
    refine (h x).bind fun b hb => ih.map fun bs hbs => ?_
    rw [List.map_cons, List.map_cons, hb, hbs]

end Lowering.Yields

open Lowering

/-! ## Scopes -/

/-- A visible table has the alias and its metadata the column. -/
def Scope.Declares (s : Scope) (p : String × String) : Prop :=
  ∃ t ∈ s.visibleTables, t.label = p.1 ∧ ∃ c ∈ t.metadata.columns, c.column = p.2

/-- One of the sources has the alias, and the metadata registered for its shape the column. -/
def Declared (r : Registry) (sources : List Source) (p : String × String) : Prop :=
  ∃ s ∈ sources, s.label = p.1 ∧
    ∃ m, r.get? s.shape = some m ∧ ∃ c ∈ m.columns, c.column = p.2

def ScopedTable.source (t : ScopedTable) : Source := ⟨t.shape, t.label⟩

/-- The tables are those of the sources, each under an alias of its own and with the metadata
registered for its shape. -/
structure Stands (r : Registry) (tables : List ScopedTable) (sources : List Source) : Prop where
  same : tables.map ScopedTable.source = sources
  labels : (sources.map (·.label)).Nodup
  registered : ∀ t ∈ tables, r.get? t.shape = some t.metadata

theorem Registry.get_eq_ok_iff {r : Registry} {shape : ShapeId} {m : Metadata} :
    r.get shape = .ok m ↔ r.get? shape = some m := by
  unfold Registry.get
  cases r.get? shape <;> simp

namespace Scope

theorem stands_of_tablesOf {r : Registry} {seen tables : List ScopedTable}
    {before sources : List Source} (hs : Stands r seen before)
    (h : tablesOf r seen sources = .ok tables) : Stands r tables (before ++ sources) := by
  induction sources generalizing seen before with
  | nil =>
    cases h
    rw [List.append_nil]
    exact hs
  | cons s rest ih =>
    unfold tablesOf at h
    split at h
    · cases h
    · next unbound =>
      cases hm : r.get s.shape with
      | error e => simp [hm, bind, Except.bind] at h
      | ok m =>
        rw [hm] at h
        -- the invariant holds of the tables before this source and this one
        have next : Stands r (seen ++ [⟨s.shape, s.label, m⟩]) (before ++ [s]) := by
          refine ⟨by simp [hs.same, ScopedTable.source], ?_, ?_⟩
          · have fresh : ∀ u ∈ before, u.label ≠ s.label := by
              rw [← hs.same]
              simpa [ScopedTable.source] using unbound
            rw [List.map_append, List.nodup_append]
            refine ⟨hs.labels, by simp, ?_⟩
            intro a ha b hb
            obtain ⟨u, hu, rfl⟩ := List.mem_map.mp ha
            obtain ⟨_, hw, rfl⟩ := List.mem_map.mp hb
            rw [List.mem_singleton.mp hw]
            exact fresh u hu
          · intro t ht
            rcases List.mem_append.mp ht with ht | ht
            · exact hs.registered t ht
            · rw [List.mem_singleton.mp ht]
              exact Registry.get_eq_ok_iff.mp hm
        have := ih next h
        rwa [List.append_assoc] at this

theorem stands_of_ofSources {r : Registry} {sources : List Source} {s : Scope}
    (h : ofSources r sources = .ok s) :
    Stands r s.tables sources ∧ s.visibleTables = s.tables := by
  unfold ofSources at h
  cases ht : tablesOf r [] sources with
  | error e => simp [ht, bind, Except.bind] at h
  | ok tables =>
    rw [ht] at h
    cases h
    have empty : Stands r [] [] := ⟨rfl, List.nodup_nil, by simp⟩
    exact ⟨stands_of_tablesOf empty ht, List.take_length⟩

theorem visibleTables_limited (s : Scope) (n : Nat) :
    (s.limited n).visibleTables = s.tables.take n := by
  simp [visibleTables, limited, List.take_eq_take_iff]

theorem head_of_base {s : Scope} {t : ScopedTable} (h : s.base = .ok t) :
    s.tables.head? = some t := by
  unfold base at h
  split at h
  · next hh => rw [hh, Except.ok.inj h]
  · cases h

end Scope

theorem Stands.base {r : Registry} {s : Scope} {q : Query} {t : ScopedTable}
    (hs : Stands r s.tables q.sources) (h : s.base = .ok t) : t.source = q.base := by
  have head := congrArg List.head? hs.same
  rw [List.head?_map, Scope.head_of_base h] at head
  exact Option.some.inj head

theorem Stands.declared {r : Registry} {tables : List ScopedTable} {sources : List Source}
    {s : Scope} {n : Nat} {p : String × String} (hs : Stands r tables sources)
    (hv : s.visibleTables = tables.take n) (h : s.Declares p) :
    Declared r (sources.take n) p := by
  obtain ⟨t, ht, hl, c, hc, hn⟩ := h
  rw [hv] at ht
  refine ⟨t.source, ?_, hl, t.metadata, hs.registered t (List.mem_of_mem_take ht), c, hc, hn⟩
  rw [← hs.same, ← List.map_take]
  exact List.mem_map_of_mem ht

theorem Declared.mono {r : Registry} {sources : List Source} {n : Nat} {p : String × String}
    (h : Declared r (sources.take n) p) : Declared r sources p := by
  obtain ⟨s, hs, rest⟩ := h
  exact ⟨s, List.mem_of_mem_take hs, rest⟩

/-! ## Expressions -/

namespace Expr

variable (s : Scope)

theorem toOperand_declares (e : Expr) :
    Yields (e.toOperand s) fun t => ∀ p ∈ t.columns, s.Declares p := by
  cases e with
  | field r =>
    intro n vs t ht
    obtain ⟨table, htable, c, hc, rfl⟩ := Scope.resolve_ok (Prod.mk.inj ht).2
    intro p hp
    rw [List.mem_singleton.mp hp]
    exact ⟨table, htable, rfl, c, hc, rfl⟩
  | constant v => exact (Yields.push v).map fun slot _ p hp => by cases hp
  | _ => exact .fail

theorem toSelector_declares (e : Expr) :
    Yields (e.toSelector s) fun t => ∀ p ∈ t.columns, s.Declares p := by
  unfold toSelector
  split
  · exact .pure fun p hp => by cases hp
  · exact .fail
  · exact (toOperand_declares s _).map fun t ht => ht
  · exact toOperand_declares s _

theorem nullTest_declares (op : Comparison) {t : Term} (ht : ∀ p ∈ t.columns, s.Declares p) :
    Yields (nullTest op t) fun c => ∀ p ∈ c.columns, s.Declares p := by
  cases op with
  | equal => exact .pure ht
  | notEqual => exact .pure ht
  | _ => exact .fail

theorem toComparison_declares (op : Comparison) (l r : Expr) :
    Yields (toComparison s op l r) fun c => ∀ p ∈ c.columns, s.Declares p := by
  unfold toComparison
  split
  · exact .fail
  · exact (toOperand_declares s l).bind fun t ht => nullTest_declares s op ht
  · exact (toOperand_declares s r).bind fun t ht => nullTest_declares s op ht
  · refine (toOperand_declares s l).bind fun lt hl => ?_
    exact (toOperand_declares s r).map fun rt hr => List.forall_mem_append.mpr ⟨hl, hr⟩

theorem toTextMatch_declares (m : TextMatch) (target : Expr) (argument : Option Expr) :
    Yields (toTextMatch s m target argument) fun c => ∀ p ∈ c.columns, s.Declares p := by
  refine (toOperand_declares s target).bind fun t ht => ?_
  split
  · exact (Yields.push _).map fun slot _ => ht
  · exact .fail

theorem toMethodTest_declares (m : Method) (target : Expr) (argument : Option Expr) :
    Yields (toMethodTest s m target argument) fun c => ∀ p ∈ c.columns, s.Declares p := by
  cases m with
  | text m => exact toTextMatch_declares s m target argument
  | isNull => exact (toOperand_declares s target).map fun t ht => ht
  | isNotNull => exact (toOperand_declares s target).map fun t ht => ht
  | other name => exact .fail

theorem toCondition_declares (e : Expr) :
    Yields (e.toCondition s) fun c => ∀ p ∈ c.columns, s.Declares p := by
  induction e with
  | field r => exact (toOperand_declares s _).map fun t ht => ht
  | constant v => exact (toOperand_declares s _).map fun t ht => ht
  | binary op l r ihl ihr =>
    cases op with
    | logical op =>
      exact ihl.bind fun lc hl => ihr.map fun rc hr => List.forall_mem_append.mpr ⟨hl, hr⟩
    | comparison op => exact toComparison_declares s op l r
    | arithmetic op => exact .fail
  | call m t => exact toMethodTest_declares s m t none
  | callWith m t a => exact toMethodTest_declares s m t (some a)
  | negation e ih => exact ih.map fun c hc => hc
  | aggregateAll f => exact .fail
  | aggregate f a => exact .fail

end Expr

/-! ## Clauses -/

namespace Query

section

variable {s : Scope}

theorem projectedColumns_declares (shape : String) (seen : List String)
    (items : List ProjectionItem) :
    Yields (projectedColumns s shape seen items) fun cs =>
      (∀ c ∈ cs, ∀ p ∈ c.term.columns, s.Declares p) ∧
        cs.map (·.label) = items.map (·.field) := by
  induction items generalizing seen with
  | nil => exact .pure ⟨fun c hc => (by cases hc), rfl⟩
  | cons item rest ih =>
    unfold projectedColumns
    split
    · exact .fail
    · refine (Expr.toSelector_declares s _).bind fun t ht => (ih _).map fun cs hcs => ?_
      exact ⟨List.forall_mem_cons.mpr ⟨ht, hcs.1⟩, congrArg (item.field :: ·) hcs.2⟩

theorem groupedColumns_declares (q : Query) :
    Yields (groupedColumns s q) fun cs =>
      (∀ c ∈ cs, ∀ p ∈ c.term.columns, s.Declares p) ∧
        cs.map (·.label) = q.group.map (·.label) ++ q.aggregates.map (·.label) := by
  have column (e : Expr) (label : String) :
      Yields (do return (⟨← e.toSelector s, label⟩ : OutputColumn)) fun c =>
        (∀ p ∈ c.term.columns, s.Declares p) ∧ c.label = label :=
    (e.toSelector_declares s).map fun t ht => ⟨ht, rfl⟩
  have columns {α : Type} (expr : α → Expr) (label : α → String) (xs : List α) :
      Yields (xs.mapM fun x => do return (⟨← (expr x).toSelector s, label x⟩ : OutputColumn))
        fun cs => (∀ c ∈ cs, ∀ p ∈ c.term.columns, s.Declares p) ∧
          cs.map (·.label) = xs.map label := by
    intro n vs cs h
    constructor
    · exact Yields.mapM (fun x n vs c hx => (column _ _ n vs c hx).1) xs n vs cs h
    · exact Yields.mapM_map (fun x n vs c hx => (column _ _ n vs c hx).2) xs n vs cs h
  unfold groupedColumns
  refine (columns _ _ q.group).bind fun keys hk => (columns _ _ q.aggregates).map fun as ha => ?_
  refine ⟨List.forall_mem_append.mpr ⟨hk.1, ha.1⟩, ?_⟩
  rw [List.map_append, hk.2, ha.2]

/-- The select list has the columns that a query is said to return. -/
theorem outputs_declares {r : Registry} {q : Query} (hs : Stands r s.tables q.sources)
    (hv : s.visibleTables = s.tables) :
    Yields (outputs s q) fun cs => (∀ c ∈ cs, ∀ p ∈ c.term.columns, s.Declares p) ∧
      q.outputColumns r = .ok (cs.map (·.label)) := by
  unfold outputs outputColumns
  cases q.projection with
  | some p =>
    simp only
    split
    · exact .fail
    · intro n vs cs h
      obtain ⟨hd, hl⟩ := projectedColumns_declares p.shape [] p.items n vs cs h
      exact ⟨hd, by rw [hl]⟩
  | none =>
    simp only
    split
    · intro n vs cs h
      obtain ⟨hd, hl⟩ := groupedColumns_declares q n vs cs h
      exact ⟨hd, by rw [hl]⟩
    · intro n vs cs h
      have hb := (Prod.mk.inj h).2
      cases hbase : s.base with
      | error e => simp [hbase, Except.map] at hb
      | ok t =>
        rw [hbase] at hb
        cases hb
        have ht : t ∈ s.tables := List.mem_of_mem_head? (Scope.head_of_base hbase)
        refine ⟨fun c hc p hp => ?_, ?_⟩
        · obtain ⟨m, hm, rfl⟩ := List.mem_map.mp hc
          rw [List.mem_singleton.mp hp]
          exact ⟨t, hv ▸ ht, rfl, m, hm, rfl⟩
        · have registered : r.get q.base.shape = .ok t.metadata := by
            rw [← hs.base hbase]
            exact Registry.get_eq_ok_iff.mpr (hs.registered t ht)
          simp [registered, Except.map, tableColumns]

end

theorem joinCondition_declares (s : Scope) (j : Join) :
    Yields (joinCondition s j) fun on => ∀ p ∈ on.elim [] Condition.columns, s.Declares p := by
  unfold joinCondition
  split
  · exact .pure fun p hp => by cases hp
  · exact (Expr.toCondition_declares s _).map fun c hc => hc
  · exact .fail

/-- The condition of a join names tables before it and its own. -/
theorem joinClauses_declares (r : Registry) (s : Scope) (i : Nat) (js : List Join) :
    Yields (joinClauses r s i js) fun cs => cs.map (·.label) = js.map (·.source.label) ∧
      ∀ k c, cs[k]? = some c → ∀ p ∈ c.columns, (s.limited (i + k + 2)).Declares p := by
  induction js generalizing i with
  | nil => exact .pure ⟨rfl, fun k c hc => by cases hc⟩
  | cons j rest ih =>
    refine (Yields.ofExcept _).bind fun m _ => (joinCondition_declares _ j).bind fun on hon => ?_
    refine (ih (i + 1)).map fun cs hcs => ⟨congrArg (j.source.label :: ·) hcs.1, ?_⟩
    intro k c hc
    cases k with
    | zero =>
      cases hc
      exact hon
    | succ k =>
      have := hcs.2 k c hc
      rwa [show i + 1 + k + 2 = i + (k + 1) + 2 by omega] at this

theorem mem_of_fallbackOrder {m : Metadata} {c : Mapping} (h : c ∈ m.fallbackOrder) :
    c ∈ m.columns := by
  simp only [Metadata.fallbackOrder] at h
  split at h
  · exact h
  · obtain ⟨key, _, hk⟩ := List.mem_filterMap.mp h
    exact List.mem_of_find?_eq_some hk

theorem fallbackOrder_declares (s : Scope) (q : Query) :
    Yields (fallbackOrder s q) fun ts => ∀ t ∈ ts, ∀ p ∈ t.columns, s.Declares p := by
  unfold fallbackOrder
  split
  · exact .mapM (Expr.toSelector_declares s) _
  · split
    · exact .fail
    · refine .pure fun t ht p hp => ?_
      obtain ⟨table, htable, ht⟩ := List.mem_flatMap.mp ht
      obtain ⟨c, hc, rfl⟩ := List.mem_map.mp ht
      rw [List.mem_singleton.mp hp]
      exact ⟨table, htable, rfl, c, mem_of_fallbackOrder hc, rfl⟩

theorem orderKeys_declares (s : Scope) (q : Query) (w : Option Window) :
    Yields (orderKeys s q w) fun os => ∀ o ∈ os, ∀ p ∈ o.term.columns, s.Declares p := by
  unfold orderKeys
  split
  · refine .mapM (fun o => ?_) _
    exact (Expr.toSelector_declares s o.key).map fun t ht => ht
  · split
    · refine (fallbackOrder_declares s q).map fun ts hts o ho => ?_
      obtain ⟨t, ht, rfl⟩ := List.mem_map.mp ho
      exact hts t ht
    · exact .pure fun o ho => by cases ho

end Query

/-! ## Statements -/

/-- Aliases are bound once, and names are those of declared columns of the tables in reach. -/
structure Sql.Select.Scoped (r : Registry) (sources : List Source) (s : Select) : Prop where
  distinct : (sources.map (·.label)).Nodup
  labels : s.label :: s.joins.map (·.label) = sources.map (·.label)
  names : ∀ p ∈ s.names, Declared r sources p
  on : ∀ k j, s.joins[k]? = some j → ∀ p ∈ j.columns, Declared r (sources.take (k + 2)) p

namespace Query

theorem toSelect_scoped (r : Registry) (q : Query) :
    Yields (q.toSelect r) fun s => s.Scoped r q.sources ∧
      q.outputColumns r = .ok (s.columns.map (·.label)) := by
  unfold toSelect
  refine (Yields.ofExcept _).bind fun _ _ => (Yields.ofExcept _).bind fun window _ => ?_
  refine (Yields.ofExcept _).bind fun scope hscope => ?_
  obtain ⟨hs, hv⟩ := Scope.stands_of_ofSources hscope
  refine (outputs_declares hs hv).bind fun columns hcolumns => ?_
  refine (Yields.ofExcept _).bind fun base hbase => ?_
  refine (joinClauses_declares r scope 0 q.joins).bind fun joins hjoins => ?_
  refine (Yields.mapM (Expr.toCondition_declares scope) q.filters).bind fun filters hfilters => ?_
  refine (Yields.mapM (Expr.toSelector_declares scope) q.groupExprs).bind fun group hgroup => ?_
  refine (orderKeys_declares scope q window).map fun orders horders => ⟨?_, hcolumns.2⟩
  have inReach {p : String × String} (hp : scope.Declares p) : Declared r q.sources p :=
    (hs.declared (by rw [hv, List.take_length]) hp).mono
  -- the condition of join `k` was lowered with `k + 2` tables visible
  have on (k : Nat) (j : JoinClause) (hj : joins[k]? = some j) (p : String × String)
      (hp : p ∈ j.columns) : Declared r (q.sources.take (k + 2)) p := by
    refine hs.declared (scope.visibleTables_limited (k + 2)) ?_
    have := hjoins.2 k j hj p hp
    rwa [Nat.zero_add] at this
  refine ⟨hs.labels, ?_, ?_, on⟩
  · have label : base.label = q.base.label := congrArg Source.label (hs.base hbase)
    rw [label, hjoins.1]
    simp [Query.sources]
  · intro p hp
    simp only [Select.names, List.mem_append, List.mem_flatMap] at hp
    rcases hp with (((⟨c, hc, hp⟩ | ⟨j, hj, hp⟩) | ⟨c, hc, hp⟩) | ⟨t, ht, hp⟩) | ⟨o, ho, hp⟩
    · exact inReach (hcolumns.1 c hc p hp)
    · obtain ⟨k, hk⟩ := List.getElem?_of_mem hj
      exact (on k j hk p hp).mono
    · exact inReach (hfilters c hc p hp)
    · exact inReach (hgroup t ht p hp)
    · exact inReach (horders o ho p hp)

theorem sources_derived (q : Query) : q.derived.sources = q.sources := by
  unfold derived
  split <;> rfl

theorem base_derived (q : Query) : q.derived.base = q.base := (List.cons.inj q.sources_derived).1

theorem distinct_derived (q : Query) : q.derived.distinct = q.distinct := by
  unfold derived
  split <;> rfl

theorem outputColumns_derived (r : Registry) (q : Query) :
    q.derived.outputColumns r = q.outputColumns r := by
  unfold derived
  split <;> rfl

theorem sources_select (q : Query) (s : Shape) (items : List (String × Expr)) :
    (q.select s items).sources = q.sources := by
  rw [select, deferAll_eq]
  rfl

theorem mem_of_outputColumn? {r : Registry} {q : Query} {selector : Expr} {column : String}
    (h : q.outputColumn? r selector = .ok (some column)) :
    ∃ names, q.outputColumns r = .ok names ∧ column ∈ names := by
  unfold outputColumn? at h
  split at h
  · next name =>
    cases hn : q.outputColumns r with
    | error e => simp [hn, Except.map] at h
    | ok names =>
      rw [hn] at h
      exact ⟨names, rfl, List.mem_of_find?_eq_some (Except.ok.inj h)⟩
  · cases h

/-- The outer names are of columns that the derived table has. -/
def Exposed (x : Retrieval) : Prop :=
  ∀ p ∈ x.outer.names, p.1 = derivedAlias ∧ p.2 ∈ x.inner.columns.map (·.label)

theorem aggregateRetrieval_scoped (r : Registry) (q : Query) (f : AggregateFunction)
    (selector : Expr) :
    Yields (q.aggregateRetrieval r f selector) fun x =>
      x.inner.Scoped r q.sources ∧ Exposed x := by
  have exposed {column : String} {s : Select} (h : column ∈ s.columns.map (·.label)) :
      Exposed ⟨.aggregate f column, s⟩ := by
    intro p hp
    rw [List.mem_singleton.mp hp]
    exact ⟨rfl, h⟩
  refine (Yields.ofExcept _).bind fun column hcolumn => ?_
  split
  · next column =>
    refine (q.derived.toSelect_scoped r).map fun s hs => ?_
    obtain ⟨names, hnames, hmem⟩ := mem_of_outputColumn? hcolumn
    have columns := hs.2
    rw [outputColumns_derived, hnames] at columns
    rw [← sources_derived]
    exact ⟨hs.1, exposed (Except.ok.inj columns ▸ hmem)⟩
  · refine (toSelect_scoped r _).map fun s hs => ?_
    have columns := hs.2
    rw [outputColumns_derived] at columns
    have value : [scalarAlias] = s.columns.map (·.label) := Except.ok.inj columns
    have inReach := hs.1
    rw [sources_derived, sources_select] at inReach
    exact ⟨inReach, exposed (value ▸ List.mem_singleton_self _)⟩

theorem retrieval_scoped (r : Registry) (q : Query) (t : Terminal) :
    Yields (q.retrieval r t) fun x => x.inner.Scoped r q.sources ∧ Exposed x := by
  have derived := q.derived.toSelect_scoped r
  rw [sources_derived] at derived
  cases t with
  | rows => exact (q.toSelect_scoped r).map fun s hs => ⟨hs.1, fun p hp => by cases hp⟩
  | count => exact derived.map fun s hs => ⟨hs.1, fun p hp => by cases hp⟩
  | totalCount =>
    exact (q.allRows.toSelect_scoped r).map fun s hs => ⟨hs.1, fun p hp => by cases hp⟩
  | «exists» => exact derived.map fun s hs => ⟨hs.1, fun p hp => by cases hp⟩
  | aggregate f selector => exact q.aggregateRetrieval_scoped r f selector

end Query

/-- The qualified names of a text. -/
def namesIn (sql : String) : List (String × String) := qualifiedNames (tokens sql)

/-- What the text of a statement over sources may name: aliases that are bound once, columns that
the metadata of the shape bound to an alias declares, in a join condition of the tables before the
join and its own only, and outside of the SELECT the columns it has. -/
structure WellScoped (r : Registry) (d : Dialect) (sources : List Source) (sql : String)
    (x : Retrieval) : Prop where
  distinct : (sources.map (·.label)).Nodup
  bound : x.inner.label :: x.inner.joins.map (·.label) = sources.map (·.label)
  inner : ∀ p ∈ namesIn (sqlOf (x.inner.pieces d)), Declared r sources p
  on : ∀ k j c, x.inner.joins[k]? = some j → j.on = some c →
    ∀ p ∈ namesIn (sqlOf c.pieces), Declared r (sources.take (k + 2)) p
  outer : ∃ outside, namesIn sql = outside ++ namesIn (sqlOf (x.inner.pieces d)) ∧
    ∀ p ∈ outside, p.1 = derivedAlias ∧ p.2 ∈ x.inner.columns.map (·.label)

theorem statements_scoped {r : Registry} {d : Dialect} {q : Query} {t : Query.Terminal}
    {s : Statement} (h : q.statement r d t = .ok s) :
    ∃ vs x, (q.retrieval r t).run 0 = (vs, .ok x) ∧ s.sql = sqlOf (x.pieces d) ∧
      WellScoped r d q.sources s.sql x := by
  unfold Query.statement Lowering.statement at h
  rcases hx : (q.retrieval r t).run 0 with ⟨vs, _ | x⟩
  · simp [hx, Except.map] at h
  rw [hx] at h
  cases h
  obtain ⟨inReach, exposed⟩ := q.retrieval_scoped r t 0 vs x hx
  have inner : namesIn (sqlOf (x.inner.pieces d)) = x.inner.names :=
    (x.inner.legible d).qualifiedNames (x.inner.refers d)
  have whole : namesIn (sqlOf (x.pieces d)) = x.outer.names ++ x.inner.names :=
    (x.legible d).qualifiedNames (x.refers d)
  refine ⟨vs, x, rfl, rfl, inReach.distinct, inReach.labels, ?inner, ?on,
    ⟨x.outer.names, inner ▸ whole, exposed⟩⟩
  case inner =>
    rw [inner]
    exact inReach.names
  case on =>
    intro k j c hj hc p hp
    rw [namesIn, c.legible.qualifiedNames c.refers] at hp
    refine inReach.on k j hj p ?_
    rwa [JoinClause.columns, hc]

def orderRegistry : Registry where
  entries := [
    ("Order", { table := "order", columns := [⟨"id", "id"⟩, ⟨"total", "sum"⟩], keys := ["id"] }),
    ("Line", { table := "line", columns := [⟨"order", "order_id"⟩, ⟨"item", "item_id"⟩] }),
    ("Item", { table := "item", columns := [⟨"id", "id"⟩, ⟨"name", "name"⟩] })]
  sound := by decide
  distinct := by decide

/-- The second join refers to the first, by alias and by column name. -/
def joinedOrders : Query :=
  Query.applyAll (.ofShape ⟨"Order", []⟩) [
    .join "Line" .inner
      (.compare .equal (.field ⟨.shape "Line", "order"⟩) (.field ⟨.shape "Order", "id"⟩)),
    .joinAs "Item" "sub" .left
      (.compare .equal (.field ⟨.aliased "sub", "id"⟩) (.field ⟨.aliased "t1", "item_id"⟩)),
    .filter (.callWith (.text .startsWith) (.field ⟨.shape "Item", "name"⟩)
      (.constant (.text "t0.[id]"))),
    .page 2 5]

theorem statements_scoped_joinedOrders :
    ∃ s, joinedOrders.statement orderRegistry .sqlite (.aggregate .sum (.named "total")) = .ok s ∧
      ∃ vs x, (joinedOrders.retrieval orderRegistry (.aggregate .sum (.named "total"))).run 0
          = (vs, .ok x) ∧
        s.sql = sqlOf (x.pieces .sqlite) ∧
        WellScoped orderRegistry .sqlite joinedOrders.sources s.sql x :=
  ⟨_, rfl, statements_scoped rfl⟩

end RecordQuery
