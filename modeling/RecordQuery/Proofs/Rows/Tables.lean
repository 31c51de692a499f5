import RecordQuery.Proofs.Compile.Clauses
import RecordQuery.Proofs.Metadata.Keys
import RecordQuery.Proofs.Rows.Joins

/-!
# The tables a SELECT joins

A compiled SELECT joins the tables registered for the sources of its query and names no columns but
theirs (`Query.toSelect_over`), so keys that determine the rows of every table determine its joined
rows (`Select.Over.determined`).
-/

namespace RecordQuery

open Sql Lowering

theorem covers_of_declared {r : Registry} {ts : List ScopedTable} {sources : List Source}
    {p : String × String} (same : ts.map ScopedTable.source = sources)
    (registered : ∀ t ∈ ts, r.get? t.shape = some t.metadata) (h : Declared r sources p) :
    Covers ts p := by
  obtain ⟨s, hs, label, m, hm, c, hc, name⟩ := h
  rw [← same] at hs
  obtain ⟨t, ht, rfl⟩ := List.mem_map.mp hs
  have metadata : t.metadata = m := Option.some.inj ((registered t ht).symm.trans hm)
  exact ⟨t, ht, label, c, metadata ▸ hc, name⟩

/-- The table of a source under its alias. -/
def ScopedTable.name (t : ScopedTable) : String × String := (t.label, t.metadata.table)

def Sql.JoinClause.name (j : JoinClause) : String × String := (j.label, j.table)

theorem Query.joinClauses_names (r : Registry) (s : Scope) (i : Nat) (js : List Join)
    {us : List ScopedTable} (same : us.map ScopedTable.source = js.map (·.source))
    (registered : ∀ t ∈ us, r.get? t.shape = some t.metadata) :
    Yields (joinClauses r s i js) fun cs =>
      cs.map JoinClause.name = us.map ScopedTable.name ∧ cs.map (·.kind) = js.map (·.kind) := by
  induction js generalizing i us with
  | nil =>
    rw [List.map_nil, List.map_eq_nil_iff] at same
    subst same
    exact .pure ⟨rfl, rfl⟩
  | cons j rest ih =>
    obtain ⟨t, us, rfl, source, same⟩ := List.map_eq_cons_iff.mp same
    refine (Yields.ofExcept _).bind fun m hm => ?_
    refine Yields.bind (P := fun _ => True) (fun _ _ _ _ => trivial) fun on _ => ?_
    have later := ih (i + 1) same fun t ht => registered t (List.mem_cons_of_mem _ ht)
    refine later.map fun cs hcs => ?_
    have metadata : t.metadata = m := by
      have shape : t.shape = j.source.shape := congrArg Source.shape source
      have found := registered t List.mem_cons_self
      rw [shape, Registry.get_eq_ok_iff.mp hm] at found
      exact (Option.some.inj found).symm
    have label : t.label = j.source.label := congrArg Source.label source
    refine ⟨?_, congrArg (j.kind :: ·) hcs.2⟩
    rw [List.map_cons, List.map_cons, hcs.1, ScopedTable.name, label, metadata]
    rfl

theorem joinedTo_of_names {ts us : List ScopedTable} {js : List JoinClause}
    (names : js.map JoinClause.name = us.map ScopedTable.name)
    (labels : ((ts ++ us).map (·.label)).Nodup)
    (on : ∀ k j, js[k]? = some j → ∀ p ∈ j.columns, Covers (ts ++ us.take (k + 1)) p) :
    JoinedTo ts js us := by
  induction js generalizing ts us with
  | nil =>
    rw [List.map_nil, eq_comm, List.map_eq_nil_iff] at names
    subst names
    exact .nil ts
  | cons j js ih =>
    rw [List.map_cons, eq_comm] at names
    obtain ⟨t, us, rfl, name, names⟩ := List.map_eq_cons_iff.mp names
    obtain ⟨label, table⟩ := Prod.mk.inj name
    refine .cons ⟨label.symm, table.symm, ?_, on 0 j rfl⟩ (ih names.symm ?_ fun k c hc p hp => ?_)
    · intro u hu same
      rw [List.map_append, List.nodup_append] at labels
      exact labels.2.2 _ (List.mem_map_of_mem hu) _ (List.mem_map_of_mem List.mem_cons_self) same
    · rwa [List.append_cons] at labels
    · have := on (k + 1) c hc p hp
      rwa [List.take_succ_cons, List.append_cons] at this

/-- The tables a SELECT joins, and that it names no columns but theirs. -/
structure Sql.Select.Over (r : Registry) (q : Query) (x : Select) (ts : List ScopedTable) :
    Prop where
  stands : Stands r ts q.sources
  names : ∀ p ∈ x.names, Covers ts p
  joins : ∃ t us, ts = t :: us ∧ x.label = t.label ∧ x.table = t.metadata.table ∧
    JoinedTo [t] x.joins us
  kinds : x.joins.map (·.kind) = q.joins.map (·.kind)

theorem Query.toSelect_over {r : Registry} {q : Query} {n : Nat} {vs : List Value} {x : Select}
    (h : (q.toSelect r).run n = (vs, .ok x)) : ∃ ts, x.Over r q ts := by
  obtain ⟨inScope, _⟩ := q.toSelect_scoped r n vs x h
  obtain ⟨window, scope, us, core, ws, orders, _, _, hscope, hcore, _, rfl, rfl⟩ :=
    toSelect_ok_iff.mp h
  obtain ⟨cs, js, fs, gs, base, _, hbase, table, label, _, hjoins, _, rfl⟩ := coreSelect_ok hcore
  obtain ⟨stands, _⟩ := Scope.stands_of_ofSources hscope
  obtain ⟨us, tables⟩ := List.head?_eq_some_iff.mp (Scope.head_of_base hbase)
  rw [tables] at stands
  have joined : us.map ScopedTable.source = q.joins.map (·.source) :=
    (List.cons.inj stands.same).2
  obtain ⟨names, kinds⟩ := joinClauses_names r scope 0 q.joins joined
    (fun t ht => stands.registered t (List.mem_cons_of_mem _ ht)) _ _ _ hjoins
  refine ⟨base :: us, stands, fun p hp => ?_, ⟨base, us, rfl, label, table, ?_⟩, kinds⟩
  · exact covers_of_declared stands.same stands.registered (inScope.names p hp)
  · refine joinedTo_of_names names ?_ fun k j hj p hp => ?_
    · have labels := stands.labels
      rw [← stands.same, List.map_map] at labels
      exact labels
    · have declared := inScope.on k j hj p hp
      rw [← stands.same, ← List.map_take] at declared
      change Covers ((base :: us).take (k + 2)) p
      exact covers_of_declared rfl (fun t ht => stands.registered t (List.mem_of_mem_take ht))
        declared

/-! ## Joined rows -/

/-- The key columns determine the rows of the table. -/
def Metadata.KeyDetermines (m : Metadata) (rows : List StoredRow) : Prop :=
  ∀ a ∈ rows, ∀ b ∈ rows,
    (∀ f ∈ m.keys, ∀ c, m.fieldMapping? f = some c → a c.column = b c.column) →
    ∀ c ∈ m.columns, a c.column = b c.column

theorem Metadata.determines_of_key {m : Metadata} {rows : List StoredRow} (hm : m.fault? = none)
    (h : m.keys ≠ [] → m.KeyDetermines rows) : m.Determines rows := by
  intro a ha b hb same
  by_cases hk : m.keys = []
  · rwa [fallbackOrder_of_keyless hk] at same
  · rw [fallbackOrder_of_keyed hk (declares_of_fault?_eq_none hm)] at same
    exact h hk a ha b hb fun f hf c hc => same c (List.mem_filterMap.mpr ⟨f, hf, hc⟩)

/-- A row whose key columns are all null has nothing in the other columns either. -/
def Metadata.NullKeysEmpty (m : Metadata) (rows : List StoredRow) : Prop :=
  ∀ row ∈ rows, (∀ f ∈ m.keys, ∀ c, m.fieldMapping? f = some c → row c.column = .null) →
    ∀ c ∈ m.columns, row c.column = .null

/-- Then the key columns tell the absent row from the others too. -/
theorem Metadata.KeyDetermines.orAbsent {m : Metadata} {rows : List StoredRow} {full : Bool}
    (h : m.KeyDetermines rows) (empty : full = true → m.NullKeysEmpty rows) :
    m.KeyDetermines (orAbsent full .absent rows) := by
  intro a ha b hb same
  obtain ⟨counts, rfl⟩ | ha := mem_orAbsent.mp ha <;>
    obtain ⟨counts', rfl⟩ | hb := mem_orAbsent.mp hb
  · exact fun _ _ => rfl
  · exact fun c hc => (empty counts b hb (fun f hf c hc => (same f hf c hc).symm) c hc).symm
  · exact empty counts' a ha same
  · exact h a ha b hb same

/-- In every table of the query that declares a key, the key columns determine the row. -/
def Query.KeysDetermine (r : Registry) (db : Database) (q : Query) : Prop :=
  ∀ s ∈ q.sources, ∀ m, r.get? s.shape = some m → m.keys ≠ [] →
    m.KeyDetermines (db.rows m.table)

/-- Where there is a FULL JOIN, no row is stored in these tables that the keys do not tell from the
row which the join has for a missing partner. -/
def Query.NullKeysEmpty (r : Registry) (db : Database) (q : Query) : Prop :=
  q.joins.any (·.kind = .full) = true →
    ∀ s ∈ q.sources, ∀ m, r.get? s.shape = some m → m.keys ≠ [] →
      m.NullKeysEmpty (db.rows m.table)

theorem Sql.Select.Over.determined {r : Registry} {q : Query} {x : Select} {ts : List ScopedTable}
    (h : x.Over r q ts) {db : Database} (hk : q.KeysDetermine r db) (hn : q.NullKeysEmpty r db)
    (ps : List Param) :
    Determined ts (x.joined db ps) := by
  have stored (t : ScopedTable) (ht : t ∈ ts) :
      t.metadata.Determines (orAbsent (q.joins.any (·.kind = .full)) .absent
        (db.rows t.metadata.table)) := by
    have registered := h.stands.registered t ht
    have source : t.source ∈ q.sources := h.stands.same ▸ List.mem_map_of_mem ht
    refine Metadata.determines_of_key (Registry.fault?_of_get? registered) fun keyed => ?_
    exact (hk t.source source _ registered keyed).orAbsent fun full =>
      hn full t.source source _ registered keyed
  have full (j : JoinClause) (hj : j ∈ x.joins) (hf : j.kind = .full) :
      q.joins.any (·.kind = .full) = true := by
    have mem : JoinKind.full ∈ q.joins.map (·.kind) := by
      rw [← h.kinds, ← hf]
      exact List.mem_map_of_mem hj
    obtain ⟨k, hk, kind⟩ := List.mem_map.mp mem
    exact List.any_eq_true.mpr ⟨k, hk, decide_eq_true kind⟩
  obtain ⟨t, us, rfl, label, table, joined⟩ := h.joins
  have rows := determined_joined db ps joined full
    (determined_stored db (stored t List.mem_cons_self))
    fun u hu => stored u (List.mem_cons_of_mem _ hu)
  rw [← label, ← table] at rows
  exact fun a ha b hb => rows a (mem_orAbsent.mpr (.inr ha)) b (mem_orAbsent.mpr (.inr hb))

end RecordQuery
