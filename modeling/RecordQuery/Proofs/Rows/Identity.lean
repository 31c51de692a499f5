import RecordQuery.Proofs.Rows.Injected
import RecordQuery.Proofs.Rows.Pages
import RecordQuery.Proofs.Rows.Tables

/-!
# The order of a page identifies its rows

Rows of a page without an order that agree on all its keys agree on all its columns, where the key
columns of every table determine its rows (`Query.rows_determined`). So there is one listing of the
rows that every page shows a part of (`Listing`), and pages that follow one another neither overlap
nor skip a row (`order_identifies_rows`). Rows without a key break this under a FULL JOIN
(`tripsAndDrivers_tie`).
-/

namespace RecordQuery

open Sql Lowering

/-! ## Rows of the result -/

section

variable {db : Database} {ps : List Param}

theorem mem_groupsBy {key : RowValues → List Value} {rows g : List RowValues}
    (h : g ∈ groupsBy key rows) :
    ∃ k, g = rows.filter (key · = k) ∧ ∃ row rest, g = row :: rest ∧ key row = k := by
  obtain ⟨k, hk, rfl⟩ := List.mem_map.mp h
  obtain ⟨row, hrow, rfl⟩ := List.mem_map.mp (List.mem_eraseDups.mp hk)
  refine ⟨key row, rfl, ?_⟩
  cases hg : rows.filter (key · = key row) with
  | nil =>
    have := List.filter_eq_nil_iff.mp hg row hrow
    simp at this
  | cons first rest =>
    have mem : first ∈ rows.filter (key · = key row) := hg ▸ List.mem_cons_self
    exact ⟨first, rest, rfl, by simpa using (List.mem_filter.mp mem).2⟩

/-- Of rows taken together, a term that is no aggregate has the value of the first. -/
theorem Sql.Term.value_cons {t : Term} (ht : t.isAggregate = false) (row : RowValues)
    (rest : List RowValues) : t.value db ps (row :: rest) = t.value db ps [row] := by
  cases t with
  | column label name => rfl
  | parameter slot => rfl
  | countAll => cases ht
  | aggregate f a => cases ht

namespace Sql.Select

variable {x : Select}

theorem mem_names_of_column {c : OutputColumn} {p : String × String} (hc : c ∈ x.columns)
    (hp : p ∈ c.term.columns) : p ∈ x.names := by
  simp only [names, List.mem_append, List.mem_flatMap]
  exact .inl (.inl (.inl (.inl ⟨c, hc, hp⟩)))

theorem mem_rows {a : ResultRow} (h : a ∈ x.rows db ps) :
    ∃ g ∈ x.groups db ps, a = x.result db ps g := by
  have mem : a ∈ (x.groups db ps).map (x.result db ps) := by
    unfold rows at h
    split at h
    · exact mem_of_mem_distinctRows h
    · exact h
  obtain ⟨g, hg, rfl⟩ := List.mem_map.mp mem
  exact ⟨g, hg, rfl⟩

/-- The keys have the values of what they stand for. -/
theorem keys_result (x : Select) (g : List RowValues) :
    (x.result db ps g).keys = (x.orders.map (·.term.quantity ps)).map (·.value db g) := by
  rw [List.map_map]
  rfl

theorem groups_of_aggregate (hg : x.group = []) (ha : x.aggregates = true) :
    x.groups db ps = [x.kept db ps] := by
  simp [groups, hg, ha]

theorem aggregates_of_columns (h : x.columns.any (·.term.isAggregate) = true) :
    x.aggregates = true := by
  rw [aggregates, h, Bool.true_or]

/-- Groups with the same key are the same group. -/
theorem groups_determined (hg : x.group ≠ []) {g g' : List RowValues} (h : g ∈ x.groups db ps)
    (h' : g' ∈ x.groups db ps)
    (same : x.group.map (·.value db ps g) = x.group.map (·.value db ps g')) : g = g' := by
  unfold groups at h h'
  split at h
  · cases h
  next plain =>
    rw [if_neg plain, if_pos (by simpa using hg)] at h'
    rw [if_pos (by simpa using hg)] at h
    have first (row : RowValues) (rest : List RowValues) :
        x.group.map (·.value db ps (row :: rest)) = x.group.map (·.value db ps [row]) := by
      refine List.map_congr_left fun t ht => t.value_cons ?_ row rest
      exact Bool.eq_false_iff.mpr fun ha => plain (List.any_eq_true.mpr ⟨t, ht, ha⟩)
    obtain ⟨k, rfl, row, rest, cons, key⟩ := mem_groupsBy h
    obtain ⟨k', rfl, row', rest', cons', key'⟩ := mem_groupsBy h'
    rw [cons, cons', (first row rest).trans key, (first row' rest').trans key'] at same
    rw [same]

end Sql.Select

/-- Rows that agree on the order of a page without one agree on all columns. -/
theorem Query.rows_determined {r : Registry} {q : Query} {x : Select} {ts : List ScopedTable}
    (joins : x.Over r q ts) (injected : Injected r q ps x) (hk : q.KeysDetermine r db)
    (hn : q.NullKeysEmpty r db) {a b : ResultRow} (ha : a ∈ x.rows db ps)
    (hb : b ∈ x.rows db ps) (same : a.keys = b.keys) : a.columns = b.columns := by
  obtain ⟨g, hg, rfl⟩ := Select.mem_rows ha
  obtain ⟨g', hg', rfl⟩ := Select.mem_rows hb
  have single (ungrouped : x.group = []) (aggregates : x.aggregates = true) : g = g' := by
    rw [Select.groups_of_aggregate ungrouped aggregates, List.mem_singleton] at hg hg'
    rw [hg, hg']
  cases injected with
  | groupKeys group keys =>
    rw [Select.keys_result, Select.keys_result, keys, List.map_map, List.map_map] at same
    rw [Select.groups_determined group hg hg' same]
  | aggregate ungrouped aggregate => rw [single ungrouped (Select.aggregates_of_columns aggregate)]
  | columns ungrouped _ _ keys =>
    rw [Select.keys_result, Select.keys_result, keys, List.map_map, List.map_map] at same
    exact same
  | identifiers ungrouped _ keys =>
    cases aggregates : x.aggregates with
    | true => rw [single ungrouped aggregates]
    | false =>
      have groups : x.groups db ps = (x.kept db ps).map ([·]) := by
        simp [Select.groups, ungrouped, aggregates]
      rw [groups] at hg hg'
      obtain ⟨row, hrow, rfl⟩ := List.mem_map.mp hg
      obtain ⟨row', hrow', rfl⟩ := List.mem_map.mp hg'
      have values : ∀ t ∈ q.sources.flatMap r.identifiers,
          t.value db ps [row] = t.value db ps [row'] := by
        intro t ht
        rw [← keys] at ht
        obtain ⟨o, ho, rfl⟩ := List.mem_map.mp ht
        exact List.map_inj_left.mp same o ho
      have agree : AgreeOn Metadata.columns ts row row' := by
        have joined := (List.mem_filter.mp hrow).1
        have joined' := (List.mem_filter.mp hrow').1
        refine joins.determined hk hn ps row joined row' joined' fun t ht c hc =>
          values (.column t.label c.column) ?_
        refine List.mem_flatMap.mpr ⟨t.source, ?_, ?_⟩
        · rw [← joins.stands.same]
          exact List.mem_map_of_mem ht
        · rw [Registry.identifiers, ScopedTable.source, joins.stands.registered t ht]
          exact List.mem_map_of_mem hc
      refine List.map_congr_left fun c hc => c.term.value_congr db ps fun p hp => ?_
      exact agree.covered (joins.names p (Select.mem_names_of_column hc hp))

end

/-- What the order of a page without one is, and that it tells the rows of the result apart. -/
structure IdentifiesRows (r : Registry) (q : Query) (ps : List Param) (x : Select) : Prop where
  ascending : ∀ o ∈ x.orders, o.ascending = true
  grouped : x.group ≠ [] →
    x.orders.map (·.term.quantity ps) = x.group.map (·.quantity ps)
  /-- An aggregate without group keys has one row. -/
  aggregated : x.group = [] → x.columns.any (·.term.isAggregate) = true →
    ∀ db, (x.rows db ps).length = 1
  distinct : x.group = [] → x.columns.any (·.term.isAggregate) = false → x.distinct = true →
    q.projection.isSome = true →
    x.orders.map (·.term.quantity ps) = x.columns.map (·.term.quantity ps)
  plain : x.group = [] → x.columns.any (·.term.isAggregate) = false →
    ¬(x.distinct = true ∧ q.projection.isSome = true) →
    x.orders.map (·.term) = q.sources.flatMap r.identifiers
  identifiers : ∀ s ∈ q.sources, ∃ m cs, r.get? s.shape = some m ∧ m.Identifies cs ∧
    r.identifiers s = cs.map fun c => .column s.label c.column
  determined : ∀ db, q.KeysDetermine r db → q.NullKeysEmpty r db →
    ∀ a ∈ x.rows db ps, ∀ b ∈ x.rows db ps, a.keys = b.keys → a.columns = b.columns
  pages : ∀ db, q.KeysDetermine r db → q.NullKeysEmpty r db →
    ∀ le : List Value → List Value → Prop, (∀ a b, le a b → le b a → a = b) →
    ∀ whole : List ResultRow, whole.Perm (x.rows db ps) →
    whole.Pairwise (fun a b => le a.keys b.keys) → Listing r db le q whole

/-- The identifiers of a source are the columns of its key fields, or all its columns. -/
theorem Registry.identifies {r : Registry} {s : Source} {m : Metadata}
    (h : r.get? s.shape = some m) :
    ∃ cs, m.Identifies cs ∧ r.identifiers s = cs.map fun c => .column s.label c.column := by
  refine ⟨m.fallbackOrder, Metadata.identifies_fallbackOrder (Registry.fault?_of_get? h), ?_⟩
  rw [identifiers, h]
  rfl

theorem Sql.Select.length_rows_of_aggregate {x : Select} (ungrouped : x.group = [])
    (aggregate : x.columns.any (·.term.isAggregate) = true) (db : Database) (ps : List Param) :
    (x.rows db ps).length = 1 := by
  rw [rows, groups_of_aggregate ungrouped (aggregates_of_columns aggregate)]
  split <;> rfl

theorem order_identifies_rows {r : Registry} {d : Dialect} {q : Query} {s : Statement}
    (h : q.statement r d .rows = .ok s) (paged : q.pagination.isSome = true)
    (unordered : q.orders = []) (one : q.projection = none ∨ q.aggregates = []) :
    ∃ vs x, (q.toSelect r).run 0 = (vs, .ok x) ∧ s = .ofPieces (x.pieces d) vs ∧
      IdentifiesRows r q s.params x := by
  obtain ⟨vs, ⟨outer, x⟩, hx, rfl⟩ := statement_ok_iff.mp h
  obtain ⟨_, hx, same⟩ := run_map_ok_iff.mp hx
  cases same
  obtain ⟨ascending, injected⟩ := Query.toSelect_injected hx paged unordered one
  obtain ⟨ts, joins⟩ := Query.toSelect_over hx
  have determined (db : Database) (hk : q.KeysDetermine r db) (hn : q.NullKeysEmpty r db) :
      ∀ a ∈ x.rows db (Param.number vs), ∀ b ∈ x.rows db (Param.number vs),
        a.keys = b.keys → a.columns = b.columns :=
    fun a ha b hb => Query.rows_determined joins injected hk hn ha hb
  refine ⟨vs, x, hx, rfl, ascending, injected.group_keys, ?aggregated, injected.distinct_keys,
    injected.plain_keys, ?identifiers, determined, ?pages⟩
  case aggregated =>
    exact fun ungrouped aggregate db => x.length_rows_of_aggregate ungrouped aggregate db _
  case identifiers =>
    intro s hs
    rw [← joins.stands.same] at hs
    obtain ⟨t, ht, rfl⟩ := List.mem_map.mp hs
    have registered := joins.stands.registered t ht
    obtain ⟨cs, columns, terms⟩ := Registry.identifies (s := t.source) registered
    exact ⟨t.metadata, cs, registered, columns, terms⟩
  case pages =>
    intro db hk hn le antisymm whole perm sorted
    exact Query.listing hx paged antisymm (determined db hk hn) perm sorted

/-- Two orders of the same total, one of them with a line. -/
def orderRows : Database where
  compare op a b := op = .equal && a = b
  like a b := a = b
  numeral s := .text s
  size n := .long (.ofNat n)
  figure _ vs := vs.headD .null
  rows table :=
    if table = "order" then [fun _ => .long 7, fun c => .long (if c = "id" then 8 else 7)]
    else if table = "line" then [fun _ => .long 8]
    else []

theorem keysDetermine_orderRows : joinedOrders.KeysDetermine orderRegistry orderRows := by
  intro s hs m hm keyed
  have sources : joinedOrders.sources = [⟨"Order", "t0"⟩, ⟨"Line", "t1"⟩, ⟨"Item", "sub"⟩] := rfl
  simp only [sources, List.mem_cons, List.not_mem_nil, or_false] at hs
  obtain rfl | rfl | rfl := hs
  · cases hm
    intro a ha b hb same c _
    have id := same "id" List.mem_cons_self ⟨"id", "id"⟩ rfl
    simp only [orderRows, ↓reduceIte, List.mem_cons, List.not_mem_nil, or_false] at ha hb
    obtain rfl | rfl := ha <;> obtain rfl | rfl := hb
    · rfl
    · exact absurd id (by decide)
    · exact absurd id (by decide)
    · rfl
  · cases hm
    exact absurd rfl keyed
  · cases hm
    exact absurd rfl keyed

theorem order_identifies_rows_joinedOrders :
    ∃ s vs x, joinedOrders.statement orderRegistry .sqlite .rows = .ok s ∧
      (joinedOrders.toSelect orderRegistry).run 0 = (vs, .ok x) ∧
      IdentifiesRows orderRegistry joinedOrders s.params x ∧
      ∀ a ∈ x.rows orderRows s.params, ∀ b ∈ x.rows orderRows s.params,
        a.keys = b.keys → a.columns = b.columns := by
  obtain ⟨vs, x, hx, _, identifies⟩ :=
    order_identifies_rows (r := orderRegistry) (d := .sqlite) (q := joinedOrders) rfl rfl rfl
      (.inl rfl)
  exact ⟨_, vs, x, rfl, hx, identifies, identifies.determined orderRows keysDetermine_orderRows
    nofun⟩

/-- A trip and a driver, neither of them with a key. -/
def nullKeyRows : Database where
  compare op a b := op = .equal && a = b
  like a b := a = b
  numeral s := .text s
  size n := .long (.ofNat n)
  figure _ vs := vs.headD .null
  rows table := [fun c => if c = "id" then .null else .text table]

def tripRegistry : Registry where
  entries := [
    ("Trip", { table := "trip", columns := [⟨"id", "id"⟩, ⟨"name", "name"⟩], keys := ["id"] }),
    ("Driver", { table := "driver", columns := [⟨"id", "id"⟩, ⟨"name", "name"⟩], keys := ["id"] })]
  sound := by decide
  distinct := by decide

/-- The first page of all trips and all drivers. -/
def tripsAndDrivers : Query :=
  Query.applyAll (.ofShape ⟨"Trip", []⟩) [
    .join "Driver" .full
      (.compare .equal (.field ⟨.shape "Trip", "id"⟩) (.field ⟨.shape "Driver", "id"⟩)),
    .page 1 10]

theorem keysDetermine_nullKeyRows : tripsAndDrivers.KeysDetermine tripRegistry nullKeyRows := by
  intro s _ m _ _ a ha b hb _ c _
  rw [List.mem_singleton.mp ha, List.mem_singleton.mp hb]

/-- The rows of the trip without a driver and of the driver without a trip have the same keys,
though the keys determine the rows of both tables. -/
theorem tripsAndDrivers_tie :
    (∃ s vs x, tripsAndDrivers.statement tripRegistry .sqlite .rows = .ok s ∧
      (tripsAndDrivers.toSelect tripRegistry).run 0 = (vs, .ok x) ∧
      tripsAndDrivers.KeysDetermine tripRegistry nullKeyRows ∧
      x.rows nullKeyRows s.params
        = [⟨[.null, .text "trip"], [.null, .null]⟩, ⟨[.null, .null], [.null, .null]⟩]) ∧
    ¬∀ (r : Registry) (d : Dialect) (q : Query) (s : Statement) (vs : List Value) (x : Select)
        (db : Database), q.statement r d .rows = .ok s → q.pagination.isSome = true →
      q.orders = [] → (q.projection = none ∨ q.aggregates = []) →
      (q.toSelect r).run 0 = (vs, .ok x) → q.KeysDetermine r db →
      ∀ a ∈ x.rows db s.params, ∀ b ∈ x.rows db s.params, a.keys = b.keys →
        a.columns = b.columns := by
  have tie : ∃ s vs x, tripsAndDrivers.statement tripRegistry .sqlite .rows = .ok s ∧
      (tripsAndDrivers.toSelect tripRegistry).run 0 = (vs, .ok x) ∧
      x.rows nullKeyRows s.params
        = [⟨[.null, .text "trip"], [.null, .null]⟩, ⟨[.null, .null], [.null, .null]⟩] :=
    ⟨_, _, _, rfl, rfl, rfl⟩
  obtain ⟨s, vs, x, hs, hx, rows⟩ := tie
  refine ⟨⟨s, vs, x, hs, hx, keysDetermine_nullKeyRows, rows⟩, fun identified => ?_⟩
  have same := identified tripRegistry .sqlite tripsAndDrivers s vs x nullKeyRows hs rfl rfl
    (.inl rfl) hx keysDetermine_nullKeyRows
  rw [rows] at same
  have columns := same _ List.mem_cons_self _ (List.mem_cons_of_mem _ List.mem_cons_self) rfl
  exact absurd columns (by decide)

end RecordQuery
