import RecordQuery.Proofs.Compile.Paging
import RecordQuery.Proofs.Compile.Supported
import RecordQuery.Proofs.Engine.Agreement
import RecordQuery.Proofs.Rows.Basic

/-!
# First rows

The first row of a query is looked for in a page of one row that starts where its own page does, and
the number of rows that the query takes is not asked for. Over a storage that shows every page of
one listing (`Lists`) the first row is the first of the list, unless the query takes no rows or the
order of that page has no SQL (`first_heads_list_iff`).
-/

namespace RecordQuery

open Number Sql Lowering

variable {σ τ α : Type}

/-! ## Windows -/

namespace Window

theorem head?_slice (w : Window) (l : List α) :
    (w.slice l).head? = if w.take = some 0 then none else l[w.skip.toNat]? := by
  obtain ⟨skip, take⟩ := w
  cases take with
  | none => simp [slice]
  | some n =>
    by_cases zero : n = 0
    · simp [slice, zero]
    · have pos : n.toNat ≠ 0 := fun h => zero (UInt64.toNat_inj.mp h)
      simp [slice, zero, pos, List.head?_take]

end Window

namespace Query

/-- The page that a first row is looked for in starts where the page of the query does. -/
theorem window_take {q : Query} {w : Option Window} (h : q.window = .ok w) (n : UInt64) :
    (q.take n).window = .ok (some ⟨w.elim 0 (·.skip), some n⟩) := by
  have asked : (q.take n).pagination = some { q.pagination.getD {} with take := some n } := rfl
  rw [window] at h ⊢
  rw [asked]
  cases hp : q.pagination with
  | none =>
    rw [hp] at h
    cases h
    rfl
  | some p =>
    rw [hp] at h
    obtain ⟨w, hw, rfl⟩ := map_ok_iff.mp h
    simp only [Option.getD_some, Option.elim_some]
    unfold Pagination.window at hw ⊢
    by_cases page : p.page = some 0
    · simp [page] at hw
    · by_cases size : p.pageSize = some 0
      · simp [page, size] at hw
      · rw [if_neg page, if_neg size] at hw ⊢
        cases hw
        rfl

/-! ## The order of the first row -/

/-- An aggregate that the page of the first row is ordered by has SQL: the first one, of a query
that has no order, no page and no group keys. -/
def OrdersFirst (r : Registry) (q : Query) : Prop :=
  q.pagination = none → q.orders = [] → q.groupExprs = [] → ∀ a, q.aggregates.head? = some a →
    ∀ s, Scope.ofSources r q.sources = .ok s → a.toExpr.IsSelector s

/-- What orders a page has SQL as part of the clauses, unless it is an aggregate that a projection
keeps from being selected. -/
theorem HasClauses.figures_iff {r : Registry} {s : Scope} {q : Query} (h : q.HasClauses r s) :
    (∀ es, q.figureOrder? = some es → ∀ e ∈ es, e.IsSelector s) ↔
      (q.groupExprs = [] → ∀ a, q.aggregates.head? = some a → a.toExpr.IsSelector s) := by
  have columns := h.columns
  unfold figureOrder?
  split
  · next empty =>
    have keyless : q.groupExprs = [] := by simpa using empty
    split
    · next a _ first => simp [keyless, first]
    · next absent _ => simp [absent]
    · next p absent projected =>
      rw [HasColumns, projected] at columns
      have items : ∀ e ∈ p.items.map (·.expr), e.IsSelector s :=
        List.forall_mem_map.mpr columns.selectors
      refine iff_of_true (fun es hes => ?_) (by simp [absent])
      dsimp only at hes
      split at hes
      · next e found =>
        cases hes
        simpa using items e (List.mem_of_find?_eq_some found)
      · split at hes
        · cases hes
          exact items
        · cases hes
  · next keyed =>
    refine iff_of_true (fun es hes => ?_) fun keyless => absurd (by simpa using keyless) keyed
    cases hes
    exact h.group

/-- A query with SQL has it with a page of some rows from the same row on, if that has an order. -/
theorem supported_take_iff {r : Registry} {q : Query} (h : q.Supported r) (n : UInt64) :
    (q.take n).Supported r ↔ q.OrdersFirst r := by
  obtain ⟨w, window⟩ := h.window
  obtain ⟨s, scope, clauses⟩ := h.clauses
  constructor
  · intro taken _ unordered keyless a first s' scope'
    obtain ⟨s'', scope'', order⟩ := taken.clauses
    cases Except.ok.inj (scope'.symm.trans scope'')
    cases Except.ok.inj (scope.symm.trans scope'')
    exact clauses.figures_iff.mp (order.order.figures unordered rfl) keyless a first
  · intro first
    refine ⟨h.undeferred, ⟨_, window_take window n⟩, s, scope, clauses.columns, clauses.joins,
      clauses.filters, clauses.group, clauses.order.keys, fun unordered _ => ?_⟩
    by_cases paged : q.pagination.isSome = true
    · exact clauses.order.figures unordered paged
    · have unpaged : q.pagination = none := by simpa using paged
      exact clauses.figures_iff.mpr fun keyless a ha =>
        first unpaged unordered keyless a ha s scope

end Query

/-! ## Storages that list rows -/

/-- The part of a listing that a text asks for. -/
def shownIn (sql : String) (whole : List α) : List α := (windowIn sql).elim whole (·.slice whole)

theorem head?_shownIn (sql : String) (whole : List α) :
    (shownIn sql whole).head? = if (windowIn sql).bind (·.take) = some 0 then none
      else whole[((windowIn sql).elim 0 (·.skip)).toNat]? := by
  rw [shownIn]
  cases windowIn sql with
  | none => simp [List.head?_eq_getElem?]
  | some w => exact w.head?_slice whole

/-- In any state the statement of a query is answered by what it asks for of one listing, whatever
the page of the query. -/
def Lists (r : Registry) (d : Dialect) (answer : Statement → Action Error σ (List Row)) (q : Query)
    (whole : List Row) : Prop :=
  ∀ p s t, Query.statement r d .rows { q with pagination := p } = .ok s →
    ((answer s).result.run t).1 = .ok (shownIn s.sql whole)

/-- The rows of a query as either engine asks for them and reads them. -/
def asked (r : Registry) (d : Dialect) (answer : Statement → Action Error σ (List Row)) (q : Query)
    (read : List Row → Except Stop α) : Action Stop σ α := do
  let s ← (.ofExcept (q.statement r d .rows) : Action Error σ Statement)
  let rows ← answer s
  .ofExcept (read rows)

/-- The first row of a query as either engine looks for it. -/
def lookedUp (r : Registry) (d : Dialect) (answer : Statement → Action Error σ (List Row))
    (q : Query) (read : RowReader α) : Action Overflow σ (Lookup α) := do
  return .ofResult (← (asked r d answer (q.take 1) (readFirst read)).attempt)

/-- What a look-up makes of the reading of a first row. -/
def found (r : Except Stop (Option α)) : Except Overflow (Lookup α) :=
  (Action.attempted r).map .ofResult

theorem run_lookedUp (r : Registry) (d : Dialect) (answer : Statement → Action Error σ (List Row))
    (q : Query) (read : RowReader α) (t : σ) : ((lookedUp r d answer q read).result.run t).1
      = found ((asked r d answer (q.take 1) (readFirst read)).result.run t).1 := by
  rw [lookedUp, Action.run_bind, Action.run_attempt, found]
  cases Action.attempted ((asked r d answer (q.take 1) (readFirst read)).result.run t).1 <;> rfl

theorem Engine.toList_eq_asked (e : Engine σ) (q : Query) (read : RowReader α) : e.toList q read
    = asked e.registry e.executor.dialect e.executor.query q (readRows read) := rfl

theorem Engine.first_eq_lookedUp (e : Engine σ) (q : Query) (read : RowReader α) :
    e.first q read = lookedUp e.registry e.executor.dialect e.executor.query q read := rfl

section

variable {r : Registry} {d : Dialect} {answer : Statement → Action Error σ (List Row)} {q : Query}
  {whole : List Row}

theorem asked_of_error {err : Error} (h : q.statement r d .rows = .error err)
    (read : List Row → Except Stop α) (t : σ) :
    ((asked r d answer q read).result.run t).1 = .error (.error err) := by
  rw [asked, h]
  rfl

theorem Lists.answers (h : Lists r d answer q whole) {p : Option Pagination} {s : Statement}
    (hs : Query.statement r d .rows { q with pagination := p } = .ok s)
    (read : List Row → Except Stop α) (t : σ) :
    ((asked r d answer { q with pagination := p } read).result.run t).1
      = read (shownIn s.sql whole) := by
  have sent : asked r d answer { q with pagination := p } read
      = (answer s).mapFailure .error >>= fun rows => .ofExcept (read rows) := by
    rw [asked, hs]
    rfl
  have shown := h p s t hs
  rw [sent, Action.run_bind, Action.run_mapFailure]
  rcases ha : (answer s).result.run t with ⟨rows, t'⟩
  rw [ha] at shown
  cases shown
  rfl

theorem shownIn_statement {s : Statement} {w : Option Window} (hs : q.statement r d .rows = .ok s)
    (hw : q.window = .ok w) (l : List α) : shownIn s.sql l = w.elim l (·.slice l) := by
  cases Except.ok.inj (hw.symm.trans (Query.windowIn_statement hs))
  rfl

/-- A listing is read in the window of the query. -/
theorem Lists.read (h : Lists r d answer q whole) {s : Statement} {w : Option Window}
    (hs : q.statement r d .rows = .ok s) (hw : q.window = .ok w) (read : List Row → Except Stop α)
    (t : σ) : ((asked r d answer q read).result.run t).1
      = read (w.elim whole (·.slice whole)) := by
  rw [h.answers (p := q.pagination) hs, shownIn_statement hs hw]

/-! ## The first of a list -/

theorem readFirst_of_readRows {read : RowReader α} {rows : List Row} {items : List α}
    (h : readRows read rows = .ok items) : readFirst read rows = .ok items.head? := by
  cases rows with
  | nil =>
    cases h
    rfl
  | cons row rows =>
    obtain ⟨item, rest, first, _, rfl⟩ := mapM_cons_ok_iff.mp h
    rw [readFirst, List.head?_cons]
    simp [first, Except.map]

/-- Reading a first row finds nothing only if there is none. -/
theorem found_readFirst_eq_missing_iff (read : RowReader α) (rows : List Row) :
    found (readFirst read rows) = .ok .missing ↔ rows.head? = none := by
  unfold readFirst
  cases rows.head? with
  | none => exact iff_of_true rfl rfl
  | some row =>
    refine iff_of_false ?_ nofun
    dsimp only
    rcases read row with (err | _) | item <;> nofun

/-- The query takes some rows, or skips all there are. -/
def Query.TakesSome (q : Query) (whole : List Row) : Prop :=
  ∀ w, q.window = .ok (some w) → w.take = some 0 → whole.length ≤ w.skip.toNat

theorem Query.takesSome_iff {w : Option Window} (h : q.window = .ok w) :
    q.TakesSome whole ↔
      (w.bind (·.take) = some 0 → whole.length ≤ (w.elim 0 (·.skip)).toNat) := by
  rw [TakesSome, h]
  cases w with
  | none => simp
  | some w => simp

/-- The first row of a page of one row is that of any page that starts there and takes some. -/
theorem first_shownIn_iff {read : RowReader α} {sql page : String} {items : List α}
    (paged : windowIn page = some ⟨(windowIn sql).elim 0 (·.skip), some 1⟩)
    (listed : readRows read (shownIn sql whole) = .ok items) :
    found (readFirst read (shownIn page whole)) = .ok (.ofResult (.ok items.head?)) ↔
      ((windowIn sql).bind (·.take) = some 0 →
        whole.length ≤ ((windowIn sql).elim 0 (·.skip)).toNat) := by
  have head := head?_shownIn sql whole
  have one : (shownIn page whole).head? = whole[((windowIn sql).elim 0 (·.skip)).toNat]? := by
    rw [head?_shownIn, paged]
    rfl
  have first := readFirst_of_readRows listed
  by_cases empty : (windowIn sql).bind (·.take) = some 0
  · rw [if_pos empty] at head
    have headless : items.head? = none := by
      rw [readFirst, head] at first
      exact (Except.ok.inj first).symm
    have missing : (Lookup.ofResult (.ok none) : Lookup α) = .missing := rfl
    rw [headless, missing, found_readFirst_eq_missing_iff, one, List.getElem?_eq_none_iff]
    exact ⟨fun past _ => past, fun past => past empty⟩
  · rw [if_neg empty] at head
    have same : readFirst read (shownIn page whole) = readFirst read (shownIn sql whole) := by
      rw [readFirst, readFirst, one, head]
    rw [same, first]
    exact iff_of_true rfl fun taken => absurd taken empty

/-- Wherever the list is given, the look-up has the first of it exactly if `P` holds. -/
def Heads (list : Action Stop σ (List α)) (first : Action Overflow σ (Lookup α)) (P : Prop) :
    Prop :=
  ∀ s t items, (list.result.run s).1 = .ok items →
    ((first.result.run t).1 = .ok (.ofResult (.ok items.head?)) ↔ P)

theorem Lists.heads (h : Lists r d answer q whole) (read : RowReader α) :
    Heads (asked r d answer q (readRows read)) (lookedUp r d answer q read)
      (q.OrdersFirst r ∧ q.TakesSome whole) := by
  intro s t items listed
  rw [run_lookedUp]
  cases hq : q.statement r d .rows with
  | error err =>
    rw [asked_of_error hq] at listed
    cases listed
  | ok st =>
    rw [h.answers (p := q.pagination) hq] at listed
    have supported := Query.statement_ok_iff_supported.mp ⟨st, hq⟩
    have window := Query.windowIn_statement hq
    cases hf : (q.take 1).statement r d .rows with
    | error err =>
      have unordered : ¬q.OrdersFirst r := by
        rw [← Query.supported_take_iff supported 1, ← Query.statement_ok_iff_supported (d := d), hf]
        rintro ⟨_, ⟨⟩⟩
      rw [asked_of_error hf]
      exact iff_of_false (by cases items.head? <;> exact nofun) fun holds => unordered holds.1
    | ok page =>
      have ordered : q.OrdersFirst r :=
        (Query.supported_take_iff supported 1).mp (Query.statement_ok_iff_supported.mp ⟨page, hf⟩)
      have paged := Except.ok.inj
        ((Query.windowIn_statement hf).symm.trans (Query.window_take window 1))
      have asked : ((asked r d answer (q.take 1) (readFirst read)).result.run t).1
          = readFirst read (shownIn page.sql whole) := h.answers hf (readFirst read) t
      rw [asked, first_shownIn_iff paged listed, and_iff_right ordered, Query.takesSome_iff window]

end

/-- Over a storage that shows every page of one listing the first row of a query is the first of its
list, and there is none if the list has none, exactly if the query takes some rows or skips all of
them, and the order of the page it is looked for in has SQL. It is so on both engines. -/
theorem first_heads_list_iff (e : Engine σ) (b : BlockingEngine τ) (q : Query) (whole : List Row)
    (read : RowReader α) :
    (Lists e.registry e.executor.dialect e.executor.query q whole →
      Heads (e.toList q read) (e.first q read) (q.OrdersFirst e.registry ∧ q.TakesSome whole)) ∧
    (Lists b.registry b.connection.dialect b.connection.query q whole →
      Heads (b.toList q read) (b.first q read) (q.OrdersFirst b.registry ∧ q.TakesSome whole)) :=
  ⟨fun h => h.heads read, fun h => h.heads read⟩

/-- The engine over a storage of one listing, which shows the part of it that a text asks for. -/
def Engine.listing (r : Registry) (d : Dialect) (whole : List Row) : Engine Unit where
  registry := r
  executor := {
    dialect := d
    execute := fun _ => return 0
    query := fun s => return shownIn s.sql whole
    stream := fun s => return (shownIn s.sql whole).map .ok }

def BlockingEngine.listing (r : Registry) (d : Dialect) (whole : List Row) :
    BlockingEngine Unit where
  registry := r
  connection := {
    dialect := d
    execute := fun _ => return 0
    read := fun s => return (shownIn s.sql whole, none) }

theorem Engine.lists_listing (r : Registry) (d : Dialect) (q : Query) (whole : List Row) :
    Lists (listing r d whole).registry (listing r d whole).executor.dialect
      (listing r d whole).executor.query q whole := fun _ _ _ _ => rfl

theorem BlockingEngine.lists_listing (r : Registry) (d : Dialect) (q : Query) (whole : List Row) :
    Lists (listing r d whole).registry (listing r d whole).connection.dialect
      (listing r d whole).connection.query q whole := fun _ _ _ _ => rfl

/-- Orders seven to ten. -/
def fourOrders : List Row := [7, 8, 9, 10].map fun id => .ofPairs [("id", .int id)]

/-- Two orders after the first; the rows before a page are counted only if no skip is given. -/
def laterOrders : Query := Query.applyAll (.ofShape ⟨"Order", []⟩) [.page 2 2, .skip 1]

theorem first_heads_list_iff_laterOrders :
    (((Engine.listing orderRegistry .sqlServer fourOrders).first laterOrders
      (FieldType.ofRow (.required .int))).result.run ()).1 = .ok (.found 8) ∧
    (((BlockingEngine.listing orderRegistry .sqlite fourOrders).first laterOrders
      (FieldType.ofRow (.required .int))).result.run ()).1 = .ok (.found 8) := by
  have engine := Engine.lists_listing orderRegistry .sqlServer laterOrders fourOrders
  have blocking := BlockingEngine.lists_listing orderRegistry .sqlite laterOrders fourOrders
  obtain ⟨heads, heads'⟩ := first_heads_list_iff
    (Engine.listing orderRegistry .sqlServer fourOrders)
    (BlockingEngine.listing orderRegistry .sqlite fourOrders) laterOrders fourOrders
    (FieldType.ofRow (.required .int))
  have ordered : laterOrders.OrdersFirst orderRegistry := fun unpaged => by cases unpaged
  have taking : laterOrders.TakesSome fourOrders := by
    intro w hw
    cases hw
    exact nofun
  exact ⟨(heads engine () () [8, 9] (engine.read rfl rfl _ ())).mpr ⟨ordered, taking⟩,
    (heads' blocking () () [8, 9] (blocking.read rfl rfl _ ())).mpr ⟨ordered, taking⟩⟩

/-- No orders. -/
def takenNone : Query := (Query.ofShape ⟨"Order", []⟩).take 0

/-- A query that takes no rows lists none, and has a first row. -/
theorem takenNone_first_found :
    (((Engine.listing orderRegistry .sqlite fourOrders).toList takenNone
      (FieldType.ofRow (.required .int))).result.run ()).1 = .ok [] ∧
    (((Engine.listing orderRegistry .sqlite fourOrders).first takenNone
      (FieldType.ofRow (.required .int))).result.run ()).1 = .ok (.found 7) ∧
    ¬∀ (e : Engine Unit) (q : Query) (whole : List Row),
      Lists e.registry e.executor.dialect e.executor.query q whole →
      Heads (e.toList q (FieldType.ofRow (.required .int)))
        (e.first q (FieldType.ofRow (.required .int))) True := by
  have lists := Engine.lists_listing orderRegistry .sqlite
  have listed : (((Engine.listing orderRegistry .sqlite fourOrders).toList takenNone
      (FieldType.ofRow (.required .int))).result.run ()).1 = .ok [] := by
    rw [Engine.toList_eq_asked, (lists takenNone fourOrders).read rfl rfl]
    rfl
  have found : (((Engine.listing orderRegistry .sqlite fourOrders).first takenNone
      (FieldType.ofRow (.required .int))).result.run ()).1 = .ok (.found 7) := by
    rw [Engine.first_eq_lookedUp, run_lookedUp,
      (lists (takenNone.take 1) fourOrders).read rfl rfl]
    rfl
  refine ⟨listed, found, fun heads => ?_⟩
  have missing := (heads _ takenNone fourOrders (lists takenNone fourOrders) () () [] listed).mpr
    trivial
  rw [found] at missing
  cases missing

end RecordQuery
