import RecordQuery.Proofs.Compile.Total
import RecordQuery.Proofs.Engine.Calls

/-!
# What does not compile is not run

An operation that needs one statement asks the storage for nothing if that statement does not
compile. A page needs two: nothing is asked for if the page is none or the total does not compile,
but a page that only its order keeps from compiling is found out after its total was counted
(`rejected_before_execution`).
-/

namespace RecordQuery

variable {σ τ α β : Type}

/-- The computation gives a result and leaves the state as it is. -/
def Silently (m : StateM σ α) (a : α) : Prop := ∀ s, m.run s = (a, s)

theorem Silently.throw {ε : Type} (err : ε) :
    Silently (throw err : Action ε σ α).result (.error err) := fun _ => rfl

/-- The number of rows that a count answers. -/
def countRows (rows : List Row) : Except Stop UInt64 := do
  reported (rowCount (← readScalar readLong rows))

namespace Engine

/-- The statement of a query does not compile. -/
def Rejects (e : Engine σ) (t : Query.Terminal) (q : Query) (err : Error) : Prop :=
  q.statement e.registry e.executor.dialect t = .error err

variable {e : Engine σ} {t : Query.Terminal} {q : Query} {err : Error}

theorem Rejects.recorded {κ : Type} (h : e.Rejects t q err) (event : Call → κ) :
    (e.recorded event).Rejects t q err := h

theorem Rejects.run (h : e.Rejects t q err) (read : List Row → Except Stop α) :
    e.run t q read = throw (.error err) := by
  rw [Engine.run, compile, h]
  rfl

theorem Rejects.silently (h : e.Rejects t q err) (read : List Row → Except Stop α) :
    Silently (e.run t q read).result (.error (.error err)) := by
  rw [h.run]
  exact .throw _

theorem Rejects.stream (h : e.Rejects .rows q err) (read : RowReader α) :
    Silently (e.stream q read).result (.error err) := by
  rw [Engine.stream, compile, h]
  exact .throw err

theorem Rejects.first (h : e.Rejects .rows (q.take 1) err) (read : RowReader α) :
    Silently (e.first q read).result (.ok (.ofError err)) := by
  intro s
  rw [Engine.first, h.run]
  rfl

theorem run_records {κ : Type} (event : Call → κ) {s : Statement}
    (h : q.statement e.registry e.executor.dialect t = .ok s) (read : List Row → Except Stop α) :
    (e.run t q read).Records ((e.recorded event).run t q read) fun events result =>
      ∃ answer, events = [event (.query s answer)] ∧ result = (reported answer).bind read := by
  rw [run_of_ok h, run_of_ok (e := e.recorded event) h]
  exact e.ask_records event s read

end Engine

namespace BlockingEngine

/-- The statement of a query does not compile. -/
def Rejects (b : BlockingEngine τ) (t : Query.Terminal) (q : Query) (err : Error) : Prop :=
  q.statement b.registry b.connection.dialect t = .error err

variable {b : BlockingEngine τ} {t : Query.Terminal} {q : Query} {err : Error}

theorem Rejects.recorded (h : b.Rejects t q err) : b.recorded.Rejects t q err := h

theorem Rejects.run (h : b.Rejects t q err) (read : List Row → Except Stop α) :
    b.run t q read = throw (.error err) := by
  rw [BlockingEngine.run, compile, h]
  rfl

theorem Rejects.silently (h : b.Rejects t q err) (read : List Row → Except Stop α) :
    Silently (b.run t q read).result (.error (.error err)) := by
  rw [h.run]
  exact .throw _

theorem Rejects.first (h : b.Rejects .rows (q.take 1) err) (read : RowReader α) :
    Silently (b.first q read).result (.ok (.ofError err)) := by
  intro s
  rw [BlockingEngine.first, h.run]
  rfl

theorem Rejects.count (h : b.Rejects .count q err) : Silently (b.count q).result (.error err) := by
  rw [BlockingEngine.count, compile, h]
  exact .throw err

theorem Rejects.forEach (h : b.Rejects .rows q err) (read : RowReader α)
    (onItem : β → α → Except Error β) (z : β) :
    Silently (b.forEach q read onItem z) (z, .error (.error err)) := by
  intro s
  rw [BlockingEngine.forEach, h]
  rfl

end BlockingEngine

/-! ## Pages -/

/-- How a page with its total is rejected. A page that is none and a fault of the total are found
before anything is sent; the order of the page is looked at after the total was counted. -/
structure PageRejected (e : Engine σ) (q : Query) (a : Action Stop σ (Paged α))
    (b : Action Stop (σ × List Call) (Paged α)) : Prop where
  window : ∀ err, q.window = .error err →
    e.Rejects .rows q (q.deferred.getD err) ∧ Silently b.result (.error (.error err))
  total : ∀ w err, q.window = .ok w → e.Rejects .totalCount q err →
    e.Rejects .rows q err ∧ Silently b.result (.error (.error err))
  order : ∀ w s err, q.window = .ok w →
    q.statement e.registry e.executor.dialect .totalCount = .ok s → e.Rejects .rows q err →
    (∃ scope, Scope.ofSources e.registry q.sources = .ok scope ∧
      ((Query.orderKeys scope q w).run s.params.length).2 = .error err) ∧
    a.Records b fun calls result => ∃ answer, calls = [.query s answer] ∧
      result = ((reported answer).bind countRows).bind fun _ => .error (.error err)

namespace Engine

variable {e : Engine σ} {q : Query} {err : Error}

theorem toPaged_of_window (h : q.window = .error err) (read : RowReader α) :
    e.toPaged q read = throw (.error err) := by
  rw [toPaged, h]
  rfl

theorem Rejects.toPaged_of_total {w : Option Window} (hw : q.window = .ok w)
    (h : e.Rejects .totalCount q err) (read : RowReader α) :
    e.toPaged q read = throw (.error err) := by
  rw [toPaged, hw, totalCount, h.run]
  rfl

/-- The total is counted before the statement of the page is compiled. -/
theorem Rejects.toPaged_of_rows {w : Option Window} (hw : q.window = .ok w)
    (h : e.Rejects .rows q err) (read : RowReader α) :
    e.toPaged q read = e.run .totalCount q countRows >>= fun _ => throw (.error err) := by
  rw [toPaged, hw, toList, h.run]
  rfl

theorem pageRejected (e : Engine σ) (q : Query) (read : RowReader α) :
    PageRejected e q (e.toPaged q read) ((e.recorded id).toPaged q read) where
  window err hw := by
    rw [toPaged_of_window hw]
    exact ⟨Query.statement_rows_of_window hw, .throw _⟩
  total w err hw h := by
    rw [(h.recorded id).toPaged_of_total hw]
    exact ⟨Query.statement_rows_of_totalCount hw h, .throw _⟩
  order w s err hw hs h := by
    refine ⟨(Query.statement_rows_error_iff hw hs err).mp h, ?_⟩
    rw [h.toPaged_of_rows hw, (h.recorded id).toPaged_of_rows hw]
    refine ((run_records id hs countRows).bind fun _ => .throw _).mono ?_
    rintro calls result (⟨err', ⟨answer, rfl, counted⟩, rfl⟩ |
      ⟨n, _, _, ⟨answer, rfl, counted⟩, ⟨rfl, rfl⟩, rfl⟩)
    all_goals exact ⟨answer, rfl, by rw [← counted]; rfl⟩

end Engine

/-- An operation that needs one statement fails with what keeps it from compiling, and nothing is
sent. So does a page with its total, except that the total is counted before the order of the page
is found not to compile. -/
theorem rejected_before_execution (e : Engine σ) (b : BlockingEngine τ) (q : Query)
    (read : RowReader α) (err : Error) :
    (e.Rejects .rows q err →
      Silently ((e.recorded id).toList q read).result (.error (.error err)) ∧
      Silently ((e.recorded id).stream q read).result (.error err)) ∧
    (e.Rejects .rows (q.take 1) err →
      Silently ((e.recorded id).first q read).result (.ok (.ofError err))) ∧
    (e.Rejects .count q err → Silently ((e.recorded id).count q).result (.error (.error err))) ∧
    (e.Rejects .exists q err → Silently ((e.recorded id).any q).result (.error (.error err))) ∧
    (∀ f selector, e.Rejects (.aggregate f selector) q err →
      Silently ((e.recorded id).aggregate f q selector read).result (.error (.error err))) ∧
    (b.Rejects .rows q err → Silently (b.recorded.toList q read).result (.error (.error err)) ∧
      ∀ (β : Type) (onItem : β → α → Except Error β) (z : β),
        Silently (b.recorded.forEach q read onItem z) (z, .error (.error err))) ∧
    (b.Rejects .rows (q.take 1) err →
      Silently (b.recorded.first q read).result (.ok (.ofError err))) ∧
    (b.Rejects .count q err → Silently (b.recorded.count q).result (.error err)) ∧
    (b.Rejects .exists q err → Silently (b.recorded.any q).result (.error (.error err))) ∧
    PageRejected e q (e.toPaged q read) ((e.recorded id).toPaged q read) ∧
    ∀ s request, PageRejected e (Query.search s request) (e.search s request)
      ((e.recorded id).search s request) := by
  refine ⟨fun h => ⟨(h.recorded id).silently _, (h.recorded id).stream read⟩,
    fun h => (h.recorded id).first read, fun h => (h.recorded id).silently _,
    fun h => (h.recorded id).silently _, fun f selector h => (h.recorded id).silently _,
    fun h => ⟨h.recorded.silently _, fun β => h.recorded.forEach read⟩,
    fun h => h.recorded.first read, fun h => h.recorded.count, fun h => h.recorded.silently _,
    e.pageRejected q read, fun s request => e.pageRejected _ _⟩

def orderEngine : Engine Script := ⟨.scripted .sqlite, orderRegistry⟩

/-- A page of the joined orders in the order of no field. -/
def strayOrders : Query := joinedOrders.orderBy (.named "colour") true

theorem orderEngine_rejects_strayOrders :
    orderEngine.Rejects .rows strayOrders (.unknownField "Order" "colour") := by
  have window : strayOrders.window = .ok (some ⟨5, some 5⟩) := rfl
  have total : strayOrders.statement orderRegistry .sqlite .totalCount = .ok _ := rfl
  have sorted : strayOrders.sortedOrders = strayOrders.orders := List.mergeSort_singleton _
  refine (Query.statement_rows_error_iff window total _).mpr ⟨_, rfl, ?_⟩
  rw [Query.orderKeys, sorted]
  rfl

theorem rejected_before_execution_strayOrders :
    orderEngine.Rejects .rows strayOrders (.unknownField "Order" "colour") ∧
    Silently ((orderEngine.recorded id).toList strayOrders Except.ok).result
      (.error (.error (.unknownField "Order" "colour"))) ∧
    Silently ((orderEngine.recorded id).search ⟨"Order", []⟩ { page := 0 }).result
      (.error (.error (.invalidPagination "page must be at least 1, got 0"))) ∧
    ∃ total, strayOrders.statement orderRegistry .sqlite .totalCount = .ok total ∧
      (orderEngine.toPaged strayOrders Except.ok).Records
        ((orderEngine.recorded id).toPaged strayOrders Except.ok)
        fun calls result => ∃ answer, calls = [.query total answer] ∧ result
          = ((reported answer).bind countRows).bind
            fun _ => .error (.error (.unknownField "Order" "colour")) := by
  have rejects := orderEngine_rejects_strayOrders
  obtain ⟨lists, _, _, _, _, _, _, _, _, paged, searched⟩ := rejected_before_execution orderEngine
    (BlockingEngine.mk (.scripted .sqlite) orderRegistry) strayOrders Except.ok _
  exact ⟨rejects, (lists rejects).1, ((searched _ { page := 0 }).window _ rfl).2, _, rfl,
    (paged.order _ _ _ rfl rfl rejects).2⟩

/-- A search in the order of no field. -/
def strayRequest : SearchRequest := { sorts := [⟨"colour", .ascending⟩] }

theorem orderEngine_rejects_strayRequest :
    orderEngine.Rejects .rows (Query.search ⟨"Order", []⟩ strayRequest)
      (.unknownField "Order" "colour") := by
  have window : (Query.search ⟨"Order", []⟩ strayRequest).window = .ok (some ⟨0, some 20⟩) := rfl
  have total : (Query.search ⟨"Order", []⟩ strayRequest).statement orderRegistry .sqlite .totalCount
      = .ok _ := rfl
  have sorted : (Query.search ⟨"Order", []⟩ strayRequest).sortedOrders
      = [⟨.named "colour", true, 0⟩] := List.mergeSort_singleton _
  refine (Query.statement_rows_error_iff window total _).mpr ⟨_, rfl, ?_⟩
  rw [Query.orderKeys, sorted]
  rfl

/-- The total of a search that does not compile is counted. -/
theorem stray_search_counted :
    orderEngine.Rejects .rows (Query.search ⟨"Order", []⟩ strayRequest)
      (.unknownField "Order" "colour") ∧
    ((orderEngine.recorded id).search ⟨"Order", []⟩ strayRequest).result.run
        ([.ok [.ofPairs [("", .long 3)]]], [])
      = (.error (.error (.unknownField "Order" "colour")), [], [.query ⟨"SELECT COUNT(1) FROM (" ++
          "SELECT [t0].[id] AS [id], [t0].[sum] AS [total] FROM [order] AS [t0]" ++ ") AS [sub]",
          []⟩ (.ok [.ofPairs [("", .long 3)]])]) := by
  refine ⟨orderEngine_rejects_strayRequest, ?_⟩
  rw [Engine.search, (orderEngine_rejects_strayRequest.recorded id).toPaged_of_rows rfl]
  rfl

end RecordQuery
