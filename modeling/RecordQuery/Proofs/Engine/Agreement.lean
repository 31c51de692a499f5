import RecordQuery.Proofs.Compile.Scoping
import RecordQuery.Proofs.Engine.Calls
import RecordQuery.Proofs.Result

/-!
# The two engines agree

Two storages answer alike if every statement gets the same rows from both, or the same failure and
no row (`AnswersAlike`). How far they have come is related by `R`, which every statement keeps, so a
computation over one and a computation over the other can be compared from start to end
(`Corresponds`). Over such storages the engine and the blocking engine give the same
(`engines_agree`).
-/

namespace RecordQuery

variable {ε ε' σ τ α β γ : Type} {R : σ → τ → Prop}

/-- From related states, the results are as `P` says and the states after them are related. -/
def Corresponds (R : σ → τ → Prop) (m : StateM σ α) (n : StateM τ β) (P : α → β → Prop) : Prop :=
  ∀ s t, R s t → P (m.run s).1 (n.run t).1 ∧ R (m.run s).2 (n.run t).2

namespace Corresponds

theorem mono {m : StateM σ α} {n : StateM τ β} {P Q : α → β → Prop} (h : Corresponds R m n P)
    (hPQ : ∀ a b, P a b → Q a b) : Corresponds R m n Q := fun s t hR =>
  ⟨hPQ _ _ (h s t hR).1, (h s t hR).2⟩

theorem pure {P : α → β → Prop} {a : α} {b : β} (h : P a b) :
    Corresponds R (Pure.pure a : StateM σ α) (Pure.pure b : StateM τ β) P := fun _ _ hR =>
  ⟨h, hR⟩

/-- An action that fails alike in both is followed by what comes after it. -/
theorem bind {a : Action ε σ α} {b : Action ε τ α} {f : α → Action ε σ β} {g : α → Action ε τ γ}
    {P : Except ε β → Except ε γ → Prop} (h : Corresponds R a.result b.result (· = ·))
    (failed : ∀ e, P (.error e) (.error e))
    (hf : ∀ v, Corresponds R (f v).result (g v).result P) :
    Corresponds R (a >>= f).result (b >>= g).result P := by
  intro s t hR
  obtain ⟨same, hR'⟩ := h s t hR
  rw [Action.run_bind, Action.run_bind]
  rcases ha : a.result.run s with ⟨v, s'⟩
  rcases hb : b.result.run t with ⟨w, t'⟩
  rw [ha, hb] at same hR'
  subst same
  cases v with
  | error e => exact ⟨failed e, hR'⟩
  | ok v => exact hf v s' t' hR'

theorem mapFailure {a : Action ε σ α} {b : Action ε τ α}
    (h : Corresponds R a.result b.result (· = ·)) (say : ε → ε') :
    Corresponds R (a.mapFailure say).result (b.mapFailure say).result (· = ·) := fun s t hR =>
  ⟨congrArg (·.mapError say) (h s t hR).1, (h s t hR).2⟩

theorem attempt {a : Action Stop σ α} {b : Action Stop τ α}
    (h : Corresponds R a.result b.result (· = ·)) :
    Corresponds R a.attempt.result b.attempt.result (· = ·) := by
  intro s t hR
  obtain ⟨same, hR'⟩ := h s t hR
  rw [Action.run_attempt, Action.run_attempt, same]
  exact ⟨rfl, hR'⟩

end Corresponds

/-! ## Storages that answer alike -/

structure AnswersAlike (x : Executor σ) (c : Connection τ) (R : σ → τ → Prop) : Prop where
  dialect : x.dialect = c.dialect
  query : ∀ s, Corresponds R (x.query s).result (c.read s) fun answer rows => rows = fetched answer
  stream : ∀ s, Corresponds R (x.stream s) (c.read s) fun items rows =>
    ∃ answer, items = streamed answer ∧ rows = fetched answer

/-- A connection whose answer is known before the first row gives that answer. -/
theorem Connection.query_of_fetched {c : Connection τ} {s : Statement} {t : τ}
    {answer : Except Error (List Row)} (h : ((c.read s).run t).1 = fetched answer) :
    (c.query s).result.run t = (answer, ((c.read s).run t).2) := by
  rcases hr : (c.read s).run t with ⟨rows, t'⟩
  rw [hr] at h
  subst h
  rw [query, Action.result, ExceptT.run_mk, StateT.run_bind, hr]
  cases answer <;> rfl

theorem BlockingEngine.ask_of_fetched {b : BlockingEngine τ} {s : Statement} {t : τ}
    {answer : Except Error (List Row)} (h : ((b.connection.read s).run t).1 = fetched answer)
    (read : List Row → Except Stop α) : (b.ask s read).result.run t
      = ((reported answer).bind read, ((b.connection.read s).run t).2) := by
  have sent : b.ask s read = (b.connection.query s).mapFailure Stop.error >>= fun rows =>
    .ofExcept (read rows) := rfl
  rw [sent, Action.run_bind, Action.run_mapFailure, Connection.query_of_fetched h]
  cases answer <;> rfl

/-! ## Rows and items -/

theorem readRows_id (rows : List Row) : readRows .ok rows = .ok rows := by
  rw [readRows, mapM_ok_iff]
  exact List.forall₂_refl rows

/-- The items of the rows before the first that does not fit. -/
def itemsBefore (read : RowReader α) : List Row → List α
  | [] => []
  | row :: rows =>
    match read row with
    | .ok a => a :: itemsBefore read rows
    | .error _ => []

theorem itemsBefore_of_ok {read : RowReader α} {rows : List Row} {items : List α}
    (h : readRows read rows = .ok items) : itemsBefore read rows = items := by
  rw [readRows, mapM_ok_iff] at h
  induction h with
  | nil => rfl
  | cons first _ ih => rw [itemsBefore, first, ih]

/-- A callback that does not fail is handed the items up to the first row that does not fit, whose
failure ends the read. -/
theorem feed_items (read : RowReader α) (onItem : β → α → β) (z : β) (rows : List Row) :
    Connection.feed (fun z row => (read row).bind fun a => .ok (onItem z a)) z rows
      = ((itemsBefore read rows).foldl onItem z, (readRows read rows).map fun _ => ()) := by
  induction rows generalizing z with
  | nil => rfl
  | cons row rows ih =>
    rw [Connection.feed, itemsBefore, readRows, List.mapM_cons]
    cases read row with
    | error e => rfl
    | ok a =>
      refine (ih (onItem z a)).trans ?_
      rw [readRows]
      cases rows.mapM read <;> rfl

/-- What a callback that does not fail makes of an answer, and how the read ends. -/
def handed (read : RowReader α) (onItem : β → α → β) (z : β) :
    Except Stop (List Row) → β × Except Stop Unit
  | .ok rows => ((itemsBefore read rows).foldl onItem z, (readRows read rows).map fun _ => ())
  | .error e => (z, .error e)

theorem Connection.forEachRow_of_fetched {c : Connection τ} {s : Statement} {t : τ}
    {answer : Except Error (List Row)} (h : ((c.read s).run t).1 = fetched answer)
    (read : RowReader α) (onItem : β → α → β) (z : β) :
    (c.forEachRow s (fun z row => (read row).bind fun a => .ok (onItem z a)) z).run t
      = (handed read onItem z (reported answer), ((c.read s).run t).2) := by
  rcases hr : (c.read s).run t with ⟨rows, t'⟩
  rw [hr] at h
  subst h
  rw [forEachRow, StateT.run_bind, hr]
  cases answer with
  | error e => rfl
  | ok rows =>
    dsimp only [fetched, bind]
    rw [feed_items, reported_ok, handed]
    cases readRows read rows <;> rfl

theorem collect_streamed (read : RowReader α) (answer : Except Error (List Row)) :
    ((streamed answer).map fun row => (reported row).bind read).mapM id
      = (reported answer).bind (readRows read) := by
  cases answer with
  | error e => rfl
  | ok rows =>
    rw [streamed, List.map_map, List.mapM_map]
    rfl

/-- An integer is read from the first column of the first row. -/
theorem readLong_first (rows : List Row) :
    (readScalar readLong rows).toOption = (firstValue? rows).bind Value.long? := by
  rcases rows with _ | ⟨⟨columns, _ | ⟨v, values⟩⟩, rows⟩
  · rfl
  · rfl
  change (FieldType.ofRow (.required .long) ⟨columns, v :: values⟩).toOption = v.long?
  by_cases absent : v.isNull
  · cases v with
    | null => rfl
    | _ => cases absent
  · have present : FieldType.ofRow (.required .long) ⟨columns, v :: values⟩
        = reported (Scalar.expect "i64" v v.long?) := by
      simp [FieldType.ofRow, Row.valueAt?, FieldType.ofValue, Scalar.ofValue, Scalar.ofPresent,
        absent]
    rw [present]
    cases v.long? <;> rfl

/-- The number of rows as the blocking engine reads it. -/
def countOf (rows : List Row) : Except Error UInt64 :=
  match (firstValue? rows).bind Value.long? with
  | some n => rowCount n
  | none => .error (.mapping "count returned no value")

theorem count_ok_iff (rows : List Row) (k : UInt64) :
    (do reported (rowCount (← readScalar readLong rows))) = .ok k ↔ countOf rows = .ok k := by
  rw [countOf, ← readLong_first]
  cases readScalar readLong rows with
  | error e => simp [bind, Except.bind, Except.toOption]
  | ok n => exact reported_eq_ok_iff

/-! ## The engines -/

theorem BlockingEngine.lift_count (b : BlockingEngine τ) (q : Query) :
    (b.count q).mapFailure .error = b.run .count q fun rows => reported (countOf rows) := by
  rw [count, Action.mapFailure_bind]
  refine bind_congr fun s => ?_
  rw [Connection.queryScalar, bind_assoc, Action.mapFailure_bind]
  refine bind_congr fun rows => ?_
  rw [pure_bind]
  dsimp only [countOf]
  cases (firstValue? rows).bind Value.long? <;> rfl

theorem Engine.toList_ok (e : Engine σ) (q : Query) :
    e.toList q .ok = (e.compile .rows q >>= e.executor.query).mapFailure .error := by
  rw [Action.mapFailure_bind]
  refine bind_congr fun s => ?_
  rw [Engine.ask]
  simp only [readRows_id]
  exact bind_pure _

/-- The items of a query are read from its rows. -/
theorem Engine.toList_eq_bind (e : Engine σ) (q : Query) (read : RowReader α) :
    e.toList q read = e.toList q .ok >>= fun rows => .ofExcept (readRows read rows) := by
  rw [toList_ok, Action.mapFailure_bind, bind_assoc]
  rfl

theorem Engine.run_toList (e : Engine σ) (q : Query) (read : RowReader α) (s : σ) :
    (e.toList q read).result.run s = (((e.toList q .ok).result.run s).1.bind (readRows read),
      ((e.toList q .ok).result.run s).2) := by
  rw [toList_eq_bind, Action.run_bind]
  rcases (e.toList q .ok).result.run s with ⟨err | rows, s'⟩ <;> rfl

namespace AnswersAlike

variable {x : Executor σ} {c : Connection τ} (h : AnswersAlike x c R) (r : Registry)
include h

theorem queries (s : Statement) : Corresponds R (x.query s).result (c.query s).result (· = ·) := by
  intro s' t hR
  obtain ⟨answer, hR'⟩ := h.query s s' t hR
  rw [Connection.query_of_fetched answer]
  exact ⟨rfl, hR'⟩

theorem compiles (k : Query.Terminal) (q : Query) :
    Corresponds R ((Engine.mk x r).compile k q).result ((BlockingEngine.mk c r).compile k q).result
      (· = ·) := by
  rw [Engine.compile, BlockingEngine.compile, h.dialect]
  exact Corresponds.pure rfl

/-- What the engines give from the rows of a query is as what they make of the rows. -/
theorem runs (k : Query.Terminal) (q : Query) {f : List Row → Except Stop β}
    {g : List Row → Except Stop γ} {P : Except Stop β → Except Stop γ → Prop}
    (failed : ∀ e, P (.error e) (.error e)) (hfg : ∀ rows, P (f rows) (g rows)) :
    Corresponds R ((Engine.mk x r).run k q f).result ((BlockingEngine.mk c r).run k q g).result P :=
  ((h.compiles r k q).mapFailure Stop.error).bind failed fun s =>
    ((h.queries s).mapFailure Stop.error).bind failed fun rows => Corresponds.pure (hfg rows)

/-- The items of a stream up to the first failure are those of the list. -/
theorem streams (q : Query) (read : RowReader α) :
    Corresponds R ((Engine.mk x r).stream q read).result
      ((BlockingEngine.mk c r).toList q read).result
      fun items list => (reported items).bind (·.mapM id) = list := by
  rw [Engine.stream, Engine.compile, h.dialect]
  cases hs : q.statement r c.dialect .rows with
  | error err =>
    rw [BlockingEngine.toList, BlockingEngine.run, BlockingEngine.compile, hs]
    exact Corresponds.pure rfl
  | ok stmt =>
    intro s t hR
    obtain ⟨⟨answer, items, rows⟩, hR'⟩ := h.stream stmt s t hR
    have streaming : (do
          let rows ← (x.stream stmt : StateM σ _)
          return rows.map fun row => (reported row).bind read : Action Error σ _).result.run s
        = (.ok (((x.stream stmt).run s).1.map fun row => (reported row).bind read),
          ((x.stream stmt).run s).2) := rfl
    rw [Action.ofExcept_ok_bind, streaming, items, BlockingEngine.toList,
      BlockingEngine.run_of_ok (b := ⟨c, r⟩) hs, BlockingEngine.ask_of_fetched rows]
    exact ⟨collect_streamed read answer, hR'⟩

/-- A callback that does not fail is handed the items of the rows that are fetched. -/
theorem hands (q : Query) (read : RowReader α) (onItem : β → α → β) (z : β) :
    Corresponds R ((Engine.mk x r).toList q .ok).result
      ((BlockingEngine.mk c r).forEach q read (fun z a => .ok (onItem z a)) z)
      fun rows out => out = handed read onItem z rows := by
  rw [Engine.toList_ok, Engine.compile, h.dialect, BlockingEngine.forEach]
  cases q.statement r c.dialect .rows with
  | error err => exact Corresponds.pure rfl
  | ok stmt =>
    intro s t hR
    obtain ⟨answer, hR'⟩ := h.query stmt s t hR
    have ended := Connection.forEachRow_of_fetched answer read onItem z
    exact ⟨congrArg Prod.fst ended, (congrArg Prod.snd ended).symm ▸ hR'⟩

/-- The read ends as the list does, and the items of a list that succeeds are handed over. -/
theorem finishes (q : Query) (read : RowReader α) (onItem : β → α → β) (z : β) :
    Corresponds R ((Engine.mk x r).toList q read).result
      ((BlockingEngine.mk c r).forEach q read (fun z a => .ok (onItem z a)) z)
      fun items out => out.2 = items.map (fun _ => ()) ∧
        ∀ as, items = .ok as → out.1 = as.foldl onItem z := by
  intro s t hR
  obtain ⟨out, hR'⟩ := h.hands r q read onItem z s t hR
  rw [Engine.run_toList, out]
  refine ⟨?_, hR'⟩
  rcases (((Engine.mk x r).toList q .ok).result.run s).1 with err | rows
  · exact ⟨rfl, fun as same => by cases same⟩
  · refine ⟨rfl, fun as same => ?_⟩
    rw [handed, itemsBefore_of_ok same]

theorem firsts (q : Query) (read : RowReader α) :
    Corresponds R ((Engine.mk x r).first q read).result
      ((BlockingEngine.mk c r).first q read).result (· = ·) := by
  have rows : Corresponds R ((Engine.mk x r).run .rows (q.take 1) (readFirst read)).result
      ((BlockingEngine.mk c r).run .rows (q.take 1) (readFirst read)).result (· = ·) :=
    h.runs r .rows (q.take 1) (fun _ => rfl) fun _ => rfl
  exact rows.attempt.bind (fun _ => rfl) fun found => Corresponds.pure rfl

end AnswersAlike

/-- Over storages that answer alike lists, first items and tests are the same on both engines, and
one counts the rows exactly if the other does, with the same number. A callback that does not fail
is handed the items of the list, or those of the rows before the first that does not fit, and its
read ends with the failure of the list. A stream up to its first failure is the list. -/
theorem engines_agree {x : Executor σ} {c : Connection τ} (h : AnswersAlike x c R) (r : Registry)
    (q : Query) (read : RowReader α) :
    Corresponds R ((Engine.mk x r).toList q read).result
      ((BlockingEngine.mk c r).toList q read).result (· = ·) ∧
    Corresponds R ((Engine.mk x r).first q read).result
      ((BlockingEngine.mk c r).first q read).result (· = ·) ∧
    Corresponds R ((Engine.mk x r).any q).result ((BlockingEngine.mk c r).any q).result (· = ·) ∧
    Corresponds R ((Engine.mk x r).count q).result ((BlockingEngine.mk c r).count q).result
      (fun m n => ∀ k, m = .ok k ↔ n = .ok k) ∧
    (∀ (β : Type) (onItem : β → α → β) (z : β),
      Corresponds R ((Engine.mk x r).toList q read).result
        ((BlockingEngine.mk c r).forEach q read (fun z a => .ok (onItem z a)) z)
        (fun items out => out.2 = items.map (fun _ => ()) ∧
          ∀ as, items = .ok as → out.1 = as.foldl onItem z) ∧
      Corresponds R ((Engine.mk x r).toList q .ok).result
        ((BlockingEngine.mk c r).forEach q read (fun z a => .ok (onItem z a)) z)
        fun rows out => out.1 = match rows with
          | .ok rows => (itemsBefore read rows).foldl onItem z
          | .error _ => z) ∧
    Corresponds R ((Engine.mk x r).stream q read).result
      ((BlockingEngine.mk c r).toList q read).result
      fun items list => (reported items).bind (·.mapM id) = list := by
  refine ⟨h.runs r .rows q (fun _ => rfl) fun _ => rfl, h.firsts r q read,
    h.runs r .exists q (fun _ => rfl) fun _ => rfl, ?counts, fun β onItem z => ⟨?_, ?_⟩,
    h.streams r q read⟩
  case counts =>
    have counted := h.runs r .count q (P := fun m n => ∀ k, m = .ok k ↔ n = .ok k)
      (fun err k => by simp) fun rows k => (count_ok_iff rows k).trans reported_eq_ok_iff.symm
    rw [← BlockingEngine.lift_count] at counted
    intro s t hR
    obtain ⟨same, hR'⟩ := counted s t hR
    refine ⟨fun k => (same k).trans ?_, hR'⟩
    rw [Action.run_mapFailure]
    exact reported_eq_ok_iff
  · exact h.finishes r q read onItem z
  · refine (h.hands r q read onItem z).mono fun rows out same => ?_
    rw [same]
    cases rows <;> rfl

theorem answersAlike_scripted (d : Dialect) :
    AnswersAlike (.scripted d) (.scripted d) (· = ·) where
  dialect := rfl
  query _ := by
    rintro script _ rfl
    exact ⟨rfl, rfl⟩
  stream _ := by
    rintro script _ rfl
    exact ⟨⟨_, rfl, rfl⟩, rfl⟩

/-- The second row does not fit a number. -/
def misfit : List Row :=
  [.ofPairs [("id", .int 1)], .ofPairs [("id", .text "x")], .ofPairs [("id", .int 3)]]

theorem engines_agree_joinedOrders :
    AnswersAlike (.scripted .sqlite) (.scripted .sqlite) (· = ·) ∧
    (((BlockingEngine.mk (.scripted .sqlite) orderRegistry).forEach joinedOrders
        (FieldType.ofRow (.required .int)) (fun seen n => .ok (seen ++ [n])) []).run [.ok misfit]).1
      = ([(1 : Int32)], .error (.error (.typeMismatch "i32" "string"))) ∧
    (((BlockingEngine.mk (.scripted .sqlite) orderRegistry).count joinedOrders).result.run
        [.ok [.ofPairs [("", .text "7")]]]).1 = .ok 7 := by
  obtain ⟨_, _, _, counts, hands, _⟩ := engines_agree (answersAlike_scripted .sqlite)
    orderRegistry joinedOrders (FieldType.ofRow (.required .int))
  obtain ⟨ended, seen⟩ := hands (List Int32) (fun seen n => seen ++ [n]) []
  refine ⟨answersAlike_scripted .sqlite, Prod.ext ?_ ?_, ?_⟩
  · exact (seen [.ok misfit] _ rfl).1
  · exact (ended [.ok misfit] _ rfl).1.1
  · exact ((counts _ _ rfl).1 7).mp rfl

end RecordQuery
