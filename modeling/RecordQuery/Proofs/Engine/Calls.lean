import RecordQuery.Engine.Blocking

/-!
# Calls on executors

A recorded executor answers as the executor it records and keeps a log of what it was asked for and
answered. `Action.Records` compares an action with the same action on recorded executors: state
and result are the same, and the calls in the log are of some kind. The kind of the calls of a
sequence is that of the calls of its parts (`Action.Records.bind`).
-/

namespace RecordQuery

open Number

/-- A statement an executor was asked for, with its answer. -/
inductive Call where
  | execute (s : Statement) (answer : Except Error UInt64)
  | query (s : Statement) (answer : Except Error (List Row))
  | stream (s : Statement) (answer : List (Except Error Row))

/-- What a transactional executor was asked for, with its answer. -/
inductive TransactionCall where
  | start (answer : Except Error Unit)
  /-- A statement of the open transaction. -/
  | inside (c : Call)
  /-- A statement of no transaction. -/
  | outside (c : Call)
  | commit (answer : Except Error Unit)
  | rollback (answer : Except Error Unit)

/-- A statement a connection was asked for, with its answer. -/
inductive ConnectionCall where
  | execute (s : Statement) (answer : Except Error UInt64)
  | read (s : Statement) (answer : List Row × Option Error)

/-- What an operation is asked for and answers is added to a log. -/
def logged (event : α → κ) (m : StateM σ α) : StateM (σ × List κ) α := fun (s, log) =>
  let (a, s) := m.run s
  (a, s, log ++ [event a])

def Action.logged (event : Except ε α → κ) (a : Action ε σ α) : Action ε (σ × List κ) α :=
  ExceptT.mk (RecordQuery.logged event a.result)

def Executor.recorded (event : Call → κ) (x : Executor σ) : Executor (σ × List κ) where
  dialect := x.dialect
  execute s := (x.execute s).logged fun answer => event (.execute s answer)
  query s := (x.query s).logged fun answer => event (.query s answer)
  stream s := logged (fun answer => event (.stream s answer)) (x.stream s)

def TransactionalExecutor.recorded (x : TransactionalExecutor σ) :
    TransactionalExecutor (σ × List TransactionCall) where
  toExecutor := x.toExecutor.recorded .outside
  start := x.start.logged .start
  inside := x.inside.recorded .inside
  commit := x.commit.logged .commit
  rollback := x.rollback.logged .rollback

def Connection.recorded (c : Connection σ) : Connection (σ × List ConnectionCall) where
  dialect := c.dialect
  execute s := (c.execute s).logged fun answer => .execute s answer
  read s := logged (fun answer => .read s answer) (c.read s)

/-- The engine over the recorded executor. -/
def Engine.recorded (event : Call → κ) (e : Engine σ) : Engine (σ × List κ) :=
  ⟨e.executor.recorded event, e.registry⟩

def BlockingEngine.recorded (b : BlockingEngine σ) : BlockingEngine (σ × List ConnectionCall) :=
  ⟨b.connection.recorded, b.registry⟩

namespace Action

theorem run_bind (a : Action ε σ α) (f : α → Action ε σ β) (s : σ) :
    (a >>= f).result.run s = match a.result.run s with
      | (.ok v, s) => (f v).result.run s
      | (.error err, s) => (.error err, s) := by
  change (do ExceptT.bindCont f (← a.result) : StateM σ _).run s = _
  rw [StateT.run_bind]
  rcases h : a.result.run s with ⟨err | v, s'⟩
  · rfl
  · rfl

theorem run_mapFailure (say : ε → ε') (a : Action ε σ α) (s : σ) :
    (a.mapFailure say).result.run s
      = ((a.result.run s).1.mapError say, (a.result.run s).2) := rfl

theorem ofExcept_ok_bind (v : α) (f : α → Action ε σ β) : ofExcept (.ok v) >>= f = f v := rfl

/-- The failures of a sequence are said as those of its parts are. -/
theorem mapFailure_bind (say : ε → ε') (a : Action ε σ α) (f : α → Action ε σ β) :
    (a >>= f).mapFailure say = a.mapFailure say >>= fun v => (f v).mapFailure say := by
  funext s
  refine (run_mapFailure say (a >>= f) s).trans (.trans ?_ (run_bind _ _ s).symm)
  rw [run_bind, run_mapFailure]
  rcases a.result.run s with ⟨err | v, s'⟩
  · rfl
  · exact (run_mapFailure say (f v) s').symm

/-- What an attempt makes of a result. -/
def attempted : Except Stop α → Except Overflow (Except Error α)
  | .ok v => .ok (.ok v)
  | .error (.error e) => .ok (.error e)
  | .error .overflow => .error ⟨⟩

theorem run_attempt (a : Action Stop σ α) (s : σ) :
    a.attempt.result.run s = (attempted (a.result.run s).1, (a.result.run s).2) := by
  rw [attempt, result, ExceptT.run_mk, StateT.run_bind]
  rcases a.result.run s with ⟨(err | _) | v, s'⟩ <;> rfl

/-- The second action has the result of the first and does the same to the state, and adds events
to the log that `P` allows for that result. -/
def Records (a : Action ε σ α) (b : Action ε (σ × List κ) α)
    (P : List κ → Except ε α → Prop) : Prop :=
  ∀ s log, ∃ events, b.result.run (s, log)
      = ((a.result.run s).1, (a.result.run s).2, log ++ events) ∧ P events (a.result.run s).1

namespace Records

variable {a : Action ε σ α} {b : Action ε (σ × List κ) α} {P Q : List κ → Except ε α → Prop}

theorem mono (h : Records a b P) (hPQ : ∀ es r, P es r → Q es r) : Records a b Q := by
  intro s log
  obtain ⟨events, hb, hP⟩ := h s log
  exact ⟨events, hb, hPQ _ _ hP⟩

theorem ofExcept (r : Except ε α) :
    Records (Action.ofExcept r : Action ε σ α) (Action.ofExcept r : Action ε (σ × List κ) α)
      fun es r' => es = [] ∧ r' = r := by
  intro s log
  exact ⟨[], by rw [List.append_nil]; rfl, rfl, rfl⟩

theorem pure (v : α) :
    Records (Pure.pure v : Action ε σ α) (Pure.pure v : Action ε (σ × List κ) α)
      fun es r => es = [] ∧ r = .ok v :=
  ofExcept (.ok v)

theorem throw (err : ε) :
    Records (MonadExcept.throw err : Action ε σ α)
      (MonadExcept.throw err : Action ε (σ × List κ) α) fun es r => es = [] ∧ r = .error err :=
  ofExcept (.error err)

theorem logged (event : Except ε α → κ) (a : Action ε σ α) :
    Records a (a.logged event) fun es r => es = [event r] := by
  intro s log
  exact ⟨[event (a.result.run s).1], rfl, rfl⟩

/-- Nothing is called after a failure; otherwise the calls of the rest follow. -/
theorem bind {f : α → Action ε σ β} {g : α → Action ε (σ × List κ) β}
    {R : α → List κ → Except ε β → Prop} (ha : Records a b P)
    (hf : ∀ v, Records (f v) (g v) (R v)) :
    Records (a >>= f) (b >>= g) fun es r =>
      (∃ err, P es (.error err) ∧ r = .error err) ∨
        ∃ v es₁ es₂, P es₁ (.ok v) ∧ R v es₂ r ∧ es = es₁ ++ es₂ := by
  intro s log
  obtain ⟨events, hb, hP⟩ := ha s log
  rw [run_bind, run_bind, hb]
  rcases hr : a.result.run s with ⟨err | v, s'⟩
  · rw [hr] at hP
    exact ⟨events, rfl, .inl ⟨err, hP, rfl⟩⟩
  · rw [hr] at hP
    obtain ⟨more, hg, hR⟩ := hf v s' (log ++ events)
    refine ⟨events ++ more, ?_, .inr ⟨v, events, more, hP, hR, rfl⟩⟩
    rw [← List.append_assoc]
    exact hg

theorem mapFailure (h : Records a b P) (say : ε → ε') :
    Records (a.mapFailure say) (b.mapFailure say)
      fun es r => ∃ r', P es r' ∧ r = r'.mapError say := by
  intro s log
  obtain ⟨events, hb, hP⟩ := h s log
  rw [run_mapFailure, run_mapFailure, hb]
  exact ⟨events, rfl, _, hP, rfl⟩

/-- An attempt makes the calls of what is attempted and fails only with an overflow. -/
theorem attempt {a : Action Stop σ α} {b : Action Stop (σ × List κ) α}
    {P : List κ → Except Stop α → Prop} (h : Records a b P) :
    Records a.attempt b.attempt fun es r => ∃ r', P es r' ∧ r = attempted r' := by
  intro s log
  obtain ⟨events, hb, hP⟩ := h s log
  rw [run_attempt, run_attempt, hb]
  exact ⟨events, rfl, _, hP, rfl⟩

end Records

end Action

/-- A statement whose rows are read is sent once, and the reading is the result. -/
theorem Engine.ask_records {κ : Type} (e : Engine σ) (event : Call → κ) (s : Statement)
    (read : List Row → Except Stop α) :
    (e.ask s read).Records ((e.recorded event).ask s read) fun events result =>
      ∃ answer, events = [event (.query s answer)] ∧ result = (reported answer).bind read := by
  have sent := Action.Records.logged (fun rows => event (.query s rows)) (e.executor.query s)
  refine ((sent.mapFailure Stop.error).bind fun rows => .ofExcept (read rows)).mono ?_
  rintro events result (⟨err, ⟨answer, rfl, failed⟩, rfl⟩ |
    ⟨rows, _, _, ⟨answer, rfl, given⟩, ⟨rfl, rfl⟩, rfl⟩)
  · exact ⟨answer, rfl, by rw [reported, ← failed]; rfl⟩
  · exact ⟨answer, rfl, by rw [reported, ← given]; rfl⟩

theorem Engine.run_of_ok {e : Engine σ} {t : Query.Terminal} {q : Query} {s : Statement}
    (h : q.statement e.registry e.executor.dialect t = .ok s) (read : List Row → Except Stop α) :
    e.run t q read = e.ask s read := by
  rw [run, compile, h]
  rfl

theorem BlockingEngine.run_of_ok {b : BlockingEngine σ} {t : Query.Terminal} {q : Query}
    {s : Statement} (h : q.statement b.registry b.connection.dialect t = .ok s)
    (read : List Row → Except Stop α) : b.run t q read = b.ask s read := by
  rw [run, compile, h]
  rfl

/-! ## A script of answers -/

/-- What a connection fetches if the answer is known before the first row. -/
def fetched : Except Error (List Row) → List Row × Option Error
  | .ok rows => (rows, none)
  | .error e => ([], some e)

/-- The rows of an answer as they come, or its failure in place of them. -/
def streamed : Except Error (List Row) → List (Except Error Row)
  | .ok rows => rows.map .ok
  | .error e => [.error e]

/-- What a storage answers, in turn. -/
abbrev Script := List (Except Error (List Row))

/-- The next answer; there are no rows once the script has ended. -/
def Script.next : StateM Script (Except Error (List Row)) := fun
  | [] => (.ok [], [])
  | answer :: script => (answer, script)

def Executor.scripted (d : Dialect) : Executor Script where
  dialect := d
  execute _ := return 0
  query _ := ExceptT.mk Script.next
  stream _ := do return streamed (← Script.next)

def Connection.scripted (d : Dialect) : Connection Script where
  dialect := d
  execute _ := return 0
  read _ := do return fetched (← Script.next)

end RecordQuery
