import RecordQuery.Proofs.Compile.Scoping
import RecordQuery.Proofs.Engine.Batches

/-!
# A family is inserted whole, undone or left open

`FamilyRun` says which statements the insert of a parent with its children runs in the transaction
until one fails or the children cannot be counted, and what comes of them. The transaction is
committed if it was the key of the parent, and rolled back if it was a failure. If the children were
too many to count it is neither, though all statements succeeded (`family_ended`).
-/

namespace RecordQuery

open Number Write

namespace Engine

variable {σ : Type} (e : Engine σ)

/-- The key of the first row that an insert returned. -/
def readKey : List Row → Except Stop Value := readScalar (FieldType.ofRow (.required .any))

/-- A key is read as it is, and nothing is computed of it. -/
theorem readKey_ne_overflow (rows : List Row) : readKey rows ≠ .error .overflow := by
  rcases rows with _ | ⟨⟨columns, _ | ⟨v, values⟩⟩, rows⟩
  · nofun
  · nofun
  · cases v <;> nofun

theorem insertReturningKey_records {κ : Type} (event : Call → κ) (record : Record)
    (read : RowReader α) :
    (e.insertReturningKey record read).Records ((e.recorded event).insertReturningKey record read)
      fun es r =>
        (∃ err, e.insertStatement record true = .error err ∧ es = [] ∧ r = .error (.error err)) ∨
          ∃ s answer, e.insertStatement record true = .ok s ∧ es = [event (.query s answer)] ∧
            r = (reported answer).bind (readScalar read) := by
  have built := Action.Records.ofExcept (κ := κ) (σ := σ) (reported (e.insertStatement record true))
  refine (built.bind fun s => e.ask_records event s (readScalar read)).mono ?_
  rintro es r (⟨_, ⟨rfl, h⟩, rfl⟩ | ⟨s, _, _, ⟨rfl, h⟩, ⟨answer, rfl, rfl⟩, rfl⟩)
  · obtain ⟨err, hs, rfl⟩ := exists_of_reported_error h.symm
    exact .inl ⟨err, hs, rfl, rfl⟩
  · exact .inr ⟨s, answer, reported_eq_ok_iff.mp h.symm, rfl, rfl⟩

end Engine

/-! ## Families -/

section

variable {σ : Type} (e : Engine σ) (parent : Record) (childShape : ShapeId)
  (linked : Value → List Record)

/-- The calls in the transaction until one fails or the children cannot be counted, and what comes
of them: the key of the parent, which the children were linked to, or what stopped them. -/
inductive FamilyRun : List Call → Except Stop Value → Prop
  | parentUnbuilt {err : Error} (h : e.insertStatement parent true = .error err) :
    FamilyRun [] (.error (.error err))
  | parentFailed {s : Statement} {err : Error} (h : e.insertStatement parent true = .ok s) :
    FamilyRun [.query s (.error err)] (.error (.error err))
  | keyUnread {s : Statement} {rows : List Row} {err : Error}
    (h : e.insertStatement parent true = .ok s)
    (hk : Engine.readKey rows = .error (.error err)) :
    FamilyRun [.query s (.ok rows)] (.error (.error err))
  | childrenUnbuilt {s : Statement} {rows : List Row} {key : Value} {err : Error}
    (h : e.insertStatement parent true = .ok s) (hk : Engine.readKey rows = .ok key)
    (hc : e.batches childShape (linked key) = .error err) :
    FamilyRun [.query s (.ok rows)] (.error (.error err))
  | childrenStopped {s : Statement} {rows : List Row} {key : Value} {ss : List Statement}
    {calls : List Call} {stop : Stop}
    (h : e.insertStatement parent true = .ok s) (hk : Engine.readKey rows = .ok key)
    (hc : e.batches childShape (linked key) = .ok ss)
    (run : RunInOrder 0 ss calls (.error stop)) :
    FamilyRun (.query s (.ok rows) :: calls) (.error stop)
  | whole {s : Statement} {rows : List Row} {key : Value} {ss : List Statement}
    {calls : List Call} {n : UInt64}
    (h : e.insertStatement parent true = .ok s) (hk : Engine.readKey rows = .ok key)
    (hc : e.batches childShape (linked key) = .ok ss)
    (run : RunInOrder 0 ss calls (.ok n)) :
    FamilyRun (.query s (.ok rows) :: calls) (.ok key)

theorem Engine.insertFamily_records {κ : Type} (event : Call → κ) :
    (e.insertFamily parent childShape linked).Records
      ((e.recorded event).insertFamily parent childShape linked) fun es r =>
        ∃ calls, FamilyRun e parent childShape linked calls r ∧ es = calls.map event := by
  have h := (e.insertReturningKey_records event parent (FieldType.ofRow (.required .any))).bind
    fun key => (e.insertMany_records event childShape (linked key)).bind fun _ => .pure key
  refine h.mono ?_
  rintro es r (⟨err, parent, rfl⟩ | ⟨key, es₁, es₂, parent, rest, rfl⟩)
  · obtain ⟨err, hs, rfl, ⟨⟩⟩ | ⟨s, answer, hs, rfl, hr⟩ := parent
    · exact ⟨[], .parentUnbuilt hs, rfl⟩
    · cases answer with
      | error err' => exact ⟨[.query s (.error err')], by cases hr; exact .parentFailed hs, rfl⟩
      | ok rows =>
        have unread : Engine.readKey rows = .error err := hr.symm
        cases err with
        | error err => exact ⟨[.query s (.ok rows)], .keyUnread hs unread, rfl⟩
        | overflow => exact absurd unread (Engine.readKey_ne_overflow rows)
  · obtain ⟨err, hs, rfl, ⟨⟩⟩ | ⟨s, _ | rows, hs, rfl, hk⟩ := parent
    · cases hk
    obtain ⟨err, ⟨err', hc, rfl, ⟨⟩⟩ | ⟨ss, calls, hc, run, rfl⟩, rfl⟩
      | ⟨n, _, _, ⟨err', hc, rfl, ⟨⟩⟩ | ⟨ss, calls, hc, run, rfl⟩, ⟨rfl, rfl⟩, rfl⟩ := rest
    · exact ⟨[.query s (.ok rows)], .childrenUnbuilt hs hk.symm hc, rfl⟩
    · exact ⟨.query s (.ok rows) :: calls, .childrenStopped hs hk.symm hc run, rfl⟩
    · exact ⟨.query s (.ok rows) :: calls, .whole hs hk.symm hc run, by simp⟩

variable {e parent childShape linked}

/-- The same calls have the same outcome. -/
theorem FamilyRun.unique {calls : List Call} {o o' : Except Stop Value}
    (h : FamilyRun e parent childShape linked calls o)
    (h' : FamilyRun e parent childShape linked calls o') : o = o' := by
  cases h <;> cases h' <;> grind [RunInOrder.unique]

/-- The children are too many to count exactly if the calls are about more rows than 64 bits
hold. -/
theorem FamilyRun.overflow_iff {calls : List Call} {o : Except Stop Value}
    (h : FamilyRun e parent childShape linked calls o) :
    o = .error .overflow ↔ UInt64.size ≤ affectedBy calls := by
  have query (s : Statement) (answer : Except Error (List Row)) (calls : List Call) :
      affectedBy (.query s answer :: calls) = (0 : UInt64).toNat + affectedBy calls := rfl
  cases h with
  | parentUnbuilt | parentFailed | keyUnread | childrenUnbuilt =>
    exact iff_of_false nofun (Nat.not_le.mpr (show 0 < UInt64.size by decide))
  | childrenStopped _ _ _ run =>
    rw [query, ← run.overflow_iff, Except.error.injEq, Except.error.injEq]
  | whole _ _ _ run =>
    rw [query, ← run.overflow_iff]
    exact iff_of_false nofun nofun

end

/-- How the transaction ends: it is committed with the key of the parent, rolled back for a failure
whatever the answer to that, and left open for an overflow. -/
inductive Ended : Except Stop Value → List TransactionCall → Except Stop Value → Prop
  | committed (key : Value) (answer : Except Error Unit) :
    Ended (.ok key) [.commit answer] ((reported answer).map fun _ => key)
  | rolledBack (err : Error) (answer : Except Error Unit) :
    Ended (.error (.error err)) [.rollback answer] (.error (.error err))
  | leftOpen : Ended (.error .overflow) [] (.error .overflow)

namespace TransactionalExecutor

variable {σ τ : Type} (x : TransactionalExecutor σ)

/-- Ends the open transaction as the outcome of its statements says. -/
def finish : Except Error Value → Action Stop σ Value
  | .ok key => do
    x.commit
    return key
  | .error err => do
    let _ ← x.rollback.result
    throw (.error err)

/-- Ends the open transaction as the outcome of an action in it says, unless that overflows. -/
def ending (a : Action Stop σ Value) : Action Stop σ Value := do
  let outcome ← a.attempt
  x.finish outcome

theorem insertWithChildren_eq (r : Registry) (parent : Record) (childShape : ShapeId)
    (children : List Record) (link : Record → Value → StateM τ Record) (initial : τ) :
    x.insertWithChildren r parent childShape children link initial = (do
      x.start
      x.ending (Engine.insertFamily ⟨x.inside, r⟩ parent childShape
        (linkAll link initial children))) :=
  rfl

theorem finish_records (outcome : Except Error Value) :
    (x.finish outcome).Records (x.recorded.finish outcome) fun events result =>
      Ended (reported outcome) events result := by
  cases outcome with
  | ok key =>
    refine (((Action.Records.logged TransactionCall.commit x.commit).mapFailure Stop.error).bind
      fun _ => .pure key).mono ?_
    rintro events result (⟨err, ⟨answer, rfl, failed⟩, rfl⟩ |
      ⟨⟨⟩, _, _, ⟨answer, rfl, done⟩, ⟨rfl, rfl⟩, rfl⟩)
    · obtain ⟨err, rfl, rfl⟩ := exists_of_reported_error failed.symm
      exact .committed key (.error err)
    · obtain rfl := reported_eq_ok_iff.mp done.symm
      exact .committed key (.ok ())
  | error err =>
    intro s log
    exact ⟨[.rollback (x.rollback.result.run s).1], rfl, .rolledBack err _⟩

theorem ending_records {a : Action Stop σ Value}
    {b : Action Stop (σ × List TransactionCall) Value}
    {P : List TransactionCall → Except Stop Value → Prop} (h : a.Records b P) :
    (x.ending a).Records (x.recorded.ending b) fun events result =>
      ∃ es outcome last, P es outcome ∧ events = es ++ last ∧ Ended outcome last result := by
  refine ((h.attempt.mapFailure fun _ => Stop.overflow).bind x.finish_records).mono ?_
  rintro events result (⟨stop, ⟨_, ⟨outcome, hP, rfl⟩, failed⟩, rfl⟩ |
    ⟨tried, es, last, ⟨_, ⟨outcome, hP, rfl⟩, done⟩, ended, rfl⟩)
  · match outcome with
    | .ok key => cases failed
    | .error (.error err) => cases failed
    | .error .overflow =>
      cases failed
      exact ⟨events, _, [], hP, (List.append_nil _).symm, .leftOpen⟩
  · match outcome with
    | .ok key => cases done; exact ⟨es, _, last, hP, rfl, ended⟩
    | .error (.error err) => cases done; exact ⟨es, _, last, hP, rfl, ended⟩
    | .error .overflow => cases done

theorem run_ending_of_overflow {a : Action Stop σ Value} {s s' : σ}
    (h : a.result.run s = (.error .overflow, s')) :
    (x.ending a).result.run s = (.error .overflow, s') := by
  have tried : x.ending a = a.attempt.mapFailure (fun _ => .overflow) >>= x.finish := rfl
  rw [tried, Action.run_bind, Action.run_mapFailure, Action.run_attempt, h]
  rfl

end TransactionalExecutor

theorem Ended.left_open_iff {outcome result : Except Stop Value} {last : List TransactionCall}
    (h : Ended outcome last result) : last = [] ↔ outcome = .error .overflow := by
  cases h <;> simp

/-- If the transaction does not start nothing else is called. Otherwise the statements of the family
run in it, in order, until one fails or the children cannot be counted, and it is ended as their
outcome says. It is left open exactly if more children were inserted than 64 bits hold. -/
theorem family_ended {σ τ : Type} (x : TransactionalExecutor σ) (r : Registry)
    (parent : Record) (childShape : ShapeId) (children : List Record)
    (link : Record → Value → StateM τ Record) (initial : τ) :
    (x.insertWithChildren r parent childShape children link initial).Records
      (x.recorded.insertWithChildren r parent childShape children link initial)
      fun events result =>
        (∃ err, events = [.start (.error err)] ∧ result = .error (.error err)) ∨
          ∃ calls outcome last, events = .start (.ok ()) :: calls.map .inside ++ last ∧
            (∀ o, FamilyRun ⟨x.inside, r⟩ parent childShape (linkAll link initial children)
              calls o ↔ o = outcome) ∧
            Ended outcome last result ∧ (last = [] ↔ UInt64.size ≤ affectedBy calls) := by
  rw [TransactionalExecutor.insertWithChildren_eq, TransactionalExecutor.insertWithChildren_eq]
  have family := Engine.insertFamily_records ⟨x.inside, r⟩ parent childShape
    (linkAll link initial children) TransactionCall.inside
  refine (((Action.Records.logged TransactionCall.start x.start).mapFailure Stop.error).bind
    fun _ => x.ending_records family).mono ?_
  rintro events result (⟨_, ⟨answer, rfl, failed⟩, rfl⟩ |
    ⟨⟨⟩, _, _, ⟨answer, rfl, started⟩, ⟨_, outcome, last, ⟨calls, run, rfl⟩, rfl, ended⟩, rfl⟩)
  · obtain ⟨err, rfl, rfl⟩ := exists_of_reported_error failed.symm
    exact .inl ⟨err, rfl, rfl⟩
  · obtain rfl := reported_eq_ok_iff.mp started.symm
    refine .inr ⟨calls, outcome, last, rfl, fun o => ⟨fun run' => run'.unique run, ?_⟩, ended,
      ended.left_open_iff.trans run.overflow_iff⟩
    rintro rfl
    exact run

/-! ## More children than can be counted -/

/-- Children that are linked by their key alone are linked each on its own. -/
theorem linkAll_pure {τ : Type} (f : Record → Value → Record) (initial : τ) (children : List Record)
    (key : Value) :
    linkAll (fun child key => pure (f child key)) initial children key
      = children.map (f · key) := by
  rw [linkAll, List.mapM_pure]
  rfl

/-- A storage in which nothing fails. It counts for every insert as many rows as 64 bits hold. -/
def boundless : Executor Unit where
  dialect := .sqlite
  execute _ := return 18446744073709551615
  query _ := return [.ofPairs [("id", .long 1)]]
  stream _ := return []

def boundlessStorage : TransactionalExecutor Unit where
  toExecutor := boundless
  start := return ()
  inside := boundless
  commit := return ()
  rollback := return ()

def firstOrder : Record where
  shape := "Order"
  cells := [
    (⟨"id", .required .long, .long 0⟩, .long 0),
    (⟨"total", .required .long, .long 0⟩, .long 9)]

/-- The line of an order. -/
def lineOf (order : Value) : Record where
  shape := "Line"
  cells := [
    (⟨"order", .required .any, .null⟩, order),
    (⟨"item", .required .long, .long 0⟩, .long 3)]

def lineMetadata : Metadata where
  table := "line"
  columns := [⟨"order", "order_id"⟩, ⟨"item", "item_id"⟩]

/-- Lines of an order that are too many for one statement take several. -/
theorem exists_crowd_batches {lines : List Record} (same : ∀ line ∈ lines, line = lineOf (.long 1))
    (many : maxRows < lines.length) : ∃ s t rest,
    (Engine.mk boundless orderRegistry).batches "Line" lines = .ok (s :: t :: rest) := by
  have given : lines ≠ [] := List.ne_nil_of_length_pos (Nat.zero_lt_of_lt many)
  have faultless : lines.findSome? (Record.insertFault? lineMetadata) = none := by
    refine List.findSome?_eq_none_iff.mpr fun line mem => ?_
    rw [same line mem]
    rfl
  have registered : orderRegistry.get? "Line" = some lineMetadata := rfl
  obtain ⟨_, ss, built, several⟩ :=
    (Engine.mk boundless orderRegistry).exists_batches_of_faultless given registered faultless
  obtain ⟨s, t, rest, rfl⟩ := InsertPlan.exists_two_batches built
    (by rw [insertOf, List.length_map]; exact many)
  exact ⟨s, t, rest, several⟩

/-- The calls in the transaction of an order and its lines, where the first two statements for the
lines are `s` and `t`. -/
def crowdedCalls (parent s t : Statement) : List Call :=
  [.query parent (.ok [.ofPairs [("id", .long 1)]]), ran (s, 18446744073709551615),
    ran (t, 18446744073709551615)]

/-- Lines of an order that are too many for one statement are not counted. -/
theorem run_insertFamily_crowd (linked : Value → List Record)
    (same : ∀ line ∈ linked (.long 1), line = lineOf (.long 1))
    (many : maxRows < (linked (.long 1)).length) : ∃ parent s t, ∀ log,
    ((Engine.mk boundlessStorage.recorded.inside orderRegistry).insertFamily firstOrder "Line"
        linked).result.run ((), log)
      = (.error .overflow, (), log ++ (crowdedCalls parent s t).map .inside) := by
  let e : Engine (Unit × List TransactionCall) := ⟨boundlessStorage.recorded.inside, orderRegistry⟩
  obtain ⟨s, t, rest, built⟩ := exists_crowd_batches same many
  have several : e.batches "Line" (linked (.long 1)) = .ok (s :: t :: rest) := built
  have uncounted (log : List TransactionCall) :
      (e.insertMany "Line" (linked (.long 1))).result.run ((), log)
        = (.error .overflow, (), log ++ [.inside (ran (s, 18446744073709551615))]
          ++ [.inside (ran (t, 18446744073709551615))]) := by
    rw [e.insertMany_eq, several]
    rfl
  obtain ⟨parent, inserted⟩ : ∃ parent, ∀ log, (e.insertReturningKey firstOrder
      (FieldType.ofRow (.required .any))).result.run ((), log)
    = (.ok (.long 1), (), log ++ [.inside (.query parent (.ok [.ofPairs [("id", .long 1)]]))]) :=
    ⟨_, fun log => rfl⟩
  refine ⟨parent, s, t, fun log => ?_⟩
  rw [Engine.insertFamily, Action.run_bind, inserted]
  dsimp only
  rw [Action.run_bind, uncounted, crowdedCalls]
  simp

theorem run_crowded {children : List Record} (many : maxRows < children.length) : ∃ parent s t,
    (boundlessStorage.recorded.insertWithChildren orderRegistry firstOrder "Line" children
        (fun _ key => return lineOf key) ()).result.run ((), [])
      = (.error .overflow, (), .start (.ok ()) :: (crowdedCalls parent s t).map .inside) := by
  have linked (key : Value) : linkAll (fun _ key => (return lineOf key : StateM Unit Record)) ()
      children key = children.map fun _ => lineOf key := linkAll_pure _ () children key
  obtain ⟨parent, s, t, family⟩ := run_insertFamily_crowd
    (linkAll (fun _ key => return lineOf key) () children)
    (by simp [linked]) (by rwa [linked, List.length_map])
  refine ⟨parent, s, t, ?_⟩
  rw [TransactionalExecutor.insertWithChildren_eq, Action.run_bind]
  exact TransactionalExecutor.run_ending_of_overflow _ (family [.start (.ok ())])

/-- Lines of no order yet, one more than a statement may carry. -/
def crowd : List Record := List.replicate 1001 (lineOf .null)

/-- All lines of an order are inserted, and their transaction is neither committed nor rolled
back. -/
theorem crowd_left_open :
    (∃ parent s t, (boundlessStorage.recorded.insertWithChildren orderRegistry firstOrder "Line"
        crowd (fun _ key => return lineOf key) ()).result.run ((), [])
      = (.error .overflow, (), .start (.ok ()) :: (crowdedCalls parent s t).map .inside)) ∧
    ¬∀ (x : TransactionalExecutor Unit) (r : Registry) (parent : Record) (childShape : ShapeId)
        (children : List Record) (link : Record → Value → StateM Unit Record),
      (x.insertWithChildren r parent childShape children link ()).Records
        (x.recorded.insertWithChildren r parent childShape children link ())
        fun events _ => (∃ err, events = [.start (.error err)]) ∨
          ∃ calls last, events = .start (.ok ()) :: calls ++ [last] ∧
            ((∃ answer, last = .commit answer) ∨ ∃ answer, last = .rollback answer) := by
  have many : maxRows < crowd.length := by
    rw [crowd, List.length_replicate]
    decide
  have run := run_crowded many
  refine ⟨run, fun ended => ?_⟩
  obtain ⟨parent, s, t, run⟩ := run
  obtain ⟨events, log, shape⟩ := ended boundlessStorage orderRegistry firstOrder "Line" crowd
    (fun _ key => return lineOf key) () []
  rw [run] at log
  obtain rfl := congrArg (·.2.2) log
  obtain ⟨err, same⟩ | ⟨calls, last, same, isEnd⟩ := shape
  · cases same
  · have final := congrArg List.getLast? same
    rw [List.getLast?_concat] at final
    cases final
    obtain ⟨answer, ⟨⟩⟩ | ⟨answer, ⟨⟩⟩ := isEnd

end RecordQuery
