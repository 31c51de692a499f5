import RecordQuery.Proofs.Sql.Legible
import RecordQuery.Proofs.Compile.Scope
import RecordQuery.Proofs.Result
import RecordQuery.Compile.Select
import RecordQuery.Write.Insert
import RecordQuery.Write.Update

/-!
# Parameters are numbered in the order of the text

Values are bound while expressions are lowered, and the clauses are written later, each with the
numbers of its parameters. `Lowering.Numbers` follows the numbers through a lowering: those in what
it gives are the ones it handed out, in order. With `Legible` this makes the placeholders of every
statement `@p0`, `@p1`, … from left to right (`statements_numbered`).
-/

namespace RecordQuery

namespace Sql

def Piece.slot? : Piece → Option Nat
  | parameter slot => some slot
  | _ => none

/-- The numbers of the parameters of pieces, from left to right. -/
def slots (ps : List Piece) : List Nat := ps.filterMap Piece.slot?

@[simp] theorem slots_nil : slots [] = [] := rfl

@[simp] theorem slots_text (s : String) (ps : List Piece) : slots (.text s :: ps) = slots ps := rfl

@[simp] theorem slots_ident (name : String) (ps : List Piece) :
    slots (.ident name :: ps) = slots ps := rfl

@[simp] theorem slots_parameter (slot : Nat) (ps : List Piece) :
    slots (.parameter slot :: ps) = slot :: slots ps := rfl

@[simp] theorem slots_append (ps qs : List Piece) : slots (ps ++ qs) = slots ps ++ slots qs :=
  List.filterMap_append

theorem slots_flatMap (f : α → List Piece) (xs : List α) :
    slots (xs.flatMap f) = xs.flatMap fun x => slots (f x) := by
  induction xs with
  | nil => rfl
  | cons x xs ih => simp [ih]

@[simp] theorem slots_separated (sep : String) (items : List (List Piece)) :
    slots (separated sep items) = items.flatMap slots := by
  cases items with
  | nil => rfl
  | cons first rest => simp [separated, slots_flatMap]

@[simp] theorem slots_listClause (keyword : String) (items : List (List Piece)) :
    slots (listClause keyword items) = items.flatMap slots := by
  cases items with
  | nil => rfl
  | cons first rest => simp [listClause]

@[simp] theorem slots_wherePieces (cs : List Condition) :
    slots (wherePieces cs) = cs.flatMap fun c => slots c.pieces := by
  cases cs with
  | nil => rfl
  | cons c cs => simp [wherePieces, List.flatMap_map]

@[simp] theorem slots_qualified (label column : String) : slots (qualified label column) = [] := rfl

@[simp] theorem slots_aggregatePieces (f : AggregateFunction) (ps : List Piece) :
    slots (aggregatePieces f ps) = slots ps := by
  cases f <;> simp [aggregatePieces]

/-! ## Placeholders of a text -/

/-- The placeholders of a text outside of names, from left to right. -/
def placeholders (sql : String) : List String := (tokens sql).filterMap Token.placeholder?

theorem placeholder?_placeholder (n : Nat) :
    (Token.word (placeholder n)).placeholder? = some (placeholder n) := by
  simp [Token.placeholder?, toList_placeholder]

theorem placeholder?_of_silent {s : String} (h : silent s = true) :
    (tokens s).filterMap Token.placeholder? = [] := by
  refine List.filterMap_eq_nil_iff.mpr fun t ht => ?_
  have hp : t.isPlain = true := List.all_eq_true.mp h t ht
  cases t with
  | ident name => rfl
  | word w => exact beq_iff_eq.mp hp
  | sign w => rfl
  | mark c => rfl

/-- The placeholders of a legible text are those of its parameters. -/
theorem Legible.placeholders {ps : List Piece} (h : Legible ps) :
    placeholders (sqlOf ps) = (slots ps).map placeholder := by
  have pieces : ∀ qs : List Piece, (∀ s, .text s ∈ qs → Sql.silent s = true) →
      (qs.flatMap Piece.tokens).filterMap Token.placeholder? = (slots qs).map placeholder := by
    intro qs hq
    induction qs with
    | nil => rfl
    | cons q qs ih =>
      have hqs := ih fun s hs => hq s (List.mem_cons_of_mem _ hs)
      rw [List.flatMap_cons, List.filterMap_append, hqs]
      cases q with
      | text s =>
        rw [Piece.tokens, Piece.sql, placeholder?_of_silent (hq s List.mem_cons_self)]
        simp
      | ident name => simp [Piece.tokens, Piece.sql, Token.placeholder?]
      | parameter slot => simp [Piece.tokens, Piece.sql, placeholder?_placeholder]
  rw [Sql.placeholders, h.tokens_sqlOf, pieces ps h.silent]

end Sql

open Sql

/-! ## Numbers handed out by a lowering -/

/-- When a lowering succeeds, the numbers in its result are some given before it, followed by those
it handed out. -/
def Lowering.Numbers (before : List Nat) (m : Lowering α) (slots : α → List Nat) : Prop :=
  ∀ n vs a, m.run n = (vs, .ok a) → slots a = before ++ List.range' n vs.length

namespace Lowering.Numbers

variable {before : List Nat}

theorem pure {a : α} {slots : α → List Nat} (h : slots a = before) :
    Numbers before (Pure.pure a) slots := by
  intro n vs b hb
  cases hb
  simp [h]

theorem fail {e : Error} {slots : α → List Nat} : Numbers before (Lowering.fail e) slots := by
  intro n vs b hb
  cases hb

theorem ofExcept (r : Except Error α) : Numbers before (Lowering.ofExcept r) (fun _ => before) := by
  intro n vs b hb
  obtain ⟨rfl, rfl⟩ := Prod.mk.inj hb
  simp

theorem push (v : Value) : Numbers before (Lowering.push v) (before ++ [·]) := by
  intro n vs b hb
  cases hb
  simp

theorem bind {m : Lowering α} {k : α → Lowering β} {f : α → List Nat} {g : β → List Nat}
    (hm : Numbers before m f) (hk : ∀ a, Numbers (f a) (k a) g) : Numbers before (m >>= k) g := by
  intro n vs b hb
  obtain ⟨us, a, ws, ha, hf, rfl⟩ := run_bind_ok_iff.mp hb
  rw [hk a _ _ _ hf, hm _ _ _ ha]
  simp

theorem after {m : Lowering α} {f : α → List Nat} (h : Numbers [] m f) :
    Numbers before m (fun a => before ++ f a) := by
  intro n vs a ha
  simp [h n vs a ha]

theorem map {m : Lowering α} {k : α → β} {f : α → List Nat} {g : β → List Nat}
    (hm : Numbers before m f) (hk : ∀ a, g (k a) = f a) :
    Numbers before (m >>= fun a => Pure.pure (k a)) g :=
  hm.bind fun a => pure (hk a)

theorem mapM {k : α → Lowering β} {f : β → List Nat} {xs : List α}
    (h : ∀ x, Numbers [] (k x) f) : Numbers [] (xs.mapM k) (fun bs => bs.flatMap f) := by
  induction xs with
  | nil => exact pure rfl
  | cons x xs ih =>
    rw [List.mapM_cons]
    refine (h x).bind fun b => ?_
    exact ih.after.map fun bs => rfl

end Lowering.Numbers

open Lowering

/-! ## Expressions -/

theorem slots_of_resolve {s : Scope} {r : FieldRef} {t : Term} (h : s.resolve r = .ok t) :
    slots t.pieces = [] := by
  obtain ⟨table, _, c, _, rfl⟩ := Scope.resolve_ok h
  rfl

namespace Expr

theorem toOperand_numbers (s : Scope) (e : Expr) :
    Numbers [] (e.toOperand s) (fun t => slots t.pieces) := by
  unfold toOperand
  split
  · next r =>
    intro n vs t ht
    obtain ⟨rfl, hr⟩ := Prod.mk.inj ht
    exact slots_of_resolve hr
  · exact (Numbers.push _).map fun slot => rfl
  · exact .fail
  · exact .fail
  · exact .fail

theorem toSelector_numbers (s : Scope) (e : Expr) :
    Numbers [] (e.toSelector s) (fun t => slots t.pieces) := by
  unfold toSelector
  split
  · exact .pure rfl
  · exact .fail
  · exact (toOperand_numbers s _).map fun t => slots_aggregatePieces _ t.pieces
  · exact toOperand_numbers s _

theorem nullTest_numbers (op : Comparison) (t : Term) :
    Numbers (slots t.pieces) (nullTest op t) (fun c => slots c.pieces) := by
  cases op with
  | equal => exact .pure (by simp [Condition.pieces])
  | notEqual => exact .pure (by simp [Condition.pieces])
  | _ => exact .fail

theorem toComparison_numbers (s : Scope) (op : Comparison) (l r : Expr) :
    Numbers [] (toComparison s op l r) (fun c => slots c.pieces) := by
  unfold toComparison
  split
  · exact .fail
  · exact (toOperand_numbers s l).bind (nullTest_numbers op)
  · exact (toOperand_numbers s r).bind (nullTest_numbers op)
  · refine (toOperand_numbers s l).bind fun lt => ?_
    exact (toOperand_numbers s r).after.map fun rt => by simp [Condition.pieces]

theorem toTextMatch_numbers (s : Scope) (m : TextMatch) (target : Expr) (argument : Option Expr) :
    Numbers [] (toTextMatch s m target argument) (fun c => slots c.pieces) := by
  refine (toOperand_numbers s target).bind fun t => ?_
  split
  · exact (Numbers.push _).map fun slot => by simp [Condition.pieces]
  · exact .fail

theorem toMethodTest_numbers (s : Scope) (m : Method) (target : Expr) (argument : Option Expr) :
    Numbers [] (toMethodTest s m target argument) (fun c => slots c.pieces) := by
  cases m with
  | text m => exact toTextMatch_numbers s m target argument
  | isNull => exact (toOperand_numbers s target).map fun t => by simp [Condition.pieces]
  | isNotNull => exact (toOperand_numbers s target).map fun t => by simp [Condition.pieces]
  | other name => exact .fail

theorem toCondition_numbers (s : Scope) (e : Expr) :
    Numbers [] (e.toCondition s) (fun c => slots c.pieces) := by
  induction e with
  | field r => exact (toOperand_numbers s _).map fun t => by simp [Condition.pieces]
  | constant v => exact (toOperand_numbers s _).map fun t => by simp [Condition.pieces]
  | binary op l r hl hr =>
    cases op with
    | logical op =>
      refine hl.bind fun lc => ?_
      exact hr.after.map fun rc => by simp [Condition.pieces]
    | comparison op => exact toComparison_numbers s op l r
    | arithmetic op => exact .fail
  | call m t => exact toMethodTest_numbers s m t none
  | callWith m t a => exact toMethodTest_numbers s m t (some a)
  | negation e ih => exact ih.map fun c => by simp [Condition.pieces]
  | aggregateAll f => exact .fail
  | aggregate f a => exact .fail

end Expr

/-! ## Clauses -/

namespace Query

theorem projectedColumns_numbers (s : Scope) (shape : String) (seen : List String)
    (items : List ProjectionItem) :
    Numbers [] (projectedColumns s shape seen items)
      (fun cs => cs.flatMap fun c => slots c.pieces) := by
  induction items generalizing seen with
  | nil => exact .pure rfl
  | cons item rest ih =>
    unfold projectedColumns
    split
    · exact .fail
    · refine (item.expr.toSelector_numbers s).bind fun t => ?_
      exact (ih _).after.map fun cs => by simp [OutputColumn.pieces]

theorem groupedColumns_numbers (s : Scope) (q : Query) :
    Numbers [] (groupedColumns s q) (fun cs => cs.flatMap fun c => slots c.pieces) := by
  have column (e : Expr) (label : String) :
      Numbers [] (do return (⟨← e.toSelector s, label⟩ : OutputColumn))
        (fun c => slots c.pieces) :=
    (e.toSelector_numbers s).map fun t => by simp [OutputColumn.pieces]
  unfold groupedColumns
  refine (Numbers.mapM fun k : GroupKey => column k.expr k.label).bind fun keys => ?_
  refine (Numbers.mapM fun a : AggregateColumn => column a.toExpr a.label).after.map fun cs => ?_
  simp

theorem slots_tableColumns (t : ScopedTable) :
    (tableColumns t).flatMap (fun c => slots c.pieces) = [] := by
  simp [tableColumns, OutputColumn.pieces, Term.pieces]

theorem outputs_numbers (s : Scope) (q : Query) :
    Numbers [] (outputs s q) (fun cs => cs.flatMap fun c => slots c.pieces) := by
  unfold outputs
  split
  · split
    · exact .fail
    · exact projectedColumns_numbers s _ [] _
  · split
    · exact groupedColumns_numbers s q
    · intro n vs cs h
      obtain ⟨rfl, hb⟩ := Prod.mk.inj h
      cases hs : s.base with
      | error e => simp [hs, Except.map] at hb
      | ok t =>
        rw [hs] at hb
        cases hb
        exact slots_tableColumns t

def joinSlots (on : Option Condition) : List Nat := on.elim [] fun c => slots c.pieces

theorem slots_joinPieces (j : JoinClause) : slots j.pieces = joinSlots j.on := by
  unfold JoinClause.pieces
  cases j.on with
  | none => rfl
  | some c => simp [joinSlots]

theorem joinCondition_numbers (s : Scope) (j : Join) :
    Numbers [] (joinCondition s j) joinSlots := by
  unfold joinCondition
  split
  · exact .pure rfl
  · exact (Expr.toCondition_numbers s _).map fun c => rfl
  · exact .fail

theorem joinClauses_numbers (r : Registry) (s : Scope) (i : Nat) (js : List Join) :
    Numbers [] (joinClauses r s i js) (fun cs => cs.flatMap fun c => slots c.pieces) := by
  induction js generalizing i with
  | nil => exact .pure rfl
  | cons j rest ih =>
    refine (Numbers.ofExcept _).bind fun m => ?_
    refine (joinCondition_numbers _ j).bind fun on => ?_
    exact (ih _).after.map fun cs => by simp [slots_joinPieces]

theorem slots_keyTerms (s : Scope) : (keyTerms s).flatMap (fun t => slots t.pieces) = [] := by
  simp only [keyTerms, List.flatMap_eq_nil_iff, List.mem_flatMap, List.mem_map]
  rintro _ ⟨t, _, c, _, rfl⟩
  rfl

theorem fallbackOrder_numbers (s : Scope) (q : Query) :
    Numbers [] (fallbackOrder s q) (fun ts => ts.flatMap fun t => slots t.pieces) := by
  unfold fallbackOrder
  split
  · exact .mapM fun e => e.toSelector_numbers s
  · split
    · exact .fail
    · exact .pure (slots_keyTerms s)

theorem orderKeys_numbers (s : Scope) (q : Query) (w : Option Window) :
    Numbers [] (orderKeys s q w) (fun os => os.flatMap fun o => slots o.pieces) := by
  unfold orderKeys
  split
  · exact .mapM fun o => (o.key.toSelector_numbers s).map fun t => by simp [OrderKey.pieces]
  · split
    · exact (fallbackOrder_numbers s q).map fun ts => by simp [OrderKey.pieces, List.flatMap_map]
    · exact .pure rfl

end Query

theorem Sql.slots_select (d : Dialect) (s : Select) :
    slots (s.pieces d) = (s.columns.flatMap fun c => slots c.pieces)
      ++ (s.joins.flatMap fun j => slots j.pieces) ++ (s.filters.flatMap fun c => slots c.pieces)
      ++ (s.group.flatMap fun t => slots t.pieces)
      ++ (s.orders.flatMap fun o => slots o.pieces) := by
  have paging : slots (s.pagingPieces d) = [] := by
    unfold Select.pagingPieces
    split <;> rfl
  simp [Select.pieces, Select.corePieces, Select.orderPieces, paging, List.flatMap_map,
    slots_flatMap]

/-- Clauses are lowered in the order of the text. -/
theorem Query.toSelect_numbers (r : Registry) (d : Dialect) (q : Query) :
    Numbers [] (q.toSelect r) (fun s => slots (s.pieces d)) := by
  unfold toSelect
  refine (Numbers.ofExcept _).bind fun _ => (Numbers.ofExcept _).bind fun window => ?_
  refine (Numbers.ofExcept _).bind fun scope => ?_
  refine (outputs_numbers scope q).bind fun columns => (Numbers.ofExcept _).bind fun base => ?_
  -- every clause hands out the numbers that follow those of the clauses before it
  refine (joinClauses_numbers r scope 0 q.joins).after.bind fun joins => ?_
  refine (Numbers.mapM (Expr.toCondition_numbers scope)).after.bind fun filters => ?_
  refine (Numbers.mapM (Expr.toSelector_numbers scope)).after.bind fun group => ?_
  refine (orderKeys_numbers scope q window).after.map fun orders => ?_
  exact slots_select d _

theorem Sql.slots_retrieval (d : Dialect) (r : Retrieval) :
    slots (r.pieces d) = slots (r.inner.pieces d) := by
  unfold Retrieval.pieces
  split
  · rfl
  · simp
  · simp
  · next f column _ =>
    have figure : slots (figurePieces f column) = [] := by
      unfold figurePieces
      split <;> simp
    simp [figure]

theorem Query.retrieval_numbers (r : Registry) (d : Dialect) (q : Query) (t : Terminal) :
    Numbers [] (q.retrieval r t) (fun x => slots (x.pieces d)) := by
  have inner (q : Query) (outer : Outer) :
      Numbers [] (do return (⟨outer, ← q.toSelect r⟩ : Retrieval))
        (fun x => slots (x.pieces d)) :=
    (q.toSelect_numbers r d).map fun s => slots_retrieval d _
  cases t with
  | rows => exact inner q .rows
  | count => exact inner q.derived .count
  | totalCount => exact inner q.allRows .count
  | «exists» => exact inner q.derived .exists
  | aggregate f selector =>
    refine (Numbers.ofExcept _).bind fun column => ?_
    split
    · exact inner _ _
    · exact inner _ _

/-! ## Writes -/

namespace Write

theorem condition_numbers (t : Target) (c : Criterion) :
    Numbers [] (c.condition t) (fun c => slots c.pieces) := by
  unfold Criterion.condition
  split
  · exact .pure rfl
  · exact (Numbers.push _).map fun slot => rfl
  · exact Expr.toCondition_numbers _ _

theorem conditions_numbers (t : Target) (cs : List Criterion) :
    Numbers [] (conditions t cs) (fun cs => cs.flatMap fun c => slots c.pieces) :=
  .mapM (condition_numbers t)

theorem slots_insert (d : Dialect) (i : Insert) : slots (i.pieces d) = i.rows.flatten := by
  have output : slots ((i.returning.bind d.outputClause?).getD []) = [] := by
    cases i.returning <;> cases d <;> rfl
  have returning : slots ((i.returning.bind d.returningClause?).getD []) = [] := by
    cases i.returning <;> cases d <;> rfl
  have row (r : List Nat) : slots (tuplePieces r) = r := by
    simp [tuplePieces, List.flatMap_map]
  simp [Insert.pieces, output, returning, List.flatMap_map, row, List.flatMap_id']

theorem InsertPlan.command_numbers (p : InsertPlan) (d : Dialect) (rows : List (List Value)) :
    Numbers [] (p.command rows) (fun i => slots (i.pieces d)) := by
  have row (vs : List Value) : Numbers [] (vs.mapM push) (fun r => r.flatMap fun n => [n]) :=
    .mapM fun v => .push v
  unfold InsertPlan.command
  split
  · exact .fail
  · refine (Numbers.ofExcept _).bind fun key => ?_
    exact (Numbers.mapM row).map fun rows => by simp [slots_insert]

theorem slots_update (u : Update) :
    slots u.pieces = u.assignments.map (·.2) ++ u.filters.flatMap fun c => slots c.pieces := by
  rw [List.map_eq_flatMap]
  simp [Update.pieces, List.flatMap_map]

theorem UpdatePlan.command_numbers (p : UpdatePlan) :
    Numbers [] p.command (fun u => slots u.pieces) := by
  have assignment (a : Mapping × Value) :
      Numbers [] (do return (a.1.column, ← push a.2)) (fun x => [x.2]) :=
    (Numbers.push _).map fun n => rfl
  unfold UpdatePlan.command
  split
  · exact .fail
  · refine (Numbers.mapM assignment).bind fun assignments => ?_
    refine (conditions_numbers p.target p.criteria).after.map fun filters => ?_
    simp [slots_update, List.map_eq_flatMap]

theorem DeletePlan.command_numbers (p : DeletePlan) :
    Numbers [] p.command (fun x => slots x.pieces) :=
  (conditions_numbers p.target p.criteria).map fun filters => by simp [Delete.pieces]

end Write

/-! ## Statements -/

/-- The placeholders of the text are those of the parameters, in order and each once; every
parameter has the name of its position and a value that is bound as it stands. -/
structure Statement.Numbered (s : Statement) : Prop where
  placeholders : placeholders s.sql = (List.range s.params.length).map placeholder
  once : (Sql.placeholders s.sql).Nodup
  names : s.params.map (·.name) = (List.range s.params.length).map placeholder
  bound : ∀ p ∈ s.params, p.value.bound = p.value
  octets : ∀ p ∈ s.params, p.value ≠ .bytes []
  years : ∀ p ∈ s.params, ∀ t, p.value = .timestamp t →
    minStorageYear ≤ t.date.year ∧ t.date.year ≤ maxStorageYear

theorem Param.bound_of_mem_number {p : Param} {vs : List Value} (h : p ∈ Param.number vs) :
    p.value.bound = p.value := by
  obtain ⟨⟨v, i⟩, _, rfl⟩ := List.mem_map.mp h
  exact v.bound_bound

theorem Value.years_of_bound {t : Calendar.Timestamp}
    (h : (Value.timestamp t).bound = .timestamp t) :
    minStorageYear ≤ t.date.year ∧ t.date.year ≤ maxStorageYear := by
  cases hr : inStorageRange t with
  | false => simp [Value.bound, hr] at h
  | true => simpa [inStorageRange] using hr

/-- A lowering that hands out the numbers in the order of a legible text. -/
theorem Lowering.Numbers.statement {m : Lowering α} {pieces : α → List Piece}
    (hm : Numbers [] m (fun a => slots (pieces a))) (hl : ∀ a, Legible (pieces a))
    {s : Statement} (h : m.statement pieces = .ok s) : s.Numbered := by
  unfold Lowering.statement at h
  rcases hr : m.run 0 with ⟨vs, _ | a⟩
  · simp [hr, Except.map] at h
  rw [hr] at h
  cases h
  have numbers : slots (pieces a) = List.range vs.length := by
    simpa [List.range_eq_range'] using hm 0 vs a hr
  have length : (Param.number vs).length = vs.length := by simp [Param.number]
  have inText : placeholders (sqlOf (pieces a)) = (List.range vs.length).map placeholder := by
    rw [(hl a).placeholders, numbers]
  have bound : ∀ p ∈ Param.number vs, p.value.bound = p.value :=
    fun p hp => Param.bound_of_mem_number hp
  constructor
  · simp only [Statement.ofPieces, length, inText]
  · simp only [Statement.ofPieces, inText]
    exact List.pairwise_map.mpr (List.nodup_range.imp fun hne he => hne (placeholder_injective he))
  · simp only [Statement.ofPieces, length, Param.names_number]
  · exact bound
  · intro p hp he
    have hb := bound p hp
    rw [he] at hb
    cases hb
  · intro p hp t he
    have hb := bound p hp
    rw [he] at hb
    exact Value.years_of_bound hb

theorem Write.InsertPlan.numbered {p : InsertPlan} {d : Dialect} {rows : List (List Value)}
    {s : Statement} (h : p.statement d rows = .ok s) : s.Numbered :=
  (p.command_numbers d rows).statement (Insert.legible d) h

/-- Every statement there is reads its parameters in order, whatever its names are. -/
theorem statements_numbered (r : Registry) (d : Dialect) :
    (∀ q t s, Query.statement r d t q = .ok s → s.Numbered) ∧
    (∀ (p : Write.InsertPlan) s, p.build d = .ok s → s.Numbered) ∧
    (∀ (p : Write.InsertPlan) ss, p.batches d = .ok ss → ∀ s ∈ ss, s.Numbered) ∧
    (∀ (p : Write.UpdatePlan) s, p.build = .ok s → s.Numbered) ∧
    (∀ (p : Write.DeletePlan) s, p.build = .ok s → s.Numbered) := by
  refine ⟨?query, ?insert, ?batches, ?update, ?delete⟩
  case query =>
    intro q t s h
    exact (q.retrieval_numbers r d t).statement (Retrieval.legible d) h
  case insert =>
    intro p s h
    unfold Write.InsertPlan.build at h
    split at h
    · cases h
    · exact Write.InsertPlan.numbered h
  case batches =>
    intro p ss h s hs
    obtain ⟨rows, _, hr⟩ := mapM_ok_mem h hs
    exact Write.InsertPlan.numbered hr
  case update =>
    intro p s h
    exact p.command_numbers.statement Update.legible h
  case delete =>
    intro p s h
    exact p.command_numbers.statement Delete.legible h

/-- Two shapes whose names read like placeholders and brackets. -/
def oddRegistry : Registry where
  entries := [
    ("Order", { table := "@p0]", columns := [⟨"id", "@p1"⟩, ⟨"note", "[@p2"⟩], keys := ["id"] }),
    ("Line", { table := "line", columns := [⟨"order", "@p0"⟩] })]
  sound := by decide
  distinct := by decide

/-- A constant as group key is bound in three clauses. -/
def oddQuery : Query :=
  Query.applyAll (.ofShape ⟨"Order", []⟩) [
    .join "Line" .left (.compare .equal (.field ⟨.aliased "t1", "order"⟩) (.constant (.int 7))),
    .filter (.callWith (.text .contains) (.named "note") (.constant (.text "@p9"))),
    .groupBy [("@p3", .constant (.bytes []))],
    .page 2 10]

def oddTarget : Write.Target :=
  ⟨"Order", { table := "@p0]", columns := [⟨"id", "@p1"⟩, ⟨"note", "[@p2"⟩], keys := ["id"] }⟩

def oddInsert : Write.InsertPlan :=
  { target := oddTarget, columns := oddTarget.metadata.columns
    rows := [[.int 1, .bytes []], [.int 2, .text "@p0"]], returnKey := true }

def oddUpdate : Write.UpdatePlan :=
  { target := oddTarget, assignments := [(⟨"note", "[@p2"⟩, .text "@p1")]
    criteria := [.equals "@p1" (.int 1), .equals "[@p2" .null] }

def oddDelete : Write.DeletePlan := { target := oddTarget, criteria := [.equals "@p1" (.int 1)] }

theorem statements_numbered_oddNames :
    (∃ s, Query.statement oddRegistry .sqlServer .rows oddQuery = .ok s ∧ s.params.length = 5 ∧
      s.Numbered) ∧
    (∃ s, oddInsert.build .sqlServer = .ok s ∧ s.params.length = 4 ∧ s.Numbered) ∧
    (∃ s, oddInsert.batches .sqlite = .ok [s] ∧ s.params.length = 4 ∧ s.Numbered) ∧
    (∃ s, oddUpdate.build = .ok s ∧ s.params.length = 2 ∧ s.Numbered) ∧
    (∃ s, oddDelete.build = .ok s ∧ s.params.length = 1 ∧ s.Numbered) := by
  obtain ⟨query, insert, _, update, delete⟩ := statements_numbered oddRegistry .sqlServer
  obtain ⟨_, _, batches, _⟩ := statements_numbered oddRegistry .sqlite
  have oneBatch : Write.chunks (oddInsert.batchSize .sqlite) oddInsert.rows = [oddInsert.rows] := by
    have size : oddInsert.batchSize .sqlite = 1000 := rfl
    rw [size]
    simp [oddInsert, Write.chunks]
  obtain ⟨s, hs, bound⟩ : ∃ s, oddInsert.statement .sqlite oddInsert.rows = .ok s ∧
      s.params.length = 4 := ⟨_, rfl, rfl⟩
  have batch : oddInsert.batches .sqlite = .ok [s] := by
    rw [Write.InsertPlan.batches, oneBatch, List.mapM_cons, hs]
    rfl
  exact ⟨⟨_, rfl, rfl, query oddQuery .rows _ rfl⟩, ⟨_, rfl, rfl, insert oddInsert _ rfl⟩,
    ⟨s, batch, bound, batches _ _ batch s (.head _)⟩, ⟨_, rfl, rfl, update oddUpdate _ rfl⟩,
    ⟨_, rfl, rfl, delete oddDelete _ rfl⟩⟩

end RecordQuery
