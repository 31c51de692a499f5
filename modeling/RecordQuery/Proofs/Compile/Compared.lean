import RecordQuery.Proofs.Compile.Meaning
import RecordQuery.Proofs.Compile.Numbering
import RecordQuery.Proofs.Compile.Paging

/-!
# Comparisons with null

A comparison with a null constant becomes a test for null. Whether a constant is null is asked of
its value and not of what it is bound as, so an empty byte sequence and a timestamp the storage
does not accept are compared with, and the comparison is with null. These are the only values for
which that happens (`compared_with_null_iff`).
-/

namespace RecordQuery

open Sql Lowering

/-- The value is null only once it is bound. -/
def Value.vanishes : Value → Bool
  | .bytes [] => true
  | .timestamp t => !inStorageRange t
  | _ => false

theorem Value.bound_eq_null_iff {v : Value} : v.bound = .null ↔ v = .null ∨ v.vanishes = true := by
  cases v with
  | bytes b => cases b <;> simp [bound, vanishes]
  | timestamp t => by_cases h : inStorageRange t <;> simp [bound, vanishes, h]
  | _ => simp [bound, vanishes]

/-- The value of the parameter with a number. -/
def Param.valueAt (ps : List Param) (slot : Nat) : Value := Param.lookup ps (placeholder slot)

/-! ## What is compared -/

namespace Sql

/-- The parameters that are compared with a value. The `= 1` that makes a term a condition of its
own is no comparison of two values and is left out, with the parameter in front of it. -/
def Condition.comparedSlots : Condition → List Nat
  | compare _ l r => slots l.pieces ++ slots r.pieces
  | logical _ l r => l.comparedSlots ++ r.comparedSlots
  | negation c => c.comparedSlots
  | _ => []

def JoinClause.comparedSlots (j : JoinClause) : List Nat := j.on.elim [] Condition.comparedSlots

def Select.comparedSlots (x : Select) : List Nat :=
  x.joins.flatMap JoinClause.comparedSlots ++ x.filters.flatMap Condition.comparedSlots

end Sql

namespace Expr

def constants : Expr → List Value
  | constant v => [v]
  | _ => []

/-- The constants that are compared with something other than a null constant. -/
def comparedConstants : Expr → List Value
  | binary (.logical _) l r => l.comparedConstants ++ r.comparedConstants
  | binary (.comparison _) l r =>
    if l.isNullConstant || r.isNullConstant then [] else l.constants ++ r.constants
  | negation e => e.comparedConstants
  | _ => []

theorem ne_null_of_mem_comparedConstants {e : Expr} {v : Value} (h : v ∈ e.comparedConstants) :
    v ≠ .null := by
  have operand {e : Expr} (he : e.isNullConstant = false) (hv : v ∈ e.constants) : v ≠ .null := by
    rintro rfl
    cases e with
    | constant u =>
      cases List.mem_singleton.mp hv
      cases he
    | _ => cases hv
  induction e with
  | binary op l r ihl ihr =>
    cases op with
    | logical op => exact (List.mem_append.mp h).elim ihl ihr
    | comparison op =>
      rw [comparedConstants] at h
      split at h
      · cases h
      · next hn =>
        simp only [Bool.or_eq_true, not_or, Bool.not_eq_true] at hn
        exact (List.mem_append.mp h).elim (operand hn.1) (operand hn.2)
    | arithmetic op => cases h
  | negation e ih => exact ih h
  | _ => cases h

end Expr

/-- The constants of an ON condition; a cross join has none. -/
def Join.comparedConstants (j : Join) : List Value :=
  if j.kind = .cross then [] else j.on.elim [] Expr.comparedConstants

def Query.comparedConstants (q : Query) : List Value :=
  q.joins.flatMap Join.comparedConstants ++ q.filters.flatMap Expr.comparedConstants

def Write.Criterion.comparedConstants : Write.Criterion → List Value
  | equals _ v => if v = .null then [] else [v]
  | predicate e => e.comparedConstants

/-! ## Values of the results of a lowering -/

/-- What holds of the result and the parameters, wherever the values are bound to them. -/
def Lowering.Ensures (m : Lowering α) (P : List Param → α → Prop) : Prop :=
  ∀ n vs a, m.run n = (vs, .ok a) → ∀ ps, Binds ps n vs → P ps a

namespace Lowering.Ensures

variable {P : List Param → α → Prop} {Q : List Param → β → Prop}

theorem of_yields {m : Lowering α} {P : α → Prop} (h : Yields m P) : Ensures m fun _ => P :=
  fun n vs a ha _ _ => h n vs a ha

theorem any (m : Lowering α) : Ensures m fun _ _ => True := fun _ _ _ _ _ _ => trivial

theorem pure {a : α} (h : ∀ ps, P ps a) : Ensures (Pure.pure a) P := by
  intro n vs b hb ps _
  cases hb
  exact h ps

theorem fail {e : Error} : Ensures (Lowering.fail e) P := by
  intro n vs b hb
  cases hb

theorem push (v : Value) :
    Ensures (Lowering.push v) fun ps slot => Param.valueAt ps slot = v.bound := by
  intro n vs slot h ps hb
  cases h
  exact hb.one

theorem bind {m : Lowering α} {k : α → Lowering β} (hm : Ensures m P)
    (hk : ∀ a, Ensures (k a) fun ps b => P ps a → Q ps b) : Ensures (m >>= k) Q := by
  intro n vs b h ps hb
  obtain ⟨us, a, ws, ha, hf, rfl⟩ := run_bind_ok_iff.mp h
  exact hk a _ _ _ hf ps hb.right (hm _ _ _ ha ps hb.left)

theorem map {m : Lowering α} {f : α → β} (hm : Ensures m P) (hk : ∀ ps a, P ps a → Q ps (f a)) :
    Ensures (m >>= fun a => Pure.pure (f a)) Q := hm.bind fun a => pure fun ps => hk ps a

theorem mono {m : Lowering α} {Q : List Param → α → Prop} (hm : Ensures m P)
    (h : ∀ ps a, P ps a → Q ps a) : Ensures m Q :=
  fun n vs a ha ps hb => h ps a (hm n vs a ha ps hb)

theorem mapM_forall₂ {k : α → Lowering β} {R : List Param → α → β → Prop}
    (h : ∀ a, Ensures (k a) fun ps b => R ps a b) (xs : List α) :
    Ensures (xs.mapM k) fun ps ys => List.Forall₂ (R ps) xs ys := by
  induction xs with
  | nil => exact pure fun ps => .nil
  | cons x xs ih =>
    rw [List.mapM_cons]
    exact (h x).bind fun y => ih.map fun ps ys hys hy => .cons hy hys

end Lowering.Ensures

/-- The parameters have the values that the constants are bound as. -/
def Carries (ps : List Param) (slots : List Nat) (vs : List Value) : Prop :=
  slots.map (Param.valueAt ps) = vs.map Value.bound

namespace Carries

variable {ps : List Param} {slots more : List Nat} {vs us : List Value}

theorem append (h : Carries ps slots vs) (h' : Carries ps more us) :
    Carries ps (slots ++ more) (vs ++ us) := by
  rw [Carries, List.map_append, List.map_append, h, h']

theorem null_iff (h : Carries ps slots vs) (hv : ∀ v ∈ vs, v ≠ .null) :
    (∃ slot ∈ slots, Param.valueAt ps slot = .null) ↔ ∃ v ∈ vs, v.vanishes = true := by
  have values : .null ∈ slots.map (Param.valueAt ps) ↔ .null ∈ vs.map Value.bound := by rw [h]
  rw [List.mem_map, List.mem_map] at values
  rw [values]
  refine exists_congr fun v => and_congr_right fun hmem => ?_
  rw [Value.bound_eq_null_iff, or_iff_right (hv v hmem)]

end Carries

theorem Lowering.Ensures.mapM_carries {k : α → Lowering β} {f : β → List Nat} {g : α → List Value}
    (h : ∀ a, Ensures (k a) fun ps b => Carries ps (f b) (g a)) (xs : List α) :
    Ensures (xs.mapM k) fun ps ys => Carries ps (ys.flatMap f) (xs.flatMap g) := by
  induction xs with
  | nil => exact pure fun ps => rfl
  | cons x xs ih =>
    rw [List.mapM_cons]
    exact (h x).bind fun y => ih.map fun ps ys hys hy => hy.append hys

/-! ## Expressions -/

namespace Expr

variable (s : Scope)

theorem toOperand_carries (e : Expr) :
    Ensures (e.toOperand s) fun ps t => Carries ps (slots t.pieces) e.constants := by
  cases e with
  | field r =>
    refine (Ensures.of_yields (.ofExcept (s.resolve r))).mono fun ps t ht => ?_
    rw [slots_of_resolve ht]
    rfl
  | constant v => exact (Ensures.push v).map fun ps slot h => congrArg (fun v => [v]) h
  | _ => exact .fail

theorem nullTest_carries (op : Comparison) (t : Term) :
    Ensures (nullTest op t) fun ps c => Carries ps c.comparedSlots [] := by
  cases op with
  | equal => exact .pure fun ps => rfl
  | notEqual => exact .pure fun ps => rfl
  | _ => exact .fail

theorem toComparison_carries (op : Comparison) (l r : Expr) :
    Ensures (toComparison s op l r) fun ps c =>
      Carries ps c.comparedSlots (binary (.comparison op) l r).comparedConstants := by
  unfold toComparison comparedConstants
  split
  · exact .fail
  · next hl hr =>
    rw [hl, hr]
    exact (Ensures.any _).bind fun t => (nullTest_carries op t).mono fun ps c hc _ => hc
  · next hl hr =>
    rw [hl, hr]
    exact (Ensures.any _).bind fun t => (nullTest_carries op t).mono fun ps c hc _ => hc
  · next hl hr =>
    rw [hl, hr]
    exact (toOperand_carries s l).bind fun lt => (toOperand_carries s r).map
      fun ps rt hr hl => hl.append hr

/-- Nothing is compared in a test of a method. -/
theorem toMethodTest_carries (m : Method) (target : Expr) (argument : Option Expr) :
    Ensures (toMethodTest s m target argument) fun ps c => Carries ps c.comparedSlots [] := by
  cases m with
  | text m =>
    refine (Ensures.any _).bind fun t => ?_
    split
    · exact (Ensures.any _).map fun ps slot _ _ => rfl
    · exact .fail
  | isNull => exact (Ensures.any _).map fun ps t _ => rfl
  | isNotNull => exact (Ensures.any _).map fun ps t _ => rfl
  | other name => exact .fail

theorem toCondition_carries (e : Expr) :
    Ensures (e.toCondition s) fun ps c => Carries ps c.comparedSlots e.comparedConstants := by
  induction e with
  | field r => exact (Ensures.any _).map fun ps t _ => rfl
  | constant v => exact (Ensures.any _).map fun ps t _ => rfl
  | binary op l r ihl ihr =>
    cases op with
    | logical op => exact ihl.bind fun lc => ihr.map fun ps rc hr hl => hl.append hr
    | comparison op => exact toComparison_carries s op l r
    | arithmetic op => exact .fail
  | call m t => exact toMethodTest_carries s m t none
  | callWith m t a => exact toMethodTest_carries s m t (some a)
  | negation e ih => exact ih.map fun ps c hc => hc
  | aggregateAll f => exact .fail
  | aggregate f a => exact .fail

end Expr

/-! ## Statements -/

namespace Query

theorem joinCondition_carries (s : Scope) (j : Join) :
    Ensures (joinCondition s j) fun ps on =>
      Carries ps (on.elim [] Condition.comparedSlots) j.comparedConstants := by
  unfold joinCondition Join.comparedConstants
  split
  · next h => exact .pure fun ps => by rw [if_pos h]; rfl
  · next on hon hk =>
    rw [hon, if_neg hk]
    exact (Expr.toCondition_carries s on).map fun ps c hc => hc
  · exact .fail

theorem joinClauses_carries (r : Registry) (s : Scope) (i : Nat) (js : List Join) :
    Ensures (joinClauses r s i js) fun ps clauses =>
      Carries ps (clauses.flatMap JoinClause.comparedSlots)
        (js.flatMap Join.comparedConstants) := by
  induction js generalizing i with
  | nil => exact .pure fun ps => rfl
  | cons j js ih =>
    refine (Ensures.any _).bind fun m => (joinCondition_carries _ j).bind fun on =>
      (ih (i + 1)).map fun ps clauses hrest hon _ => ?_
    exact hon.append hrest

theorem toSelect_carries (r : Registry) (q : Query) :
    Ensures (q.toSelect r) fun ps x => Carries ps x.comparedSlots q.comparedConstants := by
  refine (Ensures.any _).bind fun _ => (Ensures.any _).bind fun window =>
    (Ensures.any _).bind fun scope => (Ensures.any _).bind fun columns =>
    (Ensures.any _).bind fun base => (joinClauses_carries r scope 0 q.joins).bind fun joins =>
    (Ensures.mapM_carries (Expr.toCondition_carries scope) q.filters).bind fun filters =>
    (Ensures.any _).bind fun group => (Ensures.any _).map fun ps orders _ _ hf hj _ _ _ _ _ => ?_
  exact hj.append hf

/-- What a statement selects from is compared as in its query, whatever it is compiled for. -/
theorem comparedConstants_part {r : Registry} {q p : Query} {t : Terminal}
    (h : q.part r t = .ok p) : p.comparedConstants = q.comparedConstants := by
  have derived (q : Query) : q.derived.comparedConstants = q.comparedConstants := by
    unfold Query.derived
    split <;> rfl
  have select (q : Query) (s : Shape) (items : List (String × Expr)) :
      (q.select s items).comparedConstants = q.comparedConstants := by
    rw [Query.select, deferAll_eq]
    rfl
  cases t with
  | aggregate f selector =>
    rw [part] at h
    cases hcolumn : q.outputColumn? r selector with
    | error e => simp [hcolumn, Except.map] at h
    | ok column =>
      rw [hcolumn] at h
      cases h
      cases column with
      | none => rw [derived, select]
      | some column => exact derived q
  | count =>
    cases h
    exact derived q
  | «exists» =>
    cases h
    exact derived q
  | rows =>
    cases h
    rfl
  | totalCount =>
    cases h
    rfl

theorem retrieval_carries (r : Registry) (q : Query) (t : Terminal) :
    Ensures (q.retrieval r t) fun ps x => Carries ps x.inner.comparedSlots q.comparedConstants := by
  intro n vs x h ps hb
  obtain ⟨_, p, hp, hinner⟩ := retrieval_part h
  rw [← comparedConstants_part hp]
  exact toSelect_carries r p n vs x.inner hinner ps hb

theorem ne_null_of_mem_comparedConstants {q : Query} {v : Value} (h : v ∈ q.comparedConstants) :
    v ≠ .null := by
  obtain h | h := List.mem_append.mp h
  · obtain ⟨j, _, hj⟩ := List.mem_flatMap.mp h
    unfold Join.comparedConstants at hj
    split at hj
    · cases hj
    · cases hon : j.on with
      | none => simp [hon] at hj
      | some on =>
        rw [hon] at hj
        exact Expr.ne_null_of_mem_comparedConstants hj
  · obtain ⟨e, _, he⟩ := List.mem_flatMap.mp h
    exact Expr.ne_null_of_mem_comparedConstants he

end Query

namespace Write

theorem Criterion.condition_carries (t : Target) (c : Criterion) :
    Ensures (c.condition t) fun ps x => Carries ps x.comparedSlots c.comparedConstants := by
  unfold Criterion.condition
  split
  · exact .pure fun ps => rfl
  · next column v hv =>
    rw [show (equals column v).comparedConstants = [v] from if_neg hv]
    exact (Ensures.push v).map fun ps slot h => congrArg (fun v => [v]) h
  · exact Expr.toCondition_carries t.scope _

theorem Criterion.ne_null_of_mem_comparedConstants {c : Criterion} {v : Value}
    (h : v ∈ c.comparedConstants) : v ≠ .null := by
  cases c with
  | equals column u =>
    rw [comparedConstants] at h
    split at h
    · cases h
    · next hu => exact List.mem_singleton.mp h ▸ hu
  | predicate e => exact Expr.ne_null_of_mem_comparedConstants h

theorem UpdatePlan.command_carries (p : UpdatePlan) :
    Ensures p.command fun ps u =>
      Carries ps (u.filters.flatMap Condition.comparedSlots)
        (p.criteria.flatMap Criterion.comparedConstants) := by
  unfold UpdatePlan.command
  split
  · exact .fail
  · exact (Ensures.any _).bind fun _ =>
      (Ensures.mapM_carries (Criterion.condition_carries p.target) p.criteria).map
        fun ps filters h _ => h

theorem DeletePlan.command_carries (p : DeletePlan) :
    Ensures p.command fun ps x =>
      Carries ps (x.filters.flatMap Condition.comparedSlots)
        (p.criteria.flatMap Criterion.comparedConstants) :=
  (Ensures.mapM_carries (Criterion.condition_carries p.target) p.criteria).map fun _ _ h => h

theorem ne_null_of_mem_criteria {cs : List Criterion} {v : Value}
    (h : v ∈ cs.flatMap Criterion.comparedConstants) : v ≠ .null := by
  obtain ⟨c, _, hc⟩ := List.mem_flatMap.mp h
  exact c.ne_null_of_mem_comparedConstants hc

end Write

/-- The statement of a lowering, with the values its compared parameters have. -/
theorem Lowering.Ensures.statement {m : Lowering α} {pieces : α → List Piece} {f : α → List Nat}
    {consts : List Value} {s : Statement} (hm : Ensures m fun ps a => Carries ps (f a) consts)
    (hv : ∀ v ∈ consts, v ≠ .null) (h : m.statement pieces = .ok s) :
    ∃ vs a, m.run 0 = (vs, .ok a) ∧ s = .ofPieces (pieces a) vs ∧
      ((∃ slot ∈ f a, Param.valueAt s.params slot = .null) ↔ ∃ v ∈ consts, v.vanishes = true) := by
  obtain ⟨vs, a, ha, rfl⟩ := statement_ok_iff.mp h
  have binds : Binds (Param.number vs) 0 vs := by simpa using Binds.number [] vs []
  exact ⟨vs, a, ha, rfl, (hm 0 vs a ha _ binds).null_iff hv⟩

/-- A statement compares with null exactly if it compares with a constant that is null only once it
is bound. -/
theorem compared_with_null_iff (r : Registry) (d : Dialect) :
    (∀ (q : Query) t s, q.statement r d t = .ok s →
      ∃ vs x, (q.retrieval r t).run 0 = (vs, .ok x) ∧ s = .ofPieces (x.pieces d) vs ∧
        ((∃ slot ∈ x.inner.comparedSlots, Param.valueAt s.params slot = .null) ↔
          ∃ v ∈ q.comparedConstants, v.vanishes = true)) ∧
    (∀ (p : Write.UpdatePlan) s, p.build = .ok s →
      ∃ vs u, p.command.run 0 = (vs, .ok u) ∧ s = .ofPieces u.pieces vs ∧
        ((∃ slot ∈ u.filters.flatMap Condition.comparedSlots,
            Param.valueAt s.params slot = .null) ↔
          ∃ v ∈ p.criteria.flatMap Write.Criterion.comparedConstants, v.vanishes = true)) ∧
    (∀ (p : Write.DeletePlan) s, p.build = .ok s →
      ∃ vs x, p.command.run 0 = (vs, .ok x) ∧ s = .ofPieces x.pieces vs ∧
        ((∃ slot ∈ x.filters.flatMap Condition.comparedSlots,
            Param.valueAt s.params slot = .null) ↔
          ∃ v ∈ p.criteria.flatMap Write.Criterion.comparedConstants, v.vanishes = true)) := by
  refine ⟨?query, ?update, ?delete⟩
  case query =>
    intro q t s h
    exact (q.retrieval_carries r t).statement (fun v => Query.ne_null_of_mem_comparedConstants) h
  case update =>
    intro p s h
    exact p.command_carries.statement (fun v => Write.ne_null_of_mem_criteria) h
  case delete =>
    intro p s h
    exact p.command_carries.statement (fun v => Write.ne_null_of_mem_criteria) h

def departureTarget : Write.Target where
  shape := "Departure"
  metadata := {
    table := "Departures"
    columns := [⟨"id", "Id"⟩, ⟨"departs_at", "DepartsAt"⟩, ⟨"manifest", "Manifest"⟩]
    keys := ["id"]
    computed := ["id"] }

def departureRegistry : Registry where
  entries := [("Departure", departureTarget.metadata)]
  sound := by decide

/-- The departures without a manifest. -/
def unmanifested : Write.DeletePlan :=
  { target := departureTarget, criteria := [.equals "Manifest" (.bytes [])] }

/-- A day the storage has no date for. -/
def ancientDay : Calendar.Timestamp :=
  ⟨⟨1700, 6, 1, by decide, by decide, by decide⟩, Calendar.Timestamp.epoch.time⟩

/-- The departures of that day. -/
def ancientDepartures : Query :=
  (Query.ofShape ⟨"Departure", []⟩).filter
    (.compare .equal (.named "departs_at") (.constant (.timestamp ancientDay)))

/-- Writes an empty manifest where the one of a departure is missing. -/
def manifested : Write.UpdatePlan :=
  { target := departureTarget, assignments := [(⟨"manifest", "Manifest"⟩, .bytes [])]
    criteria := [.equals "Manifest" .null, .equals "Id" (.int 1)] }

theorem compared_with_null_iff_departures :
    (∃ s, ancientDepartures.statement departureRegistry .sqlite .count = .ok s ∧
      ∃ vs x, (ancientDepartures.retrieval departureRegistry .count).run 0 = (vs, .ok x) ∧
        s = .ofPieces (x.pieces .sqlite) vs ∧
        ∃ slot ∈ x.inner.comparedSlots, Param.valueAt s.params slot = .null) ∧
    (∃ s, manifested.build = .ok s ∧ ∃ vs u, manifested.command.run 0 = (vs, .ok u) ∧
      s = .ofPieces u.pieces vs ∧
      ¬∃ slot ∈ u.filters.flatMap Condition.comparedSlots,
        Param.valueAt s.params slot = .null) ∧
    (∃ s, unmanifested.build = .ok s ∧ ∃ vs x, unmanifested.command.run 0 = (vs, .ok x) ∧
      s = .ofPieces x.pieces vs ∧
      ∃ slot ∈ x.filters.flatMap Condition.comparedSlots,
        Param.valueAt s.params slot = .null) := by
  obtain ⟨query, update, delete⟩ := compared_with_null_iff departureRegistry .sqlite
  obtain ⟨_, x, hx, hs, queried⟩ := query ancientDepartures .count _ rfl
  obtain ⟨_, u, hu, ht, updated⟩ := update manifested _ rfl
  obtain ⟨_, y, hy, hw, deleted⟩ := delete unmanifested _ rfl
  refine ⟨⟨_, rfl, _, x, hx, hs, queried.mpr ?_⟩, ⟨_, rfl, _, u, hu, ht, fun h => ?_⟩,
    ⟨_, rfl, _, y, hy, hw, deleted.mpr ?_⟩⟩
  · exact ⟨.timestamp ancientDay, .head _, by decide⟩
  · obtain ⟨v, hv, vanishes⟩ := updated.mp h
    cases List.mem_singleton.mp hv
    cases vanishes
  · exact ⟨.bytes [], .head _, rfl⟩

/-- A null constant is tested for, and an empty byte sequence compared with null. -/
theorem unmanifested_compares_with_null :
    (Write.DeletePlan.ofShape departureRegistry "Departure").bind
      (·.whereEqual "manifest" (.bytes [])) = .ok unmanifested ∧
    { unmanifested with criteria := [.equals "Manifest" .null] }.build
      = .ok ⟨"DELETE FROM [Departures] WHERE ([Departures].[Manifest] IS NULL)", []⟩ ∧
    unmanifested.build
      = .ok ⟨"DELETE FROM [Departures] WHERE ([Departures].[Manifest] = @p0)", [⟨"@p0", .null⟩]⟩ ∧
    ¬∀ (p : Write.DeletePlan) s vs x, p.build = .ok s → p.command.run 0 = (vs, .ok x) →
      ∀ slot ∈ x.filters.flatMap Condition.comparedSlots,
        Param.valueAt s.params slot ≠ .null := by
  refine ⟨rfl, rfl, rfl, fun h => ?_⟩
  exact h unmanifested _ _ _ rfl rfl 0 (.head _) rfl

end RecordQuery
