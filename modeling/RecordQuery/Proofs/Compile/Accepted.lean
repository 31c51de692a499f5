import RecordQuery.Compile.Lowering
import RecordQuery.Proofs.Compile.Scope
import RecordQuery.Proofs.Query.Substitution

/-!
# The expressions that have SQL

The grammar of what has SQL in a scope: values (`Expr.IsValue`), what a select list or an order is
made of (`Expr.IsSelector`) and conditions (`Expr.IsCondition`). Lowering succeeds on these trees
and on no others, whatever is bound before (`lowered_iff`). Every reference of such a tree resolves,
unless it stands in the argument of a null test, which nothing reads
(`strayNullTest_lowered`).
-/

namespace RecordQuery

namespace Lowering

/-- The lowering succeeds exactly under a condition, whatever is bound before. -/
def SucceedsIff (m : Lowering α) (P : Prop) : Prop := ∀ n, (∃ vs a, m.run n = (vs, .ok a)) ↔ P

namespace SucceedsIff

variable {P Q : Prop}

theorem pure (a : α) : SucceedsIff (Pure.pure a) True := fun _ => iff_of_true ⟨[], a, rfl⟩ trivial

theorem fail (e : Error) : SucceedsIff (Lowering.fail e : Lowering α) False :=
  fun _ => iff_of_false (fun ⟨_, _, h⟩ => by cases h) id

theorem ofExcept (x : Except Error α) : SucceedsIff (Lowering.ofExcept x) (∃ a, x = .ok a) := by
  intro n
  cases x with
  | error e => simp
  | ok a => simp

theorem push (v : Value) : SucceedsIff (Lowering.push v) True :=
  fun n => iff_of_true ⟨[v], n, rfl⟩ trivial

theorem congr {m : Lowering α} (h : SucceedsIff m P) (hq : P ↔ Q) : SucceedsIff m Q :=
  fun n => (h n).trans hq

/-- A sequence succeeds if both parts do; the second may depend on what the first gives. -/
theorem bind {m : Lowering α} {k : α → Lowering β} (hm : SucceedsIff m P)
    (hk : ∀ n vs a, m.run n = (vs, .ok a) → SucceedsIff (k a) Q) :
    SucceedsIff (m >>= k) (P ∧ Q) := by
  intro n
  constructor
  · rintro ⟨vs, b, h⟩
    obtain ⟨us, a, ws, ha, hb, rfl⟩ := run_bind_ok_iff.mp h
    exact ⟨(hm n).mp ⟨us, a, ha⟩, (hk n us a ha _).mp ⟨ws, b, hb⟩⟩
  · rintro ⟨hp, hq⟩
    obtain ⟨us, a, ha⟩ := (hm n).mpr hp
    obtain ⟨ws, b, hb⟩ := (hk n us a ha (n + us.length)).mpr hq
    exact ⟨us ++ ws, b, run_bind_ok_iff.mpr ⟨us, a, ws, ha, hb, rfl⟩⟩

theorem map {m : Lowering α} (f : α → β) (hm : SucceedsIff m P) :
    SucceedsIff (m >>= fun a => Pure.pure (f a)) P :=
  (hm.bind fun _ _ a _ => .pure (f a)).congr (iff_of_eq (and_true P))

theorem mapM {k : α → Lowering β} {P : α → Prop} (h : ∀ a, SucceedsIff (k a) (P a))
    (xs : List α) : SucceedsIff (xs.mapM k) (∀ x ∈ xs, P x) := by
  induction xs with
  | nil => exact (pure []).congr (by simp)
  | cons x xs ih =>
    rw [List.mapM_cons]
    refine ((h x).bind fun _ _ b _ => ih.map (b :: ·)).congr ?_
    exact List.forall_mem_cons.symm

end SucceedsIff

end Lowering

namespace Expr

open Lowering

section

variable (s : Scope)

/-- A field that resolves, or a constant. -/
inductive IsValue : Expr → Prop
  | field {r : FieldRef} (h : s.Resolves r) : IsValue (.field r)
  | constant (v : Value) : IsValue (.constant v)

/-- A value or an aggregate of a value, or the number of rows. -/
inductive IsSelector : Expr → Prop
  | value {e : Expr} (h : e.IsValue s) : IsSelector e
  | countAll : IsSelector (.aggregateAll .count)
  | aggregate (f : AggregateFunction) {e : Expr} (h : e.IsValue s) : IsSelector (.aggregate f e)

/-- Null is compared with something else, and only for equality. -/
structure Comparable (op : Comparison) (l r : Expr) : Prop where
  one : ¬(l = .constant .null ∧ r = .constant .null)
  equality : l = .constant .null ∨ r = .constant .null → op = .equal ∨ op = .notEqual

/-- A test of values, or a combination of conditions. -/
inductive IsCondition : Expr → Prop
  | logical (op : Connective) {l r : Expr} (hl : IsCondition l) (hr : IsCondition r) :
    IsCondition (.binary (.logical op) l r)
  | negation {e : Expr} (h : IsCondition e) : IsCondition (.negation e)
  | value {e : Expr} (h : e.IsValue s) : IsCondition e
  | comparison {op : Comparison} {l r : Expr} (hl : l.IsValue s) (hr : r.IsValue s)
    (h : Comparable op l r) : IsCondition (.compare op l r)
  | textMatch (m : TextMatch) {e : Expr} (h : e.IsValue s) (x : String) :
    IsCondition (.callWith (.text m) e (.constant (.text x)))
  | isNull {e : Expr} (h : e.IsValue s) : IsCondition (.call .isNull e)
  | isNotNull {e : Expr} (h : e.IsValue s) : IsCondition (.call .isNotNull e)
  /-- An argument of a null test may be any tree. -/
  | isNullWith {e : Expr} (h : e.IsValue s) (a : Expr) : IsCondition (.callWith .isNull e a)
  | isNotNullWith {e : Expr} (h : e.IsValue s) (a : Expr) : IsCondition (.callWith .isNotNull e a)

end

/-- The references of a tree that are read: those outside the arguments of null tests. -/
def readRefs : Expr → List FieldRef
  | field r => [r]
  | constant _ => []
  | binary _ l r => l.readRefs ++ r.readRefs
  | call _ t => t.readRefs
  | callWith .isNull t _ => t.readRefs
  | callWith .isNotNull t _ => t.readRefs
  | callWith _ t a => t.readRefs ++ a.readRefs
  | negation e => e.readRefs
  | aggregateAll _ => []
  | aggregate _ a => a.readRefs

variable {s : Scope}

theorem isNullConstant_iff {e : Expr} : e.isNullConstant = true ↔ e = .constant .null := by
  cases e with
  | constant v => cases v <;> simp [isNullConstant]
  | _ => simp [isNullConstant]

/-! ## The grammar by its trees -/

theorem isValue_field_iff {r : FieldRef} : (field r).IsValue s ↔ s.Resolves r :=
  ⟨fun h => by cases h; assumption, .field⟩

theorem isSelector_field_iff {r : FieldRef} : (field r).IsSelector s ↔ s.Resolves r := by
  refine ⟨fun h => ?_, fun h => .value (.field h)⟩
  cases h with
  | value h => exact isValue_field_iff.mp h

theorem isCondition_logical_iff {op : Connective} {l r : Expr} :
    (binary (.logical op) l r).IsCondition s ↔ l.IsCondition s ∧ r.IsCondition s := by
  refine ⟨fun h => ?_, fun h => .logical op h.1 h.2⟩
  cases h with
  | logical _ hl hr => exact ⟨hl, hr⟩
  | value h => cases h

theorem isCondition_comparison_iff {op : Comparison} {l r : Expr} :
    (compare op l r).IsCondition s ↔ l.IsValue s ∧ r.IsValue s ∧ Comparable op l r := by
  refine ⟨fun h => ?_, fun h => .comparison h.1 h.2.1 h.2.2⟩
  cases h with
  | comparison hl hr h => exact ⟨hl, hr, h⟩
  | value h => cases h

theorem isCondition_negation_iff {e : Expr} :
    (negation e).IsCondition s ↔ e.IsCondition s := by
  refine ⟨fun h => ?_, .negation⟩
  cases h with
  | negation h => exact h
  | value h => cases h

theorem isCondition_call_iff {m : Method} {e : Expr} :
    (call m e).IsCondition s ↔ e.IsValue s ∧ (m = .isNull ∨ m = .isNotNull) := by
  constructor
  · intro h
    cases h with
    | isNull h => exact ⟨h, .inl rfl⟩
    | isNotNull h => exact ⟨h, .inr rfl⟩
    | value h => cases h
  · rintro ⟨h, rfl | rfl⟩
    · exact .isNull h
    · exact .isNotNull h

theorem isCondition_textMatch_iff {m : TextMatch} {e a : Expr} :
    (callWith (.text m) e a).IsCondition s ↔ e.IsValue s ∧ ∃ x, a = .constant (.text x) := by
  constructor
  · intro h
    cases h with
    | textMatch _ h x => exact ⟨h, x, rfl⟩
    | value h => cases h
  · rintro ⟨h, x, rfl⟩
    exact .textMatch m h x

/-- A single value is a condition, and an aggregate or a sum is none. -/
theorem isCondition_iff_isValue {e : Expr}
    (h : e.isProjectable = true ∨ (∃ v, e = .constant v) ∨
      ∃ op l r, e = .binary (.arithmetic op) l r) :
    e.IsCondition s ↔ e.IsValue s := by
  refine ⟨fun hc => ?_, .value⟩
  cases hc with
  | value h => exact h
  | _ => simp [isProjectable, compare] at h

/-! ## References -/

theorem IsValue.resolves {e : Expr} (h : e.IsValue s) : ∀ r ∈ e.readRefs, s.Resolves r := by
  cases h with
  | field h => exact fun r hr => List.mem_singleton.mp hr ▸ h
  | constant v => exact fun r hr => by cases hr

theorem IsSelector.resolves {e : Expr} (h : e.IsSelector s) : ∀ r ∈ e.readRefs, s.Resolves r := by
  cases h with
  | value h => exact h.resolves
  | countAll => exact fun r hr => by cases hr
  | aggregate f h => exact h.resolves

theorem IsCondition.resolves {e : Expr} (h : e.IsCondition s) :
    ∀ r ∈ e.readRefs, s.Resolves r := by
  induction h with
  | logical op _ _ ihl ihr => exact List.forall_mem_append.mpr ⟨ihl, ihr⟩
  | negation _ ih => exact ih
  | value h => exact h.resolves
  | comparison hl hr _ => exact List.forall_mem_append.mpr ⟨hl.resolves, hr.resolves⟩
  | textMatch m h x =>
    exact List.forall_mem_append.mpr ⟨h.resolves, fun r hr => by cases hr⟩
  | isNull h => exact h.resolves
  | isNotNull h => exact h.resolves
  | isNullWith h a => exact h.resolves
  | isNotNullWith h a => exact h.resolves

/-! ## Values -/

theorem toOperand_succeedsIff (e : Expr) : SucceedsIff (e.toOperand s) (e.IsValue s) := by
  cases e with
  | field r =>
    exact (SucceedsIff.ofExcept _).congr (Scope.resolve_ok_iff.trans isValue_field_iff.symm)
  | constant v => exact ((SucceedsIff.push v).map _).congr (iff_of_true trivial (.constant v))
  | _ => exact (SucceedsIff.fail _).congr (iff_of_false id fun h => by cases h)

theorem toSelector_succeedsIff (e : Expr) : SucceedsIff (e.toSelector s) (e.IsSelector s) := by
  have plain {e : Expr} (same : e.toSelector s = e.toOperand s) (h : e.IsSelector s → e.IsValue s) :
      SucceedsIff (e.toSelector s) (e.IsSelector s) := by
    rw [same]
    exact (toOperand_succeedsIff e).congr ⟨.value, h⟩
  cases e with
  | aggregateAll f =>
    cases f with
    | count => exact (SucceedsIff.pure _).congr (iff_of_true trivial .countAll)
    | _ => exact (SucceedsIff.fail _).congr (iff_of_false id fun h => by cases h; contradiction)
  | aggregate f a =>
    refine ((toOperand_succeedsIff a).map _).congr ⟨.aggregate f, fun h => ?_⟩
    cases h with
    | aggregate _ h => exact h
    | value h => cases h
  | _ =>
    refine plain rfl fun h => ?_
    cases h with
    | value h => exact h

/-! ## Conditions -/

theorem nullTest_succeedsIff (op : Comparison) (t : Sql.Term) :
    SucceedsIff (nullTest op t) (op = .equal ∨ op = .notEqual) := by
  cases op with
  | equal => exact (SucceedsIff.pure _).congr (by simp)
  | notEqual => exact (SucceedsIff.pure _).congr (by simp)
  | _ => exact (SucceedsIff.fail _).congr (by simp)

theorem toComparison_succeedsIff (op : Comparison) (l r : Expr) :
    SucceedsIff (toComparison s op l r) (l.IsValue s ∧ r.IsValue s ∧ Comparable op l r) := by
  have null : (constant .null).IsValue s := .constant .null
  have other {e : Expr} (h : e.isNullConstant = false) : e ≠ .constant .null := fun he => by
    simp [he, isNullConstant] at h
  unfold toComparison
  split
  · next hl hr =>
    have both := And.intro (isNullConstant_iff.mp hl) (isNullConstant_iff.mp hr)
    exact (SucceedsIff.fail _).congr (iff_of_false id fun h => h.2.2.one both)
  · next hl hr =>
    obtain rfl := isNullConstant_iff.mp hr
    refine ((toOperand_succeedsIff l).bind fun _ _ t _ => nullTest_succeedsIff op t).congr ?_
    exact ⟨fun h => ⟨h.1, null, fun both => other hl both.1, fun _ => h.2⟩,
      fun h => ⟨h.1, h.2.2.equality (.inr rfl)⟩⟩
  · next hl hr =>
    obtain rfl := isNullConstant_iff.mp hl
    refine ((toOperand_succeedsIff r).bind fun _ _ t _ => nullTest_succeedsIff op t).congr ?_
    exact ⟨fun h => ⟨null, h.1, fun both => other hr both.2, fun _ => h.2⟩,
      fun h => ⟨h.2.1, h.2.2.equality (.inl rfl)⟩⟩
  · next hl hr =>
    have neither : ¬(l = .constant .null ∨ r = .constant .null) := not_or.mpr ⟨other hl, other hr⟩
    refine ((toOperand_succeedsIff l).bind fun _ _ lt _ =>
      (toOperand_succeedsIff r).map _).congr ?_
    exact ⟨fun h => ⟨h.1, h.2, fun both => other hl both.1, fun h => absurd h neither⟩,
      fun h => ⟨h.1, h.2.1⟩⟩

theorem toTextMatch_succeedsIff (m : TextMatch) (target : Expr) (argument : Option Expr) :
    SucceedsIff (toTextMatch s m target argument)
      (target.IsValue s ∧ ∃ x, argument = some (.constant (.text x))) := by
  refine (toOperand_succeedsIff target).bind fun _ _ t _ => ?_
  split
  · next x => exact ((SucceedsIff.push _).map _).congr (iff_of_true trivial ⟨x, rfl⟩)
  · next other =>
    exact (SucceedsIff.fail _).congr (iff_of_false id fun ⟨x, hx⟩ => other x hx)

theorem toCondition_succeedsIff (e : Expr) : SucceedsIff (e.toCondition s) (e.IsCondition s) := by
  induction e with
  | field r =>
    exact ((toOperand_succeedsIff (field r)).map _).congr (isCondition_iff_isValue (.inl rfl)).symm
  | constant v =>
    exact ((toOperand_succeedsIff (constant v)).map _).congr
      (isCondition_iff_isValue (.inr (.inl ⟨v, rfl⟩))).symm
  | binary op l r ihl ihr =>
    cases op with
    | logical op =>
      exact (ihl.bind fun _ _ lc _ => ihr.map _).congr isCondition_logical_iff.symm
    | comparison op =>
      exact (toComparison_succeedsIff op l r).congr isCondition_comparison_iff.symm
    | arithmetic op =>
      refine (SucceedsIff.fail _).congr (iff_of_false id fun h => ?_)
      cases (isCondition_iff_isValue (.inr (.inr ⟨op, l, r, rfl⟩))).mp h
  | negation e ih => exact (ih.map _).congr isCondition_negation_iff.symm
  | call m e =>
    refine SucceedsIff.congr ?_ isCondition_call_iff.symm
    cases m with
    | text m => exact (toTextMatch_succeedsIff m e none).congr (by simp)
    | isNull => exact ((toOperand_succeedsIff e).map _).congr (by simp)
    | isNotNull => exact ((toOperand_succeedsIff e).map _).congr (by simp)
    | other name => exact (SucceedsIff.fail _).congr (by simp)
  | callWith m e a =>
    cases m with
    | text m =>
      exact (toTextMatch_succeedsIff m e (some a)).congr
        (isCondition_textMatch_iff.trans (by simp)).symm
    | isNull =>
      refine ((toOperand_succeedsIff e).map _).congr ⟨fun h => .isNullWith h a, fun h => ?_⟩
      cases h with
      | isNullWith h _ => exact h
      | value h => cases h
    | isNotNull =>
      refine ((toOperand_succeedsIff e).map _).congr ⟨fun h => .isNotNullWith h a, fun h => ?_⟩
      cases h with
      | isNotNullWith h _ => exact h
      | value h => cases h
    | other name =>
      refine (SucceedsIff.fail _).congr (iff_of_false id fun h => ?_)
      cases h with
      | value h => cases h
  | aggregateAll f =>
    refine (SucceedsIff.fail _).congr (iff_of_false id fun h => ?_)
    cases (isCondition_iff_isValue (.inl rfl)).mp h
  | aggregate f a =>
    refine (SucceedsIff.fail _).congr (iff_of_false id fun h => ?_)
    cases (isCondition_iff_isValue (.inl rfl)).mp h

end Expr

/-- A tree has SQL in a select list exactly if it is a selector, and as a condition exactly if it is
one. Of either kind every reference that is read resolves. -/
theorem lowered_iff (s : Scope) (n : Nat) (e : Expr) :
    ((∃ vs t, (e.toSelector s).run n = (vs, .ok t)) ↔ e.IsSelector s) ∧
    ((∃ vs c, (e.toCondition s).run n = (vs, .ok c)) ↔ e.IsCondition s) ∧
    (e.IsSelector s ∨ e.IsCondition s → ∀ r ∈ e.readRefs, s.Resolves r) :=
  ⟨e.toSelector_succeedsIff n, e.toCondition_succeedsIff n,
    fun h => h.elim Expr.IsSelector.resolves Expr.IsCondition.resolves⟩

def tripScope : Scope :=
  ⟨[⟨"Trip", "t0", { table := "Trips", columns := [⟨"id", "Id"⟩, ⟨"name", "Name"⟩] }⟩], 1⟩

/-- A null test of a field, with a field for its argument that there is not. -/
def strayNullTest : Expr := .callWith .isNull (.named "name") (.named "colour")

/-- A condition may have a reference that does not resolve, in the argument of a null test. -/
theorem strayNullTest_lowered :
    (strayNullTest.toCondition tripScope).run 0 = ([], .ok (.isNull (.column "t0" "Name"))) ∧
    ⟨.current, "colour"⟩ ∈ strayNullTest.refs ∧ ¬tripScope.Resolves ⟨.current, "colour"⟩ ∧
    ¬∀ (s : Scope) (e : Expr), (∃ n vs c, (e.toCondition s).run n = (vs, .ok c)) →
      ∀ r ∈ e.refs, s.Resolves r := by
  have stray : ¬tripScope.Resolves ⟨.current, "colour"⟩ := fun h => by
    obtain ⟨t, ht⟩ := Scope.resolve_ok_iff.mpr h
    cases ht
  have read : ⟨.current, "colour"⟩ ∈ strayNullTest.refs := by decide
  exact ⟨rfl, read, stray, fun h => stray (h tripScope strayNullTest ⟨0, _, _, rfl⟩ _ read)⟩

end RecordQuery
