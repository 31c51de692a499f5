import RecordQuery.Compile.Lowering
import RecordQuery.Proofs.Query.Substitution

/-!
# Labels of conditions

The label a table has in a scope is the label of the columns that references resolve to, and a
reference names it only through an alias. So the condition of an expression without aliases is the
same in a scope with other labels, but for the labels (`Expr.toCondition_relabel`): it binds the
same values, and fails for the same reason.
-/

namespace RecordQuery

open Sql Lowering

namespace Sql

/-- The term with other labels. -/
def Term.relabel (g : String → String) : Term → Term
  | column label name => column (g label) name
  | parameter slot => parameter slot
  | countAll => countAll
  | aggregate f a => aggregate f (a.relabel g)

/-- The condition with other labels. -/
def Condition.relabel (g : String → String) : Condition → Condition
  | compare op l r => compare op (l.relabel g) (r.relabel g)
  | isNull t => isNull (t.relabel g)
  | isNotNull t => isNotNull (t.relabel g)
  | like t p => like (t.relabel g) p
  | isTrue t => isTrue (t.relabel g)
  | logical op l r => logical op (l.relabel g) (r.relabel g)
  | negation c => negation (c.relabel g)

end Sql

/-- The tables under other labels. -/
def Scope.relabel (s : Scope) (g : String → String) : Scope :=
  { s with tables := s.tables.map fun t => { t with label := g t.label } }

/-- Every reference of the tree is to the working shape or to the table of a shape, and none to
an alias. -/
def Expr.Unaliased (e : Expr) : Prop := ∀ r ∈ e.refs, ∀ a, r.table ≠ .aliased a

/-! ## Failures and labels -/

namespace Lowering

@[simp] theorem map_fail (f : α → β) (e : Error) : f <$> (fail e : Lowering α) = fail e :=
  ext fun _ => rfl

@[simp] theorem map_unsupported (f : α → β) (detail : String) :
    f <$> (unsupported detail : Lowering α) = unsupported detail :=
  map_fail f _

theorem map_ofExcept (f : α → β) (x : Except Error α) :
    f <$> ofExcept x = ofExcept (x.map f) := by
  cases x <;> exact ext fun _ => rfl

end Lowering

theorem Scope.resolve_relabel (s : Scope) (g : String → String) {r : FieldRef}
    (h : ∀ a, r.table ≠ .aliased a) :
    (s.relabel g).resolve r = (s.resolve r).map (Term.relabel g) := by
  have visible : (s.relabel g).visibleTables
      = s.visibleTables.map fun t => { t with label := g t.label } := List.map_take.symm
  have table : (s.relabel g).tableFor r.table
      = (s.tableFor r.table).map fun t => { t with label := g t.label } := by
    cases ht : r.table with
    | current =>
      simp only [tableFor, visible, List.head?_map]
      cases s.visibleTables.head? <;> rfl
    | shape name =>
      simp only [tableFor, visible, List.find?_map, Function.comp_def]
      cases s.visibleTables.find? (·.shape == name) <;> rfl
    | aliased a => exact absurd ht (h a)
  rw [resolve, table, resolve]
  cases s.tableFor r.table with
  | error e => rfl
  | ok t =>
    simp only [Except.map, bind, Except.bind]
    cases t.metadata.columnFor? r.field <;> rfl

namespace Expr

variable {s : Scope} {g : String → String}

theorem toOperand_relabel {e : Expr} (h : e.Unaliased) :
    e.toOperand (s.relabel g) = Term.relabel g <$> e.toOperand s := by
  cases e with
  | field r => rw [toOperand, toOperand, map_ofExcept, s.resolve_relabel g (h r List.mem_cons_self)]
  | constant v => simp [toOperand, Term.relabel]
  | _ => simp [toOperand]

theorem nullTest_relabel (op : Comparison) (t : Term) :
    nullTest op (t.relabel g) = Condition.relabel g <$> nullTest op t := by
  cases op <;> simp [nullTest, Condition.relabel]

theorem toComparison_relabel (op : Comparison) {l r : Expr} (hl : l.Unaliased)
    (hr : r.Unaliased) :
    toComparison (s.relabel g) op l r = Condition.relabel g <$> toComparison s op l r := by
  unfold toComparison
  split <;>
    simp only [toOperand_relabel hl, toOperand_relabel hr, bind_map_left, map_bind, map_pure,
      nullTest_relabel, map_unsupported, Condition.relabel]

theorem toMethodTest_relabel (m : Method) {target : Expr} (h : target.Unaliased)
    (argument : Option Expr) :
    toMethodTest (s.relabel g) m target argument
      = Condition.relabel g <$> toMethodTest s m target argument := by
  cases m with
  | text m =>
    simp only [toMethodTest, toTextMatch, toOperand_relabel h, bind_map_left, map_bind]
    refine bind_congr fun t => ?_
    split
    · simp only [map_bind, map_pure, Condition.relabel]
    · exact (map_unsupported _ _).symm
  | isNull =>
    simp only [toMethodTest, toOperand_relabel h, bind_map_left, map_bind, map_pure,
      Condition.relabel]
  | isNotNull =>
    simp only [toMethodTest, toOperand_relabel h, bind_map_left, map_bind, map_pure,
      Condition.relabel]
  | other name => exact (map_unsupported _ _).symm

/-- Under other labels an expression has the same condition, but for the labels. -/
theorem toCondition_relabel {e : Expr} (h : e.Unaliased) :
    e.toCondition (s.relabel g) = Condition.relabel g <$> e.toCondition s := by
  induction e with
  | binary op l r ihl ihr =>
    have left : l.Unaliased := fun x hx => h x (List.mem_append_left _ hx)
    have right : r.Unaliased := fun x hx => h x (List.mem_append_right _ hx)
    cases op with
    | logical op =>
      simp only [toCondition, ihl left, ihr right, bind_map_left, map_bind, map_pure,
        Condition.relabel]
    | comparison op => exact toComparison_relabel op left right
    | arithmetic op => exact (map_unsupported _ _).symm
  | negation e ih =>
    simp only [toCondition, ih h, bind_map_left, map_bind, map_pure, Condition.relabel]
  | field r =>
    simp only [toCondition, toOperand_relabel h, bind_map_left, map_bind, map_pure,
      Condition.relabel]
  | constant v =>
    simp only [toCondition, toOperand_relabel h, bind_map_left, map_bind, map_pure,
      Condition.relabel]
  | call m target =>
    have plain : target.Unaliased := h
    exact toMethodTest_relabel m plain none
  | callWith m target argument =>
    have plain : target.Unaliased := fun x hx => h x (List.mem_append_left _ hx)
    exact toMethodTest_relabel m plain (some argument)
  | aggregateAll f => exact (map_unsupported _ _).symm
  | aggregate f a => exact (map_unsupported _ _).symm

end Expr

end RecordQuery
