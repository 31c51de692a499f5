import RecordQuery.Compile.Scope

/-!
# Lowering of expressions

`Expr.toOperand`, `Expr.toSelector` and `Expr.toCondition` give the SQL an expression stands for
in a scope, or say why it has none. A `Lowering` binds values to parameters on the way: it is told
how many are bound before it, and lists the values it binds, those bound before a failure included.
-/

namespace RecordQuery

structure Lowering (α : Type) where
  /-- The values bound, and the result, when so many values are bound before. -/
  run : Nat → List Value × Except Error α

namespace Lowering

instance : Monad Lowering where
  pure a := ⟨fun _ => ([], .ok a)⟩
  bind m f := ⟨fun n =>
    match m.run n with
    | (bound, .ok a) =>
      let (more, r) := (f a).run (n + bound.length)
      (bound ++ more, r)
    | (bound, .error e) => (bound, .error e)⟩

def ofExcept (r : Except Error α) : Lowering α := ⟨fun _ => ([], r)⟩

def fail (e : Error) : Lowering α := ofExcept (.error e)

def unsupported (detail : String) : Lowering α := fail (.unsupportedPredicate detail)

/-- Binds a value to the next parameter and gives the number of the parameter. -/
def push (v : Value) : Lowering Nat := ⟨fun n => ([v], .ok n)⟩

@[simp] theorem run_pure (a : α) (n : Nat) : (pure a : Lowering α).run n = ([], .ok a) := rfl

@[simp] theorem run_ofExcept (r : Except Error α) (n : Nat) : (ofExcept r).run n = ([], r) := rfl

@[simp] theorem run_fail (e : Error) (n : Nat) : (fail e : Lowering α).run n = ([], .error e) := rfl

@[simp] theorem run_push (v : Value) (n : Nat) : (push v).run n = ([v], .ok n) := rfl

theorem run_bind_of_ok {m : Lowering α} {f : α → Lowering β} {n : Nat} {bound : List Value} {a : α}
    (h : m.run n = (bound, .ok a)) :
    (m >>= f).run n
      = (bound ++ ((f a).run (n + bound.length)).1, ((f a).run (n + bound.length)).2) := by
  simp only [bind, h]

theorem run_bind_of_error {m : Lowering α} {f : α → Lowering β} {n : Nat} {bound : List Value}
    {e : Error} (h : m.run n = (bound, .error e)) : (m >>= f).run n = (bound, .error e) := by
  simp only [bind, h]

/-- A sequence succeeds when both parts do; the values of the first are bound first. -/
theorem run_bind_ok_iff {m : Lowering α} {f : α → Lowering β} {n : Nat} {vs : List Value} {b : β} :
    (m >>= f).run n = (vs, .ok b) ↔
      ∃ us a ws, m.run n = (us, .ok a) ∧ (f a).run (n + us.length) = (ws, .ok b) ∧
        vs = us ++ ws := by
  rcases h : m.run n with ⟨us, _ | a⟩
  · rw [run_bind_of_error h]
    simp
  · rw [run_bind_of_ok h]
    rcases hf : (f a).run (n + us.length) with ⟨ws, r⟩
    constructor
    · intro hb
      obtain ⟨rfl, rfl⟩ := Prod.mk.inj hb
      exact ⟨us, a, ws, rfl, hf, rfl⟩
    · rintro ⟨us', a', ws', he, hf', rfl⟩
      cases he
      rw [hf] at hf'
      cases hf'
      rfl

theorem ext {m m' : Lowering α} (h : ∀ n, m.run n = m'.run n) : m = m' := by
  cases m
  cases m'
  exact congrArg mk (funext h)

theorem bind_pure_run (m : Lowering α) (n : Nat) : (m >>= pure).run n = m.run n := by
  rcases h : m.run n with ⟨us, _ | a⟩
  · exact run_bind_of_error h
  · rw [run_bind_of_ok h]
    simp

theorem bind_bind_run (m : Lowering α) (f : α → Lowering β) (g : β → Lowering γ) (n : Nat) :
    (m >>= f >>= g).run n = (m >>= fun a => f a >>= g).run n := by
  rcases h : m.run n with ⟨us, _ | a⟩
  · rw [run_bind_of_error h, run_bind_of_error (run_bind_of_error h)]
  · rw [run_bind_of_ok h]
    rcases hf : (f a).run (n + us.length) with ⟨ws, _ | b⟩
    · rw [run_bind_of_error hf, run_bind_of_error (by rw [run_bind_of_ok h, hf])]
    · rw [run_bind_of_ok hf, run_bind_of_ok (by rw [run_bind_of_ok h, hf])]
      simp [Nat.add_assoc]

instance : LawfulMonad Lowering :=
  LawfulMonad.mk' Lowering (fun m => ext (bind_pure_run m)) (fun _ _ => rfl)
    (fun m f g => ext (bind_bind_run m f g))

/-- The statement whose text the result has and whose parameters are the values bound. -/
def statement (m : Lowering α) (pieces : α → List Sql.Piece) : Except Error Statement :=
  let (bound, r) := m.run 0
  r.map fun a => .ofPieces (pieces a) bound

end Lowering

namespace Expr

open Lowering

/-- A value that is no aggregate: a field or a constant. -/
def toOperand (s : Scope) : Expr → Lowering Sql.Term
  | field r => ofExcept (s.resolve r)
  | constant v => do
    let slot ← push v
    return .parameter slot
  | aggregateAll f =>
    unsupported ("aggregate '" ++ (aggregateAll f).display ++ "' is not allowed here")
  | aggregate f a =>
    unsupported ("aggregate '" ++ (aggregate f a).display ++ "' is not allowed here")
  | e => unsupported ("'" ++ e.display ++ "' cannot be used as a value")

/-- A value of a select list, a group key or a sort key; it may be an aggregate of a value. -/
def toSelector (s : Scope) : Expr → Lowering Sql.Term
  | aggregateAll .count => return .countAll
  | aggregateAll f => unsupported (f.name ++ " needs an argument")
  | aggregate f a => do
    let t ← a.toOperand s
    return .aggregate f t
  | e => e.toOperand s

/-- A test for null, for the comparisons that have that meaning. -/
def nullTest (op : Comparison) (t : Sql.Term) : Lowering Sql.Condition :=
  match op with
  | .equal => return .isNull t
  | .notEqual => return .isNotNull t
  | op => unsupported ("operator '" ++ (Operator.comparison op).symbol ++ "' against null")

/-- A comparison of two values. A comparison with a null constant is a test for null. -/
def toComparison (s : Scope) (op : Comparison) (left right : Expr) :
    Lowering Sql.Condition :=
  match left.isNullConstant, right.isNullConstant with
  | true, true => unsupported "comparison between two null constants"
  | false, true => do
    let t ← left.toOperand s
    nullTest op t
  | true, false => do
    let t ← right.toOperand s
    nullTest op t
  | false, false => do
    let l ← left.toOperand s
    let r ← right.toOperand s
    return .compare op l r

def needsText (m : TextMatch) : Lowering Sql.Condition :=
  unsupported (m.name ++ "() needs a string constant argument")

/-- A text match of a value with a constant text. -/
def toTextMatch (s : Scope) (m : TextMatch) (target : Expr) (argument : Option Expr) :
    Lowering Sql.Condition := do
  let t ← target.toOperand s
  match argument with
  | some (constant (.text text)) => do
    let pattern ← push (.text (Sql.likePattern m text))
    return .like t pattern
  | _ => needsText m

def toMethodTest (s : Scope) (m : Method) (target : Expr) (argument : Option Expr) :
    Lowering Sql.Condition :=
  match m with
  | .text m => toTextMatch s m target argument
  | .isNull => do
    let t ← target.toOperand s
    return .isNull t
  | .isNotNull => do
    let t ← target.toOperand s
    return .isNotNull t
  | .other name => unsupported ("method '" ++ name ++ "' has no SQL translation")

/-- A condition of a WHERE or ON clause. A value by itself holds when it is 1. -/
def toCondition (s : Scope) : Expr → Lowering Sql.Condition
  | binary (.logical op) l r => do
    let l ← l.toCondition s
    let r ← r.toCondition s
    return .logical op l r
  | binary (.comparison op) l r => toComparison s op l r
  | binary (.arithmetic op) _ _ =>
    unsupported ("arithmetic operator '" ++ (Operator.arithmetic op).symbol ++ "'")
  | negation e => do
    let c ← e.toCondition s
    return .negation c
  | field r => do
    let t ← (field r).toOperand s
    return .isTrue t
  | constant v => do
    let t ← (constant v).toOperand s
    return .isTrue t
  | call m target => toMethodTest s m target none
  | callWith m target argument => toMethodTest s m target (some argument)
  | aggregateAll f => unsupported ("aggregate '" ++ (aggregateAll f).display ++ "' in a filter")
  | aggregate f a => unsupported ("aggregate '" ++ (aggregate f a).display ++ "' in a filter")

end Expr

end RecordQuery
