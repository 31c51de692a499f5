import Mathlib.Data.List.Induction
import RecordQuery.Proofs.Query.Deferred

/-!
# Runs of operations

An operation is about one part of a query and leaves the others (`Query.apply_leaves`). A part that
is only added to has what each operation of a run added to it, in their order
(`Query.getElem?_grown`).
-/

namespace RecordQuery.Query

theorem applyAll_append (q : Query) (before after : List Step) :
    q.applyAll (before ++ after) = (q.applyAll before).applyAll after := List.foldl_append

theorem applyAll_concat (q : Query) (steps : List Step) (st : Step) :
    q.applyAll (steps ++ [st]) = (q.applyAll steps).apply st := q.applyAll_append steps [st]

/-! ## One operation -/

/-- The parts of a query that operations are about. -/
inductive Part where
  | filters | joins | projection | group | aggregates | orders | pagination | distinct
  deriving DecidableEq

/-- The part that an operation is about. -/
def Step.part : Step → Part
  | .filter _ => .filters
  | .whereFilter _ => .filters
  | .join _ _ _ => .joins
  | .joinAs _ _ _ _ => .joins
  | .crossJoin _ => .joins
  | .select _ _ => .projection
  | .groupBy _ => .group
  | .aggregate _ _ _ => .aggregates
  | .orderBy _ _ => .orders
  | .sort _ => .orders
  | .clearOrdering => .orders
  | .skip _ => .pagination
  | .take _ => .pagination
  | .page _ _ => .pagination
  | .distinct => .distinct

/-- The other parts of a query are left. A projection takes the place of the aggregates, too. -/
structure Leaves (p : Part) (q q' : Query) : Prop where
  base : q'.base = q.base
  filters : p ≠ .filters → q'.filters = q.filters
  joins : p ≠ .joins → q'.joins = q.joins
  projection : p ≠ .projection → q'.projection = q.projection
  group : p ≠ .group → q'.group = q.group
  aggregates : p ≠ .aggregates → p ≠ .projection → q'.aggregates = q.aggregates
  orders : p ≠ .orders → q'.orders = q.orders
  pagination : p ≠ .pagination → q'.pagination = q.pagination
  distinct : p ≠ .distinct → q'.distinct = q.distinct

theorem Leaves.refl (p : Part) (q : Query) : Leaves p q q := by
  constructor <;> intros <;> rfl

/-- An error is no part that an operation is about. -/
theorem Leaves.defers (p : Part) (q : Query) (deferred : Option Error) :
    Leaves p q { q with deferred } := by
  constructor <;> intros <;> rfl

theorem Leaves.rebases (p : Part) (q : Query) (e : Expr) : Leaves p q (q.rebaseOrDefer e).1 := by
  rw [rebaseOrDefer_fst]
  exact .defers p q _

theorem Leaves.deferAll (p : Part) (q : Query) (es : List Error) : Leaves p q (q.deferAll es) := by
  rw [deferAll_eq]
  exact .defers p q _

/-- Group keys are added to a query, with the error they meet, and nothing else of it changes. -/
theorem groupBy_frame (q : Query) (keys : List (String × Expr)) :
    ∃ group deferred, q.groupBy keys = { q with group, deferred } := by
  induction keys generalizing q with
  | nil => exact ⟨q.group, q.deferred, rfl⟩
  | cons key keys ih =>
    have pushed : q.pushGroupKey key = { (q.rebaseOrDefer key.2).1 with
      group := (q.rebaseOrDefer key.2).1.group ++ [⟨key.1, (q.rebaseOrDefer key.2).2⟩] } := rfl
    obtain ⟨group, deferred, later⟩ := ih (q.pushGroupKey key)
    refine ⟨group, deferred, ?_⟩
    rw [groupBy, List.foldl_cons, ← groupBy, later, pushed, rebaseOrDefer_fst]

theorem apply_leaves (q : Query) (st : Step) : Leaves st.part q (q.apply st) := by
  cases st with
  | filter e => exact { Leaves.rebases _ q e with filters := absurd rfl }
  | whereFilter f => exact { Leaves.rebases _ q f.toExpr with filters := absurd rfl }
  | join shape kind on => exact { Leaves.rebases _ q on with joins := absurd rfl }
  | joinAs shape label kind on => exact { Leaves.rebases _ q on with joins := absurd rfl }
  | crossJoin shape => exact { Leaves.refl _ q with joins := absurd rfl }
  | select s items =>
    have errors := Leaves.deferAll .projection q ((items.map (q.projectItem s)).flatMap (·.1))
    exact { errors with projection := absurd rfl, aggregates := fun _ => absurd rfl }
  | groupBy keys =>
    obtain ⟨group, deferred, frame⟩ := q.groupBy_frame keys
    rw [apply, frame]
    exact { Leaves.defers _ q deferred with group := absurd rfl }
  | aggregate f selector label =>
    cases selector with
    | none => exact { Leaves.refl _ q with aggregates := absurd rfl }
    | some e => exact { Leaves.rebases _ q e with aggregates := absurd rfl }
  | orderBy key ascending => exact { Leaves.rebases _ q key with orders := absurd rfl }
  | sort k => exact { Leaves.rebases _ q (.named k.field) with orders := absurd rfl }
  | clearOrdering => exact { Leaves.refl _ q with orders := absurd rfl }
  | skip rows => exact { Leaves.refl _ q with pagination := absurd rfl }
  | take rows => exact { Leaves.refl _ q with pagination := absurd rfl }
  | page number size => exact { Leaves.refl _ q with pagination := absurd rfl }
  | distinct => exact { Leaves.refl _ q with distinct := absurd rfl }

/-! ## What is added -/

section

variable {β γ : Type} {f : Query → List β} {call? : Step → Option γ} {new : Query → γ → β}
  {calls : List Step}
  (grows : ∀ q, ∀ st ∈ calls, f (q.apply st) = f q ++ ((call? st).map (new q)).toList)
include grows

theorem prefix_grown (q : Query) : f q <+: f (q.applyAll calls) := by
  induction calls generalizing q with
  | nil => exact List.prefix_refl _
  | cons st calls ih =>
    obtain ⟨first, rest⟩ := List.forall_mem_cons.mp fun st hst q => grows q st hst
    refine List.IsPrefix.trans ?_ (ih (fun q st hst => rest st hst q) (q.apply st))
    rw [first]
    exact List.prefix_append _ _

/-- There is one for every call. -/
theorem length_grown (q : Query) :
    (f (q.applyAll calls)).length = (f q).length + (calls.filterMap call?).length := by
  induction calls using List.reverseRecOn with
  | nil => rfl
  | append_singleton calls st ih =>
    have last := grows (q.applyAll calls) st (by simp)
    rw [applyAll_concat, last, List.length_append,
      ih fun q st hst => grows q st (List.mem_append_left _ hst), List.filterMap_append,
      List.length_append, Nat.add_assoc]
    cases h : call? st <;> simp [h]

/-- That of a call stands behind those of the calls before it. -/
theorem getElem?_grown (q : Query) {before : List Step} {st : Step} {call : γ}
    (split : before ++ [st] <+: calls) (hcall : call? st = some call) :
    (f (q.applyAll calls))[(f q).length + (before.filterMap call?).length]?
      = some (new (q.applyAll before) call) := by
  obtain ⟨after, rfl⟩ := split
  have earlier (q : Query) (st' : Step) (h : st' ∈ before) :=
    grows q st' (List.mem_append_left _ (List.mem_append_left _ h))
  have now := grows (q.applyAll before) st (by simp)
  have later := prefix_grown (fun q st' h => grows q st' (List.mem_append_right _ h))
    (q.applyAll (before ++ [st]))
  rw [applyAll_concat, now, hcall] at later
  obtain ⟨rest, whole⟩ := later
  rw [applyAll_append, applyAll_concat, ← whole, ← length_grown earlier, List.append_assoc,
    List.getElem?_append_right (Nat.le_refl _), Nat.sub_self]
  rfl

end

end RecordQuery.Query
