import Mathlib.Data.List.Induction
import Mathlib.Data.List.Perm.Basic
import RecordQuery.Proofs.Compile.Supported
import RecordQuery.Proofs.Query.Substitution
import RecordQuery.Proofs.Rows.Injected

/-!
# Group keys are resolved in turn

A group key may name the keys before it in the same call, and stands for what the first of them that
it names stands for. So a key is kept as it is given exactly if no key before it has the name of a
field of it (`Query.Captured`), and the order of keys does not matter exactly if no two of them are
related so (`group_keys_in_turn`).
-/

namespace RecordQuery

/-- The columns of a SELECT by their labels and by what they stand for. -/
def Sql.Select.labelled (ps : List Param) (x : Select) : List (String × Quantity) :=
  x.columns.map fun c => (c.label, c.term.quantity ps)

namespace Query

/-- A key as it is given. -/
def givenKey (key : String × Expr) : GroupKey := ⟨key.1, key.2⟩

/-- What the names of group keys stand for. -/
def keyItems (group : List GroupKey) : List (String × Expr) := group.map fun k => (k.label, k.expr)

theorem keyItems_given (keys : List (String × Expr)) : keyItems (keys.map givenKey) = keys := by
  rw [keyItems, List.map_map]
  exact List.map_id keys

/-- A key before an expression has the name of a field of it, and stands for something else. -/
def Captured (before : List (String × Expr)) (e : Expr) : Prop :=
  ∃ r ∈ e.refs, r.table = .current ∧
    ∃ k, before.find? (·.1 == r.field) = some k ∧ k.2 ≠ .field r

/-- No key has the name of a field of another one that it does not stand for. -/
def Apart (keys : List (String × Expr)) : Prop :=
  keys.Pairwise fun a b => ¬Captured [a] b.2 ∧ ¬Captured [b] a.2

section

variable {q : Query} (hp : q.projection = none) (ha : q.aggregates = [])
include hp ha

theorem rebase_grouped (e : Expr) : q.rebase e = .ok (e.through (keyItems q.group)) := by
  have found (name : String) : (keyItems q.group).find? (·.1 == name)
      = (q.group.find? (·.label == name)).map fun k => (k.label, k.expr) := List.find?_map ..
  have same : q.rebaseField = fun r => .ok (Expr.item (keyItems q.group) r) := by
    funext ⟨table, field⟩
    cases table with
    | current =>
      simp only [rebaseField, resolve, Expr.item, found, hp, ha]
      cases q.group.find? (·.label == field) <;> rfl
    | shape name => rfl
    | aliased name => rfl
  rw [rebase, same, Expr.mapFields_ok]
  rfl

theorem pushGroupKey_eq (key : String × Expr) :
    q.pushGroupKey key
      = { q with group := q.group ++ [⟨key.1, key.2.through (keyItems q.group)⟩] } := by
  rw [pushGroupKey, rebaseOrDefer_of_ok (rebase_grouped hp ha key.2)]

end

/-- Beside keys an expression is kept exactly if none of them captures it. -/
theorem through_eq_self_iff (keys : List (String × Expr)) (e : Expr) :
    e.through keys = e ↔ ¬Captured keys e := by
  have kept (r : FieldRef) : Expr.item keys r = .field r ↔
      ¬(r.table = .current ∧ ∃ k, keys.find? (·.1 == r.field) = some k ∧ k.2 ≠ .field r) := by
    obtain ⟨table, field⟩ := r
    cases table with
    | current =>
      simp only [Expr.item]
      cases keys.find? (·.1 == field) <;> simp
    | shape name => simp [Expr.item]
    | aliased name => simp [Expr.item]
  rw [Expr.through, Expr.substitute_eq_self_iff, Captured]
  simp only [kept, not_exists, not_and]

theorem groupBy_concat (q : Query) (keys : List (String × Expr)) (key : String × Expr) :
    q.groupBy (keys ++ [key]) = (q.groupBy keys).pushGroupKey key := by
  rw [groupBy, List.foldl_append]
  rfl

section

variable {q : Query} (h : q.Plain) (keys : List (String × Expr))
include h

/-- Nothing but the keys of a query changes; no error is met. -/
theorem Plain.groupBy_frame : q.groupBy keys = { q with group := (q.groupBy keys).group } := by
  induction keys using List.reverseRecOn with
  | nil => rfl
  | append_singleton keys key ih =>
    have projection : (q.groupBy keys).projection = none := by rw [ih]; exact h.projection
    have aggregates : (q.groupBy keys).aggregates = [] := by rw [ih]; exact h.aggregates
    rw [groupBy_concat, pushGroupKey_eq projection aggregates, ih]

/-- A key is resolved among the keys before it. -/
theorem Plain.group_concat (key : String × Expr) :
    (q.groupBy (keys ++ [key])).group = (q.groupBy keys).group
      ++ [⟨key.1, key.2.through (keyItems (q.groupBy keys).group)⟩] := by
  have frame := h.groupBy_frame keys
  have projection : (q.groupBy keys).projection = none := by rw [frame]; exact h.projection
  have aggregates : (q.groupBy keys).aggregates = [] := by rw [frame]; exact h.aggregates
  rw [groupBy_concat, pushGroupKey_eq projection aggregates]

theorem Plain.group_nil : (q.groupBy []).group = [] := h.group

theorem Plain.labels_group : (q.groupBy keys).group.map (·.label) = keys.map (·.1) := by
  induction keys using List.reverseRecOn with
  | nil => rw [h.group_nil]; rfl
  | append_singleton keys key ih =>
    rw [h.group_concat, List.map_append, List.map_append, ih]
    rfl

theorem Plain.length_group : (q.groupBy keys).group.length = keys.length := by
  rw [← List.length_map (·.label), h.labels_group, List.length_map]

/-- Later keys leave earlier ones as they are. -/
theorem Plain.group_append (more : List (String × Expr)) :
    ∃ rest, (q.groupBy (keys ++ more)).group = (q.groupBy keys).group ++ rest := by
  induction more using List.reverseRecOn with
  | nil => exact ⟨[], by rw [List.append_nil, List.append_nil]⟩
  | append_singleton more key ih =>
    obtain ⟨rest, hr⟩ := ih
    rw [← List.append_assoc, h.group_concat, hr, List.append_assoc]
    exact ⟨_, rfl⟩

/-- Each key is resolved among the keys before it. -/
theorem Plain.group_getElem? {before : List (String × Expr)} {key : String × Expr}
    (split : before ++ [key] <+: keys) :
    (q.groupBy keys).group[before.length]?
      = some ⟨key.1, key.2.through (keyItems (q.groupBy before).group)⟩ := by
  obtain ⟨after, rfl⟩ := split
  obtain ⟨rest, hr⟩ := h.group_append (before ++ [key]) after
  rw [hr, h.group_concat, List.append_assoc,
    List.getElem?_append_right (Nat.le_of_eq (h.length_group _)), h.length_group, Nat.sub_self]
  rfl

/-- Every key is kept as it is given exactly if none is captured by those before it. -/
theorem Plain.group_given_iff : (q.groupBy keys).group = keys.map givenKey ↔
    ∀ before key, before ++ [key] <+: keys → ¬Captured before key.2 := by
  induction keys using List.reverseRecOn with
  | nil => simp [h.group_nil]
  | append_singleton keys last ih =>
    -- what ends in a key of `keys ++ [last]` does so in `keys`, or is all of it
    have prefixes : (∀ before key, before ++ [key] <+: keys ++ [last] → ¬Captured before key.2) ↔
        (∀ before key, before ++ [key] <+: keys → ¬Captured before key.2) ∧
          ¬Captured keys last.2 := by
      simp only [List.prefix_concat_iff, or_imp, forall_and]
      rw [and_comm]
      refine and_congr_right fun _ => ⟨fun hk => hk keys last rfl, fun hk before key eq => ?_⟩
      obtain ⟨rfl, last_eq⟩ := List.append_inj' eq rfl
      exact (List.singleton_inj.mp last_eq) ▸ hk
    rw [prefixes, ← ih, h.group_concat, List.map_append]
    constructor
    · intro given
      obtain ⟨earlier, last_eq⟩ := List.append_inj' given rfl
      rw [earlier, keyItems_given] at last_eq
      refine ⟨earlier, (through_eq_self_iff keys last.2).mp ?_⟩
      exact congrArg GroupKey.expr (List.singleton_inj.mp last_eq)
    · rintro ⟨earlier, free⟩
      rw [earlier, keyItems_given, (through_eq_self_iff keys last.2).mpr free]
      rfl

/-- In every order the keys are kept as they are given exactly if no two of them are related. -/
theorem Plain.group_perm_iff :
    (∀ keys', keys.Perm keys' → (q.groupBy keys').group = keys'.map givenKey) ↔ Apart keys := by
  simp only [h.group_given_iff]
  constructor
  · intro given
    -- any two keys stand first in some order, either of them before the other
    refine List.pairwise_iff_forall_sublist.mpr fun {a b} sub => ?_
    obtain ⟨rest, perm⟩ := sub.exists_perm_append
    have swapped : keys.Perm ([b, a] ++ rest) :=
      perm.trans ((List.Perm.swap b a []).append_right rest)
    have first := given _ perm [a] b (List.prefix_append ..)
    have second := given _ swapped [b] a (List.prefix_append ..)
    exact ⟨first, second⟩
  · intro apart keys' perm before key split
    obtain ⟨after, rfl⟩ := split
    have apart' : Apart (before ++ [key] ++ after) :=
      (perm.pairwise_iff fun {a b} h => ⟨h.2, h.1⟩).mp apart
    have pairs := (List.pairwise_append.mp (List.pairwise_append.mp apart').1).2.2
    rintro ⟨r, hr, current, k, found, other⟩
    have free := (pairs k (List.mem_of_find?_eq_some found) key (List.mem_singleton_self key)).1
    refine free ⟨r, hr, current, k, ?_, other⟩
    rw [List.find?_cons_of_pos (List.find?_some found)]

end

/-! ## Statements -/

open Sql Lowering

/-- The columns of a query by their names, if they are not those of its table. -/
def outputItems (q : Query) : List (String × Expr) :=
  match q.projection with
  | some p => p.items.map fun i => (i.field, i.expr)
  | none =>
    q.group.map (fun k => (k.label, k.expr)) ++ q.aggregates.map fun a => (a.label, a.toExpr)

theorem outputItems_exprs (q : Query) : q.outputItems.map (·.2) = q.outputExprs := by
  unfold outputItems outputExprs
  cases q.projection <;> simp [Function.comp_def]

theorem outputItems_names {r : Registry} {q : Query}
    (figures : q.projection.isSome = true ∨ q.isGrouped = true) :
    q.outputColumns r = .ok (q.outputItems.map (·.1)) := by
  unfold outputItems outputColumns
  cases hp : q.projection with
  | some p => simp
  | none =>
    have grouped : q.isGrouped = true := by simpa [hp] using figures
    simp [grouped, Function.comp_def]

/-- The columns of a SELECT have the names of those of its query, and stand for what they do. -/
theorem labelled_columns {r : Registry} {q : Query} {vs : List Value} {x : Select}
    (figures : q.projection.isSome = true ∨ q.isGrouped = true)
    (h : (q.toSelect r).run 0 = (vs, .ok x)) :
    ∃ s, q.Rendered r s (Param.number vs) x ∧
      (x.labelled (Param.number vs)).map (fun c => (c.1, some c.2))
        = q.outputItems.map fun i => (i.1, i.2.quantity? s) := by
  obtain ⟨s, rendered⟩ := toSelect_rendered h
  have columns := rendered.columns figures
  have labels := (q.toSelect_scoped r 0 vs x h).2
  rw [outputItems_names figures, Except.ok.injEq] at labels
  rw [← outputItems_exprs, Means, List.map_map, List.map_map, List.map_map] at columns
  refine ⟨s, rendered, ?_⟩
  have zipped {α : Type} (f : α → String) (g : α → Option Quantity) (l : List α) :
      l.map (fun a => (f a, g a)) = (l.map f).zip (l.map g) := (List.zip_map' ..).symm
  rw [Select.labelled, List.map_map]
  refine (zipped ..).trans (Eq.trans ?_ (zipped ..).symm)
  exact congrArg₂ List.zip labels.symm columns.symm

/-- A query of groups alone has in its select list and in its GROUP BY what its keys stand for. -/
theorem grouped_values {r : Registry} {q : Query} {vs : List Value} {x : Select}
    (hp : q.projection = none) (ha : q.aggregates = []) (hg : q.group ≠ [])
    (h : (q.toSelect r).run 0 = (vs, .ok x)) :
    ∃ s, Scope.ofSources r q.sources = .ok s ∧
      (x.labelled (Param.number vs)).map (fun c => (c.1, some c.2))
        = q.group.map (fun k => (k.label, k.expr.quantity? s)) ∧
      (x.group.map (·.quantity (Param.number vs))).map some
        = q.group.map (fun k => k.expr.quantity? s) := by
  have grouped : q.isGrouped = true := by simp [isGrouped, hg]
  obtain ⟨s, rendered, columns⟩ := labelled_columns (.inr grouped) h
  have items : q.outputItems = q.group.map fun k => (k.label, k.expr) := by
    simp [outputItems, hp, ha]
  have group := rendered.group
  rw [groupExprs_eq hp, Means, List.map_map] at group
  rw [items, List.map_map] at columns
  exact ⟨s, rendered.scope, columns, group.symm⟩

/-- The same query with other group keys. -/
def regrouped (q : Query) (group : List GroupKey) : Query := { q with group }

theorem regrouped_of_nil {q : Query} {group : List GroupKey} (none : q.group = [])
    (perm : q.group.Perm group) : q.regrouped group = q := by
  rw [none] at perm
  rw [Query.regrouped, ← perm.nil_eq, ← none]

/-- What a query of groups needs does not depend on the order of its keys. -/
theorem Supported.regrouped {r : Registry} {q : Query} {group : List GroupKey}
    (hp : q.projection = none) (perm : q.group.Perm group) (h : q.Supported r) :
    (q.regrouped group).Supported r := by
  have exprs : (q.regrouped group).groupExprs = group.map (·.expr) := groupExprs_eq hp
  obtain ⟨s, scope, clauses⟩ := h.clauses
  have selectors : ∀ e ∈ (q.regrouped group).groupExprs, e.IsSelector s := fun e he => by
    refine clauses.group e ?_
    rw [groupExprs_eq hp]
    exact (perm.map _).mem_iff.mpr (exprs ▸ he)
  have columns := clauses.columns
  simp only [HasColumns, hp] at columns
  refine ⟨h.undeferred, h.window, s, scope, ?_, clauses.joins, clauses.filters, selectors,
    clauses.order.keys, fun unordered paged es figures => ?_⟩
  · simp only [HasColumns, Query.regrouped, hp]
    exact ⟨fun k hk => columns.1 k (perm.mem_iff.mpr hk), columns.2⟩
  · by_cases none : q.group = []
    · exact clauses.order.figures unordered paged es (regrouped_of_nil none perm ▸ figures)
    · have some : group ≠ [] := fun empty => none (empty ▸ perm).eq_nil
      have keys : (q.regrouped group).figureOrder? = .some (q.regrouped group).groupExprs := by
        rw [figureOrder?, if_neg (by simpa [exprs] using some)]
      exact Option.some.inj (keys.symm.trans figures) ▸ selectors

/-- With its keys in another order a query of groups has a SELECT whose columns and GROUP BY are in
another order. -/
theorem toSelect_regrouped {r : Registry} {q : Query} {group : List GroupKey}
    (hp : q.projection = none) (ha : q.aggregates = []) (perm : q.group.Perm group)
    {vs : List Value} {x : Select} (h : (q.toSelect r).run 0 = (vs, .ok x)) :
    ∃ vs' x', ((q.regrouped group).toSelect r).run 0 = (vs', .ok x') ∧
      (x.labelled (Param.number vs)).Perm (x'.labelled (Param.number vs')) ∧
      (x.group.map (·.quantity (Param.number vs))).Perm
        (x'.group.map (·.quantity (Param.number vs'))) := by
  by_cases none : q.group = []
  · exact ⟨vs, x, (regrouped_of_nil none perm).symm ▸ h, .refl _, .refl _⟩
  have some : group ≠ [] := fun empty => none (empty ▸ perm).eq_nil
  have supported := (toSelect_succeedsIff r q 0).mp ⟨vs, x, h⟩
  obtain ⟨vs', x', h'⟩ := (toSelect_succeedsIff r _ 0).mpr (supported.regrouped hp perm)
  obtain ⟨s, scope, columns, keys⟩ := grouped_values hp ha none h
  obtain ⟨s', scope', columns', keys'⟩ := grouped_values (q := q.regrouped group) hp ha some h'
  obtain rfl : s = s' := Except.ok.inj (scope.symm.trans scope')
  refine ⟨vs', x', h', ?_, ?_⟩
  · have injective : Function.Injective fun c : String × Quantity => (c.1, Option.some c.2) :=
      fun a b hab => Prod.ext (Prod.mk.inj hab).1 (Option.some.inj (Prod.mk.inj hab).2)
    refine (List.map_perm_map_iff injective).mp ?_
    rw [columns, columns']
    exact perm.map _
  · refine (List.map_perm_map_iff fun a b => Option.some.inj).mp ?_
    rw [keys, keys']
    exact perm.map _

/-- The keys of one call are resolved one after the other, each among those before it. They are kept
as they are given exactly if none is captured, and in every order exactly if they are apart. Keys
that are apart may change places: then so do the columns and what is in the GROUP BY, and nothing
else of the query changes. -/
theorem group_keys_in_turn {q : Query} (h : q.Plain) (keys : List (String × Expr)) :
    (q.groupBy keys = q.regrouped (q.groupBy keys).group ∧
      (q.groupBy keys).group.map (·.label) = keys.map (·.1) ∧
      ∀ before key, before ++ [key] <+: keys →
        (q.groupBy keys).group[before.length]?
          = some ⟨key.1, key.2.through (keyItems (q.groupBy before).group)⟩) ∧
    ((q.groupBy keys).group = keys.map givenKey ↔
      ∀ before key, before ++ [key] <+: keys → ¬Captured before key.2) ∧
    ((∀ keys', keys.Perm keys' → (q.groupBy keys').group = keys'.map givenKey) ↔ Apart keys) ∧
    (Apart keys → ∀ keys', keys.Perm keys' →
      q.groupBy keys' = (q.groupBy keys).regrouped (q.groupBy keys').group ∧
      (q.groupBy keys).group.Perm (q.groupBy keys').group ∧
      ∀ (r : Registry) (vs : List Value) (x : Select),
        ((q.groupBy keys).toSelect r).run 0 = (vs, .ok x) →
        ∃ vs' x', ((q.groupBy keys').toSelect r).run 0 = (vs', .ok x') ∧
          (x.labelled (Param.number vs)).Perm (x'.labelled (Param.number vs')) ∧
          (x.group.map (·.quantity (Param.number vs))).Perm
            (x'.group.map (·.quantity (Param.number vs')))) := by
  refine ⟨⟨h.groupBy_frame keys, h.labels_group keys, fun before key => h.group_getElem? keys⟩,
    h.group_given_iff keys, h.group_perm_iff keys, fun apart keys' perm => ?_⟩
  have given := (h.group_perm_iff keys).mpr apart
  have group : (q.groupBy keys).group.Perm (q.groupBy keys').group := by
    rw [given keys (.refl _), given keys' perm]
    exact perm.map _
  have frame : q.groupBy keys' = (q.groupBy keys).regrouped (q.groupBy keys').group := by
    rw [h.groupBy_frame keys, regrouped]
    exact h.groupBy_frame keys'
  refine ⟨frame, group, fun r vs x hx => ?_⟩
  rw [frame]
  refine toSelect_regrouped ?_ ?_ group hx
  · rw [h.groupBy_frame keys]
    exact h.projection
  · rw [h.groupBy_frame keys]
    exact h.aggregates

/-- The first key has the name of the field that the second one is. -/
def relabelledKeys : List (String × Expr) := [("name", .named "price"), ("label", .named "name")]

def trips : Query := ofShape ⟨"Trip", []⟩

theorem group_keys_in_turn_relabelled :
    trips.Plain ∧ ¬Apart relabelledKeys ∧
      (trips.groupBy relabelledKeys).group[1]? = some ⟨"label", .named "price"⟩ := by
  have plain : trips.Plain := ⟨rfl, rfl, rfl⟩
  obtain ⟨⟨_, _, each⟩, _, perm, _⟩ := group_keys_in_turn plain relabelledKeys
  have second := each [("name", .named "price")] ("label", .named "name") (List.prefix_refl _)
  refine ⟨plain, fun apart => ?_, second⟩
  have given := perm.mpr apart relabelledKeys (.refl _)
  rw [given] at second
  exact absurd second (by decide)

/-- The second key is not stored as it is given, but it is where it comes first: groups by price and
name become groups by price alone. -/
theorem relabelledKeys_not_given :
    trips.Plain ∧
    (trips.groupBy relabelledKeys).group = [⟨"name", .named "price"⟩, ⟨"label", .named "price"⟩] ∧
    (trips.groupBy relabelledKeys.reverse).group
      = [⟨"label", .named "name"⟩, ⟨"name", .named "price"⟩] ∧
    ¬∀ (q : Query) (keys : List (String × Expr)), q.Plain →
      (q.groupBy keys).group = keys.map givenKey := by
  have plain : trips.Plain := ⟨rfl, rfl, rfl⟩
  exact ⟨plain, rfl, rfl, fun given => absurd (given trips relabelledKeys plain) (by decide)⟩

end Query

end RecordQuery
