import RecordQuery.Query.Build

/-!
# Projection is substitution

After a projection a field of the working shape stands for the expression of the first item of its
name. `Expr.through` puts that expression in the place of the field, and an operation after the
projection is the same operation on the substituted expression before it (`select_substitutes`).
-/

namespace RecordQuery

namespace Expr

/-- The references of a tree, from left to right. -/
def refs : Expr → List FieldRef
  | field r => [r]
  | constant _ => []
  | binary _ l r => l.refs ++ r.refs
  | call _ t => t.refs
  | callWith _ t a => t.refs ++ a.refs
  | negation e => e.refs
  | aggregateAll _ => []
  | aggregate _ a => a.refs

/-- The tree with every reference replaced. -/
def substitute (f : FieldRef → Expr) : Expr → Expr
  | field r => f r
  | constant v => constant v
  | binary op l r => binary op (l.substitute f) (r.substitute f)
  | call m t => call m (t.substitute f)
  | callWith m t a => callWith m (t.substitute f) (a.substitute f)
  | negation e => negation (e.substitute f)
  | aggregateAll g => aggregateAll g
  | aggregate g a => aggregate g (a.substitute f)

section

variable {f g : FieldRef → Except Error Expr}

/-- Only the references of a tree count. -/
theorem mapFields_congr {e : Expr} (h : ∀ r ∈ e.refs, f r = g r) :
    e.mapFields f = e.mapFields g := by
  induction e with
  | field r => exact h r List.mem_cons_self
  | constant v => rfl
  | binary op l r hl hr =>
    obtain ⟨left, right⟩ := List.forall_mem_append.mp h
    rw [mapFields, mapFields, hl left, hr right]
  | call m t ih => rw [mapFields, mapFields, ih h]
  | callWith m t a ht ha =>
    obtain ⟨target, argument⟩ := List.forall_mem_append.mp h
    rw [mapFields, mapFields, ht target, ha argument]
  | negation e ih => rw [mapFields, mapFields, ih h]
  | aggregateAll g => rfl
  | aggregate g a ih => rw [mapFields, mapFields, ih h]

/-- The references of what was put in the place of references are replaced in it. -/
theorem mapFields_substitute (s : FieldRef → Expr) (e : Expr) :
    (e.substitute s).mapFields f = e.mapFields fun r => (s r).mapFields f := by
  induction e with
  | field r => rfl
  | constant v => rfl
  | binary op l r hl hr => rw [substitute, mapFields, mapFields, hl, hr]
  | call m t ih => rw [substitute, mapFields, mapFields, ih]
  | callWith m t a ht ha => rw [substitute, mapFields, mapFields, ht, ha]
  | negation e ih => rw [substitute, mapFields, mapFields, ih]
  | aggregateAll g => rfl
  | aggregate g a ih => rw [substitute, mapFields, mapFields, ih]

/-- What replaces every reference without an error is a substitution. -/
theorem mapFields_ok (s : FieldRef → Expr) (e : Expr) :
    e.mapFields (fun r => .ok (s r)) = .ok (e.substitute s) := by
  induction e with
  | field r => rfl
  | constant v => rfl
  | binary op l r hl hr =>
    rw [mapFields, hl, hr]
    rfl
  | call m t ih =>
    rw [mapFields, ih]
    rfl
  | callWith m t a ht ha =>
    rw [mapFields, ht, ha]
    rfl
  | negation e ih =>
    rw [mapFields, ih]
    rfl
  | aggregateAll g => rfl
  | aggregate g a ih =>
    rw [mapFields, ih]
    rfl

/-- A substitution leaves a tree as it is exactly if it does so with its references. -/
theorem substitute_eq_self_iff {s : FieldRef → Expr} {e : Expr} :
    e.substitute s = e ↔ ∀ r ∈ e.refs, s r = field r := by
  induction e with
  | field r => simp [substitute, refs]
  | constant v => simp [substitute, refs]
  | binary op l r hl hr => simp [substitute, refs, hl, hr, or_imp, forall_and]
  | call m t ih => simp [substitute, refs, ih]
  | callWith m t a ht ha => simp [substitute, refs, ht, ha, or_imp, forall_and]
  | negation e ih => simp [substitute, refs, ih]
  | aggregateAll g => simp [substitute, refs]
  | aggregate g a ih => simp [substitute, refs, ih]

/-- References can be replaced when each of them can. -/
theorem mapFields_ok_iff (e : Expr) :
    (∃ e', e.mapFields f = .ok e') ↔ ∀ r ∈ e.refs, ∃ e', f r = .ok e' := by
  have one {x : Except Error Expr} {k : Expr → Expr} :
      (∃ e', (x >>= fun t => pure (k t)) = .ok e') ↔ ∃ t, x = .ok t := by
    cases x <;> simp [bind, Except.bind, pure, Except.pure]
  have two {x y : Except Error Expr} {k : Expr → Expr → Expr} :
      (∃ e', (x >>= fun a => y >>= fun b => pure (k a b)) = .ok e') ↔
        (∃ a, x = .ok a) ∧ ∃ b, y = .ok b := by
    cases x <;> cases y <;> simp [bind, Except.bind, pure, Except.pure]
  induction e with
  | field r => simp [mapFields, refs]
  | constant v => simp [mapFields, refs]
  | binary op l r hl hr => exact two.trans ((and_congr hl hr).trans List.forall_mem_append.symm)
  | call m t ih => exact one.trans ih
  | callWith m t a ht ha => exact two.trans ((and_congr ht ha).trans List.forall_mem_append.symm)
  | negation e ih => exact one.trans ih
  | aggregateAll g => simp [mapFields, refs]
  | aggregate g a ih => exact one.trans ih

end

/-- What stands for a reference after a projection. -/
def item (items : List (String × Expr)) (r : FieldRef) : Expr :=
  match r.table with
  | .current => (items.find? (·.1 == r.field)).elim (.field r) (·.2)
  | _ => .field r

/-- The tree with the items of a projection in the place of the fields they are for. -/
def through (items : List (String × Expr)) (e : Expr) : Expr := e.substitute (item items)

/-- Every reference to the working shape names an item. -/
def Names (items : List (String × Expr)) (e : Expr) : Prop :=
  ∀ r ∈ e.refs, r.table = .current → r.field ∈ items.map (·.1)

end Expr

namespace Query

theorem rebase_through (q : Query) (items : List (String × Expr)) (e : Expr) :
    q.rebase (e.through items) = e.mapFields fun r => q.rebase (Expr.item items r) :=
  Expr.mapFields_substitute _ e

/-- The fields of the working shape are those of the base entity. -/
structure Plain (q : Query) : Prop where
  projection : q.projection = none
  group : q.group = []
  aggregates : q.aggregates = []

/-- A reference of a query of plain rows stands for itself. -/
theorem Plain.rebase {q : Query} (h : q.Plain) (e : Expr) : q.rebase e = .ok e := by
  have same : q.rebaseField = fun r => .ok (.field r) := by
    funext ⟨table, field⟩
    cases table with
    | current => simp [rebaseField, resolve, h.projection, h.group, h.aggregates, Expr.named]
    | shape name => rfl
    | aliased name => rfl
  rw [Query.rebase, same, Expr.mapFields_ok, Expr.substitute_eq_self_iff.mpr fun _ _ => rfl]

theorem rebaseOrDefer_of_ok {q : Query} {e e' : Expr} (h : q.rebase e = .ok e') :
    q.rebaseOrDefer e = (q, e') := by
  rw [rebaseOrDefer, h]

theorem Plain.filter {q : Query} (h : q.Plain) (e : Expr) :
    q.filter e = { q with filters := q.filters ++ [e] } := by
  rw [Query.filter, rebaseOrDefer_of_ok (h.rebase e)]

theorem Plain.orderBy {q : Query} (h : q.Plain) (e : Expr) (ascending : Bool) :
    q.orderBy e ascending = { q with orders := q.orders ++ [⟨e, ascending, q.nextPriority⟩] } := by
  rw [Query.orderBy, rebaseOrDefer_of_ok (h.rebase e)]

/-- Items that a projection takes without error: they are for fields of the shape, and each stands
for a field or an aggregate. -/
structure Projects (q : Query) (s : Shape) (items : List (String × Expr)) : Prop where
  fields : ∀ i ∈ items, s.hasField i.1 = true
  resolved : ∀ i ∈ items, ∃ e, q.rebase i.2 = .ok e ∧ e.isProjectable = true

/-- What becomes of an item, when it has no error. -/
def projected (q : Query) (i : String × Expr) : ProjectionItem :=
  ⟨i.1, (q.rebase i.2).toOption.getD i.2⟩

section

variable {q : Query} {s : Shape} {items : List (String × Expr)}

theorem Projects.projectItem (h : q.Projects s items) {i : String × Expr} (hi : i ∈ items) :
    q.projectItem s i = ([], q.projected i) := by
  obtain ⟨field, expr⟩ := i
  obtain ⟨e, he, hp⟩ := h.resolved _ hi
  have hf : s.hasField field = true := h.fields _ hi
  simp only at he
  simp [Query.projectItem, projected, hf, he, hp, Except.toOption]

/-- A projection without errors defers none. -/
theorem Projects.select (h : q.Projects s items) :
    q.select s items
      = { q with
          result := s, projection := some ⟨s.name, items.map q.projected⟩, aggregates := [] } := by
  have each : items.map (q.projectItem s) = items.map fun i => ([], q.projected i) :=
    List.map_congr_left fun i hi => h.projectItem hi
  have errors : (items.map fun i => (([] : List Error), q.projected i)).flatMap (·.1) = [] := by
    simp [List.flatMap_map]
  rw [Query.select, each, errors]
  simp [deferAll]

/-- A field of the projected shape stands for what the first item of its name stands for. -/
theorem Projects.resolve (h : q.Projects s items) (name : String) :
    (q.select s items).resolve name
      = (items.find? (·.1 == name)).elim (.error (.unknownField s.name name)) fun i =>
          q.rebase i.2 := by
  have found : (items.map q.projected).find? (·.field == name)
      = (items.find? (·.1 == name)).map q.projected := List.find?_map ..
  rw [h.select]
  simp only [Query.resolve, found]
  cases hi : items.find? (·.1 == name) with
  | none => rfl
  | some i =>
    obtain ⟨e, he, _⟩ := h.resolved i (List.mem_of_find?_eq_some hi)
    simp only [Option.map_some, Option.elim, projected, he]
    rfl

theorem find?_name {name : String} (h : name ∈ items.map (·.1)) :
    ∃ i ∈ items, items.find? (·.1 == name) = some i := by
  cases hi : items.find? (·.1 == name) with
  | none =>
    obtain ⟨i, him, hin⟩ := List.mem_map.mp h
    exact absurd (beq_iff_eq.mpr hin) (List.find?_eq_none.mp hi i him)
  | some i => exact ⟨i, List.mem_of_find?_eq_some hi, rfl⟩

/-- The law of substitution: after a projection an expression stands for what the substituted one
stands for before it. -/
theorem Projects.rebase (h : q.Projects s items) {e : Expr} (he : e.Names items) :
    (q.select s items).rebase e = q.rebase (e.through items) := by
  rw [rebase_through]
  refine Expr.mapFields_congr fun ⟨table, field⟩ hr => ?_
  cases table with
  | current =>
    obtain ⟨i, _, hi⟩ := find?_name (he _ hr rfl)
    simp only [Query.rebaseField, h.resolve, Expr.item, hi, Option.elim]
  | shape name => rfl
  | aliased name => rfl

/-- After a projection the expressions that stand for something are those that name its items. -/
theorem Projects.rebase_ok_iff (h : q.Projects s items) (e : Expr) :
    (∃ e', (q.select s items).rebase e = .ok e') ↔ e.Names items := by
  rw [Query.rebase, Expr.mapFields_ok_iff]
  refine forall₂_congr fun ⟨table, field⟩ _ => ?_
  cases table with
  | current =>
    simp only [Query.rebaseField, h.resolve, true_imp_iff]
    constructor
    · rintro ⟨e', he⟩
      cases hi : items.find? (·.1 == field) with
      | none => simp [hi] at he
      | some i =>
        have name : i.1 = field := by simpa using List.find?_some hi
        exact name ▸ List.mem_map_of_mem (List.mem_of_find?_eq_some hi)
    · intro hf
      obtain ⟨i, him, hi⟩ := find?_name hf
      obtain ⟨e', he, _⟩ := h.resolved i him
      exact ⟨e', by rw [hi, Option.elim, he]⟩
  | shape name => simp [Query.rebaseField]
  | aliased name => simp [Query.rebaseField]

/-! ## Operations -/

/-- What is added to a query after a projection could be added before it. -/
theorem Projects.rebaseOrDefer (h : q.Projects s items) {e : Expr} (he : e.Names items) :
    ∃ e', (q.select s items).rebaseOrDefer e = (q.select s items, e') ∧
      q.rebaseOrDefer (e.through items) = (q, e') := by
  obtain ⟨e', ok⟩ := (h.rebase_ok_iff e).mpr he
  refine ⟨e', rebaseOrDefer_of_ok ok, ?_⟩
  rw [h.rebase he] at ok
  exact rebaseOrDefer_of_ok ok

theorem Projects.filter (h : q.Projects s items) {e : Expr} (he : e.Names items) :
    (q.select s items).filter e = (q.filter (e.through items)).select s items := by
  obtain ⟨e', after, before⟩ := h.rebaseOrDefer he
  rw [Query.filter, Query.filter, after, before]
  simp only [Query.select, deferAll_eq]
  rfl

theorem Projects.orderBy (h : q.Projects s items) {e : Expr} (he : e.Names items)
    (ascending : Bool) :
    (q.select s items).orderBy e ascending
      = (q.orderBy (e.through items) ascending).select s items := by
  obtain ⟨e', after, before⟩ := h.rebaseOrDefer he
  rw [Query.orderBy, Query.orderBy, after, before]
  simp only [Query.select, deferAll_eq]
  rfl

theorem Projects.joinAs (h : q.Projects s items) {e : Expr} (he : e.Names items)
    (shape : ShapeId) (label : String) (kind : JoinKind) :
    (q.select s items).joinAs shape label kind e
      = (q.joinAs shape label kind (e.through items)).select s items := by
  obtain ⟨e', after, before⟩ := h.rebaseOrDefer he
  rw [Query.joinAs, Query.joinAs, after, before]
  simp only [Query.select, deferAll_eq]
  rfl

theorem Projects.join (h : q.Projects s items) {e : Expr} (he : e.Names items)
    (shape : ShapeId) (kind : JoinKind) :
    (q.select s items).join shape kind e
      = (q.join shape kind (e.through items)).select s items := by
  have label : (q.select s items).nextAlias = q.nextAlias := by
    rw [h.select]
    rfl
  rw [Query.join, Query.join, label]
  exact h.joinAs he shape _ kind

/-- Two projections are one, of the substituted items. -/
theorem Projects.select_select (h : q.Projects s items) (s' : Shape)
    {more : List (String × Expr)} (hm : ∀ i ∈ more, i.2.Names items) :
    (q.select s items).select s' more
      = q.select s' (more.map fun i => (i.1, i.2.through items)) := by
  have each : more.map ((q.select s items).projectItem s')
      = (more.map fun i => (i.1, i.2.through items)).map (q.projectItem s') := by
    rw [List.map_map]
    refine List.map_congr_left fun i hi => ?_
    obtain ⟨e', ok⟩ := (h.rebase_ok_iff i.2).mpr (hm i hi)
    have same := h.rebase (hm i hi)
    rw [ok] at same
    simp only [Query.projectItem, Function.comp_apply, ok, ← same]
  rw [Query.select, each, deferAll_eq, h.select]
  simp only [Query.select, deferAll_eq]

end

/-- An operation after a projection is the operation on the substituted expression before it, and
two projections are one of the substituted items. -/
theorem select_substitutes {q : Query} {s : Shape} {items : List (String × Expr)}
    (h : q.Projects s items) :
    (∀ e : Expr, e.Names items →
      (q.select s items).filter e = (q.filter (e.through items)).select s items ∧
      (∀ ascending, (q.select s items).orderBy e ascending
        = (q.orderBy (e.through items) ascending).select s items) ∧
      (∀ shape kind, (q.select s items).join shape kind e
        = (q.join shape kind (e.through items)).select s items) ∧
      ∀ shape label kind, (q.select s items).joinAs shape label kind e
        = (q.joinAs shape label kind (e.through items)).select s items) ∧
    ∀ (s' : Shape) (more : List (String × Expr)),
      (∀ i ∈ more, ∃ e, (q.select s items).rebase i.2 = .ok e) →
      (q.select s items).select s' more
        = q.select s' (more.map fun i => (i.1, i.2.through items)) := by
  refine ⟨fun e he => ⟨h.filter he, h.orderBy he, h.join he, h.joinAs he⟩, ?_⟩
  intro s' more hm
  exact h.select_select s' fun i hi => (h.rebase_ok_iff i.2).mp (hm i hi)

/-- Groups of joined rows with a figure of each. -/
def linesByCustomer : Query :=
  applyAll (.ofShape ⟨"Order", []⟩) [
    .join "Line" .left
      (.compare .equal (.field ⟨.aliased "t1", "order"⟩) (.named "id")),
    .groupBy [("customer", .named "customer_id")],
    .aggregate .sum (some (.field ⟨.shape "Line", "price"⟩)) "total"]

def cardShape : Shape :=
  ⟨"Card", [{ name := "title", type := .required .any }, { name := "sum", type := .required .any }]⟩

/-- A group key, an aggregate, and a second item of the first name. -/
def cardItems : List (String × Expr) :=
  [("title", .named "customer"), ("sum", .named "total"), ("title", .field ⟨.aliased "t1", "item"⟩)]

def cardCondition : Expr :=
  .binary (.logical .and) (.compare .equal (.named "title") (.field ⟨.aliased "t1", "order"⟩))
    (.negation (.callWith (.text .contains) (.aggregate .max (.named "sum")) (.named "title")))

theorem select_substitutes_cards :
    linesByCustomer.Projects cardShape cardItems ∧ cardCondition.Names cardItems ∧
      (linesByCustomer.select cardShape cardItems).filter cardCondition
        = (linesByCustomer.filter (cardCondition.through cardItems)).select cardShape cardItems ∧
      (linesByCustomer.select cardShape cardItems).select cardShape [("sum", .named "title")]
        = linesByCustomer.select cardShape [("sum", .named "customer")] := by
  have projects : linesByCustomer.Projects cardShape cardItems := by
    refine ⟨by decide, ?_⟩
    exact List.forall_mem_cons.mpr ⟨⟨_, rfl, rfl⟩, List.forall_mem_cons.mpr ⟨⟨_, rfl, rfl⟩,
      List.forall_mem_singleton.mpr ⟨_, rfl, rfl⟩⟩⟩
  have names : cardCondition.Names cardItems := by
    unfold Expr.Names
    decide
  obtain ⟨steps, projections⟩ := select_substitutes projects
  refine ⟨projects, names, (steps cardCondition names).1, ?_⟩
  exact projections cardShape _ (List.forall_mem_singleton.mpr ⟨_, rfl⟩)

end Query

end RecordQuery
