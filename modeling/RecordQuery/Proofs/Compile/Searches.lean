import Mathlib.Data.List.Induction
import RecordQuery.Proofs.Compile.Supported
import RecordQuery.Proofs.Compile.Total
import RecordQuery.Proofs.Query.Orders
import RecordQuery.Proofs.Rows.Stored
import RecordQuery.Proofs.Rows.Tiling

/-!
# Searches

A search is served exactly if pages and page sizes count from 1, the entity knows the fields of the
filters and of the sort keys, and every filter has a value that its operator takes
(`SearchRequest.Served`). Its statement has one condition a filter, one key a sort key, and the rows
of its page (`search_served_iff`).
-/

namespace RecordQuery

open Sql Lowering

/-! ## Tests of one field -/

namespace Expr

variable {s : Scope} {r : FieldRef}

theorem isCondition_compare_constant_iff (op : Comparison) {v : Value} :
    (compare op (field r) (constant v)).IsCondition s ↔
      s.Resolves r ∧ (v = .null → op = .equal ∨ op = .notEqual) := by
  rw [isCondition_comparison_iff, isValue_field_iff]
  refine and_congr_right fun _ => ⟨fun h hv => h.2.equality (.inr (by rw [hv])), fun h => ?_⟩
  exact ⟨.constant v, ⟨by simp, fun null => h (by simpa using null)⟩⟩

theorem isCondition_text_constant_iff {m : TextMatch} {v : Value} :
    (callWith (.text m) (field r) (constant v)).IsCondition s ↔
      s.Resolves r ∧ ∃ x, v = .text x := by
  rw [isCondition_textMatch_iff, isValue_field_iff]
  simp

variable {t : Term} (h : s.resolve r = .ok t) (n : Nat)
include h

theorem toOperand_field : (field r).toOperand s = ofExcept (.ok t) := congrArg ofExcept h

theorem run_compare_constant (op : Comparison) {v : Value} (hv : v ≠ .null) :
    ((compare op (field r) (constant v)).toCondition s).run n
      = ([v], .ok (.compare op t (.parameter n))) := by
  have given : (constant v).isNullConstant = false := by
    rw [← Bool.not_eq_true, isNullConstant_iff]
    simpa using hv
  change (toComparison s op (field r) (constant v)).run n = _
  rw [toComparison, given, show (field r).isNullConstant = false from rfl, toOperand_field h,
    ofExcept_ok_bind]
  rfl

/-- A comparison for equality, with null too. -/
theorem run_equality (op : Comparison) {c : Condition} (hc : nullTest op t = pure c) (v : Value) :
    ((compare op (field r) (constant v)).toCondition s).run n
      = (if v = .null then [] else [v],
        .ok (if v = .null then c else .compare op t (.parameter n))) := by
  by_cases hv : v = .null
  · subst hv
    change (toOperand s (field r) >>= nullTest op).run n = _
    rw [toOperand_field h, ofExcept_ok_bind, hc]
    rfl
  · rw [if_neg hv, if_neg hv, run_compare_constant h n op hv]

theorem run_text_constant (m : TextMatch) (x : String) :
    ((callWith (.text m) (field r) (constant (.text x))).toCondition s).run n
      = ([.text (likePattern m x)], .ok (.like t n)) := by
  change (toTextMatch s m (field r) (some (constant (.text x)))).run n = _
  rw [toTextMatch, toOperand_field h, ofExcept_ok_bind]
  rfl

theorem run_isNull : ((call .isNull (field r)).toCondition s).run n = ([], .ok (.isNull t)) := by
  change (toOperand s (field r) >>= fun t => pure (Condition.isNull t)).run n = _
  rw [toOperand_field h, ofExcept_ok_bind, run_pure]

theorem run_isNotNull :
    ((call .isNotNull (field r)).toCondition s).run n = ([], .ok (.isNotNull t)) := by
  change (toOperand s (field r) >>= fun t => pure (Condition.isNotNull t)).run n = _
  rw [toOperand_field h, ofExcept_ok_bind, run_pure]

end Expr

/-! ## Filters -/

namespace Filter

/-- The operator takes the value: there is no order with null, and only a text has parts. -/
def Fits (f : Filter) : Prop :=
  match f.operator with
  | .equals | .notEquals | .isNull | .isNotNull => True
  | .greaterThan | .greaterOrEqual | .lessThan | .lessOrEqual => f.value ≠ .null
  | .contains | .startsWith | .endsWith => ∃ x, f.value = .text x

/-- The condition over a term that a filter is, with its value under the number of a parameter. -/
def condition (f : Filter) (t : Term) (slot : Nat) : Condition :=
  match f.operator with
  | .equals => if f.value = .null then .isNull t else .compare .equal t (.parameter slot)
  | .notEquals => if f.value = .null then .isNotNull t else .compare .notEqual t (.parameter slot)
  | .greaterThan => .compare .greater t (.parameter slot)
  | .greaterOrEqual => .compare .greaterOrEqual t (.parameter slot)
  | .lessThan => .compare .less t (.parameter slot)
  | .lessOrEqual => .compare .lessOrEqual t (.parameter slot)
  | .contains | .startsWith | .endsWith => .like t slot
  | .isNull => .isNull t
  | .isNotNull => .isNotNull t

/-- The pattern of the texts that have this one as a part. -/
def pattern (m : TextMatch) : Value → Value
  | .text x => .text (likePattern m x)
  | v => v

/-- The values that a filter binds. -/
def bound (f : Filter) : List Value :=
  match f.operator with
  | .equals | .notEquals => if f.value = .null then [] else [f.value]
  | .greaterThan | .greaterOrEqual | .lessThan | .lessOrEqual => [f.value]
  | .contains => [pattern .contains f.value]
  | .startsWith => [pattern .startsWith f.value]
  | .endsWith => [pattern .endsWith f.value]
  | .isNull | .isNotNull => []

variable {s : Scope}

/-- A filter is a condition exactly if its field resolves and its operator takes its value. -/
theorem isCondition_iff (f : Filter) :
    f.toExpr.IsCondition s ↔ s.Resolves ⟨.current, f.field⟩ ∧ f.Fits := by
  obtain ⟨field, operator, value⟩ := f
  have compared (op : Comparison) :
      (Expr.compare op (.named field) (.constant value)).IsCondition s ↔ _ :=
    Expr.isCondition_compare_constant_iff op
  have tested (m : Method) : (Expr.call m (.named field)).IsCondition s ↔
      s.Resolves ⟨.current, field⟩ ∧ (m = .isNull ∨ m = .isNotNull) :=
    Expr.isCondition_call_iff.trans (and_congr_left' Expr.isValue_field_iff)
  cases operator with
  | equals => exact (compared .equal).trans (by simp [Fits])
  | notEquals => exact (compared .notEqual).trans (by simp [Fits])
  | greaterThan => exact (compared .greater).trans (by simp [Fits])
  | greaterOrEqual => exact (compared .greaterOrEqual).trans (by simp [Fits])
  | lessThan => exact (compared .less).trans (by simp [Fits])
  | lessOrEqual => exact (compared .lessOrEqual).trans (by simp [Fits])
  | contains => exact Expr.isCondition_text_constant_iff
  | startsWith => exact Expr.isCondition_text_constant_iff
  | endsWith => exact Expr.isCondition_text_constant_iff
  | isNull => exact (tested .isNull).trans (by simp [Fits])
  | isNotNull => exact (tested .isNotNull).trans (by simp [Fits])

/-- A filter with a value that its operator takes is lowered to its condition. -/
theorem toCondition_run {f : Filter} {t : Term} (h : s.resolve ⟨.current, f.field⟩ = .ok t)
    (hf : f.Fits) (n : Nat) :
    (f.toExpr.toCondition s).run n = (f.bound, .ok (f.condition t n)) := by
  obtain ⟨field, operator, value⟩ := f
  have text (m : TextMatch) : (∃ x, value = .text x) →
      ((Expr.callWith (.text m) (.named field) (.constant value)).toCondition s).run n
        = ([pattern m value], .ok (.like t n)) := by
    rintro ⟨x, rfl⟩
    exact Expr.run_text_constant h n m x
  cases operator with
  | equals => exact Expr.run_equality h n .equal rfl value
  | notEquals => exact Expr.run_equality h n .notEqual rfl value
  | greaterThan => exact Expr.run_compare_constant h n .greater hf
  | greaterOrEqual => exact Expr.run_compare_constant h n .greaterOrEqual hf
  | lessThan => exact Expr.run_compare_constant h n .less hf
  | lessOrEqual => exact Expr.run_compare_constant h n .lessOrEqual hf
  | contains => exact text .contains hf
  | startsWith => exact text .startsWith hf
  | endsWith => exact text .endsWith hf
  | isNull => exact Expr.run_isNull h n
  | isNotNull => exact Expr.run_isNotNull h n

end Filter

/-! ## The query of a search -/

/-- A sort key as an order of a query. -/
def SortKey.order (k : SortKey) (priority : Nat) : Order :=
  ⟨.named k.field, k.direction = .ascending, priority⟩

/-- Sort keys as orders, one after the other. -/
def sortOrders (ks : List SortKey) : List Order := ks.zipIdx.map fun p => p.1.order p.2

theorem sortOrders_concat (ks : List SortKey) (k : SortKey) :
    sortOrders (ks ++ [k]) = sortOrders ks ++ [k.order ks.length] := by
  rw [sortOrders, List.zipIdx_append, List.map_append, Nat.zero_add]
  rfl

theorem map_zipIdx_fst (f : α → β) (xs : List α) : (xs.zipIdx.map fun p => f p.1) = xs.map f := by
  conv_rhs => rw [← List.zipIdx_map_fst 0 xs, List.map_map]
  rfl

theorem keys_sortOrders (ks : List SortKey) :
    (sortOrders ks).map (·.key) = ks.map (.named ·.field) := by
  rw [sortOrders, List.map_map]
  exact map_zipIdx_fst (fun k => Expr.named k.field) ks

theorem length_sortOrders (ks : List SortKey) : (sortOrders ks).length = ks.length := by
  rw [sortOrders, List.length_map, List.length_zipIdx]

theorem numbered_sortOrders (ks : List SortKey) : Query.Numbered (sortOrders ks) := by
  rw [Query.Numbered, length_sortOrders, sortOrders, List.map_map, List.range_eq_range']
  exact List.zipIdx_map_snd 0 ks

namespace Query

theorem foldl_whereFilter {q : Query} (h : q.Plain) (fs : List Filter) :
    fs.foldl whereFilter q = { q with filters := q.filters ++ fs.map Filter.toExpr } := by
  induction fs using List.reverseRecOn with
  | nil => rw [List.foldl_nil, List.map_nil, List.append_nil]
  | append_singleton fs f ih =>
    have plain : (fs.foldl whereFilter q).Plain := by rw [ih]; exact ⟨h.1, h.2, h.3⟩
    rw [List.foldl_append, List.foldl_cons, List.foldl_nil, whereFilter, plain.filter, ih,
      List.map_append, List.append_assoc]
    rfl

theorem foldl_sort {q : Query} (h : q.Plain) (unordered : q.orders = []) (ks : List SortKey) :
    ks.foldl sort q = { q with orders := sortOrders ks } := by
  induction ks using List.reverseRecOn with
  | nil => rw [List.foldl_nil, show sortOrders [] = q.orders from unordered.symm]
  | append_singleton ks k ih =>
    have plain : (ks.foldl sort q).Plain := by rw [ih]; exact ⟨h.1, h.2, h.3⟩
    have orders : (ks.foldl sort q).orders = sortOrders ks := by rw [ih]
    have numbered : Numbered (ks.foldl sort q).orders := orders ▸ numbered_sortOrders ks
    rw [List.foldl_append, List.foldl_cons, List.foldl_nil, sort, plain.orderBy,
      nextPriority_of_numbered numbered, orders, length_sortOrders, ih, sortOrders_concat]
    rfl

theorem search_eq (s : Shape) (req : SearchRequest) :
    search s req = { ofShape s with
      filters := req.filters.map Filter.toExpr
      orders := sortOrders req.sorts
      pagination := some { page := some req.page, pageSize := some req.pageSize } } := by
  have plain : (ofShape s).Plain := ⟨rfl, rfl, rfl⟩
  rw [search, foldl_whereFilter plain, foldl_sort ⟨rfl, rfl, rfl⟩ rfl]
  rfl

end Query

/-! ## What is served -/

/-- What a search of an entity needs to be served. -/
structure SearchRequest.Served (m : Metadata) (req : SearchRequest) : Prop where
  page : 1 ≤ req.page
  pageSize : 1 ≤ req.pageSize
  filters : ∀ f ∈ req.filters, m.Knows f.field ∧ f.Fits
  sorts : ∀ k ∈ req.sorts, m.Knows k.field

/-- The scope of an entity alone. -/
def Scope.entity (shape : ShapeId) (m : Metadata) : Scope := ⟨[⟨shape, Query.baseAlias, m⟩], 1⟩

/-- The column that a name of a field or of a column is for. -/
def Metadata.baseColumn (m : Metadata) (name : String) : Term :=
  .column Query.baseAlias ((m.columnFor? name).elim name (·.column))

namespace Scope

variable {shape : ShapeId} {m : Metadata} {name : String}

variable (shape) in
theorem resolve_entity (h : m.Knows name) :
    (entity shape m).resolve ⟨.current, name⟩ = .ok (m.baseColumn name) := by
  obtain ⟨c, hc⟩ := Metadata.exists_columnFor?_iff.mpr h
  simp [resolve, tableFor, entity, visibleTables, Metadata.baseColumn, hc, bind, Except.bind, pure,
    Except.pure]

theorem resolves_entity_iff : (entity shape m).Resolves ⟨.current, name⟩ ↔ m.Knows name := by
  refine ⟨fun ⟨t, ⟨before, after, split, _⟩, known⟩ => ?_, fun h => ?_⟩
  · have mem : t ∈ (entity shape m).visibleTables := by
      rw [split]
      exact List.mem_append_right _ List.mem_cons_self
    obtain rfl := List.mem_singleton.mp mem
    exact known
  · exact resolve_ok_iff.mp ⟨_, resolve_entity shape h⟩

end Scope

namespace Query

variable {r : Registry} {s : Shape} {m : Metadata}

theorem window_search_ok_iff {req : SearchRequest} {w : Option Window} :
    (search s req).window = .ok w ↔ 1 ≤ req.page ∧ 1 ≤ req.pageSize ∧
      w = some ⟨saturatingMul (req.page - 1) req.pageSize, some req.pageSize⟩ := by
  have same : (search s req).window = ((ofShape s).page req.page req.pageSize).window := by
    rw [search_eq]
    rfl
  rw [same]
  exact window_page_ok_iff fun p hp => by cases hp

/-- A search that has a SELECT has what it needs. -/
theorem Supported.served (hm : r.get? s.id = some m) {req : SearchRequest}
    (h : (search s req).Supported r) : req.Served m := by
  obtain ⟨_, ⟨w, hw⟩, entity, found, clauses⟩ := h
  have scope : Scope.ofSources r (search s req).sources = .ok (Scope.entity s.id m) := by
    rw [search_eq]
    exact Scope.ofSources_ofShape hm
  obtain rfl := Except.ok.inj (scope.symm.trans found)
  obtain ⟨page, pageSize, _⟩ := window_search_ok_iff.mp hw
  refine ⟨page, pageSize, fun f hf => ?_, fun k hk => ?_⟩
  · have filters : (search s req).filters = req.filters.map Filter.toExpr := by rw [search_eq]
    have condition := clauses.filters f.toExpr (filters ▸ List.mem_map_of_mem hf)
    rwa [f.isCondition_iff, Scope.resolves_entity_iff] at condition
  · have key : .named k.field ∈ (search s req).orders.map (·.key) := by
      rw [search_eq, keys_sortOrders]
      exact List.mem_map_of_mem hk
    obtain ⟨o, ho, named⟩ := List.mem_map.mp key
    have selector := clauses.order.keys o ho
    rwa [named, Expr.named, Expr.isSelector_field_iff, Scope.resolves_entity_iff] at selector

end Query

/-! ## What a search is compiled to -/

namespace SearchRequest

/-- The conditions of filters in their order, when so many values are bound before. -/
def conditions (m : Metadata) : Nat → List Filter → List Condition
  | _, [] => []
  | n, f :: fs => f.condition (m.baseColumn f.field) n :: conditions m (n + f.bound.length) fs

/-- The order key of a sort key. -/
def orderKey (m : Metadata) (k : SortKey) : OrderKey :=
  ⟨m.baseColumn k.field, k.direction = .ascending⟩

/-- The sort keys in their order, or without any what tells the rows of the entity apart. -/
def orderKeys (m : Metadata) (req : SearchRequest) : List OrderKey :=
  if req.sorts = [] then m.fallbackOrder.map fun c => ⟨.column Query.baseAlias c.column, true⟩
  else req.sorts.map (orderKey m)

/-- The rows of the page, those before it counted in 64 bits. -/
def window (req : SearchRequest) : Window :=
  ⟨saturatingMul (req.page - 1) req.pageSize, some req.pageSize⟩

/-- The SELECT of a search that is served. -/
def toSelect (shape : ShapeId) (m : Metadata) (req : SearchRequest) : Select :=
  { selectAll shape m with
    filters := conditions m 0 req.filters
    orders := req.orderKeys m
    window := some req.window }

end SearchRequest

/-- What binds no value is lowered element by element. -/
theorem Lowering.run_mapM_silent {k : α → Lowering β} {g : α → β} {xs : List α}
    (h : ∀ x ∈ xs, ∀ n, (k x).run n = ([], .ok (g x))) (n : Nat) :
    (xs.mapM k).run n = ([], .ok (xs.map g)) := by
  induction xs with
  | nil => rfl
  | cons x xs ih =>
    have rest := ih fun y hy => h y (List.mem_cons_of_mem _ hy)
    rw [List.mapM_cons]
    exact run_bind_ok_iff.mpr ⟨[], g x, [], h x List.mem_cons_self n,
      run_map_ok_iff.mpr ⟨_, rest, rfl⟩, rfl⟩

namespace Query

variable {r : Registry} {s : Shape} {m : Metadata} {req : SearchRequest}

theorem conditions_run (shape : ShapeId) {fs : List Filter}
    (h : ∀ f ∈ fs, m.Knows f.field ∧ f.Fits) (n : Nat) :
    ((fs.map Filter.toExpr).mapM (Expr.toCondition (Scope.entity shape m))).run n
      = (fs.flatMap Filter.bound, .ok (SearchRequest.conditions m n fs)) := by
  induction fs generalizing n with
  | nil => rfl
  | cons f fs ih =>
    obtain ⟨⟨known, fits⟩, others⟩ := List.forall_mem_cons.mp h
    have first := Filter.toCondition_run (Scope.resolve_entity shape known) fits n
    rw [List.map_cons, List.mapM_cons]
    exact run_bind_ok_iff.mpr ⟨f.bound, _, _, first,
      run_map_ok_iff.mpr ⟨_, ih others (n + f.bound.length), rfl⟩, rfl⟩

/-- The order of an entity alone. -/
theorem keyTerms_entity (shape : ShapeId) (m : Metadata) :
    keyTerms (Scope.entity shape m) = m.fallbackOrder.map fun c => .column baseAlias c.column := by
  simp [keyTerms, Scope.entity, Scope.visibleTables]

theorem orderKeys_run (shape : ShapeId) {q : Query} (h : ∀ k ∈ req.sorts, m.Knows k.field)
    (hm : m.fault? = none) (plain : q.Plain) (orders : q.orders = sortOrders req.sorts)
    (w : Window) (n : Nat) :
    (orderKeys (Scope.entity shape m) q (some w)).run n = ([], .ok (req.orderKeys m)) := by
  by_cases unsorted : req.sorts = []
  · have columns : (keyTerms (Scope.entity shape m)).isEmpty = false := by
      rw [keyTerms_entity]
      simpa using Metadata.fallbackOrder_ne_nil hm
    have fallback : fallbackOrder (Scope.entity shape m) q
        = pure (keyTerms (Scope.entity shape m)) := by
      simp [fallbackOrder, figureOrder?, groupExprs, plain.projection, plain.group,
        plain.aggregates, columns]
    rw [unsorted] at orders
    rw [orderKeys, orders, fallback, SearchRequest.orderKeys, if_pos unsorted, keyTerms_entity]
    simp [sortOrders]
  · have given : (sortOrders req.sorts).isEmpty = false := by
      rw [← Bool.not_eq_true, List.isEmpty_iff, ← List.map_eq_nil_iff (f := (·.key)),
        keys_sortOrders, List.map_eq_nil_iff]
      exact unsorted
    -- a sort key is a single field, so lowering it binds no value and the numbers do not move
    have each : ∀ p ∈ req.sorts.zipIdx, ∀ n, (do
        let o := p.1.order p.2
        return ⟨← o.key.toSelector (Scope.entity shape m), o.ascending⟩ :
          Lowering OrderKey).run n = ([], .ok (SearchRequest.orderKey m p.1)) := fun p hp n => by
      have column := Scope.resolve_entity shape (h p.1 (List.fst_mem_of_mem_zipIdx hp))
      change (ofExcept ((Scope.entity shape m).resolve _) >>= fun t => _).run n = _
      rw [column, ofExcept_ok_bind]
      rfl
    have numbered : Numbered q.orders := orders ▸ numbered_sortOrders req.sorts
    rw [orderKeys, sortedOrders_of_numbered numbered, orders, given, SearchRequest.orderKeys,
      if_neg unsorted, ← map_zipIdx_fst, sortOrders]
    exact (congrArg (Lowering.run · n) List.mapM_map).trans (run_mapM_silent each n)

theorem toSelect_search (hm : r.get? s.id = some m) (h : req.Served m) :
    ((search s req).toSelect r).run 0
      = (req.filters.flatMap Filter.bound, .ok (req.toSelect s.id m)) := by
  have window := window_search_ok_iff (s := s).mpr ⟨h.page, h.pageSize, rfl⟩
  refine toSelect_ok_iff.mpr ⟨some req.window, Scope.entity s.id m,
    req.filters.flatMap Filter.bound,
    { selectAll s.id m with filters := SearchRequest.conditions m 0 req.filters }, [],
    req.orderKeys m, ?_, window, ?_, ?_, ?_, by simp, rfl⟩
  · rw [search_eq]
    rfl
  · rw [search_eq]
    exact Scope.ofSources_ofShape hm
  · -- of the clauses before the order only WHERE is lowered from the request
    have core : (search s req).coreSelect r (Scope.entity s.id m) = do
        let filters ←
          (req.filters.map Filter.toExpr).mapM (Expr.toCondition (Scope.entity s.id m))
        return { selectAll s.id m with filters } := by
      rw [search_eq]
      rfl
    rw [core]
    exact run_map_ok_iff.mpr ⟨_, conditions_run s.id h.filters 0, rfl⟩
  · have plain : (search s req).Plain := by
      rw [search_eq]
      exact ⟨rfl, rfl, rfl⟩
    exact orderKeys_run s.id h.sorts (Registry.fault?_of_get? hm) plain (by rw [search_eq]) _ _

end Query

/-! ## The text of a search -/

namespace Sql

theorem sqlOf_separated (sep : String) (items : List (List Piece)) :
    sqlOf (separated sep items) = sep.intercalate (items.map sqlOf) := by
  induction items with
  | nil => rfl
  | cons first rest ih =>
    cases rest with
    | nil => simp [separated]
    | cons second rest =>
      have split : separated sep (first :: second :: rest)
          = first ++ .text sep :: separated sep (second :: rest) := rfl
      rw [split, sqlOf_append, sqlOf_cons, ih]
      simp only [List.map_cons, String.intercalate_cons_cons, Piece.sql, String.append_assoc]

/-- The text of a WHERE clause: the conditions in parentheses, with AND between them. -/
def whereText (cs : List Condition) : String :=
  if cs = [] then ""
  else " WHERE " ++ " AND ".intercalate (cs.map fun c => "(" ++ sqlOf c.pieces ++ ")")

theorem sqlOf_wherePieces (cs : List Condition) : sqlOf (wherePieces cs) = whereText cs := by
  unfold wherePieces whereText
  cases cs with
  | nil => rfl
  | cons c cs =>
    have parenthesised (c : Condition) :
        sqlOf (.text "(" :: c.pieces ++ [.text ")"]) = "(" ++ sqlOf c.pieces ++ ")" := by
      rw [List.cons_append, sqlOf_cons, sqlOf_append, Piece.sql, String.append_assoc]
      rfl
    rw [if_neg (by simp), if_neg (by simp), sqlOf_cons, sqlOf_separated, List.map_map, Piece.sql]
    congr 3
    exact funext parenthesised

/-- The text of an ORDER BY clause. -/
def orderText (os : List OrderKey) : String :=
  " ORDER BY " ++ ", ".intercalate (os.map fun o => sqlOf o.pieces)

theorem sqlOf_orderPieces {x : Select} (h : x.orders ≠ []) :
    sqlOf x.orderPieces = orderText x.orders := by
  rw [Select.orderPieces, listClause, if_neg (by simpa using h), sqlOf_cons, sqlOf_separated,
    List.map_map]
  rfl

end Sql

namespace SearchRequest

theorem orderKeys_ne_nil {m : Metadata} (hm : m.fault? = none) (req : SearchRequest) :
    req.orderKeys m ≠ [] := by
  unfold orderKeys
  split
  · simpa using Metadata.fallbackOrder_ne_nil hm
  · next sorts => simpa using sorts

/-- The text of a search: every column of the entity, the conditions, the order and the page. -/
def text (d : Dialect) (shape : ShapeId) (m : Metadata) (req : SearchRequest) : String :=
  sqlOf (selectAll shape m).corePieces ++ whereText (conditions m 0 req.filters)
    ++ orderText (req.orderKeys m) ++ d.paging req.window

theorem sqlOf_pieces {m : Metadata} (hm : m.fault? = none) (d : Dialect) (shape : ShapeId)
    (req : SearchRequest) :
    sqlOf ((req.toSelect shape m).pieces d) = req.text d shape m := by
  have core : (req.toSelect shape m).corePieces
      = (selectAll shape m).corePieces ++ wherePieces (conditions m 0 req.filters) := by
    simp [Select.corePieces, toSelect, selectAll, wherePieces, listClause]
  have orders : (req.toSelect shape m).orders ≠ [] := req.orderKeys_ne_nil hm
  have paging : sqlOf ((req.toSelect shape m).pagingPieces d) = d.paging req.window := by
    rw [Select.sqlOf_pagingPieces]
    rfl
  rw [Select.pieces, sqlOf_append, sqlOf_append, core, sqlOf_append, sqlOf_wherePieces,
    sqlOf_orderPieces orders, paging]
  rfl

end SearchRequest

/-- A search of a registered entity is served exactly if it has what it needs. Then it has the
conditions of its filters, the order of its sort keys and the rows of its page. -/
theorem search_served_iff {r : Registry} {s : Shape} {m : Metadata} (hm : r.get? s.id = some m)
    (d : Dialect) (req : SearchRequest) :
    ((∃ st, (Query.search s req).statement r d .rows = .ok st) ↔ req.Served m) ∧
    ∀ st, (Query.search s req).statement r d .rows = .ok st →
      st = ⟨req.text d s.id m, Param.number (req.filters.flatMap Filter.bound)⟩ := by
  have served (h : req.Served m) : (Query.search s req).statement r d .rows
      = .ok ⟨req.text d s.id m, Param.number (req.filters.flatMap Filter.bound)⟩ := by
    rw [Query.statement_rows]
    refine statement_ok_iff.mpr ⟨_, _, Query.toSelect_search hm h, ?_⟩
    rw [Statement.ofPieces, SearchRequest.sqlOf_pieces (Registry.fault?_of_get? hm)]
  have needs {st : Statement} (h : (Query.search s req).statement r d .rows = .ok st) :
      req.Served m := by
    rw [Query.statement_rows] at h
    obtain ⟨vs, x, hx, _⟩ := statement_ok_iff.mp h
    exact ((Query.toSelect_succeedsIff r _ 0).mp ⟨vs, x, hx⟩).served hm
  refine ⟨⟨fun h => h.elim fun _ => needs, fun h => ⟨_, served h⟩⟩, fun st h => ?_⟩
  exact Except.ok.inj (h.symm.trans (served (needs h)))

def tours : Metadata where
  table := "Tours"
  columns := [⟨"id", "Id"⟩, ⟨"name", "Name"⟩, ⟨"price", "Price"⟩]
  keys := ["id"]

def tourRegistry : Registry where
  entries := [("Tour", tours)]
  sound := by decide
  distinct := by decide

/-- Filters by field and by column name, one of them for null. -/
def tourSearch : SearchRequest where
  filters := [⟨"name", .contains, .text "sea"⟩, ⟨"Price", .lessOrEqual, .int 90⟩,
    ⟨"name", .notEquals, .null⟩]
  sorts := [⟨"price", .descending⟩, ⟨"id", .ascending⟩]
  page := 3
  pageSize := 20

theorem search_served_iff_tours :
    tourRegistry.get? "Tour" = some tours ∧ tourSearch.Served tours ∧
      (Query.search ⟨"Tour", []⟩ tourSearch).statement tourRegistry .sqlite .rows
        = .ok ⟨"SELECT [t0].[Id] AS [id], [t0].[Name] AS [name], [t0].[Price] AS [price] "
            ++ "FROM [Tours] AS [t0] WHERE ([t0].[Name] LIKE @p0) AND ([t0].[Price] <= @p1) "
            ++ "AND ([t0].[Name] IS NOT NULL) ORDER BY [t0].[Price] DESC, [t0].[Id] ASC "
            ++ "LIMIT 20 OFFSET 40",
          [⟨"@p0", .text "%sea%"⟩, ⟨"@p1", .int 90⟩]⟩ := by
  have served : tourSearch.Served tours := by
    refine ⟨by decide, by decide, ?_, ?_⟩
    · simp [tourSearch, tours, Filter.Fits, Metadata.Knows]
    · simp [tourSearch, tours, Metadata.Knows]
  obtain ⟨iff, text⟩ := search_served_iff (r := tourRegistry) (s := ⟨"Tour", []⟩) rfl .sqlite
    tourSearch
  obtain ⟨st, compiled⟩ := iff.mpr served
  refine ⟨rfl, served, ?_⟩
  rw [compiled, text st compiled]
  decide +kernel

end RecordQuery
