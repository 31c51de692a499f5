import RecordQuery.Proofs.Compile.Aliases
import RecordQuery.Proofs.Write.Conditions
import RecordQuery.Proofs.Write.Keyed

/-!
# Registries and what is found in them

A declaration that has a fault, or is of a shape that is registered, is refused and changes nothing.
So whatever is declared, a shape has the first of its declarations without a fault
(`Registry.get?_attemptAll`), and what queries and writes look up by the names of key fields is
there: a page always has columns to be ordered by, an entity is unknown only if a source of the
query is not registered, and a record is refused only for want of a key or of a field of its own
(`registered_metadata_resolved`).
-/

namespace RecordQuery

namespace Registry

variable {r r' : Registry} {shape : ShapeId} {m : Metadata}

theorem get?_eq_none_iff : r.get? shape = none ↔ shape ∉ r.entries.map (·.1) := by
  rw [get?, Option.map_eq_none_iff, List.find?_eq_none, List.mem_map]
  simp only [beq_iff_eq, not_exists, not_and]

/-- A shape is registered once, so its metadata is that of its entry. -/
theorem get?_eq_some_iff : r.get? shape = some m ↔ (shape, m) ∈ r.entries := by
  rw [get?, Option.map_eq_some_iff]
  constructor
  · rintro ⟨⟨s, m'⟩, found, rfl⟩
    have named : s = shape := by simpa using List.find?_some found
    exact named ▸ List.mem_of_find?_eq_some found
  · intro mem
    have found : (r.entries.find? (·.1 == shape)).isSome = true :=
      List.find?_isSome.mpr ⟨_, mem, beq_self_eq_true _⟩
    obtain ⟨e, he⟩ := Option.isSome_iff_exists.mp found
    have named : e.1 = shape := by simpa using List.find?_some he
    have same := List.inj_on_of_nodup_map r.distinct (List.mem_of_find?_eq_some he) mem named
    exact ⟨e, he, congrArg Prod.snd same⟩

theorem register_ok (h : r.register shape m = .ok r') :
    m.fault? = none ∧ r.get? shape = none ∧ r'.entries = r.entries ++ [(shape, m)] := by
  unfold register at h
  split at h
  · cases h
  next sound =>
  split at h
  · cases h
  next fresh =>
  cases h
  exact ⟨sound, get?_eq_none_iff.mpr fresh, rfl⟩

theorem register_error {e : Error} (h : r.register shape m = .error e) :
    m.fault? ≠ none ∨ r.get? shape ≠ none := by
  unfold register at h
  split at h
  · next f faulty => exact .inl (by simp [faulty])
  next sound =>
  split at h
  · next known => exact .inr fun free => get?_eq_none_iff.mp free known
  · cases h

/-! ## Runs -/

/-- The registry after a declaration, or as it was if that is refused. -/
def attempt (r : Registry) (d : ShapeId × Metadata) : Registry :=
  match r.register d.1 d.2 with
  | .ok r' => r'
  | .error _ => r

def attemptAll (r : Registry) (ds : List (ShapeId × Metadata)) : Registry := ds.foldl attempt r

/-- The first declaration of a shape that has no fault. -/
def FirstSound (ds : List (ShapeId × Metadata)) (shape : ShapeId) (m : Metadata) : Prop :=
  ∃ before after, ds = before ++ (shape, m) :: after ∧ m.WellFormed ∧
    ∀ m', (shape, m') ∈ before → ¬m'.WellFormed

theorem get?_attempt (r : Registry) (d : ShapeId × Metadata) (shape : ShapeId) :
    (r.attempt d).get? shape
      = (r.get? shape).or (if d.1 = shape ∧ d.2.fault? = none then some d.2 else none) := by
  unfold attempt
  split
  · next r' accepted =>
    obtain ⟨sound, _, entries⟩ := register_ok accepted
    rw [get?, entries, List.find?_append, Option.map_or, ← get?, List.find?_singleton]
    simp only [beq_iff_eq, sound, and_true]
    split <;> rfl
  · next e refused =>
    cases known : r.get? shape with
    | some m => rfl
    | none =>
      rw [if_neg ?_]
      · rfl
      rintro ⟨rfl, sound⟩
      obtain faulty | taken := register_error refused
      · exact faulty sound
      · exact taken known

/-- A shape that is not registered gets the first of its declarations that has no fault. -/
theorem get?_attemptAll (r : Registry) (ds : List (ShapeId × Metadata)) (shape : ShapeId) :
    (r.attemptAll ds).get? shape = (r.get? shape).or
      ((ds.find? fun d => d.1 = shape ∧ d.2.fault? = none).map (·.2)) := by
  induction ds generalizing r with
  | nil => exact Option.or_none.symm
  | cons d ds ih =>
    rw [attemptAll, List.foldl_cons, ← attemptAll, ih, get?_attempt, Option.or_assoc,
      List.find?_cons]
    by_cases sound : d.1 = shape ∧ d.2.fault? = none
    · simp only [if_pos sound, decide_eq_true sound, Option.some_or, Option.map_some]
    · simp only [if_neg sound, decide_eq_false sound, Option.none_or]

theorem entries_prefix_attempt (r : Registry) (d : ShapeId × Metadata) :
    r.entries <+: (r.attempt d).entries := by
  unfold attempt
  split
  · next r' accepted =>
    rw [(register_ok accepted).2.2]
    exact List.prefix_append _ _
  · exact List.prefix_refl _

/-- What is registered stays, whatever is declared after it. -/
theorem entries_prefix_attemptAll (r : Registry) (ds : List (ShapeId × Metadata)) :
    r.entries <+: (r.attemptAll ds).entries := by
  induction ds generalizing r with
  | nil => exact List.prefix_refl _
  | cons d ds ih => exact (r.entries_prefix_attempt d).trans (ih (r.attempt d))

theorem firstSound_iff {ds : List (ShapeId × Metadata)} :
    (ds.find? fun d => d.1 = shape ∧ d.2.fault? = none).map (·.2) = some m ↔
      FirstSound ds shape m := by
  simp only [FirstSound, ← Metadata.fault?_eq_none_iff, Option.map_eq_some_iff,
    List.find?_eq_some_iff_append, decide_eq_true_eq, Bool.not_eq_true', decide_eq_false_iff_not]
  constructor
  · rintro ⟨⟨s, m'⟩, ⟨⟨rfl, sound⟩, before, after, split, faulty⟩, rfl⟩
    exact ⟨before, after, split, sound, fun m' mem sound' => faulty _ mem ⟨rfl, sound'⟩⟩
  · rintro ⟨before, after, split, sound, faulty⟩
    refine ⟨(shape, m), ⟨⟨rfl, sound⟩, before, after, split, ?_⟩, rfl⟩
    rintro ⟨s, m'⟩ mem ⟨rfl, sound'⟩
    exact faulty m' mem sound'

end Registry

/-! ## Names -/

/-- What is looked up by the names of key fields is there. -/
structure Metadata.Resolved (m : Metadata) : Prop where
  found : ∀ f ∈ m.keys, ∃ c, m.columnFor? f = some c
  /-- A key field stands for its own column, whatever the other columns are called. -/
  own : ∀ f ∈ m.keys, ∀ c, m.columnFor? f = some c ↔ c ∈ m.columns ∧ c.field = f
  primaryKey : (∃ c, m.primaryKey? = some c) ↔ m.keys ≠ []
  order : m.fallbackOrder ≠ []

theorem Metadata.resolved {m : Metadata} (h : m.fault? = none) : m.Resolved := by
  have declares := declares_of_fault?_eq_none h
  refine ⟨fun f hf => ?found, fun f hf c => ⟨fun named => ?_, ?_⟩, exists_primaryKey?_iff h,
    fallbackOrder_ne_nil h⟩
  case found =>
    obtain ⟨c, hc⟩ := declares f hf
    exact ⟨c, columnFor?_of_fieldMapping? hc⟩
  · obtain ⟨c', hc'⟩ := declares f hf
    rw [columnFor?_of_fieldMapping? hc', Option.some.injEq] at named
    exact named ▸ mem_of_fieldMapping? hc'
  · rintro ⟨declared, rfl⟩
    exact columnFor?_of_fieldMapping? (fieldMapping?_of_mem h declared)

/-! ## Queries -/

theorem Query.fallbackOrder_of_scope {r : Registry} {q : Query} {s : Scope}
    (h : Scope.ofSources r q.sources = .ok s) (plain : q.figureOrder? = none) :
    fallbackOrder s q = pure (keyTerms s) := by
  unfold fallbackOrder
  rw [plain]
  exact if_neg (by simpa using keyTerms_ne_nil h)

open Lowering Query Write

/-- Whatever is declared, what was registered before stays, and a shape is registered with the first
of its declarations that has no fault. So all that is registered is well-formed, and what is looked
up in it is there: the columns of the key fields, whatever other columns are called, a primary key
exactly where there is a key, and columns to order rows by. A record is then refused only by a table
without a key or for a field that the record does not have, a page that no order was given has
columns for one, and an entity is unknown only if a source of the query, of its name, is not
registered. -/
theorem registered_metadata_resolved (ds : List (ShapeId × Metadata)) :
    let r := Registry.empty.attemptAll ds
    (∀ before, before <+: ds → (Registry.empty.attemptAll before).entries <+: r.entries) ∧
    (∀ shape m, (shape, m) ∈ r.entries ↔ Registry.FirstSound ds shape m) ∧
    (∀ shape m, r.get shape = .ok m ↔ (shape, m) ∈ r.entries) ∧
    (∀ shape m, r.get shape = .ok m →
      m.WellFormed ∧ m.Resolved ∧
      (∃ keys, Target.keyMappings ⟨shape, m⟩ = .ok keys ∧ keys.map (·.field) = m.keys ∧
        ∀ c ∈ keys, c ∈ m.columns) ∧
      (∀ steps p, (UpdatePlan.ofShape r shape >>= (·.applyAll steps)) = .ok p →
        p.target = ⟨shape, m⟩ ∧
        ∀ e err, p.setRecord e = .error err ↔ keyedFault? p.target m.settable e = some err) ∧
      (∀ steps p, (DeletePlan.ofShape r shape >>= (·.applyAll steps)) = .ok p →
        p.target = ⟨shape, m⟩ ∧
        ∀ e err, p.matchRecord e = .error err ↔ keyedFault? p.target [] e = some err)) ∧
    (∀ (q : Query) scope, Scope.ofSources r q.sources = .ok scope →
      keyTerms scope ≠ [] ∧
      (q.figureOrder? = none → fallbackOrder scope q = pure (keyTerms scope))) ∧
    (∀ s steps d t name,
      ((ofShape s).applyAll steps).statement r d t = .error (.unknownEntity name) →
        ∃ src ∈ ((ofShape s).applyAll steps).sources,
          src.shape.name = name ∧ r.contains src.shape = false) := by
  intro r
  refine ⟨?stay, fun shape m => ?entries, fun shape m => ?got, fun shape m hm => ?metadata,
    fun q scope hs => ⟨keyTerms_ne_nil hs, fallbackOrder_of_scope hs⟩,
    fun s steps d t name h => ?unknown⟩
  case stay =>
    rintro before ⟨after, rfl⟩
    have later : r = (Registry.empty.attemptAll before).attemptAll after := List.foldl_append
    exact later ▸ Registry.entries_prefix_attemptAll _ after
  case entries =>
    rw [← Registry.get?_eq_some_iff, Registry.get?_attemptAll, ← Registry.firstSound_iff]
    rfl
  case got => exact Registry.get_eq_ok_iff.trans Registry.get?_eq_some_iff
  case metadata =>
    have registered := Registry.get_eq_ok_iff.mp hm
    have sound := Registry.fault?_of_get? registered
    have declares := Metadata.declares_of_fault?_eq_none sound
    refine ⟨Metadata.fault?_eq_none_iff.mp sound, Metadata.resolved sound,
      ⟨_, Target.keyMappings_eq sound, Metadata.fields_filterMap _ declares, fun c hc => ?_⟩,
      fun steps p h => ?_, fun steps p h => ?_⟩
    · obtain ⟨f, _, found⟩ := List.mem_filterMap.mp hc
      exact (Metadata.mem_of_fieldMapping? found).1
    · rw [UpdatePlan.ofShape_of_get? registered] at h
      have target := UpdatePlan.target_of_applyAll h
      refine ⟨target, fun e err => ?_⟩
      have fails : p.setRecord e = .error err ↔
          keyedFault? p.target p.target.metadata.settable e = some err :=
        UpdatePlan.setRecord_error_iff (by rwa [target])
      rwa [target] at fails ⊢
    · rw [DeletePlan.ofShape_of_get? registered] at h
      have target := DeletePlan.target_of_applyAll h
      exact ⟨target, fun e err => DeletePlan.matchRecord_error_iff (by rwa [target])⟩
  case unknown =>
    have failure : ((ofShape s).applyAll steps).Failure r (.unknownEntity name) :=
      retrieval_fails (defersClause_applyAll s steps) t 0 _ _
        (Prod.ext rfl (statement_error_iff.mp h))
    obtain ⟨src, mem, named, unknown⟩ := failure.unregistered
    have absent := Registry.get?_eq_none_iff.mp unknown
    exact ⟨src, mem, named, by simpa [Registry.contains] using absent⟩

/-- Of the declarations of one shape, two with faults and the one after `stockMetadata` are refused,
and of the other shape the one that declares a field twice. -/
def stockDeclarations : List (ShapeId × Metadata) := [
  ("Item", { stockMetadata with table := " \t" }),
  ("Item", { stockMetadata with keys := ["sku"] }),
  ("Item", stockMetadata),
  ("Item", { stockMetadata with keys := ["id"] }),
  ("Note", { table := "Notes", columns := [⟨"text", "id"⟩, ⟨"text", "Text"⟩] }),
  ("Note", { table := "Notes", columns := [⟨"text", "Text"⟩] })]

/-- A record of no fields is refused for its own fault, and rows of a shape that is not registered
for being unknown, though another of its name is registered. -/
theorem registered_metadata_resolved_stock :
    let r := Registry.empty.attemptAll stockDeclarations
    r.get "Item" = .ok stockMetadata ∧ "code" ∈ stockMetadata.keys ∧
    stockMetadata.columnFor? "code" = some ⟨"code", "id"⟩ ∧
    (∃ c, stockMetadata.primaryKey? = some c) ∧
    (∃ p, (UpdatePlan.ofShape r "Item" >>= (·.applyAll [.set "part" .null])) = .ok p ∧
      p.setRecord ⟨"Item", []⟩ = .error (.unknownField "Item" "id")) ∧
    (∃ p, (DeletePlan.ofShape r "Note" >>= (·.applyAll [])) = .ok p ∧
      p.matchRecord ⟨"Note", []⟩ = .error (noKey p.target)) ∧
    (∃ scope, Scope.ofSources r (ofShape ⟨"Note", []⟩).sources = .ok scope ∧
      keyTerms scope ≠ []) ∧
    ((ofShape ⟨⟨"Item", 1⟩, []⟩).applyAll []).statement r .sqlite .rows
      = .error (.unknownEntity "Item") ∧
    r.contains ⟨"Item", 1⟩ = false := by
  obtain ⟨_, _, _, metadata, order, unknown⟩ := registered_metadata_resolved stockDeclarations
  have item : (Registry.empty.attemptAll stockDeclarations).get "Item" = .ok stockMetadata := rfl
  have key : "code" ∈ stockMetadata.keys := by decide
  obtain ⟨_, resolved, _, update, _⟩ := metadata "Item" stockMetadata item
  obtain ⟨_, _, _, _, delete⟩ := metadata "Note" _ rfl
  have column := (resolved.own "code" key ⟨"code", "id"⟩).mpr ⟨by decide, rfl⟩
  obtain ⟨src, mem, _, absent⟩ := unknown ⟨⟨"Item", 1⟩, []⟩ [] .sqlite .rows "Item" rfl
  cases List.mem_singleton.mp mem
  refine ⟨item, key, column, resolved.primaryKey.mpr (by decide), ⟨_, rfl, ?_⟩, ⟨_, rfl, ?_⟩,
    ⟨_, rfl, (order (ofShape ⟨"Note", []⟩) _ rfl).1⟩, rfl, absent⟩
  · exact ((update [.set "part" .null] _ rfl).2 _ _).mpr rfl
  · exact ((delete [] _ rfl).2 _ _).mpr rfl

end RecordQuery
