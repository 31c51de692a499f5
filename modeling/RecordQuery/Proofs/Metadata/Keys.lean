import Mathlib.Data.List.Nodup
import RecordQuery.Metadata

/-!
# Registered metadata

The metadata of a registry has columns, of fields that are declared once, and among them one for
every key field (`Metadata.fault?_eq_none_iff`). So what orders the rows of a page without an order
is the columns of the key, or all columns where there is no key
(`Metadata.identifies_fallbackOrder`).
-/

namespace RecordQuery

namespace Metadata

theorem firstRepeated?_eq_none_iff {seen names : List String} :
    firstRepeated? seen names = none ↔ names.Nodup ∧ ∀ n ∈ names, n ∉ seen := by
  induction names generalizing seen with
  | nil => simp [firstRepeated?]
  | cons n ns ih =>
    rw [firstRepeated?]
    by_cases hn : n ∈ seen
    · simp [hn]
    · rw [if_neg (by simpa using hn), ih, List.nodup_cons, List.forall_mem_cons]
      -- a name that is fresh for the names so far and `n` is fresh for both
      have fresh : (∀ k ∈ ns, k ∉ n :: seen) ↔ n ∉ ns ∧ ∀ k ∈ ns, k ∉ seen := by
        simp only [List.mem_cons, not_or, forall_and]
        exact and_congr_left fun _ =>
          ⟨fun apart mem => apart n mem rfl, fun absent k hk same => absent (same ▸ hk)⟩
      simp only [fresh, hn, not_false_eq_true, true_and]
      exact and_left_comm.trans and_assoc.symm

/-- A declaration that a registry accepts. -/
structure WellFormed (m : Metadata) : Prop where
  named : Text.isBlankText m.table = false
  columns : m.columns ≠ []
  fields : (m.columns.map (·.field)).Nodup
  declared : ∀ f ∈ m.keys ++ m.computed, f ∈ m.columns.map (·.field)

theorem fault?_eq_none_iff {m : Metadata} : m.fault? = none ↔ m.WellFormed := by
  constructor
  · intro h
    unfold fault? at h
    simp only at h
    split at h
    · cases h
    next named =>
    split at h
    · cases h
    next columns =>
    split at h
    · cases h
    next once =>
    refine ⟨by simpa using named, by simpa using columns, ?_, fun f hf => ?_⟩
    · exact (firstRepeated?_eq_none_iff.mp once).1
    · simpa using List.find?_eq_none.mp (Option.map_eq_none_iff.mp h) f hf
  · rintro ⟨named, columns, fields, declared⟩
    have once : firstRepeated? [] (m.columns.map (·.field)) = none :=
      firstRepeated?_eq_none_iff.mpr ⟨fields, by simp⟩
    have found : (m.keys ++ m.computed).find?
        (fun f => !(m.columns.map (·.field)).contains f) = none :=
      List.find?_eq_none.mpr fun f hf => by simpa using declared f hf
    simp only [fault?, named, List.isEmpty_iff, columns, once, found, Bool.false_eq_true, if_false,
      Option.map_none]

/-- Registered metadata declares a field once. -/
theorem nodup_fields {m : Metadata} (h : m.fault? = none) : (m.columns.map (·.field)).Nodup :=
  (fault?_eq_none_iff.mp h).fields

theorem declares_of_fault?_eq_none {m : Metadata} (h : m.fault? = none) :
    ∀ f ∈ m.keys, ∃ c, m.fieldMapping? f = some c := by
  intro f hf
  obtain ⟨c, hc, rfl⟩ :=
    List.mem_map.mp ((fault?_eq_none_iff.mp h).declared f (List.mem_append_left _ hf))
  exact Option.isSome_iff_exists.mp (List.find?_isSome.mpr ⟨c, hc, beq_self_eq_true _⟩)

/-- The columns that tell the rows of a table apart: those of the key fields, in the order of the
key, or all of them without a key. -/
structure Identifies (m : Metadata) (cs : List Mapping) : Prop where
  declared : ∀ c ∈ cs, c ∈ m.columns
  key : m.keys ≠ [] → cs.map (·.field) = m.keys
  keyless : m.keys = [] → cs = m.columns

theorem mem_of_fieldMapping? {m : Metadata} {f : String} {c : Mapping}
    (h : m.fieldMapping? f = some c) : c ∈ m.columns ∧ c.field = f := by
  unfold fieldMapping? at h
  have named := List.find?_some h
  exact ⟨List.mem_of_find?_eq_some h, beq_iff_eq.mp named⟩

/-- A declared mapping is the one of its field. -/
theorem fieldMapping?_of_mem {m : Metadata} (h : m.fault? = none) {c : Mapping}
    (hc : c ∈ m.columns) : m.fieldMapping? c.field = some c := by
  have found : (m.fieldMapping? c.field).isSome = true :=
    List.find?_isSome.mpr ⟨c, hc, beq_self_eq_true _⟩
  obtain ⟨c', hc'⟩ := Option.isSome_iff_exists.mp found
  obtain ⟨declared, same⟩ := mem_of_fieldMapping? hc'
  rw [hc', List.inj_on_of_nodup_map (nodup_fields h) declared hc same]

theorem fallbackOrder_of_keyless {m : Metadata} (h : m.keys = []) :
    m.fallbackOrder = m.columns := by
  unfold fallbackOrder
  rw [h]
  rfl

/-- Where the key fields are declared, their columns are the order. -/
theorem fallbackOrder_of_keyed {m : Metadata} (hk : m.keys ≠ [])
    (hd : ∀ f ∈ m.keys, ∃ c, m.fieldMapping? f = some c) :
    m.fallbackOrder = m.keys.filterMap m.fieldMapping? := by
  obtain ⟨f, hf⟩ := List.exists_mem_of_ne_nil _ hk
  obtain ⟨c, hc⟩ := hd f hf
  have some : m.keys.filterMap m.fieldMapping? ≠ [] :=
    List.ne_nil_of_mem (List.mem_filterMap.mpr ⟨f, hf, hc⟩)
  unfold fallbackOrder
  rw [if_neg (by simpa using some)]

theorem fields_filterMap {m : Metadata} (fs : List String)
    (hd : ∀ f ∈ fs, ∃ c, m.fieldMapping? f = some c) :
    (fs.filterMap m.fieldMapping?).map (·.field) = fs := by
  induction fs with
  | nil => rfl
  | cons f fs ih =>
    obtain ⟨c, hc⟩ := hd f List.mem_cons_self
    rw [List.filterMap_cons_some hc, List.map_cons, (mem_of_fieldMapping? hc).2,
      ih fun g hg => hd g (List.mem_cons_of_mem _ hg)]

theorem identifies_fallbackOrder {m : Metadata} (h : m.fault? = none) :
    m.Identifies m.fallbackOrder := by
  have declares := declares_of_fault?_eq_none h
  by_cases hk : m.keys = []
  · rw [fallbackOrder_of_keyless hk]
    exact ⟨fun c hc => hc, fun h => absurd hk h, fun _ => rfl⟩
  · rw [fallbackOrder_of_keyed hk declares]
    refine ⟨fun c hc => ?_, fun _ => fields_filterMap _ declares, fun h => absurd h hk⟩
    obtain ⟨f, _, hf⟩ := List.mem_filterMap.mp hc
    exact (mem_of_fieldMapping? hf).1

/-- The first key field is declared, if there is one. -/
theorem exists_primaryKey?_iff {m : Metadata} (h : m.fault? = none) :
    (∃ c, m.primaryKey? = some c) ↔ m.keys ≠ [] := by
  have declares := declares_of_fault?_eq_none h
  unfold primaryKey?
  cases hk : m.keys with
  | nil => exact iff_of_false nofun (absurd rfl)
  | cons f fs =>
    rw [hk] at declares
    exact iff_of_true (declares f List.mem_cons_self) (List.cons_ne_nil f fs)

/-- A table has columns, so what orders its rows is never nothing. -/
theorem fallbackOrder_ne_nil {m : Metadata} (h : m.fault? = none) : m.fallbackOrder ≠ [] := by
  unfold fallbackOrder
  simp only
  split
  · exact (fault?_eq_none_iff.mp h).columns
  · next keys => simpa using keys

end Metadata

theorem Registry.fault?_of_get? {r : Registry} {shape : ShapeId} {m : Metadata}
    (h : r.get? shape = some m) : m.fault? = none := by
  obtain ⟨e, he, rfl⟩ := Option.map_eq_some_iff.mp h
  exact r.sound e (List.mem_of_find?_eq_some he)

end RecordQuery
