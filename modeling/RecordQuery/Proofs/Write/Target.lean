import RecordQuery.Proofs.Compile.Scoping
import RecordQuery.Proofs.Metadata.Keys
import RecordQuery.Proofs.Result
import RecordQuery.Write.Update

/-!
# Columns of write targets

A name stands for the column of the field of that name, or else for the column of that name. A
write may set it unless the storage computes the field.
-/

namespace RecordQuery

namespace Metadata

variable {m : Metadata} {name : String} {c : Mapping}

/-- A field is found before a column of its name. -/
theorem columnFor?_of_fieldMapping? (h : m.fieldMapping? name = some c) :
    m.columnFor? name = some c :=
  Option.or_eq_some_iff.mpr (.inl h)

theorem mem_writable_iff : c ∈ m.writable ↔ c ∈ m.columns ∧ m.isComputed c.field = false := by
  rw [writable, List.mem_filter, Bool.not_eq_true']

end Metadata

namespace Write.Target

variable {t : Target} {name : String} {c : Mapping}

theorem ofShape_ok_iff {r : Registry} {shape : ShapeId} :
    ofShape r shape = .ok t ↔ ∃ m, r.get? shape = some m ∧ t = ⟨shape, m⟩ := by
  rw [ofShape, map_ok_iff]
  simp only [Registry.get_eq_ok_iff]

theorem mapping_ok_iff : t.mapping name = .ok c ↔ t.metadata.columnFor? name = some c := by
  unfold mapping
  cases t.metadata.columnFor? name <;> simp

theorem writable_ok_iff :
    t.writable name = .ok c ↔
      t.metadata.columnFor? name = some c ∧ t.metadata.isComputed c.field = false := by
  rw [writable, bind_ok_iff]
  constructor
  · rintro ⟨c', named, h⟩
    by_cases computed : t.metadata.isComputed c'.field = true
    · rw [if_pos computed] at h
      cases h
    · rw [if_neg computed] at h
      cases h
      exact ⟨mapping_ok_iff.mp named, by simpa using computed⟩
  · rintro ⟨named, computed⟩
    refine ⟨c, mapping_ok_iff.mpr named, ?_⟩
    rw [if_neg (by simp [computed])]
    rfl

/-- A column is named by its field, whatever other columns are called. -/
theorem mapM_writable_fields (ht : t.metadata.fault? = none) {cs : List Mapping}
    (h : ∀ c ∈ cs, c ∈ t.metadata.writable) : (cs.map (·.field)).mapM t.writable = .ok cs := by
  induction cs with
  | nil => rfl
  | cons c cs ih =>
    obtain ⟨first, rest⟩ := List.forall_mem_cons.mp h
    obtain ⟨declared, free⟩ := Metadata.mem_writable_iff.mp first
    have named : t.writable c.field = .ok c := writable_ok_iff.mpr
      ⟨Metadata.columnFor?_of_fieldMapping? (Metadata.fieldMapping?_of_mem ht declared), free⟩
    exact mapM_cons_ok_iff.mpr ⟨c, cs, named, ih rest, rfl⟩

theorem mem_writable_of_ok (h : t.writable name = .ok c) : c ∈ t.metadata.writable := by
  obtain ⟨named, free⟩ := writable_ok_iff.mp h
  exact Metadata.mem_writable_iff.mpr ⟨Metadata.mem_of_columnFor? named, free⟩

end Write.Target

namespace Write

variable {r : Registry} {shape : ShapeId} {m : Metadata}

theorem UpdatePlan.ofShape_of_get? (h : r.get? shape = some m) :
    ofShape r shape = .ok { target := ⟨shape, m⟩ } := by
  rw [ofShape, Target.ofShape_ok_iff.mpr ⟨m, h, rfl⟩]
  rfl

theorem DeletePlan.ofShape_of_get? (h : r.get? shape = some m) :
    ofShape r shape = .ok { target := ⟨shape, m⟩ } := by
  rw [ofShape, Target.ofShape_ok_iff.mpr ⟨m, h, rfl⟩]
  rfl

end Write

end RecordQuery
