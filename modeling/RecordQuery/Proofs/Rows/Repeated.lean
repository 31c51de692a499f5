import RecordQuery.Proofs.Rows.Filled
import RecordQuery.Proofs.Rows.Lookup

/-!
# Records of rows that repeat a name

A look-up by name takes the first column of a name, and a record is filled from the last
(`Record.ofRow_ok_iff_last`). A record that was filled has what look-ups in its row give exactly if
the first and the last column of every field read alike (`filled_as_looked_up_iff`).
-/

namespace RecordQuery

open List

/-- Where one relation holds, another holds of all pairs that a property holds of the left of. -/
theorem forall₂_iff_forall_mem {R S : α → β → Prop} {P : α → Prop} {xs : List α} {ys : List β}
    (h : Forall₂ R xs ys) (hR : ∀ x y, R x y → (S x y ↔ P x)) :
    Forall₂ S xs ys ↔ ∀ x ∈ xs, P x := by
  induction h with
  | nil => simp
  | cons first _ ih => rw [forall₂_cons, forall_mem_cons, hR _ _ first, ih]

namespace Record

/-- The cell has what a look-up of its name gives, where that is defined. -/
def AsLookedUp (row : Row) (before after : Field × Value) : Prop :=
  after.1 = before.1 ∧ ∀ found, row.get before.1.name = .ok found →
    match found with
    | some v => before.1.type.normalize v = .ok after.2
    | none => after.2 = before.2

/-- The first and the last column of the name of a field read alike. -/
def Agrees (row : Row) (f : Field) : Prop :=
  ∀ first last, row.get f.name = .ok (some first) → row.pairs.reverse.lookup f.name = some last →
    f.type.normalize first = f.type.normalize last

theorem asLookedUp_iff {row : Row} {x z : Field × Value} (h : Fills row.pairs.reverse x z) :
    AsLookedUp row x z ↔ Agrees row x.1 := by
  obtain ⟨same, filled⟩ := h
  rw [AsLookedUp, Agrees, and_iff_right same]
  cases hget : row.get x.1.name with
  | error f => simp
  | ok found =>
    have first := (Row.get_eq_ok_iff.mp hget).1
    cases hlast : row.pairs.reverse.lookup x.1.name with
    | none =>
      have absent : row.pairs.lookup x.1.name = none := by
        simpa only [lookup_eq_none_iff, mem_reverse] using hlast
      have kept : z.2 = x.2 := by simpa only [hlast] using filled
      subst first
      simp [absent, kept]
    | some last =>
      have read : x.1.type.normalize last = .ok z.2 := by simpa only [hlast] using filled
      have named : (row.pairs.lookup x.1.name).isSome = true := by
        have late : (row.pairs.reverse.lookup x.1.name).isSome = true := by simp [hlast]
        simpa only [lookup_isSome_iff, mem_reverse] using late
      obtain ⟨v, hv⟩ := Option.isSome_iff_exists.mp named
      subst first
      simp [hv, read]

end Record

/-- Every field of a record has what the last column of its name is read as, or is as it was
without one. Look-ups by name give the same exactly if the first column of every field reads as
the last does. -/
theorem filled_as_looked_up_iff {s : Shape} {row : Row} {back : Record}
    (fields : s.fieldNames.Nodup) (h : Record.ofRow s row = .ok back) :
    back.shape = s.id ∧
    Forall₂ (Record.Fills row.pairs.reverse) (Record.initial s).cells back.cells ∧
    (Forall₂ (Record.AsLookedUp row) (Record.initial s).cells back.cells ↔
      ∀ f ∈ s.fields, Record.Agrees row f) := by
  obtain ⟨shape, cells⟩ := (Record.ofRow_ok_iff_last fields).mp h
  have filled := cells.imp fun _ _ cell => cell.2
  refine ⟨shape, filled, ?_⟩
  rw [forall₂_iff_forall_mem filled fun _ _ => Record.asLookedUp_iff]
  simp only [Record.initial, forall_mem_map]

def guestShape : Shape where
  id := "Guest"
  fields := [
    { name := "id", type := .required .long },
    { name := "name", type := .required .text, initial := .text "nobody" },
    { name := "nights", type := .required .int, initial := .int 1 }]

/-- The two columns of the same name read alike, and a column is of no field. -/
def guestRow : Row := .ofPairs [("id", .int 7), ("name", .text "Ada"), ("key", .bool true),
  ("id", .long 7)]

theorem filled_as_looked_up_iff_guest :
    Forall₂ (Record.AsLookedUp guestRow) (Record.initial guestShape).cells
      (guestShape.fields.zip [.long 7, .text "Ada", .int 1]) := by
  have filled : Record.ofRow guestShape guestRow
      = .ok ⟨"Guest", guestShape.fields.zip [.long 7, .text "Ada", .int 1]⟩ := rfl
  obtain ⟨_, _, looked⟩ := filled_as_looked_up_iff (by decide) filled
  refine looked.mpr fun f hf first last hfirst hlast => ?_
  simp only [guestShape, mem_cons, not_mem_nil, or_false] at hf
  obtain rfl | rfl | rfl := hf
  · cases hfirst
    cases hlast
    rfl
  · cases hfirst
    cases hlast
    rfl
  · cases hlast

/-- The second of two names is read, and the first is looked up. -/
theorem repeated_name_read_last :
    Record.ofRow guestShape (.ofPairs [("name", .text "Ada"), ("name", .text "Bob")])
      = .ok ⟨"Guest", guestShape.fields.zip [.long 0, .text "Bob", .int 1]⟩ ∧
    Row.get (.ofPairs [("name", .text "Ada"), ("name", .text "Bob")]) "name"
      = .ok (some (.text "Ada")) ∧
    ¬∀ (s : Shape) (row : Row) (back : Record), s.fieldNames.Nodup →
      Record.ofRow s row = .ok back →
      Forall₂ (Record.AsLookedUp row) (Record.initial s).cells back.cells := by
  refine ⟨rfl, rfl, fun looked => ?_⟩
  cases looked guestShape (.ofPairs [("name", .text "Ada"), ("name", .text "Bob")])
    ⟨"Guest", guestShape.fields.zip [.long 0, .text "Bob", .int 1]⟩ (by decide) rfl with
  | cons _ rest =>
    cases rest with
    | cons name _ =>
      have read : (.ok (.text "Ada") : Except Stop Value) = .ok (.text "Bob") := name.2 _ rfl
      simp at read

end RecordQuery
