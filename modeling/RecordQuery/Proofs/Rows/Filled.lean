import Mathlib.Data.List.Nodup
import RecordQuery.Proofs.Result
import RecordQuery.Shape

/-!
# Records filled from rows

A column is assigned to the field of its name and to no other. Every column of that name has to fit
the field, the last of them is what the field is read from, and a field without a column keeps its
value (`Record.ofRow_ok_iff_last`). Where no name occurs twice the order of the columns does not
matter (`Record.ofRow_ok_iff`).
-/

namespace RecordQuery

open List

section

variable {R S : α → β → Prop}

theorem forall₂_iff_of_mem {xs : List α} {ys : List β} (h : ∀ x ∈ xs, ∀ y, R x y ↔ S x y) :
    Forall₂ R xs ys ↔ Forall₂ S xs ys := by
  induction xs generalizing ys with
  | nil => simp
  | cons x xs ih =>
    cases ys with
    | nil => simp
    | cons y ys =>
      rw [forall₂_cons, forall₂_cons, h x mem_cons_self y,
        ih fun z hz => h z (mem_cons_of_mem _ hz)]

theorem forall₂_comp_iff {T : β → γ → Prop} {xs : List α} {zs : List γ} :
    (∃ ys, Forall₂ R xs ys ∧ Forall₂ T ys zs) ↔
      Forall₂ (fun x z => ∃ y, R x y ∧ T y z) xs zs := by
  induction xs generalizing zs with
  | nil =>
    constructor
    · rintro ⟨_, ⟨⟩, ⟨⟩⟩
      exact .nil
    · rintro ⟨⟩
      exact ⟨[], .nil, .nil⟩
  | cons x xs ih =>
    constructor
    · rintro ⟨ys, hR, hT⟩
      cases hR with
      | cons first rest =>
        cases hT with
        | cons first' rest' => exact .cons ⟨_, first, first'⟩ (ih.mp ⟨_, rest, rest'⟩)
    · intro h
      cases h with
      | cons first rest =>
        obtain ⟨y, hR, hT⟩ := first
        obtain ⟨ys, hRs, hTs⟩ := ih.mpr rest
        exact ⟨y :: ys, .cons hR hRs, .cons hT hTs⟩

theorem forall₂_eq_iff {xs ys : List α} : Forall₂ (fun x y => y = x) xs ys ↔ ys = xs := by
  have same : (fun x y : α => y = x) = Eq := by
    funext x y
    exact propext eq_comm
  rw [same, forall₂_eq_eq_eq, eq_comm]

end

theorem lookup_eq_none_of_not_mem {name : String} {pairs : List (String × β)}
    (h : name ∉ pairs.map (·.1)) : pairs.lookup name = none := by
  rw [lookup_eq_none_iff]
  intro p hp
  have ne : name ≠ p.1 := fun e => h (e ▸ mem_map_of_mem hp)
  simpa using ne

theorem lookup_eq_some_iff_mem {name : String} {value : β} {pairs : List (String × β)}
    (h : (pairs.map (·.1)).Nodup) : pairs.lookup name = some value ↔ (name, value) ∈ pairs := by
  induction pairs with
  | nil => simp
  | cons p pairs ih =>
    obtain ⟨name', value'⟩ := p
    rw [map_cons, nodup_cons] at h
    rw [lookup_cons, mem_cons, Prod.mk.injEq]
    by_cases hn : name = name'
    · have absent : (name, value) ∉ pairs := fun hp => h.1 (hn ▸ mem_map_of_mem (f := (·.1)) hp)
      simp [hn ▸ absent, hn, eq_comm]
    · have ne : (name == name') = false := by simpa using hn
      simp [ne, hn, ih h.2]

theorem lookup_map {xs : List α} {name : α → String} {value : α → β} (h : (xs.map name).Nodup)
    {x : α} (hx : x ∈ xs) :
    (xs.map fun x => (name x, value x)).lookup (name x) = some (value x) := by
  have names : (xs.map fun x => (name x, value x)).map (·.1) = xs.map name := by simp
  exact (lookup_eq_some_iff_mem (names ▸ h)).mpr (mem_map_of_mem hx)

namespace Record

/-- What becomes of a cell when values are assigned to names. -/
def Fills (pairs : List (String × Value)) (before after : Field × Value) : Prop :=
  after.1 = before.1 ∧
    match pairs.lookup before.1.name with
    | some v => before.1.type.normalize v = .ok after.2
    | none => after.2 = before.2

theorem fills_iff_of_not_mem {pairs : List (String × Value)} {x y : Field × Value}
    (h : x.1.name ∉ pairs.map (·.1)) : Fills pairs x y ↔ y = x := by
  rw [Fills, lookup_eq_none_of_not_mem h]
  exact Prod.ext_iff.symm

theorem fills_singleton_iff {name : String} {v : Value} {x y : Field × Value} :
    Fills [(name, v)] x y ↔
      y.1 = x.1 ∧ if x.1.name = name then x.1.type.normalize v = .ok y.2 else y.2 = x.2 := by
  by_cases h : x.1.name = name
  · simp [Fills, h]
  · have ne : (x.1.name == name) = false := by simpa using h
    simp [Fills, lookup_cons, ne, h]

/-- Every value that is assigned to the name of a cell fits its field. -/
def Fits (pairs : List (String × Value)) (cell : Field × Value) : Prop :=
  ∀ v, (cell.1.name, v) ∈ pairs → ∃ new, cell.1.type.normalize v = .ok new

/-- The last value that is assigned to a name stands, but every one of them has to fit. -/
theorem fills_cons_iff {name : String} {v : Value} {pairs : List (String × Value)}
    {x z : Field × Value} :
    (∃ y, Fills [(name, v)] x y ∧ Fits pairs y ∧ Fills pairs.reverse y z) ↔
      Fits ((name, v) :: pairs) x ∧ Fills ((name, v) :: pairs).reverse x z := by
  by_cases hx : x.1.name = name
  · subst hx
    constructor
    · rintro ⟨⟨f, new⟩, ⟨rfl, hnew⟩, fits, filled⟩
      rw [lookup_cons_self] at hnew
      refine ⟨?_, filled.1, ?_⟩
      · intro w hw
        obtain same | later := mem_cons.mp hw
        · cases same
          exact ⟨new, hnew⟩
        · exact fits w later
      · have after := filled.2
        rw [reverse_cons, lookup_append]
        cases hl : pairs.reverse.lookup x.1.name with
        | some w => simpa [hl] using after
        | none =>
          have kept : z.2 = new := by simpa [hl] using after
          simpa [kept] using hnew
    · rintro ⟨fits, same, after⟩
      obtain ⟨new, hnew⟩ := fits v mem_cons_self
      refine ⟨(x.1, new), ⟨rfl, by simpa using hnew⟩,
        fun w hw => fits w (mem_cons_of_mem _ hw), same, ?_⟩
      rw [reverse_cons, lookup_append] at after
      cases hl : pairs.reverse.lookup x.1.name with
      | some w => simpa [hl] using after
      | none =>
        have last : x.1.type.normalize v = .ok z.2 := by simpa [hl] using after
        simpa [hnew] using last.symm
  · have kept (y : Field × Value) : Fills [(name, v)] x y ↔ y = x :=
      fills_iff_of_not_mem (by simpa using hx)
    have fits : Fits ((name, v) :: pairs) x ↔ Fits pairs x := by simp [Fits, hx]
    have filled : Fills ((name, v) :: pairs).reverse x z ↔ Fills pairs.reverse x z := by
      have ne : (x.1.name == name) = false := by simpa using hx
      simp [Fills, lookup_append, lookup_cons, ne]
    simp only [kept, fits, filled, exists_eq_left]

/-- Names that differ are assigned to independently. -/
theorem fills_reverse_iff {pairs : List (String × Value)} (h : (pairs.map (·.1)).Nodup)
    {x z : Field × Value} : Fits pairs x ∧ Fills pairs.reverse x z ↔ Fills pairs x z := by
  have reversed : (pairs.reverse.map (·.1)).Nodup := by
    rw [map_reverse]
    exact List.nodup_reverse.mpr h
  have same : pairs.reverse.lookup x.1.name = pairs.lookup x.1.name := by
    ext v
    simp only [lookup_eq_some_iff_mem h, lookup_eq_some_iff_mem reversed, mem_reverse]
  rw [Fills, Fills, same]
  refine and_iff_right_of_imp fun filled v hv => ⟨z.2, ?_⟩
  simpa [(lookup_eq_some_iff_mem h).mpr hv] using filled.2

theorem assignCells_ok_iff {name : String} {v : Value} {cells after : List (Field × Value)}
    (h : (cells.map (·.1.name)).Nodup) :
    assignCells name v cells = .ok after ↔ Forall₂ (Fills [(name, v)]) cells after := by
  induction cells generalizing after with
  | nil => simp [assignCells, eq_comm]
  | cons cell rest ih =>
    obtain ⟨f, old⟩ := cell
    rw [map_cons, nodup_cons] at h
    rw [forall₂_cons_left_iff, assignCells]
    by_cases hf : f.name = name
    · -- the cells after the first of the name have other names
      have untouched (ys : List (Field × Value)) :
          Forall₂ (Fills [(name, v)]) rest ys ↔ ys = rest := by
        rw [← forall₂_eq_iff]
        refine forall₂_iff_of_mem fun x hx y => fills_iff_of_not_mem ?_
        simp only [map_cons, map_nil, mem_singleton]
        exact fun e => h.1 (hf ▸ e ▸ mem_map_of_mem (f := (·.1.name)) hx)
      simp only [if_pos hf, map_ok_iff, untouched, fills_singleton_iff, Prod.exists]
      constructor
      · rintro ⟨new, hnew, rfl⟩
        exact ⟨f, new, rest, ⟨rfl, hnew⟩, rfl, rfl⟩
      · rintro ⟨_, new, _, ⟨rfl, hnew⟩, rfl, rfl⟩
        exact ⟨new, hnew, rfl⟩
    · simp only [if_neg hf, map_ok_iff, ih h.2, fills_singleton_iff, Prod.exists]
      constructor
      · rintro ⟨ys, hys, rfl⟩
        exact ⟨f, old, ys, ⟨rfl, rfl⟩, hys, rfl⟩
      · rintro ⟨_, _, ys, ⟨rfl, rfl⟩, hys, rfl⟩
        exact ⟨ys, hys, rfl⟩

theorem names_of_fills {pairs : List (String × Value)} {cells after : List (Field × Value)}
    (h : Forall₂ (Fills pairs) cells after) : after.map (·.1.name) = cells.map (·.1.name) :=
  map_eq_of_forall₂ h fun _ _ filled => congrArg Field.name filled.1

theorem assign_ok_iff {r after : Record} {name : String} {v : Value}
    (h : (r.cells.map (·.1.name)).Nodup) :
    r.assign name v = .ok after ↔
      after.shape = r.shape ∧ Forall₂ (Fills [(name, v)]) r.cells after.cells := by
  rw [assign, map_ok_iff]
  constructor
  · rintro ⟨cells, hcells, rfl⟩
    exact ⟨rfl, (assignCells_ok_iff h).mp hcells⟩
  · rintro ⟨hs, hcells⟩
    exact ⟨_, (assignCells_ok_iff h).mpr hcells, by rw [← hs]⟩

/-- Assignments of several names, with whatever is said of a failure. -/
theorem foldlM_assign_ok_iff (say : String → Stop → Stop) {pairs : List (String × Value)}
    {r after : Record} (h : (r.cells.map (·.1.name)).Nodup) :
    pairs.foldlM (fun r (name, v) => (r.assign name v).mapError (say name)) r = .ok after ↔
      after.shape = r.shape ∧
        Forall₂ (fun x z => Fits pairs x ∧ Fills pairs.reverse x z) r.cells after.cells := by
  induction pairs generalizing r with
  | nil =>
    have kept : Forall₂ (fun x z => Fits [] x ∧ Fills [].reverse x z) r.cells after.cells ↔
        after.cells = r.cells := by
      rw [← forall₂_eq_iff]
      refine forall₂_iff_of_mem fun x _ z => ?_
      rw [reverse_nil, fills_iff_of_not_mem not_mem_nil]
      exact and_iff_right fun v hv => absurd hv not_mem_nil
    rw [kept]
    constructor
    · rintro ⟨⟩
      exact ⟨rfl, rfl⟩
    · rintro ⟨hs, hc⟩
      cases r
      cases after
      cases hs
      cases hc
      rfl
  | cons p pairs ih =>
    obtain ⟨name, v⟩ := p
    rw [foldlM_cons]
    change ((r.assign name v).mapError (say name) >>= _) = _ ↔ _
    constructor
    · intro hall
      cases hmid : r.assign name v with
      | error e => simp [hmid, Except.mapError, bind, Except.bind] at hall
      | ok mid =>
        rw [hmid] at hall
        obtain ⟨hs, first⟩ := (assign_ok_iff h).mp hmid
        obtain ⟨hs', rest⟩ := (ih (names_of_fills first ▸ h)).mp hall
        refine ⟨hs'.trans hs, (forall₂_comp_iff.mp ⟨mid.cells, first, rest⟩).imp ?_⟩
        exact fun x z => fills_cons_iff.mp
    · rintro ⟨hs, all⟩
      obtain ⟨cells, first, rest⟩ :=
        forall₂_comp_iff.mpr (all.imp fun x z => fills_cons_iff.mpr)
      have hmid : r.assign name v = .ok ⟨r.shape, cells⟩ := (assign_ok_iff h).mpr ⟨rfl, first⟩
      rw [hmid]
      exact (ih (names_of_fills first ▸ h)).mpr ⟨hs, rest⟩

section

variable {s : Shape} {row : Row} {back : Record} (fields : s.fieldNames.Nodup)

include fields

/-- A row fills every field that its columns fit with what the last column of its name is read
as. -/
theorem ofRow_ok_iff_last :
    Record.ofRow s row = .ok back ↔ back.shape = s.id ∧
      Forall₂ (fun x z => Fits row.pairs x ∧ Fills row.pairs.reverse x z)
        (initial s).cells back.cells := by
  have names : ((initial s).cells.map (·.1.name)) = s.fieldNames := by
    simp [initial, Shape.fieldNames, Function.comp_def]
  exact foldlM_assign_ok_iff
    (fun column => Stop.mapError fun e => .mapping (s.name ++ "." ++ column ++ ": " ++ e.message))
    (names ▸ fields)

/-- A row with distinct names fills every field with what the column of its name is read as. -/
theorem ofRow_ok_iff (columns : (row.pairs.map (·.1)).Nodup) :
    Record.ofRow s row = .ok back ↔
      back.shape = s.id ∧ Forall₂ (Fills row.pairs) (initial s).cells back.cells := by
  rw [ofRow_ok_iff_last fields]
  exact and_congr_right fun _ =>
    forall₂_iff_of_mem fun x _ z => fills_reverse_iff columns

end

end Record

end RecordQuery
