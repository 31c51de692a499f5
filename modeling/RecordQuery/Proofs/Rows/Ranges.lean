import Mathlib.Data.List.Dedup
import Mathlib.Data.List.Perm.Basic
import Mathlib.Data.Multiset.Defs
import RecordQuery.Proofs.Rows.Filled
import RecordQuery.Proofs.Rows.Identity

/-!
# What aggregates range over

An aggregate is taken of the values that a column of the derived table has in the rows shown
(`Retrieval.RangesOver`). Without DISTINCT these are the values of one term for the groups of the
SELECT, whatever else it selects. With DISTINCT they are those of rows that differ in some column,
and where there is one column no value comes twice.
-/

namespace RecordQuery

open Sql

/-! ## Lists -/

/-- A list in the order of another one is that of its elements in some order. -/
theorem perm_map_iff {f : α → β} {ys : List β} {xs : List α} :
    ys.Perm (xs.map f) ↔ ∃ zs : List α, zs.Perm xs ∧ ys = zs.map f := by
  constructor
  · intro perm
    have each : List.Forall₂ (fun y x => y = f x) (xs.map f) xs :=
      List.forall₂_map_left_iff.mpr (List.forall₂_same.mpr fun _ _ => rfl)
    obtain ⟨zs, same, perm⟩ := List.perm_comp_forall₂ perm each
    refine ⟨zs, perm, ?_⟩
    rwa [← List.forall₂_eq_eq_eq, List.forall₂_map_right_iff]
  · rintro ⟨zs, perm, rfl⟩
    exact perm.map f

/-- The rows that an optional window shows. -/
def shownBy (w : Option Window) (l : List α) : List α := w.elim l (·.slice l)

theorem shownBy_map (w : Option Window) (f : α → β) (l : List α) :
    shownBy w (l.map f) = (shownBy w l).map f := by
  cases w with
  | none => rfl
  | some w =>
    obtain ⟨skip, take⟩ := w
    cases take <;> simp [shownBy, Window.slice, List.map_drop, List.map_take]

theorem shownBy_sublist (w : Option Window) (l : List α) : (shownBy w l).Sublist l := by
  cases w with
  | none => exact List.Sublist.refl l
  | some w =>
    obtain ⟨skip, take⟩ := w
    cases take with
    | none => exact List.drop_sublist _ _
    | some n => exact (List.take_sublist _ _).trans (List.drop_sublist _ _)

theorem columns_distinctRows (rows : List ResultRow) :
    (distinctRows rows).map (·.columns) = (rows.map (·.columns)).dedup := by
  induction rows with
  | nil => rfl
  | cons row rest ih =>
    have found : rest.any (·.columns = row.columns) = true ↔
        row.columns ∈ rest.map (·.columns) := by simp
    unfold distinctRows
    split
    · next again => rw [ih, List.map_cons, List.dedup_cons_of_mem (found.mp again)]
    · next first =>
      rw [List.map_cons, ih, List.map_cons, List.dedup_cons_of_notMem (first ∘ found.mpr)]

/-! ## Values of a column -/

/-- The value that a row has in the first column of this name. -/
def Sql.Select.valueOf (x : Select) (name : String) (row : ResultRow) : Value :=
  (((x.columns.map (·.label)).zip row.columns).lookup name).getD .null

/-- The aggregate of a statement may be taken of these values: those that its column has in rows
which the derived table may return. -/
def Sql.Retrieval.RangesOver (db : Database) (ps : List Param)
    (le : List Value → List Value → Prop) (x : Retrieval) (values : Multiset Value) : Prop :=
  ∃ f name shown, x.outer = .aggregate f name ∧ x.inner.Returns db ps le shown ∧
    values = (shown.map (x.inner.valueOf name) : List Value)

/-- The aggregates of two statements are taken of the same values, whichever rows are shown. -/
def Sql.Retrieval.RangesLike (db : Database) (ps : List Param)
    (le : List Value → List Value → Prop) (x y : Retrieval) : Prop :=
  ∀ values, x.RangesOver db ps le values ↔ y.RangesOver db ps le values

namespace Sql.Select

variable {db : Database} {ps : List Param} {le : List Value → List Value → Prop} {x y : Select}
  {c : OutputColumn} {f : AggregateFunction} {values : Multiset Value}

theorem valueOf_result (apart : (x.columns.map (·.label)).Nodup) (hc : c ∈ x.columns)
    (g : List RowValues) : x.valueOf c.label (x.result db ps g) = c.term.value db ps g := by
  rw [valueOf, result, List.zip_map', lookup_map apart hc]
  rfl

theorem mem_values_iff (apart : (x.columns.map (·.label)).Nodup) (hc : c ∈ x.columns) {v : Value} :
    v ∈ (x.rows db ps).map (x.valueOf c.label) ↔
      ∃ g ∈ x.groups db ps, c.term.value db ps g = v := by
  constructor
  · intro mem
    obtain ⟨row, hrow, rfl⟩ := List.mem_map.mp mem
    obtain ⟨g, hg, rfl⟩ := mem_rows hrow
    exact ⟨g, hg, (valueOf_result apart hc g).symm⟩
  · rintro ⟨g, hg, rfl⟩
    -- a row that is left out has the columns of one that is not
    have kept : (x.result db ps g).columns ∈ (x.rows db ps).map (·.columns) := by
      have made := List.mem_map_of_mem (f := x.result db ps) hg
      have all := List.mem_map_of_mem (f := (·.columns)) made
      rw [rows]
      split
      · rw [columns_distinctRows]
        exact List.mem_dedup.mpr all
      · exact all
    obtain ⟨row, hrow, same⟩ := List.mem_map.mp kept
    refine List.mem_map.mpr ⟨row, hrow, ?_⟩
    rw [← valueOf_result apart hc g, valueOf, valueOf, same]

/-- Without DISTINCT, the values of a column depend on its term and on the groups in their order. -/
theorem rangesOver_iff (all : x.distinct = false) (apart : (x.columns.map (·.label)).Nodup)
    (hc : c ∈ x.columns) :
    Retrieval.RangesOver db ps le ⟨.aggregate f c.label, x⟩ values ↔
      ∃ gs, gs.Perm (x.groups db ps) ∧
        gs.Pairwise (fun a b => le (x.orders.map (·.term.value db ps a))
          (x.orders.map (·.term.value db ps b))) ∧
        values = ((shownBy x.window gs).map (c.term.value db ps) : List Value) := by
  have rows : x.rows db ps = (x.groups db ps).map (x.result db ps) := by simp [rows, all]
  have shown (gs : List (List RowValues)) :
      (shownBy x.window (gs.map (x.result db ps))).map (x.valueOf c.label)
        = (shownBy x.window gs).map (c.term.value db ps) := by
    rw [shownBy_map, List.map_map]
    exact List.map_congr_left fun g _ => valueOf_result apart hc g
  constructor
  · rintro ⟨_, _, _, ⟨⟩, ⟨rs, perm, sorted, rfl⟩, rfl⟩
    rw [rows] at perm
    obtain ⟨gs, groups, rfl⟩ := perm_map_iff.mp perm
    have keys := List.pairwise_map.mp sorted
    exact ⟨gs, groups, keys, congrArg _ (shown gs)⟩
  · rintro ⟨gs, perm, sorted, rfl⟩
    refine ⟨f, c.label, _, rfl,
      ⟨gs.map (x.result db ps), ?_, List.pairwise_map.mpr sorted, rfl⟩, ?_⟩
    · exact rows ▸ perm.map _
    · exact congrArg _ (shown gs).symm

/-- With DISTINCT, a column that is selected alone has no value twice. -/
theorem nodup_values (distinct : x.distinct = true) (alone : x.columns = [c]) :
    ((x.rows db ps).map (x.valueOf c.label)).Nodup := by
  have apart : (x.columns.map (·.label)).Nodup := by simp [alone]
  have single : ∀ row ∈ x.rows db ps, row.columns = [x.valueOf c.label row] := by
    intro row hrow
    obtain ⟨g, _, rfl⟩ := mem_rows hrow
    rw [valueOf_result apart (by simp [alone]) g, result, alone]
    rfl
  have columns : ((x.rows db ps).map (·.columns)).Nodup := by
    rw [rows, if_pos distinct, columns_distinctRows]
    exact List.nodup_dedup _
  have singletons : (x.rows db ps).map (·.columns)
      = ((x.rows db ps).map (x.valueOf c.label)).map ([·]) := by
    rw [List.map_map]
    exact List.map_congr_left single
  rw [singletons] at columns
  exact columns.of_map _

theorem nodup_of_rangesOver (distinct : x.distinct = true) (alone : x.columns = [c])
    (h : Retrieval.RangesOver db ps le ⟨.aggregate f c.label, x⟩ values) : values.Nodup := by
  obtain ⟨_, _, _, ⟨⟩, ⟨rs, perm, _, rfl⟩, rfl⟩ := h
  have all := (perm.map (x.valueOf c.label)).nodup_iff.mpr (nodup_values distinct alone)
  exact all.sublist ((shownBy_sublist x.window rs).map _)

/-- Without an order and a window there is one choice of rows, up to their order. -/
theorem rangesOver_iff_of_unordered (unordered : x.orders = []) (whole : x.window = none)
    (refl : ∀ keys, le keys keys) {name : String} :
    Retrieval.RangesOver db ps le ⟨.aggregate f name, x⟩ values ↔
      values = ((x.rows db ps).map (x.valueOf name) : List Value) := by
  have keys : ∀ row ∈ x.rows db ps, row.keys = [] := by
    intro row hrow
    obtain ⟨g, _, rfl⟩ := mem_rows hrow
    rw [result, unordered]
    rfl
  constructor
  · rintro ⟨_, _, _, ⟨⟩, ⟨rs, perm, _, rfl⟩, rfl⟩
    rw [whole]
    exact Multiset.coe_eq_coe.mpr (perm.map _)
  · rintro rfl
    refine ⟨f, name, _, rfl, ⟨_, .refl _, ?_, rfl⟩, by rw [whole]; rfl⟩
    refine List.pairwise_of_forall_mem_list fun a ha b hb => ?_
    rw [keys a ha, keys b hb]
    exact refl []

/-- Two SELECT DISTINCT of the same groups, the second with one column: over the whole of them it
has the values of a column of the first exactly if that column has no value twice. -/
theorem same_values_iff (groups : y.groups db ps = x.groups db ps) (distinct : y.distinct = true)
    (apart : (x.columns.map (·.label)).Nodup) (hc : c ∈ x.columns) {d : OutputColumn}
    (alone : y.columns = [d]) (term : d.term = c.term) :
    ((x.rows db ps).map (x.valueOf c.label) : Multiset Value)
        = ((y.rows db ps).map (y.valueOf d.label) : List Value) ↔
      ((x.rows db ps).map (x.valueOf c.label) : Multiset Value).Nodup := by
  have once : ((y.rows db ps).map (y.valueOf d.label) : Multiset Value).Nodup :=
    Multiset.coe_nodup.mpr (nodup_values distinct alone)
  refine ⟨fun same => same ▸ once, fun nodup => (nodup.ext once).mpr fun v => ?_⟩
  rw [Multiset.mem_coe, Multiset.mem_coe, mem_values_iff apart hc,
    mem_values_iff (by simp [alone]) (by simp [alone]), groups, term]

end Sql.Select

end RecordQuery
