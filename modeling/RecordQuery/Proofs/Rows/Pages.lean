import RecordQuery.Proofs.Compile.Clauses
import RecordQuery.Proofs.Rows.Basic

/-!
# Pages are parts of one listing

Where rows are tied only if they are the same, every run lists them in the same order, so a page
shows the part of that listing that its window is for (`Select.Returns.slice`), and windows that
follow one another show it without a gap (`Window.Consecutive.flatMap_slice`).
-/

namespace RecordQuery

open Sql

namespace Window

/-- The windows take rows one after the other, from one row up to another. -/
def Consecutive : Nat → List Window → Nat → Prop
  | start, [], stop => start = stop
  | start, w :: ws, stop =>
    w.skip.toNat = start ∧ ∃ n, w.take = some n ∧ Consecutive (start + n.toNat) ws stop

theorem Consecutive.le {start stop : Nat} {ws : List Window} (h : Consecutive start ws stop) :
    start ≤ stop := by
  induction ws generalizing start with
  | nil => exact Nat.le_of_eq h
  | cons w ws ih =>
    obtain ⟨_, n, _, rest⟩ := h
    have := ih rest
    omega

theorem Consecutive.flatMap_slice {start stop : Nat} {ws : List Window}
    (h : Consecutive start ws stop) (l : List α) :
    ws.flatMap (·.slice l) = (l.take stop).drop start := by
  induction ws generalizing start with
  | nil =>
    rw [show start = stop from h, List.drop_take_self]
    rfl
  | cons w ws ih =>
    obtain ⟨skip, n, take, rest⟩ := h
    have size : stop - start = n.toNat + (stop - (start + n.toNat)) := by
      have := rest.le
      omega
    rw [List.flatMap_cons, ih rest, slice, take, skip, List.drop_take, List.drop_take, size,
      List.take_add, List.drop_drop]
    rfl

end Window

/-- Every run lists the rows in the same order, and shows the part of it that its window is for. -/
theorem Sql.Select.Returns.slice {db : Database} {ps : List Param}
    {le : List Value → List Value → Prop} {x : Select} {w : Window} {shown whole : List ResultRow}
    (h : x.Returns db ps le shown) (hw : x.window = some w)
    (antisymm : ∀ a b, le a b → le b a → a = b)
    (determined : ∀ a ∈ x.rows db ps, ∀ b ∈ x.rows db ps, a.keys = b.keys → a.columns = b.columns)
    (perm : whole.Perm (x.rows db ps)) (sorted : whole.Pairwise fun a b => le a.keys b.keys) :
    shown = w.slice whole := by
  obtain ⟨all, allPerm, allSorted, rfl⟩ := h
  have untied (a b : ResultRow) (ha : a ∈ all) (hb : b ∈ whole) (hab : le a.keys b.keys)
      (hba : le b.keys a.keys) : a = b := by
    have keys := antisymm _ _ hab hba
    have columns := determined a (allPerm.mem_iff.mp ha) b (perm.mem_iff.mp hb) keys
    cases a
    cases b
    simp only at keys columns
    rw [keys, columns]
  have same : all = whole :=
    (allPerm.trans perm.symm).eq_of_pairwise untied allSorted sorted
  rw [hw, same]
  rfl

namespace Query

/-- The pages of a query differ in the window only. -/
theorem toSelect_page {r : Registry} {q : Query} {n : Nat} {vs : List Value} {x : Select}
    {p : Pagination} {w : Window} (h : (q.toSelect r).run n = (vs, .ok x))
    (paged : q.pagination.isSome = true) (hw : p.window = .ok w) :
    (Query.toSelect r { q with pagination := some p }).run n
      = (vs, .ok { x with window := some w }) := by
  obtain ⟨window, scope, us, core, ws, orders, hcheck, hwindow, hscope, hcore, horders, rfl, rfl⟩ :=
    toSelect_ok_iff.mp h
  have windowed : window.isSome = true := (window_isSome hwindow).trans paged
  have page : Query.window { q with pagination := some p } = .ok (some w) :=
    congrArg (Except.map some) hw
  have keys : orderKeys scope { q with pagination := some p } (some w)
      = orderKeys scope q window := by
    unfold orderKeys
    rw [windowed]
    rfl
  exact toSelect_ok_iff.mpr
    ⟨some w, scope, us, core, ws, orders, hcheck, page, hscope, hcore, by rw [keys, horders], rfl,
      rfl⟩

/-- The rows that running the query may return, where storage orders keys so. -/
def Returns (r : Registry) (db : Database) (le : List Value → List Value → Prop) (q : Query)
    (shown : List ResultRow) : Prop :=
  ∃ vs x, (q.toSelect r).run 0 = (vs, .ok x) ∧ x.Returns db (Param.number vs) le shown

end Query

/-- The pages of a query are parts of one listing: each shows the part that its window is for, and
pages one after the other, whichever runs they are of, neither overlap nor skip a row. -/
structure Listing (r : Registry) (db : Database) (le : List Value → List Value → Prop) (q : Query)
    (whole : List ResultRow) : Prop where
  slice : ∀ p w shown, p.window = .ok w →
    { q with pagination := some p }.Returns r db le shown → shown = w.slice whole
  consecutive : ∀ (pages : List (Window × List ResultRow)) (start stop : Nat),
    Window.Consecutive start (pages.map (·.1)) stop →
    (∀ page ∈ pages, ∃ p, p.window = .ok page.1 ∧
      { q with pagination := some p }.Returns r db le page.2) →
    pages.flatMap (·.2) = (whole.take stop).drop start

theorem Listing.of_slices {r : Registry} {db : Database} {le : List Value → List Value → Prop}
    {q : Query} {whole : List ResultRow}
    (slice : ∀ p w shown, p.window = .ok w →
      { q with pagination := some p }.Returns r db le shown → shown = w.slice whole) :
    Listing r db le q whole := by
  refine ⟨slice, fun pages start stop consecutive returns => ?_⟩
  rw [← consecutive.flatMap_slice, List.flatMap_map, List.flatMap_def, List.flatMap_def]
  refine congrArg List.flatten (List.map_congr_left fun page hpage => ?_)
  obtain ⟨p, hw, shown⟩ := returns page hpage
  exact slice p page.1 page.2 hw shown

/-- Where keys tell rows apart, the rows in the order of their keys are the listing. -/
theorem Query.listing {r : Registry} {q : Query} {vs : List Value} {x : Select} {db : Database}
    {le : List Value → List Value → Prop} {whole : List ResultRow}
    (h : (q.toSelect r).run 0 = (vs, .ok x)) (paged : q.pagination.isSome = true)
    (antisymm : ∀ a b, le a b → le b a → a = b)
    (determined : ∀ a ∈ x.rows db (Param.number vs), ∀ b ∈ x.rows db (Param.number vs),
      a.keys = b.keys → a.columns = b.columns)
    (perm : whole.Perm (x.rows db (Param.number vs)))
    (sorted : whole.Pairwise fun a b => le a.keys b.keys) : Listing r db le q whole := by
  refine .of_slices fun p w shown hw returns => ?_
  obtain ⟨vs', x', hx', returns⟩ := returns
  rw [toSelect_page h paged hw] at hx'
  cases hx'
  exact returns.slice rfl antisymm determined perm sorted

end RecordQuery
