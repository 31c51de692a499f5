import Mathlib.Order.MinMax
import RecordQuery.Proofs.Engine.PageFigures
import RecordQuery.Proofs.Query.Windows

/-!
# Page numbers in 64 bits

The page that a window starts in is one more than a quotient, and the sum is a 64-bit number for all
windows but one: the row of the greatest number, alone (`pageFigures_numbers`). There the sum
overflows, and no page is reported. Calls ask for this window with a skip or with a take of their
own, never by pages alone (`page_numbered_iff`).
-/

namespace RecordQuery

/-- The page that a window is reported as, counted without a bound. -/
def pageNumber : Option Window → Nat
  | some ⟨skip, some take⟩ => if take = 0 then 1 else skip.toNat / take.toNat + 1
  | _ => 1

/-- The one row after as many as can be counted. -/
def lastRow : Window := ⟨18446744073709551615, some 1⟩

/-! ## Windows -/

theorem pageNumber_of_sized {w : Option Window} {n : UInt64} (h : w.bind (·.take) = some n)
    (hn : n ≠ 0) : pageNumber w = (w.elim 0 (·.skip)).toNat / n.toNat + 1 := by
  obtain ⟨⟨skip, take⟩, rfl, taken⟩ := Option.bind_eq_some_iff.mp h
  cases taken
  exact if_neg hn

theorem pageNumber_of_unsized {w : Option Window} (h : ∀ n, w.bind (·.take) = some n → n = 0) :
    pageNumber w = 1 := by
  rcases w with _ | ⟨skip, _ | n⟩
  · rfl
  · rfl
  · exact if_pos (h n rfl)

/-- The page of any other window is counted as it is, from 1. -/
theorem pageFigures_numbers {w : Option Window} (h : w ≠ some lastRow) (returned : Nat) :
    ∃ page size, pageFigures w returned = .ok (page, size) ∧ page.toNat = pageNumber w ∧
      1 ≤ page := by
  by_cases sized : ∃ n, w.bind (·.take) = some n ∧ n ≠ 0
  · obtain ⟨n, taken, hn⟩ := sized
    have numbered : ¬(w.elim 0 (·.skip) = 18446744073709551615 ∧ n = 1) := by
      rintro ⟨skipped, rfl⟩
      obtain ⟨⟨skip, take⟩, rfl, rfl⟩ := Option.bind_eq_some_iff.mp taken
      cases skipped
      exact h rfl
    have page := toNat_page hn numbered
    refine ⟨_, n, pageFigures_of_sized taken hn numbered returned,
      page.trans (pageNumber_of_sized taken hn).symm, UInt64.le_iff_toNat_le.mpr ?_⟩
    rw [page]
    exact Nat.le_add_left ..
  · have unsized : ∀ n, w.bind (·.take) = some n → n = 0 := by
      intro n taken
      exact Classical.byContradiction fun hn => sized ⟨n, taken, hn⟩
    exact ⟨1, _, pageFigures_of_unsized unsized returned, (pageNumber_of_unsized unsized).symm,
      UInt64.le_refl 1⟩

/-- The number of the page of the last row is the first that is past 64 bits. -/
theorem pageFigures_lastRow (returned : Nat) :
    pageFigures (some lastRow) returned = .error ⟨⟩ ∧ pageNumber (some lastRow) = UInt64.size :=
  ⟨rfl, rfl⟩

/-! ## Runs of calls -/

/-- Calls of which rows to skip, rows to take and a page with its size were last asked for so ask
for the last row alone: one row is asked for, after as many as can be counted. A page of one row
does not start so far on, so one of the two is asked for by itself. -/
def AsksLastRow (skip take : Option UInt64) (page : Option (UInt64 × UInt64)) : Prop :=
  skip = some 18446744073709551615 ∧ take.or (page.map (·.2)) = some 1 ∨
    skip = none ∧ take = some 1 ∧ ∃ number size, page = some (number, size) ∧
      UInt64.size - 1 ≤ (number.toNat - 1) * size.toNat

/-- A page of one row starts before the last row. -/
theorem before_lastRow (number : UInt64) : (number.toNat - 1) * 1 < UInt64.size - 1 := by
  have below : number.toNat < UInt64.size := number.toNat_lt_size
  have size : UInt64.size = 18446744073709551616 := rfl
  omega

theorem Query.WindowOf.lastRow_iff {q : Query} {w : Option Window} {skip take : Option UInt64}
    {page : Option (UInt64 × UInt64)} (of : q.WindowOf skip take page) (h : q.window = .ok w) :
    w = some lastRow ↔ AsksLastRow skip take page := by
  cases w with
  | none =>
    obtain ⟨rfl, rfl, rfl⟩ := of.absent.mp h
    exact iff_of_false nofun (by simp [AsksLastRow])
  | some w =>
    obtain ⟨-, -, skipped, taken⟩ := (of.given w).mp h
    have settled : some w = some lastRow ↔
        w.skip.toNat = UInt64.size - 1 ∧ take.or (page.map (·.2)) = some 1 := by
      rw [← taken, Option.some.injEq, lastRow]
      cases w
      rw [Window.mk.injEq, ← UInt64.toNat_inj]
      rfl
    rw [settled, skipped, AsksLastRow]
    cases skip with
    | some n =>
      rw [Option.elim_some, Option.some.injEq, ← UInt64.toNat_inj]
      simp
    | none =>
      rcases page with _ | ⟨number, size⟩
      · simp
      · cases take with
        | some n =>
          simp only [Option.elim_none, Option.elim_some, min_eq_right_iff]
          simp [and_comm]
        | none =>
          simp only [Option.elim_none, Option.elim_some, min_eq_right_iff, Option.none_or,
            Option.map_some, Option.some.injEq]
          refine iff_of_false ?_ (by simp)
          rintro ⟨far, rfl⟩
          exact absurd (before_lastRow number) (Nat.not_lt.mpr far)

open Query in
/-- Whatever calls are made, the page of their window is counted as it is, from 1, unless they ask
for the last row alone. The number of its page is the first that 64 bits do not hold, and counting
it overflows. -/
theorem page_numbered_iff (s : Shape) (steps : List Step) (w : Option Window)
    (h : ((ofShape s).applyAll steps).window = .ok w) (returned : Nat) :
    ((∃ page size, pageFigures w returned = .ok (page, size) ∧ page.toNat = pageNumber w ∧
        1 ≤ page) ↔
      ¬AsksLastRow (last? Step.skip? steps) (last? Step.take? steps) (last? Step.page? steps)) ∧
    (pageFigures w returned = .error ⟨⟩ ↔
      AsksLastRow (last? Step.skip? steps) (last? Step.take? steps) (last? Step.page? steps)) ∧
    (AsksLastRow (last? Step.skip? steps) (last? Step.take? steps) (last? Step.page? steps) →
      pageNumber w = UInt64.size) := by
  rw [← (windowOf_ofCalls (pagination_applyAll s steps)).lastRow_iff h]
  have last (asked : w = some lastRow) :
      pageFigures w returned = .error ⟨⟩ ∧ pageNumber w = UInt64.size :=
    asked ▸ pageFigures_lastRow returned
  refine ⟨⟨?_, fun other => pageFigures_numbers other returned⟩,
    ⟨fun overflow => ?_, fun asked => (last asked).1⟩, fun asked => (last asked).2⟩
  · rintro ⟨page, size, counted, -⟩ asked
    rw [(last asked).1] at counted
    cases counted
  · by_contra other
    obtain ⟨page, size, counted, -⟩ := pageFigures_numbers other returned
    rw [overflow] at counted
    cases counted

/-- A page so far on that the rows before it cannot be counted, and then one row of it. -/
def farRow : List Query.Step := [.page 4294967297 4294967296, .take 1]

open Query in
theorem page_numbered_iff_farRow :
    ((ofShape ⟨"Order", []⟩).applyAll (farRow.take 1)).window
      = .ok (some ⟨18446744073709551615, some 4294967296⟩) ∧
    (∃ page size, pageFigures (some ⟨18446744073709551615, some 4294967296⟩) 0 = .ok (page, size) ∧
      page.toNat = 4294967296 ∧ 1 ≤ page) ∧
    ((ofShape ⟨"Order", []⟩).applyAll farRow).window = .ok (some lastRow) ∧
    pageFigures (some lastRow) 0 = .error ⟨⟩ ∧ pageNumber (some lastRow) = UInt64.size := by
  have page : ((ofShape ⟨"Order", []⟩).applyAll (farRow.take 1)).window
      = .ok (some ⟨18446744073709551615, some 4294967296⟩) := by rfl
  have row : ((ofShape ⟨"Order", []⟩).applyAll farRow).window = .ok (some lastRow) := by rfl
  have counted := (page_numbered_iff _ _ _ page 0).1.mpr (by simp [AsksLastRow, last?, farRow,
    Step.skip?, Step.take?, Step.page?])
  have asked : AsksLastRow (last? Step.skip? farRow) (last? Step.take? farRow)
      (last? Step.page? farRow) := .inr ⟨rfl, rfl, _, _, rfl, by decide⟩
  obtain ⟨_, overflow, past⟩ := page_numbered_iff _ _ _ row 0
  exact ⟨page, counted, row, overflow.mpr asked, past asked⟩

open Query in
/-- One row is asked for after as many as can be counted, and its page is not. -/
theorem lastRow_not_counted :
    ((ofShape ⟨"Order", []⟩).applyAll [.skip 18446744073709551615, .take 1]).window
      = .ok (some lastRow) ∧
    pageNumber (some lastRow) = UInt64.size ∧ pageFigures (some lastRow) 0 = .error ⟨⟩ ∧
    ¬∀ (steps : List Step) (w : Option Window) (returned : Nat), (∀ st ∈ steps, Step.Pages st) →
      ((ofShape ⟨"Order", []⟩).applyAll steps).window = .ok w →
      ∃ page size, pageFigures w returned = .ok (page, size) ∧ 1 ≤ page := by
  refine ⟨rfl, rfl, rfl, fun counted => ?_⟩
  obtain ⟨page, size, fits, -⟩ := counted [.skip 18446744073709551615, .take 1] (some lastRow) 0
    (by simp [Step.Pages]) rfl
  cases fits

end RecordQuery
