import RecordQuery.Proofs.Compile.Paging
import RecordQuery.Proofs.Query.Runs
import RecordQuery.Proofs.Rows.Tiling

/-!
# Windows of a run of calls

Rows to skip, rows to take and pages are asked for by calls of three sorts. Of every sort the last
call counts, whatever stands between them (`Query.pagination_applyAll`), so the window of a query is
known from the last call of each (`window_of_last_calls`).
-/

namespace RecordQuery

open Pagination

/-- What calls ask for together, when of every sort the last one asked for this. -/
def Pagination.ofCalls (skip take : Option UInt64) (page : Option (UInt64 × UInt64)) :
    Option Pagination :=
  if skip = none ∧ take = none ∧ page = none then none
  else some ⟨skip, take, page.map (·.1), page.map (·.2)⟩

theorem Pagination.window_ofCalls (skip take : Option UInt64) (page : Option (UInt64 × UInt64)) :
    (Pagination.mk skip take (page.map (·.1)) (page.map (·.2))).window = match page with
      | none => .ok ⟨skip.getD 0, take⟩
      | some (number, size) =>
        if number = 0 then .error (.invalidPagination "page must be at least 1, got 0")
        else if size = 0 then .error (.invalidPagination "page size must be at least 1, got 0")
        else .ok ⟨skip.getD (saturatingMul (number - 1) size), take.or size⟩ := by
  cases page with
  | none => cases skip <;> simp [window, pageStart?]
  | some page => cases skip <;> simp [window, pageStart?]

theorem Pagination.getD_ofCalls (skip take : Option UInt64) (page : Option (UInt64 × UInt64)) :
    (ofCalls skip take page).getD {} = ⟨skip, take, page.map (·.1), page.map (·.2)⟩ := by
  unfold ofCalls
  split
  · next none =>
    obtain ⟨rfl, rfl, rfl⟩ := none
    rfl
  · rfl

namespace Query

/-- The call asks for rows to skip, rows to take or a page. -/
def Step.Pages : Step → Prop
  | .skip _ | .take _ | .page _ _ => True
  | _ => False

def Step.skip? : Step → Option UInt64
  | .skip rows => some rows
  | _ => none

def Step.take? : Step → Option UInt64
  | .take rows => some rows
  | _ => none

/-- The page of a call and its size. -/
def Step.page? : Step → Option (UInt64 × UInt64)
  | .page number size => some (number, size)
  | _ => none

/-- What the last call of a sort asks for. -/
def last? (ask : Step → Option α) (steps : List Step) : Option α := (steps.filterMap ask).getLast?

theorem last?_concat (ask : Step → Option α) (steps : List Step) (st : Step) :
    last? ask (steps ++ [st]) = (ask st).or (last? ask steps) := by
  rw [last?, List.filterMap_append, List.getLast?_append]
  cases h : ask st <;> simp [h, last?]

/-! ## One operation -/

/-- Other calls leave the page. -/
theorem pagination_apply (q : Query) {st : Step} (h : ¬st.Pages) :
    (q.apply st).pagination = q.pagination := by
  refine (q.apply_leaves st).pagination ?_
  cases st with
  | skip rows => exact absurd trivial h
  | take rows => exact absurd trivial h
  | page number size => exact absurd trivial h
  | _ => exact nofun

/-! ## A run of operations -/

/-- Of every sort the last call counts. -/
theorem pagination_applyAll (s : Shape) (steps : List Step) :
    ((ofShape s).applyAll steps).pagination
      = Pagination.ofCalls (last? Step.skip? steps) (last? Step.take? steps)
          (last? Step.page? steps) := by
  induction steps using List.reverseRecOn with
  | nil => rfl
  | append_singleton steps st ih =>
    -- a call that pages sets its own fields of what is there, which is empty at first
    have asked (change : Pagination → Pagination) :
        (((ofShape s).applyAll steps).paginate change).pagination
          = some (change ⟨last? Step.skip? steps, last? Step.take? steps,
              (last? Step.page? steps).map (·.1), (last? Step.page? steps).map (·.2)⟩) := by
      rw [paginate, ih, Pagination.getD_ofCalls]
    rw [applyAll_concat, last?_concat, last?_concat, last?_concat]
    cases st with
    | skip rows => exact (asked _).trans (by simp [Step.skip?, Step.take?, Step.page?, ofCalls])
    | take rows => exact (asked _).trans (by simp [Step.skip?, Step.take?, Step.page?, ofCalls])
    | page number size =>
      exact (asked _).trans (by simp [Step.skip?, Step.take?, Step.page?, ofCalls])
    | _ => exact (pagination_apply _ id).trans ih

/-- The window of a query of which rows to skip, rows to take and a page with its size were last
asked for so. -/
structure WindowOf (q : Query) (skip take : Option UInt64) (page : Option (UInt64 × UInt64)) :
    Prop where
  absent : q.window = .ok none ↔ skip = none ∧ take = none ∧ page = none
  /-- A page and its size count from 1, also where neither has a say in the window. -/
  refused : ∀ err, q.window = .error err ↔ ∃ number size, page = some (number, size) ∧
    (number = 0 ∨ size = 0) ∧ err = .invalidPagination (if number = 0
      then "page must be at least 1, got 0" else "page size must be at least 1, got 0")
  given : ∀ w, q.window = .ok (some w) ↔
    (skip.isSome ∨ take.isSome ∨ page.isSome) ∧
    (∀ number size, page = some (number, size) → 1 ≤ number ∧ 1 ≤ size) ∧
    w.skip.toNat = skip.elim
      (page.elim 0 fun p => min ((p.1.toNat - 1) * p.2.toNat) (UInt64.size - 1)) UInt64.toNat ∧
    w.take = take.or (page.map (·.2))

/-- A page or its size that does not count from 1 is the fault of the window. -/
theorem WindowOf.of_fault {q : Query} {skip take : Option UInt64} {number size : UInt64}
    (zero : number = 0 ∨ size = 0)
    (h : q.window = .error (.invalidPagination (if number = 0
      then "page must be at least 1, got 0" else "page size must be at least 1, got 0"))) :
    q.WindowOf skip take (some (number, size)) := by
  refine ⟨by simp [h], fun err => ?_, fun w => ?_⟩
  · rw [h, Except.error.injEq]
    constructor
    · rintro rfl
      exact ⟨number, size, rfl, zero, rfl⟩
    · rintro ⟨_, _, ⟨⟩, _, rfl⟩
      rfl
  · refine iff_of_false (by simp [h]) fun ⟨_, counted, _⟩ => ?_
    obtain ⟨first, some⟩ := counted number size rfl
    obtain rfl | rfl := zero
    · exact absurd first (by decide)
    · exact absurd some (by decide)

/-- A window that is given has its rows to skip in 64 bits. -/
theorem WindowOf.of_given {q : Query} {skip take : Option UInt64}
    {page : Option (UInt64 × UInt64)} {start : UInt64}
    (asked : skip.isSome ∨ take.isSome ∨ page.isSome)
    (counted : ∀ number size, page = some (number, size) → 1 ≤ number ∧ 1 ≤ size)
    (hstart : start.toNat
      = page.elim 0 fun p => min ((p.1.toNat - 1) * p.2.toNat) (UInt64.size - 1))
    (h : q.window = .ok (some ⟨skip.getD start, take.or (page.map (·.2))⟩)) :
    q.WindowOf skip take page := by
  refine ⟨?_, fun err => ?_, fun w => ?_⟩
  · refine iff_of_false (by simp [h]) ?_
    rintro ⟨rfl, rfl, rfl⟩
    simp at asked
  · refine iff_of_false (by simp [h]) ?_
    rintro ⟨number, size, hpage, zero, _⟩
    obtain ⟨first, some⟩ := counted number size hpage
    obtain rfl | rfl := zero
    · exact absurd first (by decide)
    · exact absurd some (by decide)
  · have skipped : (skip.getD start).toNat = skip.elim start.toNat UInt64.toNat := by
      cases skip <;> rfl
    rw [and_iff_right asked, and_iff_right counted, ← hstart, ← skipped, UInt64.toNat_inj, h]
    obtain ⟨skip', take'⟩ := w
    simp [eq_comm]

theorem windowOf_ofCalls {q : Query} {skip take : Option UInt64} {page : Option (UInt64 × UInt64)}
    (h : q.pagination = ofCalls skip take page) : q.WindowOf skip take page := by
  by_cases nothing : skip = none ∧ take = none ∧ page = none
  · have absent : q.window = .ok none := by rw [window, h, ofCalls, if_pos nothing]
    obtain ⟨rfl, rfl, rfl⟩ := nothing
    exact ⟨by simp [absent], by simp [absent], by simp [absent]⟩
  · have settled : q.window = (Pagination.mk skip take (page.map (·.1)) (page.map (·.2))).window.map
        some := by rw [window, h, ofCalls, if_neg nothing]
    have asked : skip.isSome ∨ take.isSome ∨ page.isSome := by
      rw [not_and_or, not_and_or] at nothing
      simpa [Option.isSome_iff_ne_none] using nothing
    rw [window_ofCalls] at settled
    cases page with
    | none =>
      have first : (0 : UInt64).toNat = 0 := rfl
      refine .of_given asked ?_ first (by simpa [Except.map] using settled)
      rintro _ _ ⟨⟩
    | some page =>
      obtain ⟨number, size⟩ := page
      by_cases first : number = 0
      · exact .of_fault (.inl first) (by simpa [first, Except.map] using settled)
      · by_cases some : size = 0
        · exact .of_fault (.inr some) (by simpa [first, some, Except.map] using settled)
        · have counted := And.intro (one_le_iff_ne_zero.mpr first) (one_le_iff_ne_zero.mpr some)
          refine .of_given asked ?_ ?_ (by simpa [first, some, Except.map] using settled)
          · rintro _ _ ⟨⟩
            exact counted
          · rw [toNat_saturatingMul, toNat_pred counted.1]
            rfl

end Query

open Query

/-- The window of a run of calls is that of the rows to skip, the rows to take and the page that the
last call of each sort asked for, and no other call changes it. Statements are compiled with this
window, except that a total is counted without one. -/
theorem window_of_last_calls (s : Shape) (steps : List Step) :
    ((ofShape s).applyAll steps).WindowOf (last? Step.skip? steps) (last? Step.take? steps)
      (last? Step.page? steps) ∧
    (∀ st, ¬Step.Pages st → (((ofShape s).applyAll steps).apply st).window
      = ((ofShape s).applyAll steps).window) ∧
    ((ofShape s).applyAll steps).derived.window = ((ofShape s).applyAll steps).window ∧
    ((ofShape s).applyAll steps).allRows.window = .ok none :=
  ⟨windowOf_ofCalls (pagination_applyAll s steps), fun _ h => window_congr (pagination_apply _ h),
    window_congr (pagination_derived _), rfl⟩

/-- Pages so far on that the rows before them cannot be counted, with a projection in between. -/
def farPages : List Step := [
  .page 3 9223372036854775808,
  .skip 7,
  .select ⟨"Total", [{ name := "total", type := .required .any }]⟩ [("total", .named "total")],
  .take 0,
  .page 5 9223372036854775808]

theorem window_of_last_calls_farPages :
    ((ofShape ⟨"Order", []⟩).applyAll farPages).window = .ok (some ⟨7, some 0⟩) ∧
    ((ofShape ⟨"Order", []⟩).applyAll (farPages.eraseIdx 1)).window
      = .ok (some ⟨18446744073709551615, some 0⟩) ∧
    ((ofShape ⟨"Order", []⟩).applyAll (farPages ++ [.page 9 0])).window
      = .error (.invalidPagination "page size must be at least 1, got 0") ∧
    ¬Step.Pages .distinct := by
  obtain ⟨given, _⟩ := window_of_last_calls ⟨"Order", []⟩ farPages
  obtain ⟨far, _⟩ := window_of_last_calls ⟨"Order", []⟩ (farPages.eraseIdx 1)
  obtain ⟨zero, _⟩ := window_of_last_calls ⟨"Order", []⟩ (farPages ++ [.page 9 0])
  refine ⟨(given.given _).mpr ⟨.inl rfl, ?_, rfl, rfl⟩,
    (far.given _).mpr ⟨.inr (.inl rfl), ?_, rfl, rfl⟩,
    (zero.refused _).mpr ⟨9, 0, rfl, .inr rfl, rfl⟩, id⟩
  all_goals
    rintro _ _ ⟨⟩
    decide

end RecordQuery
