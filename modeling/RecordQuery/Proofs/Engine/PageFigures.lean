import RecordQuery.Proofs.Engine.Rejection
import RecordQuery.Proofs.Rows.Ranges
import RecordQuery.Proofs.Rows.Tiling

/-!
# What the figures of a page tell

A page is reported by its number and size, and a window need not be a page. One of some rows is
reported as the page that it starts in, any other as the first page, of the rows that it has
(`pageFigures_of_sized`, `pageFigures_of_unsized`). So the figures tell whether there are rows
before and after a window where it is a page or shows all rows; elsewhere they tell of a page that
is not quite the window (`figures_of_shown`).
-/

namespace RecordQuery

open Number

variable {σ α β : Type}

/-! ## Windows as pages -/

section

variable {w : Option Window} {n : UInt64}

/-- Of the windows of some rows only that of the last row number starts in a page that has none. -/
theorem toNat_page {skip : UInt64} (hn : n ≠ 0)
    (numbered : ¬(skip = 18446744073709551615 ∧ n = 1)) :
    (skip / n + 1).toNat = skip.toNat / n.toNat + 1 := by
  have size : 1 ≤ n.toNat := one_le_iff_ne_zero.mpr hn
  have last := skip.toNat_lt
  have below : skip.toNat / n.toNat + 1 < 2 ^ 64 := by
    by_cases one : n = 1
    · have before : skip.toNat ≠ 18446744073709551615 := fun h =>
        numbered ⟨UInt64.toNat_inj.mp h, one⟩
      rw [one, UInt64.toNat_one, Nat.div_one]
      omega
    · have large : 2 ≤ n.toNat := by
        have : n.toNat ≠ 1 := fun h => one (UInt64.toNat_inj.mp h)
        omega
      have half : skip.toNat / n.toNat ≤ skip.toNat / 2 := Nat.div_le_div_left large (by decide)
      omega
  rw [UInt64.toNat_add, UInt64.toNat_div, UInt64.toNat_one]
  exact Nat.mod_eq_of_lt below

theorem pageFigures_of_sized (h : w.bind (·.take) = some n) (hn : n ≠ 0)
    (numbered : ¬(w.elim 0 (·.skip) = 18446744073709551615 ∧ n = 1)) (returned : Nat) :
    pageFigures w returned = .ok (w.elim 0 (·.skip) / n + 1, n) := by
  have page := toNat_page hn numbered
  obtain ⟨⟨skip, take⟩, rfl, taken⟩ := Option.bind_eq_some_iff.mp h
  cases taken
  have size : 0 < n := one_le_iff_ne_zero.mpr hn
  rw [pageFigures, if_pos size, UInt64.toNat_div]
  dsimp only [Option.elim_some] at page ⊢
  rw [← page, checkedUInt64_toNat]
  rfl

theorem pageFigures_of_unsized (h : ∀ n, w.bind (·.take) = some n → n = 0) (returned : Nat) :
    pageFigures w returned = .ok (1, returned.toUInt64) := by
  rcases w with _ | ⟨skip, _ | n⟩
  · rfl
  · rfl
  · cases h n rfl
    rfl

theorem length_shownBy (w : Option Window) (l : List α) :
    (shownBy w l).length = (w.bind (·.take)).elim (l.length - (w.elim 0 (·.skip)).toNat)
      fun n => min n.toNat (l.length - (w.elim 0 (·.skip)).toNat) := by
  rcases w with _ | ⟨skip, _ | n⟩ <;> simp [shownBy, Window.slice]

end

/-! ## Rows before and after -/

/-- The figures tell whether there are rows after those of a page that starts after so many, and
whether there are rows before them. -/
def Paged.Tells (x : Paged α) (skip : UInt64) : Prop :=
  (x.hasNext = true ↔ skip.toNat + x.items.length < x.totalCount.toNat) ∧
  (x.hasPrevious = true ↔ 0 < skip)

/-- What the figures of a page tell whose rows are those after the first `skip`, at most `take`. -/
structure PagedFrom (skip : UInt64) (take : Option UInt64) (x : Paged α) : Prop where
  /-- A window of some rows counts as the page that it starts in. -/
  sized : ∀ n, take = some n → n ≠ 0 →
    (x.hasNext = true ↔ (skip.toNat / n.toNat + 1) * n.toNat < x.totalCount.toNat) ∧
    (x.hasPrevious = true ↔ n ≤ skip)
  /-- Any other window counts as the first page, of as many rows as it has. -/
  unsized : (∀ n, take = some n → n = 0) →
    (x.hasNext = true ↔ x.items ≠ [] ∧ x.items.length < x.totalCount.toNat) ∧
    x.hasPrevious = false
  /-- Rows after the window are told of, unless it is one of no rows. -/
  rest : take ≠ some 0 → skip.toNat + x.items.length < x.totalCount.toNat → x.hasNext = true
  before : x.hasPrevious = true → 0 < skip
  /-- A window that is a page, or has all rows, has all told of it. -/
  aligned : skip = 0 ∧ take = none ∨ (∃ n, take = some n ∧ n ≠ 0 ∧ n.toNat ∣ skip.toNat) →
    x.Tells skip

namespace PagedFrom

variable {skip n total : UInt64} {items : List α}

/-- The page that a window of some rows starts in ends no later than the window does. -/
theorem of_sized (hn : n ≠ 0) (numbered : ¬(skip = 18446744073709551615 ∧ n = 1))
    (shown : items.length = min n.toNat (total.toNat - skip.toNat)) :
    PagedFrom skip (some n) ⟨items, total, skip / n + 1, n⟩ := by
  have size : 1 ≤ n := one_le_iff_ne_zero.mpr hn
  have number := toNat_page hn numbered
  have next : Paged.hasNext ⟨items, total, skip / n + 1, n⟩ = true ↔
      (skip.toNat / n.toNat + 1) * n.toNat < total.toNat := by
    rw [Paged.hasNext_iff size, number]
  have previous : Paged.hasPrevious ⟨items, total, skip / n + 1, n⟩ = true ↔ n ≤ skip := by
    rw [Paged.hasPrevious, decide_eq_true_iff, UInt64.lt_iff_toNat_lt, number, UInt64.toNat_one,
      UInt64.le_iff_toNat_le, Nat.lt_add_left_iff_pos, Nat.div_pos_iff]
    exact and_iff_right size
  have start : skip.toNat / n.toNat * n.toNat ≤ skip.toNat := Nat.div_mul_le_self ..
  have pos : 1 ≤ n.toNat := size
  rw [Nat.succ_mul] at next
  refine ⟨?sized, ?unsized, ?rest, ?before, ?aligned⟩
  case sized =>
    rintro _ ⟨⟩ -
    rw [Nat.succ_mul]
    exact ⟨next, previous⟩
  case unsized => exact fun none => absurd (none n rfl) hn
  case rest =>
    intro _ left
    refine next.mpr ?_
    dsimp only at left
    omega
  case before =>
    intro h
    exact UInt64.lt_of_lt_of_le size (previous.mp h)
  case aligned =>
    rintro (⟨-, ⟨⟩⟩ | ⟨_, ⟨⟩, -, page⟩)
    have whole := Nat.div_mul_cancel page
    rw [Paged.Tells, next, previous, whole]
    dsimp only
    refine ⟨by omega, fun h => UInt64.lt_of_lt_of_le size h, fun h => ?_⟩
    exact Nat.le_of_dvd h page

/-- A window of no rows, or of all after the first, counts as a page that no rows are before. -/
theorem of_unsized {take : Option UInt64} (unsized : ∀ n, take = some n → n = 0)
    (shown : items.length = take.elim (total.toNat - skip.toNat) fun _ => 0) :
    PagedFrom skip take ⟨items, total, 1, items.length.toUInt64⟩ := by
  have few : items.length ≤ total.toNat := by
    rw [shown]
    cases take with
    | none => exact Nat.sub_le ..
    | some n => exact Nat.zero_le _
  have size : items.length.toUInt64.toNat = items.length :=
    UInt64.toNat_ofNat_of_lt' (Nat.lt_of_le_of_lt few total.toNat_lt_size)
  have next : Paged.hasNext ⟨items, total, 1, items.length.toUInt64⟩ = true ↔
      items ≠ [] ∧ items.length < total.toNat := by
    by_cases empty : items = []
    · cases empty
      exact iff_of_false Bool.false_ne_true fun h => h.1 rfl
    · have some : 1 ≤ items.length.toUInt64 := by
        rw [UInt64.le_iff_toNat_le, size]
        exact List.length_pos_iff.mpr empty
      rw [Paged.hasNext_iff some, size, UInt64.toNat_one, Nat.one_mul, and_iff_right empty]
  refine ⟨?sized, fun _ => ⟨next, rfl⟩, ?rest, nofun, ?aligned⟩
  case sized => exact fun n taken hn => absurd (unsized n taken) hn
  case rest =>
    intro taken left
    cases take with
    | none =>
      rw [Option.elim_none] at shown
      dsimp only at left
      omega
    | some n =>
      rw [unsized n rfl] at taken
      exact absurd rfl taken
  case aligned =>
    rintro (⟨rfl, rfl⟩ | ⟨n, taken, hn, -⟩)
    · rw [Option.elim_none, UInt64.toNat_zero] at shown
      rw [Paged.Tells, next]
      refine ⟨iff_of_false (fun h => ?_) fun left => ?_, iff_of_false nofun nofun⟩
      · omega
      · rw [UInt64.toNat_zero] at left
        dsimp only at left
        omega
    · exact absurd (unsized n taken) hn

/-- The figures of a page whose rows are the ones that its window shows of all rows. -/
theorem of_shown {w : Option Window} {whole : List β} (counted : total.toNat = whole.length)
    (shown : items.length = (shownBy w whole).length)
    (numbered : ¬(w.elim 0 (·.skip) = 18446744073709551615 ∧ w.bind (·.take) = some 1)) :
    ∃ page size, pageFigures w items.length = .ok (page, size) ∧
      PagedFrom (w.elim 0 (·.skip)) (w.bind (·.take)) ⟨items, total, page, size⟩ := by
  rw [length_shownBy, ← counted] at shown
  by_cases sized : ∃ n, w.bind (·.take) = some n ∧ n ≠ 0
  · obtain ⟨n, taken, hn⟩ := sized
    rw [taken] at numbered
    have other : ¬(w.elim 0 (·.skip) = 18446744073709551615 ∧ n = 1) := fun h =>
      numbered ⟨h.1, congrArg some h.2⟩
    refine ⟨_, n, pageFigures_of_sized taken hn other _, ?_⟩
    rw [taken] at shown ⊢
    exact of_sized hn other shown
  · have unsized : ∀ n, w.bind (·.take) = some n → n = 0 := by
      intro n taken
      exact Classical.byContradiction fun hn => sized ⟨n, taken, hn⟩
    refine ⟨1, _, pageFigures_of_unsized unsized _, of_unsized unsized (shown.trans ?_)⟩
    cases taken : w.bind (·.take) with
    | none => rfl
    | some n =>
      rw [unsized n taken]
      exact Nat.zero_min _

end PagedFrom

/-! ## Pages that are read -/

namespace Engine

/-- In a state the rows of a compiled query are answered, which leads to another state. -/
def Answers (e : Engine σ) (t : Query.Terminal) (q : Query) (s : σ) (rows : List Row) (s' : σ) :
    Prop :=
  ∃ st, q.statement e.registry e.executor.dialect t = .ok st ∧
    (e.executor.query st).result.run s = (.ok rows, s')

theorem Answers.run {e : Engine σ} {t : Query.Terminal} {q : Query} {s s' : σ} {rows : List Row}
    (h : e.Answers t q s rows s') (read : List Row → Except Stop α) :
    (e.run t q read).result.run s = (read rows, s') := by
  obtain ⟨st, compiled, answered⟩ := h
  have sent : e.ask st read
      = (e.executor.query st).mapFailure .error >>= fun rows => .ofExcept (read rows) := rfl
  rw [run_of_ok compiled, sent, Action.run_bind, Action.run_mapFailure, answered]
  rfl

/-- In a state all rows are counted and then those of them are answered that a window shows. -/
def ShowsPage (e : Engine σ) (q : Query) (w : Option Window) (whole : List Row) (s : σ) : Prop :=
  ∃ counted s' n s'', e.Answers .totalCount q s counted s' ∧ countRows counted = .ok n ∧
    n.toNat = whole.length ∧ e.Answers .rows q s' (shownBy w whole) s''

end Engine

theorem length_readRows {read : RowReader α} {rows : List Row} {items : List α}
    (h : readRows read rows = .ok items) : items.length = rows.length :=
  (mapM_ok_iff.mp h).length_eq.symm

/-- The figures of a page that all its rows are answered and read of. The one window left out starts
at the last row number and has one row, in a page past the last page number. -/
theorem figures_of_shown {e : Engine σ} {q : Query} {w : Option Window} {whole : List Row} {s : σ}
    {read : RowReader α} {items : List α} (window : q.window = .ok w)
    (shows : e.ShowsPage q w whole s) (fits : readRows read (shownBy w whole) = .ok items)
    (numbered : ¬(w.elim 0 (·.skip) = 18446744073709551615 ∧ w.bind (·.take) = some 1)) :
    ∃ x, ((e.toPaged q read).result.run s).1 = .ok x ∧ x.items = items ∧
      x.totalCount.toNat = whole.length ∧
      PagedFrom (w.elim 0 (·.skip)) (w.bind (·.take)) x := by
  obtain ⟨counted, s', n, s'', total, number, same, rows⟩ := shows
  obtain ⟨page, size, figures, paged⟩ :=
    PagedFrom.of_shown same (length_readRows fits) numbered
  refine ⟨⟨items, n, page, size⟩, ?_, rfl, same, paged⟩
  have counts : (e.totalCount q).result.run s = (.ok n, s') := by
    rw [← number]
    exact total.run countRows
  have lists : (e.toList q read).result.run s' = (.ok items, s'') := by
    rw [← fits]
    exact rows.run (readRows read)
  have parts : e.toPaged q read = e.totalCount q >>= fun n => e.toList q read >>= fun items =>
      (Action.ofExcept (pageFigures w items.length)).mapFailure (fun _ => .overflow) >>=
        fun figures => pure ⟨items, n, figures.1, figures.2⟩ := by
    rw [Engine.toPaged, window]
    rfl
  rw [parts, Action.run_bind, counts]
  dsimp only
  rw [Action.run_bind, lists]
  dsimp only
  rw [figures]
  rfl

/-- Orders seven to nine. -/
def threeOrders : List Row := [7, 8, 9].map fun id => .ofPairs [("id", .int id)]

/-- Two orders after the first, which are on two pages of two. -/
def acrossPages : Query := Query.applyAll (.ofShape ⟨"Order", []⟩) [.skip 1, .take 2]

/-- The answers of the number of some orders and of the ones that a window shows. -/
def pageOf (w : Window) (orders : List Row) : Script :=
  [.ok [.ofPairs [("", .long (Int64.ofNat orders.length))]], .ok (w.slice orders)]

theorem orderEngine_shows_acrossPages :
    orderEngine.ShowsPage acrossPages (some ⟨1, some 2⟩) threeOrders
      (pageOf ⟨1, some 2⟩ threeOrders) :=
  ⟨_, _, 3, [], ⟨_, rfl, rfl⟩, rfl, rfl, _, rfl, rfl⟩

theorem figures_of_shown_acrossPages :
    acrossPages.window = .ok (some ⟨1, some 2⟩) ∧
    orderEngine.ShowsPage acrossPages (some ⟨1, some 2⟩) threeOrders
      (pageOf ⟨1, some 2⟩ threeOrders) ∧
    ∃ x, ((orderEngine.toPaged acrossPages (FieldType.ofRow (.required .int))).result.run
      (pageOf ⟨1, some 2⟩ threeOrders)).1 = .ok x ∧ x.items = [8, 9] ∧
      x.totalCount.toNat = 3 ∧ x.hasNext = true ∧ x.hasPrevious = false := by
  have window : acrossPages.window = .ok (some ⟨1, some 2⟩) := rfl
  have shows := orderEngine_shows_acrossPages
  have fits : readRows (FieldType.ofRow (.required .int)) (shownBy (some ⟨1, some 2⟩) threeOrders)
      = .ok [8, 9] := rfl
  obtain ⟨x, read, items, total, figures⟩ := figures_of_shown window shows fits
    fun h => absurd h.1 (by decide)
  have some := figures.sized 2 rfl (by decide)
  refine ⟨window, shows, x, read, items, total, some.1.mpr ?_, Bool.eq_false_iff.mpr ?_⟩
  · rw [total]
    decide
  · exact fun h => absurd (some.2.mp h) (by decide)

/-- A window across two pages is reported as the first of them: a row after it is told of that is
not there, and the row before it is not. -/
theorem acrossPages_misreported :
    acrossPages.window = .ok (some ⟨1, some 2⟩) ∧
    orderEngine.ShowsPage acrossPages (some ⟨1, some 2⟩) threeOrders
      (pageOf ⟨1, some 2⟩ threeOrders) ∧
    ((orderEngine.toPaged acrossPages (FieldType.ofRow (.required .int))).result.run
      (pageOf ⟨1, some 2⟩ threeOrders)).1 = .ok ⟨[8, 9], 3, 1, 2⟩ ∧
    ¬∀ (e : Engine Script) (q : Query) (w : Option Window) (whole : List Row) (s : Script)
        (items : List _), q.window = .ok w → e.ShowsPage q w whole s →
      readRows (FieldType.ofRow (.required .int)) (shownBy w whole) = .ok items →
      ∃ x, ((e.toPaged q (FieldType.ofRow (.required .int))).result.run s).1 = .ok x ∧
        x.Tells (w.elim 0 (·.skip)) := by
  have shows := orderEngine_shows_acrossPages
  have read : ((orderEngine.toPaged acrossPages (FieldType.ofRow (.required .int))).result.run
      (pageOf ⟨1, some 2⟩ threeOrders)).1 = .ok ⟨[8, 9], 3, 1, 2⟩ := rfl
  refine ⟨rfl, shows, read, fun told => ?_⟩
  obtain ⟨x, hx, next, -⟩ := told _ _ (some ⟨1, some 2⟩) _ _ [8, 9] rfl shows rfl
  cases Except.ok.inj (read.symm.trans hx)
  exact absurd (next.mp (by decide)) (by decide)

end RecordQuery
