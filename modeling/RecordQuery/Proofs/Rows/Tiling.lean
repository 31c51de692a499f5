import RecordQuery.Outcome
import RecordQuery.Proofs.Rows.Pages

/-!
# Pages tile a result

In 64-bit arithmetic the pages of a size hold every row of a result once, one page after the other
and none of them empty, and a page after the last starts past the last row (`pages_tile`). All of it
comes from one law of the number of pages: there is a page after the first `k` exactly if these do
not hold every row (`Paged.lt_totalPages_iff`).
-/

namespace RecordQuery

/-! ## 64-bit numbers -/

theorem one_le_iff_ne_zero {n : UInt64} : 1 ≤ n ↔ n ≠ 0 := by
  rw [UInt64.le_iff_toNat_le, Ne, ← UInt64.toNat_inj]
  exact Nat.one_le_iff_ne_zero

theorem toNat_mul_of_lt {a b c : UInt64} (h : a.toNat * b.toNat < c.toNat) :
    (a * b).toNat = a.toNat * b.toNat := by
  rw [UInt64.toNat_mul]
  exact Nat.mod_eq_of_lt (Nat.lt_trans h c.toNat_lt)

theorem toNat_pred {p : UInt64} (h : 1 ≤ p) : (p - 1).toNat = p.toNat - 1 :=
  UInt64.toNat_sub_of_le p 1 h

theorem toNat_saturatingMul (a b : UInt64) :
    (saturatingMul a b).toNat = min (a.toNat * b.toNat) (UInt64.size - 1) := by
  refine UInt64.toNat_ofNat_of_lt' ?_
  have : 0 < UInt64.size := by decide
  omega

/-- A product below some 64-bit number is not cut off. -/
theorem saturatingMul_of_lt {a b c : UInt64} (h : a.toNat * b.toNat < c.toNat) :
    saturatingMul a b = a * b := by
  refine UInt64.toNat_inj.mp ?_
  have below := c.toNat_lt_size
  rw [toNat_saturatingMul, toNat_mul_of_lt h]
  omega

/-! ## The number of pages -/

namespace Paged

theorem toNat_totalPages {x : Paged α} (hs : 1 ≤ x.pageSize) :
    x.totalPages.toNat = x.totalCount.toNat / x.pageSize.toNat
      + if x.totalCount.toNat % x.pageSize.toNat = 0 then 0 else 1 := by
  have size : 1 ≤ x.pageSize.toNat := hs
  have nonzero : x.pageSize ≠ 0 := fun h => by simp [h] at size
  have rest : x.totalCount % x.pageSize = 0 ↔ x.totalCount.toNat % x.pageSize.toNat = 0 := by
    rw [← UInt64.toNat_inj, UInt64.toNat_mod]
    rfl
  rw [totalPages, if_neg nonzero, UInt64.toNat_add, UInt64.toNat_div]
  split
  · next none =>
    rw [if_pos (rest.mp none)]
    exact Nat.mod_eq_of_lt (Nat.lt_of_le_of_lt (Nat.div_le_self ..) x.totalCount.toNat_lt)
  · next some =>
    have left := mt rest.mpr some
    rw [if_neg left]
    -- a size of 1 leaves no rest, and with a greater one there are fewer full pages than rows
    have large : 2 ≤ x.pageSize.toNat := by
      by_cases one : x.pageSize.toNat = 1
      · rw [one, Nat.mod_one] at left
        exact absurd rfl left
      · omega
    have half : x.totalCount.toNat / x.pageSize.toNat ≤ x.totalCount.toNat / 2 :=
      Nat.div_le_div_left large (by decide)
    have total := x.totalCount.toNat_lt
    exact Nat.mod_eq_of_lt (by rw [UInt64.toNat_one]; omega)

/-- There is a page after the first `k` exactly if these do not hold every row. -/
theorem lt_totalPages_iff {x : Paged α} (hs : 1 ≤ x.pageSize) (k : Nat) :
    k < x.totalPages.toNat ↔ k * x.pageSize.toNat < x.totalCount.toNat := by
  have size : 0 < x.pageSize.toNat := hs
  have split := Nat.div_add_mod x.totalCount.toNat x.pageSize.toNat
  have rest := Nat.mod_lt x.totalCount.toNat size
  rw [toNat_totalPages hs, Nat.mul_comm k]
  generalize x.totalCount.toNat / x.pageSize.toNat = full at *
  obtain before | rfl | past := Nat.lt_trichotomy k full
  · have := Nat.mul_le_mul_left x.pageSize.toNat before
    rw [Nat.mul_succ] at this
    refine iff_of_true ?_ ?_ <;> omega
  · split <;> omega
  · have := Nat.mul_le_mul_left x.pageSize.toNat past
    rw [Nat.mul_succ] at this
    refine iff_of_false ?_ ?_
    · split <;> omega
    · omega

/-- A page has a next one exactly if it and the pages before it do not hold every row. -/
theorem hasNext_iff {x : Paged α} (hs : 1 ≤ x.pageSize) :
    x.hasNext = true ↔ x.page.toNat * x.pageSize.toNat < x.totalCount.toNat := by
  rw [hasNext, decide_eq_true_iff, UInt64.lt_iff_toNat_lt, lt_totalPages_iff hs]

end Paged

/-! ## Pages -/

/-- The window of a page, with the rows before it counted in 64 bits. -/
def Window.ofPage (page size : UInt64) : Window := ⟨(page - 1) * size, some size⟩

/-- Rows are skipped and taken by pages only. -/
def Query.PagesOnly (q : Query) : Prop := ∀ p ∈ q.pagination, p.skip = none ∧ p.take = none

/-- Pages and page sizes count from 1, and the rows before a page are cut off at the last number. -/
theorem Query.window_page_ok_iff {q : Query} (hq : q.PagesOnly) {number size : UInt64}
    {w : Option Window} :
    (q.page number size).window = .ok w ↔
      1 ≤ number ∧ 1 ≤ size ∧ w = some ⟨saturatingMul (number - 1) size, some size⟩ := by
  have given : (q.pagination.getD {}).skip = none ∧ (q.pagination.getD {}).take = none := by
    cases hg : q.pagination with
    | none => exact ⟨rfl, rfl⟩
    | some p => exact hq p hg
  have asked : (q.page number size).pagination = some
      { q.pagination.getD {} with page := some number, pageSize := some size } := rfl
  rw [window, asked, one_le_iff_ne_zero, one_le_iff_ne_zero]
  by_cases noPage : number = 0
  · simp [Pagination.window, noPage, Except.map]
  · by_cases noSize : size = 0
    · simp [Pagination.window, noPage, noSize, Except.map]
    · simp [Pagination.window, Pagination.pageStart?, noPage, noSize, given.1, given.2, Except.map,
        eq_comm]

namespace Paged

/-- The numbers of the pages that there are. -/
def pages (x : Paged α) : List UInt64 := (List.range' 1 x.totalPages.toNat).map UInt64.ofNat

variable {x : Paged α} (hs : 1 ≤ x.pageSize) {p : UInt64}
include hs

/-- The rows before a page that there is are not all rows. -/
theorem before_page (h : 1 ≤ p) (hp : p ≤ x.totalPages) :
    (p - 1).toNat * x.pageSize.toNat < x.totalCount.toNat := by
  refine (lt_totalPages_iff hs _).mp ?_
  have lower : 1 ≤ p.toNat := h
  have upper : p.toNat ≤ x.totalPages.toNat := hp
  rw [toNat_pred h]
  omega

theorem skip_ofPage (h : 1 ≤ p) (hp : p ≤ x.totalPages) :
    (Window.ofPage p x.pageSize).skip.toNat = (p.toNat - 1) * x.pageSize.toNat := by
  rw [Window.ofPage, toNat_mul_of_lt (before_page hs h hp), toNat_pred h]

/-- There are rows for a page, so the page before it is full. -/
theorem skip_next (h : 1 < p) (hp : p ≤ x.totalPages) :
    (Window.ofPage p x.pageSize).skip.toNat
      = (Window.ofPage (p - 1) x.pageSize).skip.toNat + x.pageSize.toNat := by
  have first : 1 ≤ p := UInt64.le_of_lt h
  have number := toNat_pred first
  have second : 1 < p.toNat := h
  have lower : 1 ≤ p - 1 := by
    rw [UInt64.le_iff_toNat_le, number]
    exact Nat.le_sub_one_of_lt second
  have upper : p - 1 ≤ x.totalPages := by
    rw [UInt64.le_iff_toNat_le] at hp ⊢
    omega
  have split : p.toNat - 1 = (p.toNat - 1 - 1) + 1 := by omega
  rw [skip_ofPage hs first hp, skip_ofPage hs lower upper, number, split, Nat.succ_mul]
  rfl

/-- Cut off or not, the rows before a page after the last are all rows. -/
theorem le_skip_past (h : x.totalPages < p) : x.totalCount ≤ saturatingMul (p - 1) x.pageSize := by
  have past : x.totalPages.toNat < p.toNat := h
  have number : (p - 1).toNat = p.toNat - 1 :=
    toNat_pred (Nat.lt_of_le_of_lt (Nat.zero_le _) past)
  have all : x.totalCount.toNat ≤ (p - 1).toNat * x.pageSize.toNat := by
    refine Nat.le_of_not_lt fun left => ?_
    have := (lt_totalPages_iff hs _).mpr left
    omega
  have countable := x.totalCount.toNat_lt_size
  rw [UInt64.le_iff_toNat_le, toNat_saturatingMul]
  omega

/-- The number of a page is read off its window. -/
theorem pageFigures_ofPage (h : 1 ≤ p) (hp : p ≤ x.totalPages) (returned : Nat) :
    pageFigures (some (.ofPage p x.pageSize)) returned = .ok (p, x.pageSize) := by
  have size : 0 < x.pageSize.toNat := hs
  have number : ((p - 1) * x.pageSize / x.pageSize).toNat + 1 = p.toNat := by
    have lower : 1 ≤ p.toNat := h
    rw [UInt64.toNat_div, toNat_mul_of_lt (before_page hs h hp), Nat.mul_div_cancel _ size,
      toNat_pred h, Nat.sub_add_cancel lower]
  rw [Window.ofPage, pageFigures, if_pos (show 0 < x.pageSize from size), number,
    Number.checkedUInt64_toNat]
  rfl

/-- The windows of the pages from one on to the last take rows one after the other. -/
theorem consecutive_pages (k n : Nat) (h : k + n = x.totalPages.toNat) :
    Window.Consecutive (k * x.pageSize.toNat)
      (((List.range' (k + 1) n).map UInt64.ofNat).map (Window.ofPage · x.pageSize))
      (x.totalPages.toNat * x.pageSize.toNat) := by
  induction n generalizing k with
  | zero => exact congrArg (· * _) h
  | succ n ih =>
    have number : (UInt64.ofNat (k + 1)).toNat = k + 1 :=
      UInt64.toNat_ofNat_of_lt' (Nat.lt_of_le_of_lt (by omega) x.totalPages.toNat_lt)
    have rest := ih (k + 1) (by omega)
    refine ⟨?_, x.pageSize, rfl, ?_⟩
    · rw [skip_ofPage hs, number, Nat.add_sub_cancel]
      · exact UInt64.le_iff_toNat_le.mpr (by rw [number]; exact Nat.le_add_left ..)
      · exact UInt64.le_iff_toNat_le.mpr (by omega)
    · rw [← Nat.succ_mul]
      exact rest

end Paged

theorem Window.length_slice_ofPage (page size : UInt64) (rows : List α) :
    ((ofPage page size).slice rows).length
      = min size.toNat (rows.length - (ofPage page size).skip.toNat) := by
  simp [slice, ofPage]

/-- The pages of a query tile a result of so many rows. -/
structure Tiles (q : Query) (x : Paged α) : Prop where
  /-- The rows before a page are counted without being cut off. -/
  window : ∀ p, 1 ≤ p → p ≤ x.totalPages →
    (q.page p x.pageSize).window = .ok (some (.ofPage p x.pageSize)) ∧
    (Window.ofPage p x.pageSize).skip.toNat = (p.toNat - 1) * x.pageSize.toNat
  nonempty : ∀ p, 1 ≤ p → p ≤ x.totalPages → ∀ {β : Type} (rows : List β),
    rows.length = x.totalCount.toNat → (Window.ofPage p x.pageSize).slice rows ≠ []
  /-- A page starts where the rows of the page before it end. -/
  next : ∀ p, 1 < p → p ≤ x.totalPages → ∀ {β : Type} (rows : List β),
    rows.length = x.totalCount.toNat →
    (Window.ofPage p x.pageSize).skip.toNat
      = (Window.ofPage (p - 1) x.pageSize).skip.toNat
        + ((Window.ofPage (p - 1) x.pageSize).slice rows).length
  /-- The rows of the pages, one page after the other, are all rows. -/
  cover : ∀ {β : Type} (rows : List β), rows.length = x.totalCount.toNat →
    (x.pages.flatMap fun p => (Window.ofPage p x.pageSize).slice rows) = rows
  past : ∀ p, x.totalPages < p →
    ∃ w, (q.page p x.pageSize).window = .ok (some w) ∧ x.totalCount ≤ w.skip
  figures : ∀ p, 1 ≤ p → p ≤ x.totalPages → ∀ returned,
    pageFigures (some (.ofPage p x.pageSize)) returned = .ok (p, x.pageSize)
  hasNext : ∀ p, 1 ≤ p → p ≤ x.totalPages →
    (Paged.hasNext { x with page := p } = true ↔ p.toNat * x.pageSize.toNat < x.totalCount.toNat)

theorem pages_tile {q : Query} {x : Paged α} (hq : q.PagesOnly) (hs : 1 ≤ x.pageSize) :
    Tiles q x := by
  refine ⟨?window, ?nonempty, ?next, ?cover, ?past, ?figures, ?hasNext⟩
  case window =>
    intro p h hp
    have uncut := saturatingMul_of_lt (Paged.before_page hs h hp)
    refine ⟨?_, Paged.skip_ofPage hs h hp⟩
    rw [Window.ofPage, ← uncut]
    exact (Query.window_page_ok_iff hq).mpr ⟨h, hs, rfl⟩
  case nonempty =>
    intro p h hp β rows hr empty
    have size : 1 ≤ x.pageSize.toNat := hs
    have before := Paged.before_page hs h hp
    have length := Window.length_slice_ofPage p x.pageSize rows
    rw [empty, hr, Paged.skip_ofPage hs h hp, ← toNat_pred h, List.length_nil] at length
    omega
  case next =>
    intro p h hp β rows hr
    have first : 1 ≤ p := UInt64.le_of_lt h
    have next := Paged.skip_next hs h hp
    have before := Paged.before_page hs first hp
    rw [toNat_pred first, ← Paged.skip_ofPage hs first hp] at before
    rw [Window.length_slice_ofPage, hr]
    omega
  case cover =>
    intro β rows hr
    have whole : x.totalCount.toNat ≤ x.totalPages.toNat * x.pageSize.toNat :=
      Nat.le_of_not_lt fun h => Nat.lt_irrefl _ ((Paged.lt_totalPages_iff hs _).mpr h)
    have consecutive := Paged.consecutive_pages hs 0 x.totalPages.toNat (Nat.zero_add _)
    have all := consecutive.flatMap_slice rows
    rw [List.take_of_length_le (by omega), Nat.zero_mul, List.drop_zero, List.flatMap_map] at all
    exact all
  case past =>
    intro p h
    have counted : 1 ≤ p := Nat.lt_of_le_of_lt (Nat.zero_le _) (UInt64.lt_iff_toNat_lt.mp h)
    exact ⟨_, (Query.window_page_ok_iff hq).mpr ⟨counted, hs, rfl⟩, Paged.le_skip_past hs h⟩
  case figures => exact fun p h hp returned => Paged.pageFigures_ofPage hs h hp returned
  case hasNext =>
    intro p h hp
    have next : Paged.hasNext { x with page := p } = decide (p < x.totalPages) := rfl
    rw [next, decide_eq_true_iff, UInt64.lt_iff_toNat_lt, Paged.lt_totalPages_iff hs]

/-- As many rows as can be counted, in pages of three, the last of them full. -/
def countedOut : Paged Record := ⟨[], 18446744073709551615, 1, 3⟩

theorem pages_tile_countedOut :
    (Query.ofShape ⟨"Event", []⟩).PagesOnly ∧ 1 ≤ countedOut.pageSize ∧
      Tiles (Query.ofShape ⟨"Event", []⟩) countedOut ∧
      countedOut.totalPages = 6148914691236517205 ∧
      (Window.ofPage 6148914691236517205 3).skip.toNat = 18446744073709551612 ∧
      Paged.hasNext { countedOut with page := 6148914691236517205 } = false ∧
      ∃ w, ((Query.ofShape ⟨"Event", []⟩).page 6148914691236517206 3).window = .ok (some w) ∧
        18446744073709551615 ≤ w.skip := by
  have unset : (Query.ofShape ⟨"Event", []⟩).PagesOnly := fun p hp => by cases hp
  have tiles := pages_tile (x := countedOut) unset (by decide)
  refine ⟨unset, by decide, tiles, by decide, ?_, ?_, ?_⟩
  · exact (tiles.window 6148914691236517205 (by decide) (by decide)).2
  · have next := tiles.hasNext 6148914691236517205 (by decide) (by decide)
    exact Bool.eq_false_iff.mpr fun h => absurd (next.mp h) (by decide)
  · exact tiles.past 6148914691236517206 (by decide)

end RecordQuery
