import RecordQuery.Proofs.Rows.Basic
import RecordQuery.Proofs.Sql.Reference

/-!
# Keys tell joined rows apart

If the key columns of every table determine its rows, those of all tables together determine the
joined rows: a join adds the row it found, or the absent row where it found none, and which of the
two it is depends on the rows only (`determined_joined`). A FULL JOIN has both a row without a left
part and a row without a right part, so there the absent row must be told from the others too.
-/

namespace RecordQuery

open Sql

/-- The rows have the same values in the listed columns of the tables. -/
def AgreeOn (columns : Metadata → List Mapping) (ts : List ScopedTable) (a b : RowValues) : Prop :=
  ∀ t ∈ ts, ∀ c ∈ columns t.metadata, a t.label c.column = b t.label c.column

/-- The columns that tell rows apart determine all. -/
def Determined (ts : List ScopedTable) (rows : List RowValues) : Prop :=
  ∀ a ∈ rows, ∀ b ∈ rows, AgreeOn Metadata.fallbackOrder ts a b → AgreeOn Metadata.columns ts a b

/-- The same of the rows of one table. -/
def Metadata.Determines (m : Metadata) (rows : List StoredRow) : Prop :=
  ∀ a ∈ rows, ∀ b ∈ rows, (∀ c ∈ m.fallbackOrder, a c.column = b c.column) →
    ∀ c ∈ m.columns, a c.column = b c.column

/-- The rows, and the absent row if it counts as one of them. -/
def orAbsent (counts : Bool) (absent : α) (rows : List α) : List α :=
  if counts then absent :: rows else rows

theorem mem_orAbsent {counts : Bool} {absent x : α} {rows : List α} :
    x ∈ orAbsent counts absent rows ↔ (counts = true ∧ x = absent) ∨ x ∈ rows := by
  cases counts <;> simp [orAbsent]

theorem RowValues.absent_beside (label : String) :
    RowValues.absent.beside label .absent = .absent := by
  funext l c
  simp [beside, RowValues.absent, StoredRow.absent]

/-- The column is one of the tables. -/
def Covers (ts : List ScopedTable) (p : String × String) : Prop :=
  ∃ t ∈ ts, t.label = p.1 ∧ ∃ c ∈ t.metadata.columns, c.column = p.2

theorem agreeOn_append {columns : Metadata → List Mapping} {ts us : List ScopedTable}
    {a b : RowValues} :
    AgreeOn columns (ts ++ us) a b ↔ AgreeOn columns ts a b ∧ AgreeOn columns us a b :=
  List.forall_mem_append

/-- Joined rows agree where both parts do. -/
theorem agreeOn_beside {columns : Metadata → List Mapping} {ts : List ScopedTable} {t : ScopedTable}
    (fresh : ∀ u ∈ ts, u.label ≠ t.label) (l l' : RowValues) (r r' : StoredRow) :
    AgreeOn columns (ts ++ [t]) (l.beside t.label r) (l'.beside t.label r') ↔
      AgreeOn columns ts l l' ∧ ∀ c ∈ columns t.metadata, r c.column = r' c.column := by
  rw [agreeOn_append]
  refine and_congr ?_ ?_
  · refine forall₂_congr fun u hu => ?_
    simp only [RowValues.beside, if_neg (fresh u hu)]
  · simp [AgreeOn, RowValues.beside]

/-! ## Conditions -/

section

variable (db : Database) (ps : List Param) {a b : RowValues}

/-- What a term stands for depends on the columns it names. -/
theorem Sql.Term.value_congr (t : Term) (h : ∀ p ∈ t.columns, a p.1 p.2 = b p.1 p.2) :
    t.value db ps [a] = t.value db ps [b] := by
  induction t with
  | column label name => exact h (label, name) (List.mem_singleton_self _)
  | parameter slot => rfl
  | countAll => rfl
  | aggregate f t ih => exact congrArg (fun v => db.figure f [v]) (ih h)

theorem Sql.Condition.truth_congr (c : Condition) (h : ∀ p ∈ c.columns, a p.1 p.2 = b p.1 p.2) :
    c.truth db ps a = c.truth db ps b := by
  induction c with
  | compare op l r =>
    have hl := l.value_congr db ps fun p hp => h p (List.mem_append_left _ hp)
    have hr := r.value_congr db ps fun p hp => h p (List.mem_append_right _ hp)
    rw [truth, truth, hl, hr]
  | isNull t => rw [truth, truth, t.value_congr db ps h]
  | isNotNull t => rw [truth, truth, t.value_congr db ps h]
  | like t p => rw [truth, truth, t.value_congr db ps h]
  | isTrue t => rw [truth, truth, t.value_congr db ps h]
  | logical op l r ihl ihr =>
    have hl := ihl fun p hp => h p (List.mem_append_left _ hp)
    have hr := ihr fun p hp => h p (List.mem_append_right _ hp)
    cases op <;> rw [truth, truth, hl, hr]
  | negation c ih => rw [truth, truth, ih h]

end

theorem AgreeOn.covered {ts : List ScopedTable} {a b : RowValues} {p : String × String}
    (h : AgreeOn Metadata.columns ts a b) (hp : Covers ts p) : a p.1 p.2 = b p.1 p.2 := by
  obtain ⟨t, ht, hl, c, hc, hn⟩ := hp
  rw [← hl, ← hn]
  exact h t ht c hc

/-! ## Joins -/

section

variable (db : Database) (ps : List Param)

namespace Sql.JoinClause

/-- How a joined row comes about: its parts match, or one is absent because the other has no
match. -/
inductive Pairs (j : JoinClause) (left : List RowValues) : RowValues → StoredRow → Prop
  | both {l : RowValues} {r : StoredRow} (hl : l ∈ left) (hr : r ∈ db.rows j.table)
    (h : j.links db ps l r = true) : Pairs j left l r
  | leftOnly {l : RowValues} (keeps : j.keepsLeft = true) (hl : l ∈ left)
    (h : ∀ r ∈ db.rows j.table, j.links db ps l r = false) : Pairs j left l .absent
  | rightOnly {r : StoredRow} (keeps : j.keepsRight = true) (hr : r ∈ db.rows j.table)
    (h : ∀ l ∈ left, j.links db ps l r = false) : Pairs j left .absent r

theorem mem_rows {j : JoinClause} {left : List RowValues} {row : RowValues}
    (h : row ∈ j.rows db ps left) :
    ∃ l r, j.Pairs db ps left l r ∧ row = l.beside j.label r := by
  simp only [rows, List.mem_append] at h
  rcases h with (h | h) | h
  · obtain ⟨l, hl, h⟩ := List.mem_flatMap.mp h
    obtain ⟨r, hr, rfl⟩ := List.mem_map.mp h
    obtain ⟨hr, hlink⟩ := List.mem_filter.mp hr
    exact ⟨l, r, .both hl hr hlink, rfl⟩
  · split at h
    · next keeps =>
      obtain ⟨l, hl, rfl⟩ := List.mem_map.mp h
      obtain ⟨hl, none⟩ := List.mem_filter.mp hl
      exact ⟨l, .absent, .leftOnly keeps hl (by simpa using none), rfl⟩
    · cases h
  · split at h
    · next keeps =>
      obtain ⟨r, hr, rfl⟩ := List.mem_map.mp h
      obtain ⟨hr, none⟩ := List.mem_filter.mp hr
      exact ⟨.absent, r, .rightOnly keeps hr (by simpa using none), rfl⟩
    · cases h

theorem full_of_keeps {j : JoinClause} (hl : j.keepsLeft = true) (hr : j.keepsRight = true) :
    j.kind = .full := by
  obtain left | full := of_decide_eq_true hl
  · obtain right | full := of_decide_eq_true hr
    · cases left.symm.trans right
    · exact full
  · exact full

end Sql.JoinClause

/-- A join of a table whose rows are determined by their keys. -/
structure Joins (ts : List ScopedTable) (j : JoinClause) (t : ScopedTable) : Prop where
  label : j.label = t.label
  table : j.table = t.metadata.table
  fresh : ∀ u ∈ ts, u.label ≠ t.label
  on : ∀ p ∈ j.columns, Covers (ts ++ [t]) p

theorem Joins.links_congr {ts : List ScopedTable} {j : JoinClause} {t : ScopedTable}
    (h : Joins ts j t) {l l' : RowValues} {r r' : StoredRow}
    (hl : AgreeOn Metadata.columns ts l l')
    (hr : ∀ c ∈ t.metadata.columns, r c.column = r' c.column) :
    j.links db ps l r = j.links db ps l' r' := by
  have same := (agreeOn_beside h.fresh l l' r r').mpr ⟨hl, hr⟩
  unfold JoinClause.links
  rw [h.label]
  cases hc : j.on with
  | none => rfl
  | some c =>
    have columns : c.columns = j.columns := by rw [JoinClause.columns, hc]; rfl
    have truth := c.truth_congr db ps fun p hp => same.covered (h.on p (columns ▸ hp))
    simp only [Option.all_some, Condition.holds, truth]

theorem Joins.determined {ts : List ScopedTable} {j : JoinClause} {t : ScopedTable}
    {left : List RowValues} {full : Bool} (h : Joins ts j t) (hfull : j.kind = .full → full = true)
    (hl : Determined ts (orAbsent full .absent left))
    (hr : t.metadata.Determines (orAbsent full .absent (db.rows t.metadata.table))) :
    Determined (ts ++ [t]) (orAbsent full .absent (j.rows db ps left)) := by
  rw [← h.table] at hr
  cases full with
  | true =>
    -- both parts of a row, absent or not, are among rows that their keys determine
    have parts (row : RowValues) (hrow : row ∈ RowValues.absent :: j.rows db ps left) :
        ∃ l ∈ RowValues.absent :: left, ∃ r ∈ StoredRow.absent :: db.rows j.table,
          row = l.beside t.label r := by
      obtain rfl | hrow := List.mem_cons.mp hrow
      · exact ⟨.absent, List.mem_cons_self, .absent, List.mem_cons_self,
          (RowValues.absent_beside _).symm⟩
      · obtain ⟨l, r, hp, rfl⟩ := j.mem_rows db ps hrow
        rw [h.label]
        cases hp with
        | both hl hr _ =>
          exact ⟨l, List.mem_cons_of_mem _ hl, r, List.mem_cons_of_mem _ hr, rfl⟩
        | leftOnly _ hl _ =>
          exact ⟨l, List.mem_cons_of_mem _ hl, .absent, List.mem_cons_self, rfl⟩
        | rightOnly _ hr _ =>
          exact ⟨.absent, List.mem_cons_self, r, List.mem_cons_of_mem _ hr, rfl⟩
    intro a ha b hb
    obtain ⟨l, ml, r, mr, rfl⟩ := parts a ha
    obtain ⟨l', ml', r', mr', rfl⟩ := parts b hb
    rw [agreeOn_beside h.fresh, agreeOn_beside h.fresh]
    exact fun ⟨kl, kr⟩ => ⟨hl l ml l' ml' kl, hr r mr r' mr' kr⟩
  | false =>
    -- a row with a match and one without cannot agree: the same rows match the same
    intro a ha b hb same
    obtain ⟨l, r, hp, rfl⟩ := j.mem_rows db ps ha
    obtain ⟨l', r', hp', rfl⟩ := j.mem_rows db ps hb
    rw [h.label] at same ⊢
    rw [agreeOn_beside h.fresh] at same ⊢
    obtain ⟨kl, kr⟩ := same
    have notFull {p : Prop} (hkl : j.keepsLeft = true) (hkr : j.keepsRight = true) : p := by
      cases hfull (JoinClause.full_of_keeps hkl hkr)
    cases hp with
    | both ml mr link =>
      cases hp' with
      | both ml' mr' _ => exact ⟨hl l ml l' ml' kl, hr r mr r' mr' kr⟩
      | leftOnly _ ml' none =>
        have links := h.links_congr db ps (r := r) (hl l ml l' ml' kl) fun _ _ => rfl
        cases (link.symm.trans links).trans (none r mr)
      | rightOnly _ mr' none =>
        have links := h.links_congr db ps (l := l) (fun _ _ _ _ => rfl) (hr r mr r' mr' kr)
        cases (link.symm.trans links).trans (none l ml)
    | leftOnly keeps ml none =>
      cases hp' with
      | both ml' mr' link =>
        have links := h.links_congr db ps (r := r') (hl l ml l' ml' kl) fun _ _ => rfl
        cases (link.symm.trans links.symm).trans (none r' mr')
      | leftOnly _ ml' _ => exact ⟨hl l ml l' ml' kl, fun _ _ => rfl⟩
      | rightOnly keeps' _ _ => exact notFull keeps keeps'
    | rightOnly keeps mr none =>
      cases hp' with
      | both ml' mr' link =>
        have links := h.links_congr db ps (l := l') (fun _ _ _ _ => rfl) (hr r mr r' mr' kr)
        cases (link.symm.trans links.symm).trans (none l' ml')
      | leftOnly keeps' _ _ => exact notFull keeps' keeps
      | rightOnly _ mr' _ => exact ⟨fun _ _ _ _ => rfl, hr r mr r' mr' kr⟩

/-- The joins of tables, each with a condition over the tables before it and its own. -/
inductive JoinedTo : List ScopedTable → List JoinClause → List ScopedTable → Prop
  | nil (ts : List ScopedTable) : JoinedTo ts [] []
  | cons {ts us : List ScopedTable} {j : JoinClause} {js : List JoinClause} {t : ScopedTable}
    (h : Joins ts j t) (rest : JoinedTo (ts ++ [t]) js us) : JoinedTo ts (j :: js) (t :: us)

theorem determined_joined {ts us : List ScopedTable} {js : List JoinClause}
    {rows : List RowValues} {full : Bool} (h : JoinedTo ts js us)
    (hfull : ∀ j ∈ js, j.kind = .full → full = true)
    (hrows : Determined ts (orAbsent full .absent rows))
    (hus : ∀ t ∈ us, t.metadata.Determines (orAbsent full .absent (db.rows t.metadata.table))) :
    Determined (ts ++ us)
      (orAbsent full .absent (js.foldl (fun rows j => j.rows db ps rows) rows)) := by
  induction h generalizing rows with
  | nil ts =>
    rw [List.append_nil]
    exact hrows
  | cons h _ ih =>
    rw [List.append_cons]
    refine ih (fun j hj => hfull j (List.mem_cons_of_mem _ hj)) ?_ fun t ht =>
      hus t (List.mem_cons_of_mem _ ht)
    exact h.determined db ps (hfull _ List.mem_cons_self) hrows (hus _ List.mem_cons_self)

/-- The rows of a single table. -/
theorem determined_stored {t : ScopedTable} {full : Bool}
    (h : t.metadata.Determines (orAbsent full .absent (db.rows t.metadata.table))) :
    Determined [t] (orAbsent full .absent
      ((db.rows t.metadata.table).map (RowValues.absent.beside t.label))) := by
  have stored (row : RowValues) (hrow : row ∈ orAbsent full RowValues.absent
      ((db.rows t.metadata.table).map (RowValues.absent.beside t.label))) :
      ∃ r ∈ orAbsent full StoredRow.absent (db.rows t.metadata.table),
        row = RowValues.absent.beside t.label r := by
    obtain ⟨counts, rfl⟩ | hrow := mem_orAbsent.mp hrow
    · exact ⟨.absent, mem_orAbsent.mpr (.inl ⟨counts, rfl⟩), (RowValues.absent_beside _).symm⟩
    · obtain ⟨r, hr, rfl⟩ := List.mem_map.mp hrow
      exact ⟨r, mem_orAbsent.mpr (.inr hr), rfl⟩
  intro a ha b hb
  obtain ⟨r, mr, rfl⟩ := stored a ha
  obtain ⟨r', mr', rfl⟩ := stored b hb
  have fresh : ∀ u ∈ ([] : List ScopedTable), u.label ≠ t.label := by simp
  rw [← List.nil_append [t], agreeOn_beside fresh, agreeOn_beside fresh]
  exact fun ⟨kl, kr⟩ => ⟨fun _ _ _ _ => rfl, h r mr r' mr' kr⟩

end

end RecordQuery
