import RecordQuery.Proofs.Write.Conditions
import RecordQuery.Proofs.Write.Keyed
import RecordQuery.Proofs.Write.Width

/-!
# Columns that a write names once

The column list of an insert is what the last call that set it named, or every column that a write
may set (`InsertPlan.listed_applyAll`). The columns that an update sets are those that its calls
set, one after the other (`UpdatePlan.sets_applyAll`). Neither is looked through for a column that
is there already, so a column is named once exactly if the calls name it once, under either of its
names (`columns_named_once_iff`).
-/

namespace RecordQuery

open Sql Lowering

/-! ## Columns in the text of an update -/

/-- The names in front of the conditions, without the first, which is that of the table. -/
def Statement.assignedNames (s : Statement) : List String :=
  (((tokens s.sql).takeWhile (· ≠ .word "WHERE")).filterMap Token.name?).tail

namespace Sql.Update

theorem takeWhile_wherePieces (filters : List Condition) :
    ((wherePieces filters).flatMap Piece.tokens).takeWhile (· ≠ .word "WHERE") = [] := by
  have word : (Piece.text " WHERE ").tokens = [.word "WHERE"] := rfl
  unfold wherePieces
  split
  · rfl
  · simp [word]

/-- What is set, in front of the conditions. -/
def setPieces (assignments : List (String × Nat)) : List Piece :=
  separated ", " (assignments.map fun (c, slot) => [.ident c, .text " = ", .parameter slot])

variable {assignments : List (String × Nat)}

theorem tokens_setPieces_cons (a : String × Nat) (as : List (String × Nat)) :
    (setPieces (a :: as)).flatMap Piece.tokens
      = [.ident a.1, .sign "=", .word (placeholder a.2)] ++ as.flatMap fun b =>
        [.mark ',', .ident b.1, .sign "=", .word (placeholder b.2)] := by
  have comma : (Piece.text ", ").tokens = [.mark ','] := rfl
  have equal : (Piece.text " = ").tokens = [.sign "="] := rfl
  simp [setPieces, separated, List.flatMap_map, List.flatMap_assoc, comma, equal,
    Piece.tokens_ident, Piece.tokens_parameter]

theorem names_setPieces :
    ((setPieces assignments).flatMap Piece.tokens).filterMap Token.name?
      = assignments.map (·.1) := by
  cases assignments with
  | nil => rfl
  | cons a as =>
    rw [tokens_setPieces_cons]
    simp [List.filterMap_cons, List.filterMap_flatMap, Token.name?, List.map_eq_flatMap]

/-- No placeholder ends the part in front of the conditions. -/
theorem not_where_of_mem_setPieces :
    ∀ t ∈ (setPieces assignments).flatMap Piece.tokens, t ≠ .word "WHERE" := by
  have placed (slot : Nat) : placeholder slot ≠ "WHERE" := placeholder_ne (by decide) slot
  cases assignments with
  | nil => simp [setPieces, separated]
  | cons a as =>
    rw [tokens_setPieces_cons]
    simp only [List.mem_append, List.mem_cons, List.not_mem_nil, or_false, List.mem_flatMap]
    rintro t ((rfl | rfl | rfl) | ⟨b, _, rfl | rfl | rfl | rfl⟩) <;> simp [placed]

/-- The names in front of the conditions are the table and the columns that are set. -/
theorem assignedNames_ofPieces (u : Update) (bound : List Value) :
    (Statement.ofPieces u.pieces bound).assignedNames = u.assignments.map (·.1) := by
  have update : (Piece.text "UPDATE ").tokens = [.word "UPDATE"] := rfl
  have set : (Piece.text " SET ").tokens = [.word "SET"] := rfl
  have whole : u.pieces.flatMap Piece.tokens
      = (.word "UPDATE" :: .ident u.table :: .word "SET" ::
          (setPieces u.assignments).flatMap Piece.tokens)
        ++ (wherePieces u.filters).flatMap Piece.tokens := by
    simp [Update.pieces, setPieces, update, set, Piece.tokens_ident]
  have front : ∀ t ∈ Token.word "UPDATE" :: .ident u.table :: .word "SET" ::
      (setPieces u.assignments).flatMap Piece.tokens, decide (t ≠ .word "WHERE") = true := by
    simpa using not_where_of_mem_setPieces
  rw [Statement.assignedNames, Statement.ofPieces, u.legible.tokens_sqlOf, whole,
    List.takeWhile_append_of_pos front, takeWhile_wherePieces, List.append_nil]
  simp [List.filterMap_cons, Token.name?, names_setPieces]

end Sql.Update

namespace Write

/-- Columns of a table are told apart by their names, where those of all its columns are. -/
theorem nodup_columns_iff {m : Metadata} (distinct : (m.columns.map (·.column)).Nodup)
    {cs : List Mapping} (declared : ∀ c ∈ cs, c ∈ m.columns) :
    (cs.map (·.column)).Nodup ↔ cs.Nodup :=
  ⟨.of_map _, fun once => once.map_on fun c hc c' hc' same =>
    List.inj_on_of_nodup_map distinct (declared c hc) (declared c' hc') same⟩

/-! ## Column lists -/

namespace InsertPlan

/-- The column list that an operation names. -/
def Step.listed? : Step → Option (List String)
  | .setColumns names => some names
  | _ => none

/-- The names of the last column list, or those given if there is none. -/
def listedNames (names : List String) (steps : List Step) : List String :=
  (steps.filterMap Step.listed?).getLast?.getD names

/-- The last column list stands for no column twice. -/
def ListsOnce (m : Metadata) (steps : List Step) : Prop :=
  ((listedNames [] steps).map m.columnFor?).Nodup

/-- The columns are those that the names stand for. Without names they may be all that a write may
set. -/
def NamedBy (p : InsertPlan) (names : List String) : Prop :=
  names.map p.target.metadata.columnFor? = p.columns.map some ∨
    names = [] ∧ p.columns = p.target.metadata.writable

variable {p q : InsertPlan} {names : List String} {st : Step} {steps : List Step} {m : Metadata}

theorem listedNames_cons (names : List String) (st : Step) (steps : List Step) :
    listedNames names (st :: steps) = listedNames (st.listed?.getD names) steps := by
  unfold listedNames
  cases h : st.listed? with
  | none => rw [List.filterMap_cons_none h, Option.getD_none]
  | some listed =>
    rw [List.filterMap_cons_some h, List.getLast?_cons, Option.getD_some, Option.getD_some]

theorem NamedBy.apply (hp : p.NamedBy names) (h : p.apply st = .ok q) :
    q.NamedBy (st.listed?.getD names) ∧ q.target = p.target := by
  cases st with
  | setColumns listed =>
    obtain ⟨_, cs, hcs, rfl⟩ := setColumns_ok_iff.mp h
    have named : cs.map some = listed.map p.target.metadata.columnFor? :=
      mapM_ok_map (fun _ _ writable => (Target.writable_ok_iff.mp writable).1.symm) hcs
    exact ⟨.inl named.symm, rfl⟩
  | addRow row =>
    obtain ⟨_, _, rfl⟩ := addRow_ok_iff.mp h
    exact ⟨hp, rfl⟩
  | addRecord record =>
    obtain ⟨cs, row, hcs, h⟩ := addRecord_ok h
    obtain ⟨_, _, rfl⟩ := addRow_ok_iff.mp h
    refine ⟨?_, rfl⟩
    obtain rfl | ⟨empty, rfl⟩ := hcs
    · exact hp
    · -- the columns are filled in where there were none, so no names were given
      refine .inr ⟨?_, rfl⟩
      obtain named | ⟨none, _⟩ := hp
      · rw [empty, List.map_nil, List.map_eq_nil_iff] at named
        exact named
      · exact none
  | returningKey =>
    cases h
    exact ⟨hp, rfl⟩

theorem listed_applyAll (hp : p.NamedBy names) (h : p.applyAll steps = .ok q) :
    q.NamedBy (listedNames names steps) ∧ q.target = p.target := by
  induction steps generalizing p names with
  | nil =>
    cases h
    exact ⟨hp, rfl⟩
  | cons st steps ih =>
    obtain ⟨p', first, rest⟩ := bind_ok_iff.mp h
    obtain ⟨hp', same⟩ := hp.apply first
    obtain ⟨lists, kept⟩ := ih hp' rest
    exact ⟨listedNames_cons names st steps ▸ lists, kept.trans same⟩

theorem NamedBy.nodup_iff (hp : p.NamedBy names)
    (distinct : (p.target.metadata.columns.map (·.column)).Nodup) :
    (p.columns.map (·.column)).Nodup ↔ (names.map p.target.metadata.columnFor?).Nodup := by
  obtain named | ⟨rfl, all⟩ := hp
  · have declared : ∀ c ∈ p.columns, c ∈ p.target.metadata.columns := by
      intro c hc
      have mem : some c ∈ names.map p.target.metadata.columnFor? :=
        named ▸ List.mem_map_of_mem hc
      obtain ⟨name, _, found⟩ := List.mem_map.mp mem
      exact Metadata.mem_of_columnFor? found
    rw [nodup_columns_iff distinct declared, named, List.nodup_map_iff fun _ _ => Option.some.inj]
  · rw [all]
    refine iff_of_true (distinct.sublist (List.filter_sublist.map _)) ?_
    exact List.nodup_nil

end InsertPlan

/-! ## Columns that are set -/

namespace UpdatePlan

/-- The columns that an operation sets. -/
def Step.sets (m : Metadata) : Step → List Mapping
  | .set name _ => (m.columnFor? name).toList
  | .setRecord _ => m.settable
  | .whereEqual _ _ => []
  | .filter _ => []

/-- No two operations set the same column. -/
def SetsOnce (m : Metadata) (steps : List Step) : Prop :=
  steps.Pairwise fun a b => (a.sets m).Disjoint (b.sets m)

variable {p q : UpdatePlan} {st : Step} {steps : List Step} {m : Metadata}

theorem sets_apply (h : p.apply st = .ok q) :
    q.assignments.map (·.1) = p.assignments.map (·.1) ++ st.sets p.target.metadata := by
  cases st with
  | set name v =>
    obtain ⟨c, named, rfl⟩ := map_ok_iff.mp h
    simp [Step.sets, (Target.writable_ok_iff.mp named).1]
  | whereEqual name v =>
    obtain ⟨c, _, rfl⟩ := map_ok_iff.mp h
    simp [Step.sets]
  | filter e =>
    cases h
    simp [Step.sets, filter]
  | setRecord e =>
    obtain ⟨_, keys, values, keyValues, _, hvalues, _, rfl⟩ := setRecord_ok h
    have length : values.length = p.target.metadata.settable.length := (takeRow_ok_iff.mp hvalues).1
    simp [Step.sets, List.map_fst_zip (Nat.le_of_eq length.symm)]

/-- The columns of an update are those its operations set, one after the other. -/
theorem sets_applyAll (h : p.applyAll steps = .ok q) :
    q.assignments.map (·.1)
      = p.assignments.map (·.1) ++ steps.flatMap (Step.sets p.target.metadata) := by
  induction steps generalizing p with
  | nil =>
    cases h
    simp
  | cons st steps ih =>
    obtain ⟨p', first, rest⟩ := bind_ok_iff.mp h
    rw [ih rest, sets_apply first, target_of_apply first, List.flatMap_cons, List.append_assoc]

theorem nodup_sets (once : m.columns.Nodup) (st : Step) : (st.sets m).Nodup := by
  cases st with
  | set name v => cases h : m.columnFor? name <;> simp [Step.sets, h]
  | setRecord e => exact once.sublist List.filter_sublist
  | whereEqual name v => exact List.nodup_nil
  | filter e => exact List.nodup_nil

theorem mem_columns_of_mem_sets {c : Mapping} (h : c ∈ st.sets m) : c ∈ m.columns := by
  cases st with
  | set name v => exact Metadata.mem_of_columnFor? (Option.mem_toList.mp h)
  | setRecord e => exact List.mem_of_mem_filter h
  | whereEqual name v => cases h
  | filter e => cases h

theorem nodup_flatMap_sets_iff (distinct : (m.columns.map (·.column)).Nodup) :
    ((steps.flatMap (Step.sets m)).map (·.column)).Nodup ↔ SetsOnce m steps := by
  have declared : ∀ c ∈ steps.flatMap (Step.sets m), c ∈ m.columns := by
    intro c hc
    obtain ⟨st, _, mem⟩ := List.mem_flatMap.mp hc
    exact mem_columns_of_mem_sets mem
  rw [nodup_columns_iff distinct declared, List.nodup_flatMap]
  exact and_iff_right fun st _ => nodup_sets (distinct.of_map _) st

theorem assignedNames_of_build {s : Statement} (h : p.build = .ok s) :
    s.assignedNames = (p.assignments.map (·.1)).map (·.column) := by
  obtain ⟨vs, u, rfl, _, assigned, _⟩ := build_ok h
  rw [Update.assignedNames_ofPieces, List.map_map]
  exact map_eq_of_forall₂ assigned fun _ _ same => same.1

end UpdatePlan

open InsertPlan UpdatePlan

/-- Where the columns of a table have names of their own, an insert names each column once exactly
if its last column list does, under either of the names of a column, and an update exactly if no two
of its calls set the same column. So an insert without a column list names each column once, and an
update that only a record is given to, once; a column that is named twice is written twice. -/
theorem columns_named_once_iff {r : Registry} {shape : ShapeId} {m : Metadata}
    (hm : r.get? shape = some m) (distinct : (m.columns.map (·.column)).Nodup) :
    (∀ steps p, (InsertPlan.ofShape r shape >>= (·.applyAll steps)) = .ok p → ∀ d,
      (∀ s, p.build d = .ok s → (s.columnNames.Nodup ↔ ListsOnce m steps)) ∧
      (∀ ss, p.batches d = .ok ss → ∀ s ∈ ss, (s.columnNames.Nodup ↔ ListsOnce m steps))) ∧
    (∀ steps p, (UpdatePlan.ofShape r shape >>= (·.applyAll steps)) = .ok p →
      ∀ s, p.build = .ok s → (s.assignedNames.Nodup ↔ SetsOnce m steps)) := by
  refine ⟨fun steps p h d => ?insert, fun steps p h s built => ?update⟩
  case insert =>
    obtain ⟨new, started, run⟩ := bind_ok_iff.mp h
    obtain ⟨t, ht, rfl⟩ := map_ok_iff.mp started
    obtain ⟨m', hm', rfl⟩ := Target.ofShape_ok_iff.mp ht
    cases hm.symm.trans hm'
    have unlisted : NamedBy { target := ⟨shape, m⟩ } [] := .inl rfl
    obtain ⟨lists, target⟩ := listed_applyAll unlisted run
    have once := lists.nodup_iff (by rw [target]; exact distinct)
    rw [target] at once
    have carried {rows s} (hs : p.statement d rows = .ok s) :
        s.columnNames.Nodup ↔ ListsOnce m steps := by
      rw [columnNames_statement hs]
      exact once
    refine ⟨fun s built => carried (build_ok_iff.mp built).2, fun ss batched s hs => ?_⟩
    obtain ⟨rows, _, hrows⟩ := mapM_ok_mem batched hs
    exact carried hrows
  case update =>
    obtain ⟨new, started, run⟩ := bind_ok_iff.mp h
    rw [UpdatePlan.ofShape_of_get? hm] at started
    cases started
    rw [assignedNames_of_build built, sets_applyAll run]
    exact nodup_flatMap_sets_iff distinct

/-- A record whose note goes to the column that is called like its key. -/
def ledgerEntry : Record where
  shape := "Entry"
  cells := [
    ({ name := "id", type := .required .int }, .int 7),
    ({ name := "note", type := .required .text }, .text "@p0"),
    ({ name := "sum", type := .required .int }, .int 2)]

/-- A column named by its field, and a field that is called like another column. -/
theorem columns_named_once_iff_ledger :
    ledgerRegistry.get? "Entry" = some ledgerMetadata ∧
    (ledgerMetadata.columns.map (·.column)).Nodup ∧
    (∃ s, (InsertPlan.ofShape ledgerRegistry "Entry"
        >>= (·.applyAll [.setColumns ["Sum", "note"], .addRecord ledgerEntry])
        >>= (·.build .sqlite)) = .ok s ∧ s.columnNames.Nodup) ∧
    ∃ s, UpdatePlan.collected ledgerRegistry "Entry" [.set "Sum" (.int 1), .setRecord ledgerEntry]
      = .ok s ∧ ¬s.assignedNames.Nodup := by
  have registered : ledgerRegistry.get? "Entry" = some ledgerMetadata := rfl
  have distinct : (ledgerMetadata.columns.map (·.column)).Nodup := by decide
  obtain ⟨insert, update⟩ := columns_named_once_iff registered distinct
  refine ⟨registered, distinct, ⟨_, rfl, ?once⟩, _, rfl, ?twice⟩
  case once =>
    have iff := (insert [.setColumns ["Sum", "note"], .addRecord ledgerEntry] _ rfl .sqlite).1
    refine (iff _ rfl).mpr ?_
    unfold ListsOnce
    decide
  case twice =>
    refine mt (update [.set "Sum" (.int 1), .setRecord ledgerEntry] _ rfl _ rfl).mp ?_
    intro once
    have apart := (List.pairwise_cons.mp once).1 _ (List.mem_singleton_self _)
    have sum : (⟨"sum", "Sum"⟩ : Mapping) ∈ ledgerMetadata.settable := by decide
    exact apart (List.mem_singleton_self _) sum

/-- A column that is named by its field and by its own name is written twice. -/
theorem ledger_column_named_twice :
    (ledgerMetadata.columns.map (·.column)).Nodup ∧
    (∃ s, (InsertPlan.ofShape ledgerRegistry "Entry"
        >>= (·.applyAll [.setColumns ["sum", "Sum"], .addRow [.int 1, .int 2]])
        >>= (·.build .sqlServer)) = .ok s ∧
      s.sql = "INSERT INTO [Ledger] ([Sum], [Sum]) VALUES (@p0, @p1)") ∧
    ∃ s, UpdatePlan.collected ledgerRegistry "Entry" [.set "sum" (.int 1), .set "Sum" (.int 2)]
      = .ok s ∧ s.sql = "UPDATE [Ledger] SET [Sum] = @p0, [Sum] = @p1" ∧
        s.assignedNames = ["Sum", "Sum"] :=
  ⟨by decide, ⟨_, rfl, rfl⟩, _, rfl, rfl, rfl⟩

end Write

end RecordQuery
