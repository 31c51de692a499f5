import RecordQuery.Proofs.Write.Keyed
import RecordQuery.Proofs.Write.Width

/-!
# Values that a record has once

The row of a record is made by taking its values out of it, so each can be had once: a column for a
field that a column before it was for gets null (`Record.Gives`). A row has the record's own values
exactly if no value but null is asked for twice (`Record.Gives.own_iff`). Registration keeps the
columns that an insert without a column list and an update set apart, but not the columns that are
named for an insert, nor the fields of a key (`own_values_iff_spared`).
-/

namespace RecordQuery

open Write

namespace Record

/-- The values of a record for columns, each taken out of the record as it is used. -/
structure Gives (e : Record) (columns : List Mapping) (row : List Value) : Prop where
  length : row.length = columns.length
  value : ∀ (i : Nat) (c : Mapping), columns[i]? = some c →
    row[i]? = leftValue? e.toValues ((columns.take i).map (·.field)) c.field

/-- Every value is the one that the record has for the field of its column. -/
structure GivesOwn (e : Record) (columns : List Mapping) (row : List Value) : Prop where
  length : row.length = columns.length
  value : ∀ (i : Nat) (c : Mapping), columns[i]? = some c → row[i]? = e.toValues.lookup c.field

/-- No value but null is asked for twice. -/
def Spares (e : Record) (fields : List String) : Prop :=
  fields.Pairwise fun a b => a = b → e.toValues.lookup b = some .null

variable {e : Record} {columns : List Mapping} {row : List Value} {fields : List String}

theorem gives_of_rowOf (h : rowOf e columns = .ok row) : e.Gives columns row :=
  have ⟨length, value⟩ := takeRow_ok_iff.mp h
  ⟨length, value⟩

theorem Spares.of_nodup (h : fields.Nodup) : e.Spares fields := h.imp fun ne same => absurd same ne

/-- Once it was taken, a value is there again only if it is null. -/
theorem leftValue?_eq_lookup_iff {pairs : List (String × Value)} {taken : List String}
    {name : String} (h : name ∈ taken) (some : (pairs.lookup name).isSome = true) :
    leftValue? pairs taken name = pairs.lookup name ↔ pairs.lookup name = .some .null := by
  obtain ⟨v, hv⟩ := Option.isSome_iff_exists.mp some
  simp [leftValue?, hv, h, eq_comm]

theorem Gives.lookup_isSome (h : e.Gives columns row) {i : Nat} {c : Mapping}
    (hc : columns[i]? = some c) : (e.toValues.lookup c.field).isSome = true := by
  obtain ⟨inside, _⟩ := List.getElem?_eq_some_iff.mp hc
  have given := h.value i c hc
  rw [List.getElem?_eq_getElem (h.length ▸ inside), leftValue?] at given
  exact Option.isSome_map.symm.trans (congrArg Option.isSome given.symm)

/-- A row has the own values of its record exactly if none is asked for twice. -/
theorem Gives.own_iff (h : e.Gives columns row) :
    e.GivesOwn columns row ↔ e.Spares (columns.map (·.field)) := by
  rw [Spares, List.pairwise_map, List.pairwise_iff_getElem]
  constructor
  · intro own i j hi hj before same
    have found : columns[j]? = some columns[j] := List.getElem?_eq_getElem hj
    have taken : columns[j].field ∈ (columns.take j).map (·.field) :=
      same ▸ List.mem_map_of_mem (List.mem_take_iff_getElem.mpr ⟨i, by omega, rfl⟩)
    refine (leftValue?_eq_lookup_iff taken (h.lookup_isSome found)).mp ?_
    rw [← h.value j _ found, own.value j _ found]
  · intro spared
    refine ⟨h.length, fun j c hc => ?_⟩
    rw [h.value j c hc]
    by_cases taken : c.field ∈ (columns.take j).map (·.field)
    · obtain ⟨hj, rfl⟩ := List.getElem?_eq_some_iff.mp hc
      obtain ⟨b, hb, same⟩ := List.mem_map.mp taken
      obtain ⟨i, hi, rfl⟩ := List.mem_take_iff_getElem.mp hb
      have null := spared i j (by omega) hj (by omega) same
      exact (leftValue?_eq_lookup_iff taken (h.lookup_isSome hc)).mpr null
    · exact leftValue?_of_not_mem taken _

/-- The criteria that find the row of a record: the columns of the key fields of the metadata, in
order, with values of the record. They are its own exactly if no key field is listed twice, unless
its value is null. -/
structure GivesKey (e : Record) (m : Metadata) (criteria : List Criterion) (keys : List Mapping)
    (values : List Value) : Prop where
  columns : List.Forall₂ (fun k c => m.fieldMapping? k = some c) m.keys keys
  criteria : criteria = (keys.zip values).map fun (c, v) => .equals c.column v
  gives : e.Gives keys values
  own_iff : e.GivesOwn keys values ↔ e.Spares m.keys

theorem givesKey_of_rowOf {t : Target} {keys : List Mapping} {values : List Value}
    (ht : t.metadata.fault? = none) (hk : t.keyMappings = .ok keys)
    (h : rowOf e keys = .ok values) :
    e.GivesKey t.metadata ((keys.zip values).map fun (c, v) => .equals c.column v) keys values := by
  have found := Target.keyMappings_ok ht hk
  have gives := gives_of_rowOf h
  refine ⟨found, rfl, gives, ?_⟩
  rw [gives.own_iff, fields_of_forall₂ found]

end Record

namespace Write

/-- A row that a record is added with is what the record gives for the column list of the plan, or
for every column that a write may set. -/
theorem InsertPlan.gives_of_addRecord {p q : InsertPlan} {e : Record} (h : p.addRecord e = .ok q) :
    ∃ row, q.rows = p.rows ++ [row] ∧ e.Gives q.columns row ∧
      q.columns = if p.columns = [] then p.target.metadata.writable else p.columns := by
  obtain ⟨row, hrow, h⟩ := bind_ok_iff.mp h
  obtain ⟨_, _, rfl⟩ := addRow_ok_iff.mp h
  refine ⟨row, rfl, Record.gives_of_rowOf hrow, ?_⟩
  simp only [List.isEmpty_iff]

variable {r : Registry} {shape : ShapeId} {m : Metadata}

/-- A row made of a record has the record's own values exactly if none of them is asked for twice.
An insert asks for those of its column list, which may name a field by its own name and by that of
its column; without a column list it asks for each once. An update sets each column to the record's
own value. What finds the row of an update or a delete are the values of the key fields, and
registration lets a field be listed as a key twice. -/
theorem own_values_iff_spared (hm : r.get? shape = some m) (e : Record) :
    (∀ p q : InsertPlan, p.target = ⟨shape, m⟩ → p.addRecord e = .ok q →
      ∃ row, q.rows = p.rows ++ [row] ∧ e.Gives q.columns row ∧
        (e.GivesOwn q.columns row ↔ e.Spares (q.columns.map (·.field))) ∧
        (p.columns = [] → e.GivesOwn q.columns row)) ∧
    (∀ p q : UpdatePlan, p.target = ⟨shape, m⟩ → p.setRecord e = .ok q →
      ∃ values criteria keys keyValues,
        q = { p with
          assignments := p.assignments ++ m.settable.zip values
          criteria := p.criteria ++ criteria } ∧
        e.GivesOwn m.settable values ∧ e.GivesKey m criteria keys keyValues) ∧
    (∀ p q : DeletePlan, p.target = ⟨shape, m⟩ → p.matchRecord e = .ok q →
      ∃ criteria keys keyValues, q = { p with criteria := p.criteria ++ criteria } ∧
        e.GivesKey m criteria keys keyValues) := by
  have sound := Registry.fault?_of_get? hm
  -- a part of the declared columns has each field once
  have own {columns : List Mapping} {row : List Value} (part : columns.Sublist m.columns)
      (gives : e.Gives columns row) : e.GivesOwn columns row :=
    gives.own_iff.mpr (.of_nodup ((Metadata.nodup_fields sound).sublist (part.map _)))
  refine ⟨fun p q ht h => ?_, fun p q ht h => ?_, fun p q ht h => ?_⟩
  · obtain ⟨row, rows, gives, columns⟩ := InsertPlan.gives_of_addRecord h
    refine ⟨row, rows, gives, gives.own_iff, fun none => own ?_ gives⟩
    rw [columns, if_pos none, ht]
    exact List.filter_sublist
  · obtain ⟨_, keys, values, keyValues, hk, hvalues, hkv, rfl⟩ := UpdatePlan.setRecord_ok h
    rw [ht] at hk hvalues ⊢
    exact ⟨values, _, keys, keyValues, rfl, own List.filter_sublist (Record.gives_of_rowOf hvalues),
      Record.givesKey_of_rowOf sound hk hkv⟩
  · obtain ⟨keys, keyValues, hk, _, hkv, rfl⟩ := DeletePlan.matchRecord_ok h
    rw [ht] at hk
    exact ⟨_, keys, keyValues, rfl, Record.givesKey_of_rowOf sound hk hkv⟩

/-- The key has one field, which is listed twice. -/
def pilotMetadata : Metadata where
  table := "Pilots"
  columns := [⟨"license", "License"⟩, ⟨"name", "FullName"⟩]
  keys := ["license", "license"]

def pilotRegistry : Registry where
  entries := [("Pilot", pilotMetadata)]
  sound := by decide

def pilot : Record where
  shape := "Pilot"
  cells := [
    ({ name := "license", type := .required .int }, .int 7),
    ({ name := "name", type := .required .text }, .text "Ada")]

/-- A plan whose column list names one field twice, by its own name and by that of its column. -/
def twiceNamed : InsertPlan where
  target := ⟨"Pilot", pilotMetadata⟩
  columns := [⟨"name", "FullName"⟩, ⟨"name", "FullName"⟩]

theorem own_values_iff_spared_pilot :
    pilotRegistry.get? "Pilot" = some pilotMetadata ∧
    twiceNamed.target = ⟨"Pilot", pilotMetadata⟩ ∧
    ∃ q, twiceNamed.addRecord pilot = .ok q ∧
      ∃ row, q.rows = [row] ∧ ¬pilot.GivesOwn q.columns row := by
  have registered : pilotRegistry.get? "Pilot" = some pilotMetadata := rfl
  obtain ⟨insert, _⟩ := own_values_iff_spared registered pilot
  obtain ⟨row, rows, _, own, _⟩ := insert twiceNamed _ rfl rfl
  refine ⟨registered, rfl, _, rfl, row, rows, fun owned => ?_⟩
  have spared := List.pairwise_cons.mp (own.mp owned)
  exact absurd (spared.1 "name" (by decide) rfl) (by decide)

/-- The second value of a field named twice is null, and of a key field listed twice both its value
and null are asked for, which no row has. -/
theorem pilot_not_own :
    InsertPlan.setColumns { target := ⟨"Pilot", pilotMetadata⟩ } ["name", "FullName"]
      = .ok twiceNamed ∧
    (twiceNamed.addRecord pilot).map (·.rows) = .ok [[.text "Ada", .null]] ∧
    ¬pilot.GivesOwn twiceNamed.columns [.text "Ada", .null] ∧
    (recordDelete pilotRegistry "Pilot" pilot).map (·.sql)
      = .ok "DELETE FROM [Pilots] WHERE ([Pilots].[License] = @p0) AND ([Pilots].[License] IS NULL)"
    := by
  refine ⟨rfl, rfl, fun own => ?_, rfl⟩
  exact absurd (own.value 1 ⟨"name", "FullName"⟩ rfl) (by decide)

end Write

end RecordQuery
