import RecordQuery.Proofs.Query.Runs
import RecordQuery.Proofs.Sql.Token

/-!
# Tables of a query

Only joins add tables, each behind those there are (`Query.joins_apply`). A join that is given no
alias takes that of its number, so the alias at a position is the one of that number or was given to
a join (`Query.label_numbered_or_given`).
-/

namespace RecordQuery.Query

/-- A call that makes a join. Without an alias the join takes that of its number. -/
structure JoinCall where
  shape : ShapeId
  label : Option String
  kind : JoinKind
  on : Option Expr

def Step.join? : Step → Option JoinCall
  | .join shape kind on => some ⟨shape, none, kind, some on⟩
  | .joinAs shape label kind on => some ⟨shape, some label, kind, some on⟩
  | .crossJoin shape => some ⟨shape, none, .cross, none⟩
  | _ => none

/-- The alias that a call gives to its join. -/
def Step.givenLabel? (st : Step) : Option String := st.join?.bind (·.label)

/-- The alias that the join of a call takes. -/
def label (q : Query) (call : JoinCall) : String := call.label.getD q.nextAlias

/-- The join of a call. -/
def joined (q : Query) (call : JoinCall) : Join :=
  ⟨⟨call.shape, q.label call⟩, call.kind, call.on.map fun e => (q.rebaseOrDefer e).2⟩

/-- The aliases that the tables are bound to, in the order of the FROM clause. -/
def labels (q : Query) : List String := q.sources.map (·.label)

/-! ## One operation -/

/-- An operation leaves the tables there are, and adds the one it joins. -/
theorem joins_apply (q : Query) (st : Step) :
    (q.apply st).base = q.base ∧
      (q.apply st).joins = q.joins ++ (st.join?.map q.joined).toList := by
  have kept := q.apply_leaves st
  refine ⟨kept.base, ?_⟩
  have added (e : Expr) (j : Join) : (q.rebaseOrDefer e).1.joins ++ [j] = q.joins ++ [j] := by
    rw [(Leaves.rebases .filters q e).joins nofun]
  cases st with
  | join shape kind on => exact added on _
  | joinAs shape label kind on => exact added on _
  | crossJoin shape => rfl
  | _ => exact (kept.joins nofun).trans (List.append_nil _).symm

theorem labels_apply (q : Query) (st : Step) :
    (q.apply st).labels = q.labels ++ (st.join?.map q.label).toList := by
  obtain ⟨base, joins⟩ := q.joins_apply st
  rw [labels, sources, base, joins, labels, sources]
  cases st.join? with
  | none => simp
  | some call => simp [joined]

/-! ## A run of operations -/

variable (s : Shape) (steps : List Step)

theorem labels_ofShape : (ofShape s).labels = [baseAlias] := rfl

theorem length_labels (q : Query) : q.labels.length = q.joins.length + 1 := by
  simp [labels, sources]

theorem labels_concat (st : Step) : ((ofShape s).applyAll (steps ++ [st])).labels
    = ((ofShape s).applyAll steps).labels
      ++ (st.join?.map ((ofShape s).applyAll steps).label).toList := by
  rw [applyAll_concat, labels_apply]

/-- There is a join for every call that makes one. -/
theorem length_joins : ((ofShape s).applyAll steps).joins.length
    = (steps.filterMap Step.join?).length := by
  rw [length_grown (f := joins) fun q st _ => (q.joins_apply st).2]
  exact Nat.zero_add _

/-- The join of a call stands behind those of the calls before it. -/
theorem joins_getElem? {before : List Step} {st : Step} {call : JoinCall}
    (split : before ++ [st] <+: steps) (hcall : st.join? = some call) :
    ((ofShape s).applyAll steps).joins[(before.filterMap Step.join?).length]?
      = some (((ofShape s).applyAll before).joined call) := by
  rw [← getElem?_grown (f := joins) (fun q st _ => (q.joins_apply st).2) (ofShape s) split hcall]
  exact congrArg (_[·]?) (Nat.zero_add _).symm

/-- Aliases that joins were given are bound. -/
theorem mem_labels_of_given {l : String} (h : l ∈ steps.filterMap Step.givenLabel?) :
    l ∈ ((ofShape s).applyAll steps).labels := by
  induction steps using List.reverseRecOn with
  | nil => cases h
  | append_singleton steps st ih =>
    rw [labels_concat]
    rw [List.filterMap_append] at h
    obtain before | last := List.mem_append.mp h
    · exact List.mem_append_left _ (ih before)
    · refine List.mem_append_right _ ?_
      obtain ⟨call, hcall, given⟩ : ∃ call, st.join? = some call ∧ call.label = some l := by
        simpa [Step.givenLabel?, Option.bind_eq_some_iff] using last
      rw [hcall]
      simp [label, given]

/-- The base table and the joins that are given no alias have those of their positions. -/
theorem label_numbered_or_given {i : Nat} {l : String}
    (h : ((ofShape s).applyAll steps).labels[i]? = some l) :
    l = "t" ++ Number.natText i ∨ l ∈ steps.filterMap Step.givenLabel? := by
  induction steps using List.reverseRecOn with
  | nil =>
    obtain ⟨rfl, rfl⟩ : i = 0 ∧ baseAlias = l := by
      simpa [applyAll, labels_ofShape, List.getElem?_singleton] using h
    exact .inl (by decide)
  | append_singleton steps st ih =>
    rw [List.filterMap_append, List.mem_append]
    rw [labels_concat, List.getElem?_append] at h
    split at h
    · exact (ih h).imp_right .inl
    · next past =>
      cases hcall : st.join? with
      | none => simp [hcall] at h
      | some call =>
        obtain ⟨at_end, rfl⟩ : i = ((ofShape s).applyAll steps).labels.length ∧
            ((ofShape s).applyAll steps).label call = l := by
          rw [hcall, Option.map_some, Option.toList_some, List.getElem?_singleton] at h
          split at h
          · exact ⟨by omega, Option.some.inj h⟩
          · cases h
        cases given : call.label with
        | none =>
          refine .inl ?_
          rw [label, given, at_end, length_labels]
          rfl
        | some l => exact .inr (.inr (by simp [Step.givenLabel?, hcall, label, given]))

/-- The alias of the next number is taken exactly if it was given to a join. -/
theorem nextAlias_mem_labels_iff :
    ((ofShape s).applyAll steps).nextAlias ∈ ((ofShape s).applyAll steps).labels ↔
      ((ofShape s).applyAll steps).nextAlias ∈ steps.filterMap Step.givenLabel? := by
  refine ⟨fun taken => ?_, mem_labels_of_given s steps⟩
  obtain ⟨i, at_i⟩ := List.getElem?_of_mem taken
  refine (label_numbered_or_given s steps at_i).resolve_left fun numbered => ?_
  -- no table before has the next number
  have same : ((ofShape s).applyAll steps).joins.length + 1 = i :=
    Sql.natText_injective (String.append_right_inj _ |>.mp numbered)
  have before := (List.getElem?_eq_some_iff.mp at_i).1
  rw [length_labels, same] at before
  exact Nat.lt_irrefl i before

/-- The aliases are apart exactly if every join takes one that is not bound before it. -/
theorem labels_apart_iff : ((ofShape s).applyAll steps).labels.Nodup ↔
    ∀ before st, before ++ [st] <+: steps → ∀ call ∈ st.join?,
      ((ofShape s).applyAll before).label call ∉ ((ofShape s).applyAll before).labels := by
  induction steps using List.reverseRecOn with
  | nil =>
    refine iff_of_true (by simp [applyAll, labels_ofShape]) fun before st split => ?_
    simp at split
  | append_singleton steps last ih =>
    rw [labels_concat, List.nodup_append, ih]
    constructor
    · rintro ⟨earlier, _, new⟩ before st split call hcall
      obtain whole | split := List.prefix_concat_iff.mp split
      · obtain ⟨rfl, rfl⟩ := List.append_singleton_inj.mp whole
        intro bound
        rw [Option.mem_def] at hcall
        exact new _ bound _ (by rw [hcall]; exact List.mem_singleton_self _) rfl
      · exact earlier before st split call hcall
    · intro free
      refine ⟨fun before st split => free before st (split.trans (List.prefix_append _ _)), ?_, ?_⟩
      · cases last.join? <;> simp
      · rintro a bound b hb rfl
        cases hcall : last.join? with
        | none => simp [hcall] at hb
        | some call =>
          rw [hcall] at hb
          refine free steps last (List.prefix_refl _) call hcall ?_
          exact List.mem_singleton.mp hb ▸ bound

end RecordQuery.Query
