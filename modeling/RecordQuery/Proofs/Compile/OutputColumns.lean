import RecordQuery.Proofs.Compile.Clauses
import RecordQuery.Proofs.Query.Runs
import RecordQuery.Proofs.Sql.Tuples

/-!
# Names of a select list

A column of a SELECT is named by the word AS, and the select list ends at the first word FROM.
`selectedNames` reads the names off a text; `Labels` follows them through the pieces of a select
list. They are the output columns of the query, and operations on its rows leave these as they are
(`output_columns_selected`).
-/

namespace RecordQuery

open Sql Lowering

namespace Sql

/-- The name that stands after the word AS. -/
def alias? (t : Token) (next : Option Token) : Option String :=
  if t = .word "AS" then next.bind Token.name? else none

/-- The names of columns, from left to right. -/
def aliases : List Token → List String
  | [] => []
  | t :: ts => (alias? t ts.head?).toList ++ aliases ts

/-- The names of columns before the first FROM. -/
def selectedNames (sql : String) : List String :=
  aliases ((tokens sql).takeWhile (· ≠ .word "FROM"))

/-- No name after a seam belongs to an AS before it. -/
theorem aliases_append {ts us : List Token} (h : ts.getLast? ≠ some (.word "AS")) :
    aliases (ts ++ us) = aliases ts ++ aliases us := by
  induction ts with
  | nil => rfl
  | cons t ts ih =>
    cases ts with
    | nil =>
      have ht : t ≠ .word "AS" := fun e => h (congrArg some e)
      simp [aliases, alias?, ht]
    | cons u ts =>
      have rest := ih (by simpa using h)
      rw [List.cons_append, aliases, aliases, rest, ← List.append_assoc]
      rfl

/-- What the pieces of a part of a select list name. -/
structure Labels (ps : List Piece) (names : List String) : Prop where
  names : aliases (ps.flatMap Piece.tokens) = names
  last : (ps.flatMap Piece.tokens).getLast? ≠ some (.word "AS")
  inside : .word "FROM" ∉ ps.flatMap Piece.tokens

/-- The text names nothing, neither by itself nor with what follows it. -/
def unnamed (s : String) : Bool :=
  (tokens s).all (fun t => t.name?.isNone && t != .word "FROM") &&
    (tokens s).getLast? != some (.word "AS")

theorem aliases_of_nameless {ts : List Token} (h : ∀ t ∈ ts, t.name? = none) : aliases ts = [] := by
  induction ts with
  | nil => rfl
  | cons t ts ih =>
    obtain ⟨_, rest⟩ := List.forall_mem_cons.mp h
    have next : ts.head?.bind Token.name? = none := by
      cases ts with
      | nil => rfl
      | cons u ts => exact rest u List.mem_cons_self
    simp [aliases, alias?, next, ih rest]

namespace Labels

variable {ps qs : List Piece} {names more : List String}

theorem nil : Labels [] [] := ⟨rfl, by simp, by simp⟩

theorem append (hp : Labels ps names) (hq : Labels qs more) :
    Labels (ps ++ qs) (names ++ more) := by
  refine ⟨?_, ?_, ?_⟩
  · rw [List.flatMap_append, aliases_append hp.last, hp.names, hq.names]
  · rw [List.flatMap_append, List.getLast?_append]
    cases h : (qs.flatMap Piece.tokens).getLast? with
    | none => simpa using hp.last
    | some t => simpa [h] using hq.last
  · rw [List.flatMap_append, List.mem_append, not_or]
    exact ⟨hp.inside, hq.inside⟩

theorem plain {s : String} (h : unnamed s = true) : Labels [.text s] [] := by
  have ts : [Piece.text s].flatMap Piece.tokens = tokens s := by simp [Piece.tokens, Piece.sql]
  simp only [unnamed, Bool.and_eq_true, List.all_eq_true, Option.isNone_iff_eq_none,
    bne_iff_ne] at h
  obtain ⟨each, last⟩ := h
  refine ⟨?_, ts ▸ last, fun from_ => ?_⟩
  · rw [ts, aliases_of_nameless fun t ht => (each t ht).1]
  · rw [ts] at from_
    exact (each _ from_).2 rfl

theorem text {s : String} (hs : unnamed s = true) (h : Labels ps names) :
    Labels (.text s :: ps) names := (plain hs).append h

theorem ident (name : String) (h : Labels ps names) : Labels (.ident name :: ps) names := by
  have ts : [Piece.ident name].flatMap Piece.tokens = [.ident name] := by
    simp [Piece.tokens, Piece.sql]
  have one : Labels [.ident name] [] := ⟨by rw [ts]; rfl, by simp [ts], by simp [ts]⟩
  exact one.append h

theorem parameter (slot : Nat) : Labels [.parameter slot] [] := by
  have ts : [Piece.parameter slot].flatMap Piece.tokens = [.word (placeholder slot)] := by
    simp [Piece.tokens, Piece.sql]
  have other {w : String} (h : w.toList.head? ≠ some '@') := placeholder_ne h slot
  refine ⟨by rw [ts]; rfl, ?_, ?_⟩
  · simp [ts, other (w := "AS") (by decide)]
  · simp [ts, (other (w := "FROM") (by decide)).symm]

theorem term (t : Term) : Labels t.pieces [] := by
  induction t with
  | column label name => exact .ident label (.text rfl (.ident name nil))
  | parameter slot => exact .parameter slot
  | countAll => exact .plain rfl
  | aggregate f a ih => cases f <;> exact .text rfl (ih.append (.plain rfl))

theorem column (c : OutputColumn) : Labels c.pieces [c.label] := by
  have as_ : tokens " AS " = [.word "AS"] := rfl
  have ts : [Piece.text " AS ", .ident c.label].flatMap Piece.tokens
      = [.word "AS", .ident c.label] := by
    simp [Piece.tokens, Piece.sql, as_]
  have named : Labels [.text " AS ", .ident c.label] [c.label] :=
    ⟨by rw [ts]; rfl, by simp [ts], by simp [ts]⟩
  exact (term c.term).append named

theorem columns (cs : List OutputColumn) :
    Labels (separated ", " (cs.map OutputColumn.pieces)) (cs.map (·.label)) := by
  cases cs with
  | nil => exact nil
  | cons c cs =>
    have rest : Labels (cs.flatMap fun c => .text ", " :: c.pieces) (cs.map (·.label)) := by
      induction cs with
      | nil => exact nil
      | cons c cs ih =>
        rw [List.flatMap_cons]
        exact (text rfl (column c)).append ih
    simpa [separated, List.flatMap_map] using (column c).append rest

end Labels

namespace Select

variable (d : Dialect) (x : Select)

/-- A SELECT starts with its select list. -/
theorem pieces_list : ∃ list rest, x.pieces d = list ++ .text " FROM " :: rest ∧
    Labels list (x.columns.map (·.label)) := by
  have labels : Labels (.text (if x.distinct then "SELECT DISTINCT " else "SELECT ")
      :: separated ", " (x.columns.map OutputColumn.pieces)) (x.columns.map (·.label)) :=
    .text (by cases x.distinct <;> rfl) (.columns x.columns)
  refine ⟨_, [.ident x.table, .text " AS ", .ident x.label] ++ x.joins.flatMap JoinClause.pieces
    ++ wherePieces x.filters ++ listClause " GROUP BY " (x.group.map Term.pieces)
    ++ x.orderPieces ++ x.pagingPieces d, ?_, labels⟩
  simp [Select.pieces, corePieces]

theorem selectedNames_pieces : selectedNames (sqlOf (x.pieces d)) = x.columns.map (·.label) := by
  obtain ⟨list, rest, pieces, labels⟩ := x.pieces_list d
  have from_ : Piece.tokens (.text " FROM ") = [.word "FROM"] := rfl
  have within : ∀ t ∈ list.flatMap Piece.tokens, decide (t ≠ .word "FROM") = true := by
    intro t ht
    simpa using fun e : t = .word "FROM" => labels.inside (e ▸ ht)
  rw [selectedNames, (x.legible d).tokens_sqlOf, pieces, List.flatMap_append, List.flatMap_cons,
    from_, List.takeWhile_append_of_pos within]
  simpa using labels.names

end Select

end Sql

namespace Query

/-- The operations that decide which columns there are. -/
def Step.MakesColumns : Step → Prop
  | .select _ _ | .groupBy _ | .aggregate _ _ _ => True
  | _ => False

theorem outputColumns_apply (r : Registry) (q : Query) {st : Step} (h : ¬st.MakesColumns) :
    (q.apply st).outputColumns r = q.outputColumns r := by
  have kept := q.apply_leaves st
  obtain ⟨unprojecting, ungrouping, unfigured⟩ :
      st.part ≠ .projection ∧ st.part ≠ .group ∧ st.part ≠ .aggregates := by
    cases st with
    | select s items => exact absurd trivial h
    | groupBy keys => exact absurd trivial h
    | aggregate f selector label => exact absurd trivial h
    | _ => exact ⟨nofun, nofun, nofun⟩
  rw [outputColumns, outputColumns, isGrouped, isGrouped, kept.projection unprojecting,
    kept.group ungrouping, kept.aggregates unfigured unprojecting, kept.base]

theorem outputColumns_applyAll (r : Registry) (q : Query) {steps : List Step}
    (h : ∀ st ∈ steps, ¬st.MakesColumns) :
    (q.applyAll steps).outputColumns r = q.outputColumns r := by
  induction steps generalizing q with
  | nil => rfl
  | cons st steps ih =>
    obtain ⟨first, rest⟩ := List.forall_mem_cons.mp h
    exact (ih (q.apply st) rest).trans (outputColumns_apply r q first)

end Query

/-- A query that compiles has the output columns that the text of its select list names, in their
order, and operations other than projections, groupings and aggregates leave these as they are. -/
theorem output_columns_selected (r : Registry) (q : Query) :
    (∀ d s, q.statement r d .rows = .ok s → q.outputColumns r = .ok (selectedNames s.sql)) ∧
    ∀ steps : List Query.Step, (∀ st ∈ steps, ¬st.MakesColumns) →
      (q.applyAll steps).outputColumns r = q.outputColumns r := by
  refine ⟨fun d s h => ?_, fun steps => Query.outputColumns_applyAll r q⟩
  obtain ⟨vs, x, hx, rfl⟩ := Query.statement_rows_ok_iff.mp h
  obtain ⟨_, columns⟩ := q.toSelect_scoped r 0 vs x hx
  rw [columns]
  exact congrArg Except.ok (x.selectedNames_pieces d).symm

/-- Names that look like the words around them. -/
def quotedNames : Query :=
  Query.applyAll (.ofShape ⟨"Order", []⟩) [
    .groupBy [("FROM", .named "id")], .aggregate .avg (some (.named "total")) "a] AS [b"]

/-- Operations on rows. -/
def quotedSteps : List Query.Step := [
  .join "Line" .left
    (.compare .equal (.field ⟨.shape "Line", "order"⟩) (.field ⟨.shape "Order", "id"⟩)),
  .filter (.compare .greater (.field ⟨.shape "Line", "item"⟩) (.constant (.int 3))),
  .distinct, .page 2 5]

theorem output_columns_selected_quotedNames :
    ∃ s, (quotedNames.applyAll quotedSteps).statement orderRegistry .sqlServer .rows = .ok s ∧
      selectedNames s.sql = ["FROM", "a] AS [b"] := by
  obtain ⟨named, _⟩ := output_columns_selected orderRegistry (quotedNames.applyAll quotedSteps)
  obtain ⟨_, kept⟩ := output_columns_selected orderRegistry quotedNames
  have same := kept quotedSteps (by simp [quotedSteps, Query.Step.MakesColumns])
  exact ⟨_, rfl, Except.ok.inj ((named .sqlServer _ rfl).symm.trans same)⟩

end RecordQuery
