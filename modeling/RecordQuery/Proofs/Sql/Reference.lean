import RecordQuery.Proofs.Sql.Legible

/-!
# Qualified names in a text

`qualifiedNames` lists the names with an alias in front that a text has. `Refers` follows them
through the pieces of a clause: they are those of the columns its terms name, in the order of the
text, and none is made of the names of two clauses.
-/

namespace RecordQuery.Sql

/-- The qualified name that tokens start with. -/
def qualifiedName? : List Token → Option (String × String)
  | .ident label :: .mark '.' :: .ident name :: _ => some (label, name)
  | _ => none

/-- The qualified names among tokens, from left to right. -/
def qualifiedNames : List Token → List (String × String)
  | [] => []
  | t :: ts => (qualifiedName? (t :: ts)).toList ++ qualifiedNames ts

theorem qualifiedName?_eq_none {t u : Token} (h : u ≠ .mark '.') (ts : List Token) :
    qualifiedName? (t :: u :: ts) = none := by
  unfold qualifiedName?
  split
  · next he =>
    cases he
    exact absurd rfl h
  · rfl

theorem qualifiedName?_singleton (t : Token) : qualifiedName? [t] = none := by
  cases t <;> rfl

theorem qualifiedName?_append {t : Token} {ts us : List Token}
    (hu : us.head? ≠ some (.mark '.')) (ht : (t :: ts).getLast? ≠ some (.mark '.')) :
    qualifiedName? (t :: ts ++ us) = qualifiedName? (t :: ts) := by
  match ts with
  | [] =>
    cases us with
    | nil => rfl
    | cons u us =>
      have hne : u ≠ .mark '.' := fun e => hu (congrArg some e)
      exact (qualifiedName?_eq_none hne us).trans (qualifiedName?_singleton t).symm
  | [u] =>
    have hne : u ≠ .mark '.' := fun e => ht (congrArg some e)
    exact (qualifiedName?_eq_none hne us).trans (qualifiedName?_eq_none hne []).symm
  | u :: w :: ts =>
    by_cases hne : u = .mark '.'
    · subst hne
      cases t <;> cases w <;> rfl
    · exact (qualifiedName?_eq_none hne _).trans (qualifiedName?_eq_none hne _).symm

/-- No qualified name reaches over a seam without a point. -/
theorem qualifiedNames_append {ts us : List Token} (hu : us.head? ≠ some (.mark '.'))
    (ht : ts.getLast? ≠ some (.mark '.')) :
    qualifiedNames (ts ++ us) = qualifiedNames ts ++ qualifiedNames us := by
  induction ts with
  | nil => rfl
  | cons t ts ih =>
    have hts : ts.getLast? ≠ some (.mark '.') := by
      cases ts with
      | nil => simp
      | cons u ts => simpa using ht
    have head := qualifiedName?_append hu ht
    rw [List.cons_append] at head ⊢
    rw [qualifiedNames, qualifiedNames, head, ih hts, List.append_assoc]

structure Refers (ps : List Piece) (names : List (String × String)) : Prop where
  names : qualifiedNames (ps.flatMap Piece.tokens) = names
  first : (ps.flatMap Piece.tokens).head? ≠ some (.mark '.')
  last : (ps.flatMap Piece.tokens).getLast? ≠ some (.mark '.')

/-- The text has no names and no points. -/
def pointless (s : String) : Bool := (tokens s).all fun t => t.isPlain && t != .mark '.'

theorem qualifiedNames_of_isPlain {ts : List Token} (h : ∀ t ∈ ts, t.isPlain = true) :
    qualifiedNames ts = [] := by
  induction ts with
  | nil => rfl
  | cons t ts ih =>
    rw [qualifiedNames, ih fun u hu => h u (List.mem_cons_of_mem _ hu)]
    have ht := h t List.mem_cons_self
    unfold qualifiedName?
    split
    · next he =>
      cases he
      cases ht
    · rfl

namespace Refers

variable {ps qs : List Piece} {names more : List (String × String)}

theorem nil : Refers [] [] := ⟨rfl, by simp, by simp⟩

theorem append (hp : Refers ps names) (hq : Refers qs more) :
    Refers (ps ++ qs) (names ++ more) := by
  constructor
  · rw [List.flatMap_append, qualifiedNames_append hq.first hp.last, hp.names, hq.names]
  · rw [List.flatMap_append, List.head?_append]
    cases h : (ps.flatMap Piece.tokens).head? with
    | none => simpa using hq.first
    | some t => simpa [h] using hp.first
  · rw [List.flatMap_append, List.getLast?_append]
    cases h : (qs.flatMap Piece.tokens).getLast? with
    | none => simpa using hp.last
    | some t => simpa [h] using hq.last

theorem plain {s : String} (h : pointless s = true) : Refers [.text s] [] := by
  have inert : ∀ t ∈ tokens s, t.isPlain = true ∧ t ≠ .mark '.' := by
    intro t ht
    simpa using List.all_eq_true.mp h t ht
  have ts : [Piece.text s].flatMap Piece.tokens = tokens s := by simp [Piece.tokens, Piece.sql]
  constructor
  · rw [ts, qualifiedNames_of_isPlain fun t ht => (inert t ht).1]
  · rw [ts]
    exact fun e => (inert _ (List.mem_of_mem_head? e)).2 rfl
  · rw [ts]
    exact fun e => (inert _ (List.mem_of_mem_getLast? e)).2 rfl

theorem text {s : String} (hs : pointless s = true) (h : Refers ps names) :
    Refers (.text s :: ps) names := (plain hs).append h

theorem then_text {s : String} (h : Refers ps names) (hs : pointless s = true) :
    Refers (ps ++ [Piece.text s]) names := by
  simpa using h.append (plain hs)

theorem ident (name : String) (h : Refers ps names) : Refers (.ident name :: ps) names := by
  have one : Refers [.ident name] [] := by
    have ts : [Piece.ident name].flatMap Piece.tokens = [.ident name] := by
      simp [Piece.tokens, Piece.sql]
    exact ⟨by rw [ts]; rfl, by simp [ts], by simp [ts]⟩
  exact one.append h

theorem parameter (slot : Nat) : Refers [.parameter slot] [] := by
  have ts : [Piece.parameter slot].flatMap Piece.tokens = [.word (placeholder slot)] := by
    simp [Piece.tokens, Piece.sql]
  exact ⟨by rw [ts]; rfl, by simp [ts], by simp [ts]⟩

theorem qualified (label name : String) : Refers (qualified label name) [(label, name)] := by
  have dot : tokens "." = [.mark '.'] := rfl
  have ts : (Sql.qualified label name).flatMap Piece.tokens
      = [.ident label, .mark '.', .ident name] := by
    simp [Sql.qualified, Piece.tokens, Piece.sql, dot]
  exact ⟨by rw [ts]; rfl, by simp [ts], by simp [ts]⟩

theorem flatMap {f : α → List Piece} {g : α → List (String × String)} {xs : List α}
    (h : ∀ x ∈ xs, Refers (f x) (g x)) : Refers (xs.flatMap f) (xs.flatMap g) := by
  induction xs with
  | nil => exact nil
  | cons x xs ih =>
    exact (h x List.mem_cons_self).append (ih fun y hy => h y (List.mem_cons_of_mem _ hy))

theorem separated {sep : String} (hs : pointless sep = true) {f : α → List Piece}
    {g : α → List (String × String)} {xs : List α} (h : ∀ x, Refers (f x) (g x)) :
    Refers (separated sep (xs.map f)) (xs.flatMap g) := by
  cases xs with
  | nil => exact nil
  | cons x xs =>
    have rest : Refers (xs.flatMap fun y => .text sep :: f y) (xs.flatMap g) :=
      flatMap fun y _ => text hs (h y)
    simpa [Sql.separated, List.flatMap_map] using (h x).append rest

end Refers

/-- The qualified names of a text are those of its pieces. -/
theorem Legible.qualifiedNames {ps : List Piece} {names : List (String × String)} (h : Legible ps)
    (hr : Refers ps names) : qualifiedNames (tokens (sqlOf ps)) = names := by
  rw [h.tokens_sqlOf, hr.names]

/-! ## Columns of clauses -/

/-- The columns a term names, by alias and name. -/
def Term.columns : Term → List (String × String)
  | column label name => [(label, name)]
  | aggregate _ a => a.columns
  | _ => []

theorem refers_aggregatePieces (f : AggregateFunction) {ps : List Piece}
    {names : List (String × String)} (h : Refers ps names) :
    Refers (aggregatePieces f ps) names := by
  cases f with
  | avg => exact .text rfl (h.then_text rfl)
  | count => exact .text rfl (h.then_text rfl)
  | sum => exact .text rfl (h.then_text rfl)
  | min => exact .text rfl (h.then_text rfl)
  | max => exact .text rfl (h.then_text rfl)

theorem Term.refers (t : Term) : Refers t.pieces t.columns := by
  induction t with
  | column label name => exact .qualified label name
  | parameter slot => exact .parameter slot
  | countAll => exact .plain rfl
  | aggregate f a ih => exact refers_aggregatePieces f ih

def Condition.columns : Condition → List (String × String)
  | compare _ l r => l.columns ++ r.columns
  | isNull t => t.columns
  | isNotNull t => t.columns
  | like t _ => t.columns
  | isTrue t => t.columns
  | logical _ l r => l.columns ++ r.columns
  | negation c => c.columns

theorem Condition.refers (c : Condition) : Refers c.pieces c.columns := by
  induction c with
  | compare op l r =>
    refine l.refers.append (.text ?_ r.refers)
    cases op <;> rfl
  | isNull t => exact t.refers.then_text rfl
  | isNotNull t => exact t.refers.then_text rfl
  | like t p =>
    have pattern : Refers [.text " LIKE ", .parameter p] [] := .text rfl (.parameter p)
    simpa [pieces, columns] using t.refers.append pattern
  | isTrue t => exact t.refers.then_text rfl
  | logical op l r hl hr =>
    have between : Refers (.text (" " ++ connectiveText op ++ " ") :: r.pieces) r.columns :=
      .text (by cases op <;> rfl) hr
    simpa [pieces, columns] using Refers.text (s := "(") rfl ((hl.append between).then_text rfl)
  | negation c ih => exact .text rfl (ih.then_text rfl)

theorem refers_wherePieces (cs : List Condition) :
    Refers (wherePieces cs) (cs.flatMap Condition.columns) := by
  cases cs with
  | nil => exact .nil
  | cons c cs =>
    refine .text rfl (.separated rfl fun c => ?_)
    exact .text rfl (c.refers.then_text rfl)

theorem refers_listClause {keyword : String} (hk : pointless keyword = true)
    {f : α → List Piece} {g : α → List (String × String)} (xs : List α)
    (h : ∀ x, Refers (f x) (g x)) : Refers (listClause keyword (xs.map f)) (xs.flatMap g) := by
  cases xs with
  | nil => exact .nil
  | cons x xs => exact .text hk (.separated rfl h)

/-- The columns a join condition names. -/
def JoinClause.columns (j : JoinClause) : List (String × String) := j.on.elim [] Condition.columns

theorem JoinClause.refers (j : JoinClause) : Refers j.pieces j.columns := by
  have head : Refers [.text (" " ++ j.kind.text ++ " "), .ident j.table, .text " AS ",
      .ident j.label] [] := by
    refine .text ?_ (.ident _ (.text rfl (.ident _ .nil)))
    cases j.kind <;> rfl
  unfold JoinClause.pieces JoinClause.columns
  cases j.on with
  | none => exact head.append .nil
  | some c => exact head.append (.text rfl c.refers)

namespace Select

/-- The columns a SELECT names, in the order of the text. -/
def names (s : Select) : List (String × String) :=
  (s.columns.flatMap fun c => c.term.columns) ++ s.joins.flatMap JoinClause.columns
    ++ s.filters.flatMap Condition.columns ++ s.group.flatMap Term.columns
    ++ s.orders.flatMap fun o => o.term.columns

theorem refers_pagingPieces (d : Dialect) (s : Select) : Refers (s.pagingPieces d) [] := by
  unfold pagingPieces
  cases s.window with
  | none => exact .nil
  | some w =>
    refine .plain ?_
    rw [pointless, (paging_reads d w).2.2]
    unfold pagingTokens
    split <;> simp [isPlain_natText] <;> decide

theorem refers (d : Dialect) (s : Select) : Refers (s.pieces d) s.names := by
  have columns : Refers (Sql.separated ", " (s.columns.map OutputColumn.pieces))
      (s.columns.flatMap fun c => c.term.columns) :=
    .separated rfl fun c => by
      have label : Refers [.text " AS ", .ident c.label] [] := .text rfl (.ident _ .nil)
      simpa [OutputColumn.pieces] using c.term.refers.append label
  have table : Refers [.text " FROM ", .ident s.table, .text " AS ", .ident s.label] [] :=
    .text rfl (.ident _ (.text rfl (.ident _ .nil)))
  have orders : Refers s.orderPieces (s.orders.flatMap fun o => o.term.columns) :=
    refers_listClause rfl s.orders fun o => o.term.refers.then_text (by cases o.ascending <;> rfl)
  have keyword : pointless (if s.distinct then "SELECT DISTINCT " else "SELECT ") = true := by
    cases s.distinct <;> rfl
  have joins : Refers (s.joins.flatMap JoinClause.pieces) (s.joins.flatMap JoinClause.columns) :=
    .flatMap fun j _ => j.refers
  have group : Refers (listClause " GROUP BY " (s.group.map Term.pieces))
      (s.group.flatMap Term.columns) := refers_listClause rfl s.group Term.refers
  have core := ((((Refers.text keyword columns).append table).append joins).append
    (refers_wherePieces s.filters)).append group
  simpa [pieces, corePieces, names] using (core.append orders).append (s.refers_pagingPieces d)

end Select

/-- The outer name of a figure. -/
def Outer.names : Outer → List (String × String)
  | aggregate _ column => [(derivedAlias, column)]
  | _ => []

theorem Retrieval.refers (d : Dialect) (x : Retrieval) :
    Refers (x.pieces d) (x.outer.names ++ x.inner.names) := by
  have inner := x.inner.refers d
  have derived : Refers [.text ") AS ", .ident derivedAlias] [] := .text rfl (.ident _ .nil)
  unfold Retrieval.pieces
  cases x.outer with
  | rows => exact inner
  | count => simpa [Outer.names] using Refers.text rfl (inner.append derived)
  | «exists» => exact .text rfl (inner.then_text rfl)
  | aggregate f column =>
    have target := Refers.qualified derivedAlias column
    have figure : Refers (figurePieces f column) [(derivedAlias, column)] := by
      have aggregate := refers_aggregatePieces f target
      unfold figurePieces
      split
      · exact .text rfl (target.then_text rfl)
      · exact aggregate
    have label : Refers [.text " AS ", .ident scalarAlias, .text " FROM ("] [] :=
      .text rfl (.ident _ (.plain rfl))
    simpa [Outer.names] using
      (((Refers.text (s := "SELECT ") rfl figure).append label).append inner).append derived

end RecordQuery.Sql
