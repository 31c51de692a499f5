import RecordQuery.Proofs.Compile.Paging
import RecordQuery.Proofs.Compile.Total
import RecordQuery.Proofs.Result

/-!
# A query in two dialects

What a query compiles to depends on no dialect. Only its text does, in the paging clause of its
SELECT (`Query.statement_dialects`).
-/

namespace RecordQuery

open Sql Lowering

/-- The pieces around the paging clause are those of every dialect. -/
theorem Sql.Retrieval.pieces_around (x : Retrieval) :
    ∃ before after, ∀ d, x.pieces d = before ++ x.inner.pagingPieces d ++ after := by
  obtain ⟨outer, inner⟩ := x
  have around (opening closing : List Piece) :
      ∃ before after, ∀ d, opening ++ inner.pieces d ++ closing
        = before ++ inner.pagingPieces d ++ after :=
    ⟨opening ++ inner.corePieces ++ inner.orderPieces, closing, fun d => by
      simp only [Select.pieces, List.append_assoc]⟩
  cases outer with
  | rows =>
    exact ⟨inner.corePieces ++ inner.orderPieces, [], fun d => by simp [pieces, Select.pieces]⟩
  | count => exact around [.text "SELECT COUNT(1) FROM ("] [.text ") AS ", .ident derivedAlias]
  | «exists» =>
    exact around [.text "SELECT CASE WHEN EXISTS ("] [.text ") THEN 1 ELSE 0 END"]
  | aggregate f column =>
    exact around (.text "SELECT " :: figurePieces f column
      ++ [.text " AS ", .ident scalarAlias, .text " FROM ("]) [.text ") AS ", .ident derivedAlias]

namespace Query

/-- Statements with the same parameters and the same text, but for the clause of the window that the
query is paged by; a total has no such clause. -/
def SameButPaging (q : Query) (t : Terminal) (server lite : Statement) : Prop :=
  ∃ w before after params, (if t = .totalCount then w = none else q.window = .ok w) ∧
    server = ⟨before ++ w.elim "" Dialect.sqlServer.paging ++ after, params⟩ ∧
    lite = ⟨before ++ w.elim "" Dialect.sqlite.paging ++ after, params⟩

theorem window_part {r : Registry} {q p : Query} {t : Terminal} {w : Option Window}
    (h : q.part r t = .ok p) (hw : p.window = .ok w) :
    if t = .totalCount then w = none else q.window = .ok w := by
  have pages := pagination_part h
  split at pages
  · next total =>
    rw [if_pos total]
    rw [window, pages] at hw
    exact (Except.ok.inj hw).symm
  · next some =>
    rw [if_neg some, ← window_congr pages, hw]

/-- A query compiles in both dialects or in neither, for the same reason. -/
theorem statement_dialects (r : Registry) (q : Query) (t : Terminal) :
    Alike (q.SameButPaging t) (q.statement r .sqlServer t) (q.statement r .sqlite t) := by
  unfold statement Lowering.statement
  rcases hx : (q.retrieval r t).run 0 with ⟨vs, e | x⟩
  · exact .error e
  · obtain ⟨_, p, hp, hinner⟩ := retrieval_part hx
    obtain ⟨window, _⟩ := p.toSelect_window_orders r 0 vs x.inner hinner
    obtain ⟨before, after, around⟩ := x.pieces_around
    have text (d : Dialect) : Statement.ofPieces (x.pieces d) vs
        = ⟨sqlOf before ++ x.inner.window.elim "" d.paging ++ sqlOf after, Param.number vs⟩ := by
      rw [Statement.ofPieces, around, sqlOf_append, sqlOf_append, Select.sqlOf_pagingPieces]
    exact .ok ⟨x.inner.window, _, _, _, window_part hp window, text _, text _⟩

/-- Without a paging clause the dialects have the same text. -/
theorem statement_unpaged (r : Registry) {q : Query} {t : Terminal}
    (h : t = .totalCount ∨ q.pagination = none) :
    q.statement r .sqlServer t = q.statement r .sqlite t := by
  have alike := q.statement_dialects r t
  generalize q.statement r .sqlServer t = server, q.statement r .sqlite t = lite at alike
  cases alike with
  | error e => rfl
  | ok parts =>
    obtain ⟨w, before, after, params, hw, rfl, rfl⟩ := parts
    have none : w = none := by
      split at hw
      · exact hw
      · next some =>
        rw [window, h.resolve_left some] at hw
        exact (Except.ok.inj hw).symm
    rw [none]
    rfl

end Query

end RecordQuery
