import RecordQuery.Proofs.Sql.Token
import RecordQuery.Sql.Select
import RecordQuery.Sql.Command

/-!
# Statements are read piece by piece

`Legible ps` says that the text of the pieces is read as the tokens of each, whatever stands after
them, as long as it starts with a separator, and that their fixed texts hold no name and no
placeholder. Every clause the library writes is legible, so the tokens of a statement are those of
its pieces (`Legible.tokens_sqlOf`): no name and no placeholder can merge with the text around it,
and none comes from anywhere else.
-/

namespace RecordQuery.Sql

theorem toList_sqlOf (ps : List Piece) : (sqlOf ps).toList = ps.flatMap (·.sql.toList) := by
  have h (acc : String) : (ps.foldl (fun acc p => acc ++ p.sql) acc).toList
      = acc.toList ++ ps.flatMap (·.sql.toList) := by
    induction ps generalizing acc with
    | nil => simp
    | cons p ps ih => rw [List.foldl_cons, ih]; simp
  exact h ""

theorem sqlOf_append (ps qs : List Piece) : sqlOf (ps ++ qs) = sqlOf ps ++ sqlOf qs := by
  apply String.toList_inj.mp
  simp [toList_sqlOf]

theorem sqlOf_cons (p : Piece) (ps : List Piece) : sqlOf (p :: ps) = p.sql ++ sqlOf ps := by
  apply String.toList_inj.mp
  simp [toList_sqlOf]

@[simp] theorem sqlOf_nil : sqlOf [] = "" := rfl

def Piece.tokens (p : Piece) : List Token := Sql.tokens p.sql

/-- The text starts with a separator, or is empty. -/
def Detached (s : String) : Prop := s = "" ∨ opens s = true

/-- The first piece starts with a separator, if there is one. -/
def Starts (ps : List Piece) : Prop := ∀ p ∈ ps.head?, opens p.sql = true

/-- The token is a placeholder: a word that starts with `@`. -/
def Token.placeholder? : Token → Option String
  | word s => if s.toList.head? = some '@' then some s else none
  | _ => none

/-- The token is neither a name nor a placeholder. -/
def Token.isPlain : Token → Bool
  | ident _ => false
  | t => t.placeholder? == none

/-- The text holds no name and no placeholder. -/
def silent (s : String) : Bool := (tokens s).all (·.isPlain)

/-- A fixed text that may stand before anything. -/
def leads (s : String) : Bool := closes s && silent s

/-- A fixed text that may stand before a separator. -/
def stands (s : String) : Bool := (after s).settled && silent s

structure Legible (ps : List Piece) : Prop where
  reads : ∀ rest, Detached rest → tokens (sqlOf ps ++ rest) = ps.flatMap Piece.tokens ++ tokens rest
  silent : ∀ s, .text s ∈ ps → silent s = true

theorem opens_append {a : String} (h : opens a = true) (b : String) : opens (a ++ b) = true := by
  rw [opens, String.toList_append]
  cases ha : a.toList with
  | nil => simp [opens, ha] at h
  | cons c cs => simpa [opens, ha] using h

namespace Starts

theorem nil : Starts [] := by
  rintro p ⟨⟩

theorem cons {p : Piece} (h : opens p.sql = true) (ps : List Piece) : Starts (p :: ps) := by
  rintro q ⟨⟩
  exact h

theorem text {s : String} (h : opens s = true) (ps : List Piece) : Starts (.text s :: ps) :=
  cons (p := .text s) h ps

theorem append {ps qs : List Piece} (hp : Starts ps) (hq : Starts qs) : Starts (ps ++ qs) := by
  cases ps with
  | nil => exact hq
  | cons p ps => exact cons (hp p rfl) (ps ++ qs)

theorem flatMap {f : α → List Piece} {xs : List α} (h : ∀ x ∈ xs, Starts (f x)) :
    Starts (xs.flatMap f) := by
  induction xs with
  | nil => exact nil
  | cons x xs ih =>
    rw [List.flatMap_cons]
    exact (h x List.mem_cons_self).append (ih fun y hy => h y (List.mem_cons_of_mem _ hy))

theorem detached {ps : List Piece} (h : Starts ps) {rest : String} (hr : Detached rest) :
    Detached (sqlOf ps ++ rest) := by
  cases ps with
  | nil => simpa using hr
  | cons p ps =>
    rw [sqlOf_cons, String.append_assoc]
    exact .inr (opens_append (h p rfl) _)

end Starts

theorem Detached.apart {a b : String} (hb : Detached b) (ha : (after a).settled = true) :
    Apart a b := by
  obtain rfl | hb := hb
  · rintro c ⟨⟩
  · exact .of_opens ha hb

namespace Legible

theorem tokens_sqlOf {ps : List Piece} (h : Legible ps) :
    tokens (sqlOf ps) = ps.flatMap Piece.tokens := by
  have := h.reads "" (.inl rfl)
  rw [String.append_empty] at this
  rw [this]
  exact List.append_nil _

theorem nil : Legible [] where
  reads rest _ := by simp
  silent s hs := by cases hs

theorem append {ps qs : List Piece} (hp : Legible ps) (hq : Legible qs) (hs : Starts qs) :
    Legible (ps ++ qs) where
  reads rest hr := by
    rw [sqlOf_append, String.append_assoc, hp.reads _ (hs.detached hr), hq.reads _ hr]
    simp
  silent s h := (List.mem_append.mp h).elim (hp.silent s) (hq.silent s)

/-- Text that ends with a separator can stand before anything. -/
theorem closed {s : String} {ps : List Piece} (hs : leads s = true) (h : Legible ps) :
    Legible (.text s :: ps) := by
  obtain ⟨hc, hq⟩ := Bool.and_eq_true_iff.mp hs
  constructor
  · intro rest hr
    rw [sqlOf_cons, String.append_assoc, Piece.sql, tokens_append (.of_closes hc _),
      h.reads _ hr]
    simp [Piece.tokens, Piece.sql]
  · intro s' hs'
    obtain hs' | hs' := List.mem_cons.mp hs'
    · cases hs'
      exact hq
    · exact h.silent s' hs'

/-- A piece that a separator ends. -/
theorem reads_cons {p : Piece} {ps : List Piece} (hp : (after p.sql).settled = true)
    (hs : Starts ps) (h : Legible ps) (rest : String) (hr : Detached rest) :
    tokens (sqlOf (p :: ps) ++ rest) = (p :: ps).flatMap Piece.tokens ++ tokens rest := by
  rw [sqlOf_cons, String.append_assoc, tokens_append ((hs.detached hr).apart hp), h.reads _ hr]
  simp [Piece.tokens]

theorem ident (name : String) {ps : List Piece} (hs : Starts ps) (h : Legible ps) :
    Legible (.ident name :: ps) where
  reads := reads_cons (by rw [Piece.sql, after_quoted]; rfl) hs h
  silent s h' := h.silent s (by simpa using h')

theorem parameter (slot : Nat) {ps : List Piece} (hs : Starts ps) (h : Legible ps) :
    Legible (.parameter slot :: ps) where
  reads := reads_cons (by rw [Piece.sql, after_placeholder]; rfl) hs h
  silent s h' := h.silent s (by simpa using h')

theorem text {s : String} (hs : stands s = true) : Legible [.text s] := by
  obtain ⟨ha, hq⟩ := Bool.and_eq_true_iff.mp hs
  constructor
  · exact reads_cons ha .nil nil
  · intro s' hs'
    cases List.mem_singleton.mp hs'
    exact hq

theorem flatMap {f : α → List Piece} {xs : List α} (h : ∀ x ∈ xs, Legible (f x))
    (hs : ∀ x ∈ xs, Starts (f x)) : Legible (xs.flatMap f) := by
  induction xs with
  | nil => exact nil
  | cons x xs ih =>
    have hxs : ∀ y ∈ xs, Starts (f y) := fun y hy => hs y (List.mem_cons_of_mem _ hy)
    rw [List.flatMap_cons]
    exact (h x List.mem_cons_self).append (ih (fun y hy => h y (List.mem_cons_of_mem _ hy)) hxs)
      (.flatMap hxs)

theorem separated {sep : String} (ho : opens sep = true) (hc : leads sep = true)
    {items : List (List Piece)} (h : ∀ ps ∈ items, Legible ps) : Legible (separated sep items) := by
  cases items with
  | nil => exact nil
  | cons first rest =>
    refine (h first List.mem_cons_self).append (flatMap (fun ps hps => ?_) fun ps _ => ?_)
      (.flatMap fun ps _ => ?_)
    · exact closed hc (h ps (List.mem_cons_of_mem _ hps))
    · exact .text ho ps
    · exact .text ho ps

end Legible

/-! ## Values and conditions -/

theorem legible_qualified (label column : String) {ps : List Piece} (hs : Starts ps)
    (h : Legible ps) : Legible (qualified label column ++ ps) := by
  refine .ident label (.text rfl _) (.closed rfl ?_)
  exact .ident column hs h

theorem legible_aggregatePieces (f : AggregateFunction) {ps : List Piece} (h : Legible ps) :
    Legible (aggregatePieces f ps) := by
  cases f with
  | avg => exact .closed rfl (h.append (.text rfl) (.text rfl _))
  | count => exact .closed rfl (h.append (.text rfl) (.text rfl _))
  | sum => exact .closed rfl (h.append (.text rfl) (.text rfl _))
  | min => exact .closed rfl (h.append (.text rfl) (.text rfl _))
  | max => exact .closed rfl (h.append (.text rfl) (.text rfl _))

theorem Term.legible (t : Term) : Legible t.pieces := by
  induction t with
  | column label name => exact legible_qualified label name .nil .nil
  | parameter slot => exact .parameter slot .nil .nil
  | countAll => exact .text rfl
  | aggregate f a ih => exact legible_aggregatePieces f ih

/-- The sign or word between two operands. -/
theorem legible_between {word : String} (ho : opens (" " ++ word ++ " ") = true)
    (hc : leads (" " ++ word ++ " ") = true) {ps qs : List Piece} (hp : Legible ps)
    (hq : Legible qs) : Legible (ps ++ .text (" " ++ word ++ " ") :: qs) :=
  hp.append (.closed hc hq) (.text ho _)

theorem legible_comparison (op : Comparison) {ps qs : List Piece} (hp : Legible ps)
    (hq : Legible qs) : Legible (ps ++ .text (" " ++ comparisonText op ++ " ") :: qs) := by
  cases op <;> exact legible_between rfl rfl hp hq

theorem legible_connective (op : Connective) {ps qs : List Piece} (hp : Legible ps)
    (hq : Legible qs) : Legible (ps ++ .text (" " ++ connectiveText op ++ " ") :: qs) := by
  cases op <;> exact legible_between rfl rfl hp hq

theorem legible_parenthesized (opening : String) (ho : leads opening = true) {ps : List Piece}
    (h : Legible ps) : Legible (Piece.text opening :: ps ++ [Piece.text ")"]) :=
  .closed ho (h.append (.text rfl) (.text rfl _))

theorem Condition.legible (c : Condition) : Legible c.pieces := by
  induction c with
  | compare op l r => exact legible_comparison op l.legible r.legible
  | isNull t => exact t.legible.append (.text rfl) (.text rfl _)
  | isNotNull t => exact t.legible.append (.text rfl) (.text rfl _)
  | like t p => exact t.legible.append (.closed rfl (.parameter p .nil .nil)) (.text rfl _)
  | isTrue t => exact t.legible.append (.text rfl) (.text rfl _)
  | logical op l r hl hr =>
    have h := legible_parenthesized "(" rfl (legible_connective op hl hr)
    simpa [pieces] using h
  | negation c ih => exact legible_parenthesized _ rfl ih

/-! ## Clauses -/

theorem starts_wherePieces (cs : List Condition) : Starts (wherePieces cs) := by
  unfold wherePieces
  split
  · exact .nil
  · exact .text rfl _

theorem legible_wherePieces (cs : List Condition) : Legible (wherePieces cs) := by
  unfold wherePieces
  split
  · exact .nil
  · refine .closed rfl (.separated rfl rfl fun ps hps => ?_)
    obtain ⟨c, _, rfl⟩ := List.mem_map.mp hps
    exact legible_parenthesized _ rfl c.legible

theorem starts_listClause {keyword : String} (h : opens keyword = true)
    (items : List (List Piece)) : Starts (listClause keyword items) := by
  unfold listClause
  split
  · exact .nil
  · exact .text h _

theorem legible_listClause {keyword : String} (hk : leads keyword = true)
    {items : List (List Piece)} (h : ∀ ps ∈ items, Legible ps) :
    Legible (listClause keyword items) := by
  unfold listClause
  split
  · exact .nil
  · exact .closed hk (.separated rfl rfl h)

theorem OutputColumn.legible (c : OutputColumn) : Legible c.pieces :=
  c.term.legible.append (.closed rfl (.ident c.label .nil .nil)) (.text rfl _)

theorem OrderKey.legible (o : OrderKey) : Legible o.pieces := by
  unfold OrderKey.pieces
  cases o.ascending
  · exact o.term.legible.append (.text rfl) (.text rfl _)
  · exact o.term.legible.append (.text rfl) (.text rfl _)

theorem JoinClause.starts (j : JoinClause) : Starts j.pieces := by
  refine Starts.append (.text ?_ _) ?_
  · cases j.kind <;> rfl
  · cases j.on with
    | none => exact .nil
    | some c => exact .text rfl _

theorem JoinClause.legible (j : JoinClause) : Legible j.pieces := by
  have table : Legible [.text (" " ++ j.kind.text ++ " "), .ident j.table, .text " AS ",
      .ident j.label] := by
    refine .closed ?_ (.ident j.table (.text rfl _) (.closed rfl (.ident j.label .nil .nil)))
    cases j.kind <;> rfl
  unfold pieces
  cases j.on with
  | none => exact table.append .nil .nil
  | some c => exact table.append (.closed rfl c.legible) (.text rfl _)

/-! ## Paging -/

theorem settled_number {a : String} (ha : closes a = true) (n : Nat) :
    (after (a ++ Number.natText n)).settled = true := by
  have hne : Number.natText n ≠ "" := fun h => Nat.toDigits_ne_nil (n := n) (b := 10) (by
    rw [← Number.natDigits, ← toList_natText, h]
    rfl)
  rw [after_append (.of_closes ha _) hne, after_natText]
  rfl

theorem tokens_number {a : String} (ha : closes a = true) (n : Nat) :
    tokens (a ++ Number.natText n) = tokens a ++ [Token.word (Number.natText n)] := by
  rw [tokens_append (.of_closes ha _), tokens_natText]

theorem after_opens {a b : String} (ha : (after a).settled = true) (hb : opens b = true) :
    after (a ++ b) = after b :=
  after_append (.of_opens ha hb) (by rintro rfl; cases hb)

theorem tokens_opens {a b : String} (ha : (after a).settled = true) (hb : opens b = true) :
    tokens (a ++ b) = tokens a ++ tokens b := tokens_append (.of_opens ha hb)

/-- The words of a paging clause. -/
def pagingTokens (d : Dialect) (w : Window) : List Token :=
  let skip := .word (Number.natText w.skip.toNat)
  match d, w.take with
  | .sqlServer, none => [.word "OFFSET", skip, .word "ROWS"]
  | .sqlServer, some t =>
    [.word "OFFSET", skip, .word "ROWS", .word "FETCH", .word "NEXT",
      .word (Number.natText t.toNat), .word "ROWS", .word "ONLY"]
  | .sqlite, none => [.word "LIMIT", .mark '-', .word "1", .word "OFFSET", skip]
  | .sqlite, some t => [.word "LIMIT", .word (Number.natText t.toNat), .word "OFFSET", skip]

theorem paging_reads (d : Dialect) (w : Window) :
    opens (d.paging w) = true ∧ (after (d.paging w)).settled = true ∧
      tokens (d.paging w) = pagingTokens d w := by
  unfold Dialect.paging pagingTokens
  have offset : (after (" OFFSET " ++ Number.natText w.skip.toNat)).settled = true :=
    settled_number rfl _
  cases d with
  | sqlServer =>
    cases w.take with
    | none =>
      refine ⟨opens_append (opens_append rfl _) _, ?_, ?_⟩
      · rw [after_opens offset rfl]; rfl
      · rw [tokens_opens offset rfl, tokens_number rfl]; rfl
    | some t =>
      have fetch : closes (" OFFSET " ++ Number.natText w.skip.toNat ++ " ROWS FETCH NEXT ")
          = true := by
        rw [closes, after_opens offset rfl]; rfl
      have count := settled_number fetch t.toNat
      refine ⟨opens_append (opens_append (opens_append (opens_append rfl _) _) _) _, ?_, ?_⟩
      · rw [after_opens count rfl]; rfl
      · rw [tokens_opens count rfl, tokens_number fetch, tokens_opens offset rfl,
          tokens_number rfl]
        rfl
  | sqlite =>
    cases w.take with
    | none =>
      refine ⟨opens_append rfl _, settled_number rfl _, ?_⟩
      rw [tokens_number rfl]; rfl
    | some t =>
      have limit : (after (" LIMIT " ++ Number.natText t.toNat)).settled = true :=
        settled_number rfl _
      have skip : closes (" LIMIT " ++ Number.natText t.toNat ++ " OFFSET ") = true := by
        rw [closes, after_opens limit rfl]; rfl
      refine ⟨opens_append (opens_append (opens_append rfl _) _) _, settled_number skip _, ?_⟩
      rw [tokens_number skip, tokens_opens limit rfl, tokens_number rfl]
      rfl

theorem isPlain_natText (n : Nat) : (Token.word (Number.natText n)).isPlain = true := by
  have hd : ∀ c ∈ (Number.natText n).toList, c ≠ '@' := by
    rintro c hc rfl
    rw [toList_natText] at hc
    have := Nat.isDigit_of_mem_toDigits (by decide) (by decide) hc
    revert this
    decide
  have hh : (Number.natText n).toList.head? ≠ some '@' := fun h =>
    hd '@' (List.mem_of_head? h) rfl
  simp [Token.isPlain, Token.placeholder?, hh]

theorem silent_paging (d : Dialect) (w : Window) : silent (d.paging w) = true := by
  obtain ⟨_, _, ht⟩ := paging_reads d w
  rw [silent, ht]
  unfold pagingTokens
  split <;> simp [isPlain_natText] <;> decide

/-! ## Statements -/

theorem Select.legible_corePieces (s : Select) : Legible s.corePieces := by
  have columns : Legible (.text (if s.distinct then "SELECT DISTINCT " else "SELECT ")
      :: separated ", " (s.columns.map OutputColumn.pieces)) := by
    refine .closed (by cases s.distinct <;> rfl) (.separated rfl rfl fun ps hps => ?_)
    obtain ⟨c, _, rfl⟩ := List.mem_map.mp hps
    exact c.legible
  have source : Legible [.text " FROM ", .ident s.table, .text " AS ", .ident s.label] :=
    .closed rfl (.ident _ (.text rfl _) (.closed rfl (.ident _ .nil .nil)))
  have joins : Legible (s.joins.flatMap JoinClause.pieces) :=
    .flatMap (fun j _ => j.legible) fun j _ => j.starts
  have group : Legible (listClause " GROUP BY " (s.group.map Term.pieces)) := by
    refine legible_listClause rfl fun ps hps => ?_
    obtain ⟨t, _, rfl⟩ := List.mem_map.mp hps
    exact t.legible
  refine .append (.append (.append (.append columns source ?_) joins ?_)
    (legible_wherePieces _) (starts_wherePieces _)) group (starts_listClause rfl _)
  · exact .text rfl _
  · exact .flatMap fun j _ => j.starts

theorem Select.legible_orderPieces (s : Select) : Legible s.orderPieces := by
  refine legible_listClause rfl fun ps hps => ?_
  obtain ⟨o, _, rfl⟩ := List.mem_map.mp hps
  exact o.legible

theorem Select.legible_pagingPieces (d : Dialect) (s : Select) :
    Legible (s.pagingPieces d) ∧ Starts (s.pagingPieces d) := by
  unfold Select.pagingPieces
  cases s.window with
  | none => exact ⟨.nil, .nil⟩
  | some w =>
    obtain ⟨ho, ha, _⟩ := paging_reads d w
    exact ⟨.text (Bool.and_eq_true_iff.mpr ⟨ha, silent_paging d w⟩), .text ho _⟩

theorem Select.legible (d : Dialect) (s : Select) : Legible (s.pieces d) := by
  obtain ⟨paging, starts⟩ := s.legible_pagingPieces d
  exact (s.legible_corePieces.append s.legible_orderPieces (starts_listClause rfl _)).append
    paging starts

theorem legible_figurePieces (f : AggregateFunction) (column : String) :
    Legible (figurePieces f column) := by
  have target : Legible (qualified derivedAlias column) := legible_qualified _ _ .nil .nil
  have aggregate := legible_aggregatePieces f target
  unfold figurePieces
  split
  · exact .closed rfl (target.append (.text rfl) (.text rfl _))
  · exact aggregate

theorem Retrieval.legible (d : Dialect) (r : Retrieval) : Legible (r.pieces d) := by
  have inner := r.inner.legible d
  have derived : Legible [.text ") AS ", .ident derivedAlias] := .closed rfl (.ident _ .nil .nil)
  unfold Retrieval.pieces
  split
  · exact inner
  · exact .closed rfl (inner.append derived (.text rfl _))
  · exact .closed rfl (inner.append (.text rfl) (.text rfl _))
  · next f column _ =>
    have source : Legible (Piece.text " FROM (" :: (r.inner.pieces d
        ++ [Piece.text ") AS ", Piece.ident derivedAlias])) :=
      .closed rfl (inner.append derived (.text rfl _))
    have value := (legible_figurePieces f column).append
      (.closed rfl (.ident scalarAlias (.text rfl _) source)) (.text (s := " AS ") rfl _)
    simpa using Legible.closed (s := "SELECT ") rfl value

theorem legible_tuplePieces (row : List Nat) : Legible (tuplePieces row) := by
  refine .closed rfl (.append (.separated rfl rfl fun ps hps => ?_) (.text rfl) (.text rfl _))
  obtain ⟨slot, _, rfl⟩ := List.mem_map.mp hps
  exact .parameter slot .nil .nil

theorem legible_outputClause (d : Dialect) (key : Option String) :
    Legible ((key.bind d.outputClause?).getD []) ∧ Starts ((key.bind d.outputClause?).getD []) := by
  cases key with
  | none => exact ⟨.nil, .nil⟩
  | some column =>
    cases d with
    | sqlServer => exact ⟨.closed rfl (.ident column .nil .nil), .text rfl _⟩
    | sqlite => exact ⟨.nil, .nil⟩

theorem legible_returningClause (d : Dialect) (key : Option String) :
    Legible ((key.bind d.returningClause?).getD []) ∧
      Starts ((key.bind d.returningClause?).getD []) := by
  cases key with
  | none => exact ⟨.nil, .nil⟩
  | some column =>
    cases d with
    | sqlServer => exact ⟨.nil, .nil⟩
    | sqlite => exact ⟨.closed rfl (.ident column .nil .nil), .text rfl _⟩

theorem Insert.legible (d : Dialect) (i : Insert) : Legible (i.pieces d) := by
  obtain ⟨output, outputStarts⟩ := legible_outputClause d i.returning
  obtain ⟨returning, returningStarts⟩ := legible_returningClause d i.returning
  have columns : Legible (Sql.separated ", " (i.columns.map fun c => [Piece.ident c])) := by
    refine .separated rfl rfl fun ps hps => ?_
    obtain ⟨c, _, rfl⟩ := List.mem_map.mp hps
    exact .ident c .nil .nil
  have rows : Legible (.text " VALUES " :: Sql.separated ", " (i.rows.map tuplePieces)) := by
    refine .closed rfl (.separated rfl rfl fun ps hps => ?_)
    obtain ⟨row, _, rfl⟩ := List.mem_map.mp hps
    exact legible_tuplePieces row
  have list := columns.append (.text (s := ")") rfl) (.text rfl _)
  have head : Legible (Piece.text "INSERT INTO " :: Piece.ident i.table :: Piece.text " ("
      :: (Sql.separated ", " (i.columns.map fun c => [Piece.ident c]) ++ [Piece.text ")"])) :=
    .closed rfl (.ident i.table (.text rfl _) (.closed rfl list))
  have all := ((head.append output outputStarts).append rows (.text rfl _)).append returning
    returningStarts
  simpa [Insert.pieces] using all

theorem Update.legible (u : Update) : Legible u.pieces := by
  have assignments : Legible (Sql.separated ", " (u.assignments.map fun a =>
      [Piece.ident a.1, Piece.text " = ", Piece.parameter a.2])) := by
    refine .separated rfl rfl fun ps hps => ?_
    obtain ⟨⟨c, slot⟩, _, rfl⟩ := List.mem_map.mp hps
    exact .ident c (.text rfl _) (.closed rfl (.parameter slot .nil .nil))
  have head : Legible (Piece.text "UPDATE " :: Piece.ident u.table :: Piece.text " SET "
      :: Sql.separated ", " (u.assignments.map fun a =>
        [Piece.ident a.1, Piece.text " = ", Piece.parameter a.2])) :=
    .closed rfl (.ident u.table (.text rfl _) (.closed rfl assignments))
  exact head.append (legible_wherePieces _) (starts_wherePieces _)

theorem Delete.legible (x : Delete) : Legible x.pieces :=
  .closed rfl (.ident x.table (starts_wherePieces _) (legible_wherePieces _))

end RecordQuery.Sql
