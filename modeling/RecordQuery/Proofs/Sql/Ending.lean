import RecordQuery.Proofs.Sql.Legible

/-!
# How the text of a SELECT ends

The words ORDER, OFFSET, LIMIT and FETCH are in the order and the paging clause of a SELECT and in
no other part of a statement. The text of a SELECT ends with the order clause, if there are order
keys, and the paging clause, if there is a window (`Select.ending`), which is read off it
(`Select.windowIn_pieces`); what stands around a derived table has neither (`Retrieval.surround`).
-/

namespace RecordQuery.Sql

/-- The word is of a paging clause. -/
def Token.isPaging : Token → Bool
  | word s => s == "OFFSET" || s == "LIMIT" || s == "FETCH"
  | _ => false

/-- The word is of an order or a paging clause. -/
def Token.isEnding (t : Token) : Bool := t == .word "ORDER" || t.isPaging

def HasOrder (sql : String) : Prop := .word "ORDER" ∈ tokens sql

def HasPaging (sql : String) : Prop := ∃ t ∈ tokens sql, t.isPaging = true

/-- No word among the tokens is of an order or a paging clause. -/
def Endless (ts : List Token) : Prop := ∀ t ∈ ts, t.isEnding = false

theorem Endless.append {ts us : List Token} (ht : Endless ts) (hu : Endless us) :
    Endless (ts ++ us) :=
  fun t h => (List.mem_append.mp h).elim (ht t) (hu t)

theorem Endless.not_order {ts : List Token} (h : Endless ts) : .word "ORDER" ∉ ts := by
  intro hm
  have := h _ hm
  revert this
  decide

theorem Endless.not_paging {ts : List Token} (h : Endless ts) : ¬∃ t ∈ ts, t.isPaging = true := by
  rintro ⟨t, ht, hp⟩
  have := h t ht
  rw [Token.isEnding, hp, Bool.or_true] at this
  cases this

def endless (s : String) : Bool := (tokens s).all fun t => !t.isEnding

/-- The fixed texts of the pieces have no word of an order or a paging clause. -/
def Inner (ps : List Piece) : Prop := ∀ s, .text s ∈ ps → endless s = true

/-- Only fixed texts have such words: names stand in brackets, placeholders start with `@`. -/
theorem Inner.endless {ps : List Piece} (h : Inner ps) : Endless (ps.flatMap Piece.tokens) := by
  intro t ht
  obtain ⟨p, hp, ht⟩ := List.mem_flatMap.mp ht
  cases p with
  | text s =>
    have := List.all_eq_true.mp (h s hp) t ht
    simpa using this
  | ident name =>
    rw [Piece.tokens, Piece.sql, tokens_quoted, List.mem_singleton] at ht
    subst ht
    rfl
  | parameter slot =>
    rw [Piece.tokens, Piece.sql, tokens_placeholder, List.mem_singleton] at ht
    subst ht
    have other {w : String} (h : w.toList.head? ≠ some '@') := placeholder_ne h slot
    simp [Token.isEnding, Token.isPaging, other (w := "ORDER") (by decide),
      other (w := "OFFSET") (by decide), other (w := "LIMIT") (by decide),
      other (w := "FETCH") (by decide)]

namespace Inner

variable {ps qs : List Piece}

theorem nil : Inner [] := by
  intro s hs
  cases hs

theorem append (hp : Inner ps) (hq : Inner qs) : Inner (ps ++ qs) :=
  fun s h => (List.mem_append.mp h).elim (hp s) (hq s)

theorem text {s : String} (hs : Sql.endless s = true) (h : Inner ps) : Inner (.text s :: ps) := by
  intro s' hs'
  obtain hs' | hs' := List.mem_cons.mp hs'
  · cases hs'
    exact hs
  · exact h s' hs'

theorem ident (name : String) (h : Inner ps) : Inner (.ident name :: ps) :=
  fun s hs => h s (by simpa using hs)

theorem parameter (slot : Nat) (h : Inner ps) : Inner (.parameter slot :: ps) :=
  fun s hs => h s (by simpa using hs)

theorem flatMap {f : α → List Piece} {xs : List α} (h : ∀ x ∈ xs, Inner (f x)) :
    Inner (xs.flatMap f) := by
  intro s hs
  obtain ⟨x, hx, hs⟩ := List.mem_flatMap.mp hs
  exact h x hx s hs

theorem separated {sep : String} (hs : Sql.endless sep = true) {f : α → List Piece} {xs : List α}
    (h : ∀ x ∈ xs, Inner (f x)) : Inner (separated sep (xs.map f)) := by
  cases xs with
  | nil => exact nil
  | cons x xs =>
    refine (h x List.mem_cons_self).append (.flatMap fun ps hps => .text hs ?_)
    obtain ⟨y, hy, rfl⟩ := List.mem_map.mp hps
    exact h y (List.mem_cons_of_mem _ hy)

theorem aggregatePieces (f : AggregateFunction) (h : Inner ps) : Inner (aggregatePieces f ps) := by
  cases f <;> exact .text rfl (h.append (.text rfl nil))

theorem qualified (label name : String) : Inner (qualified label name) :=
  .ident label (.text rfl (.ident name nil))

theorem term (t : Term) : Inner t.pieces := by
  induction t with
  | column label name => exact .qualified label name
  | parameter slot => exact .parameter slot nil
  | countAll => exact .text rfl nil
  | aggregate f a ih => exact ih.aggregatePieces f

theorem condition (c : Condition) : Inner c.pieces := by
  induction c with
  | compare op l r => exact (term l).append (.text (by cases op <;> rfl) (term r))
  | isNull t => exact (term t).append (.text rfl nil)
  | isNotNull t => exact (term t).append (.text rfl nil)
  | like t p => exact (term t).append (.text rfl (.parameter p nil))
  | isTrue t => exact (term t).append (.text rfl nil)
  | logical op l r hl hr =>
    have between : Inner (.text (" " ++ connectiveText op ++ " ") :: r.pieces) :=
      .text (by cases op <;> rfl) hr
    exact .append (.text rfl (hl.append between)) (.text rfl nil)
  | negation c ih => exact .text rfl (ih.append (.text rfl nil))

theorem wherePieces (cs : List Condition) : Inner (wherePieces cs) := by
  unfold Sql.wherePieces
  split
  · exact nil
  · exact .text rfl (.separated rfl fun c _ => .text rfl ((condition c).append (.text rfl nil)))

theorem join (j : JoinClause) : Inner j.pieces := by
  refine .append (.text ?_ (.ident j.table (.text rfl (.ident j.label nil)))) ?_
  · cases j.kind <;> rfl
  · cases j.on with
    | none => exact nil
    | some c => exact .text rfl (condition c)

theorem corePieces (s : Select) : Inner s.corePieces := by
  have columns : Inner (.text (if s.distinct then "SELECT DISTINCT " else "SELECT ")
      :: Sql.separated ", " (s.columns.map OutputColumn.pieces)) := by
    refine .text (by cases s.distinct <;> rfl) (.separated rfl fun c _ => ?_)
    exact (term c.term).append (.text rfl (.ident c.label nil))
  have source : Inner [.text " FROM ", .ident s.table, .text " AS ", .ident s.label] :=
    .text rfl (.ident _ (.text rfl (.ident _ nil)))
  have group : Inner (listClause " GROUP BY " (s.group.map Term.pieces)) := by
    unfold listClause
    split
    · exact nil
    · exact .text rfl (.separated rfl fun t _ => term t)
  exact (((columns.append source).append (.flatMap fun j _ => join j)).append
    (wherePieces s.filters)).append group

end Inner

/-! ## The end of a SELECT -/

/-- The tokens of sort keys. -/
def keyTokens (keys : List OrderKey) : List Token :=
  (separated ", " (keys.map OrderKey.pieces)).flatMap Piece.tokens

theorem endless_keyTokens (keys : List OrderKey) : Endless (keyTokens keys) := by
  refine Inner.endless (.separated rfl fun o _ => (Inner.term o.term).append (.text ?_ .nil))
  cases o.ascending <;> rfl

/-- The tokens of an order clause; there is none without keys. -/
def orderTokens (keys : List OrderKey) : List Token :=
  if keys.isEmpty then [] else .word "ORDER" :: .word "BY" :: keyTokens keys

theorem isPaging_orderTokens (keys : List OrderKey) :
    ¬∃ t ∈ orderTokens keys, t.isPaging = true := by
  unfold orderTokens
  split
  · simp
  · have plain := (endless_keyTokens keys).not_paging
    simpa [Token.isPaging] using plain

theorem isPaging_pagingTokens (d : Dialect) (w : Window) :
    ∃ t ∈ pagingTokens d w, t.isPaging = true := by
  refine ⟨.word "OFFSET", ?_, rfl⟩
  unfold pagingTokens
  split <;> simp

namespace Select

variable (d : Dialect) (s : Select)

/-- The order and the paging clause are the last of a SELECT, and nothing before them has their
words. -/
theorem ending :
    ∃ core, Endless core ∧ tokens (sqlOf (s.pieces d))
      = core ++ orderTokens s.orders ++ s.window.elim [] (pagingTokens d) := by
  have order : s.orderPieces.flatMap Piece.tokens = orderTokens s.orders := by
    unfold orderPieces listClause orderTokens
    rw [List.isEmpty_map]
    split <;> rfl
  have paging : (s.pagingPieces d).flatMap Piece.tokens = s.window.elim [] (pagingTokens d) := by
    unfold pagingPieces
    cases s.window with
    | none => rfl
    | some w =>
      rw [List.flatMap_singleton, Piece.tokens, Piece.sql, (paging_reads d w).2.2, Option.elim]
  refine ⟨s.corePieces.flatMap Piece.tokens, (Inner.corePieces s).endless, ?_⟩
  rw [(s.legible d).tokens_sqlOf, pieces, List.flatMap_append, List.flatMap_append, order, paging]

theorem hasPaging_iff : HasPaging (sqlOf (s.pieces d)) ↔ s.window.isSome = true := by
  obtain ⟨core, endless, text⟩ := s.ending d
  have core := endless.not_paging
  have order := isPaging_orderTokens s.orders
  rw [HasPaging, text]
  cases s.window with
  | none =>
    simp only [Option.elim, List.append_nil, List.mem_append, Option.isSome_none]
    refine iff_of_false ?_ (by simp)
    rintro ⟨t, ht | ht, hp⟩
    · exact core ⟨t, ht, hp⟩
    · exact order ⟨t, ht, hp⟩
  | some w =>
    obtain ⟨t, ht, hp⟩ := isPaging_pagingTokens d w
    exact iff_of_true ⟨t, List.mem_append_right _ ht, hp⟩ rfl

theorem not_hasOrder {s : Select} (ho : s.orders = []) (hw : s.window = none) :
    ¬HasOrder (sqlOf (s.pieces d)) := by
  obtain ⟨core, endless, text⟩ := s.ending d
  rw [HasOrder, text, ho, hw]
  simpa [orderTokens] using endless.not_order

end Select

/-! ## The window of a text -/

/-- The number that the word spells. -/
def Token.number : Token → UInt64
  | word s => .ofNat (Nat.ofDigitChars 10 s.toList 0)
  | _ => 0

/-- The window of the words of a paging clause. -/
def paging? : List Token → Option Window
  | [.word "OFFSET", skip, .word "ROWS"] => some ⟨skip.number, none⟩
  | [.word "OFFSET", skip, .word "ROWS", .word "FETCH", .word "NEXT", take, .word "ROWS",
      .word "ONLY"] => some ⟨skip.number, some take.number⟩
  | [.word "LIMIT", .mark '-', .word "1", .word "OFFSET", skip] => some ⟨skip.number, none⟩
  | [.word "LIMIT", take, .word "OFFSET", skip] => some ⟨skip.number, some take.number⟩
  | _ => none

/-- The window that the text ends with. -/
def windowIn (sql : String) : Option Window := paging? ((tokens sql).dropWhile (!·.isPaging))

theorem number_natText (n : UInt64) : (Token.word (Number.natText n.toNat)).number = n := by
  rw [Token.number, toList_natText, Number.natDigits, Nat.ofDigitChars_ten_toDigits,
    UInt64.ofNat_toNat]

theorem paging?_pagingTokens (d : Dialect) (w : Window) : paging? (pagingTokens d w) = some w := by
  obtain ⟨skip, take⟩ := w
  cases d <;> cases take <;> simp [pagingTokens, paging?, number_natText]

theorem dropWhile_pagingTokens (d : Dialect) (w : Window) :
    (pagingTokens d w).dropWhile (!·.isPaging) = pagingTokens d w := by
  unfold pagingTokens
  split <;> rfl

theorem Select.windowIn_pieces (d : Dialect) (s : Select) :
    windowIn (sqlOf (s.pieces d)) = s.window := by
  obtain ⟨core, endless, text⟩ := s.ending d
  have before : ∀ t ∈ core ++ orderTokens s.orders, (!t.isPaging) = true := by
    intro t ht
    rw [Bool.not_eq_true', Bool.eq_false_iff]
    intro paging
    obtain ht | ht := List.mem_append.mp ht
    · exact endless.not_paging ⟨t, ht, paging⟩
    · exact isPaging_orderTokens s.orders ⟨t, ht, paging⟩
  rw [windowIn, text, List.dropWhile_append_of_pos before]
  cases s.window with
  | none => rfl
  | some w => rw [Option.elim, dropWhile_pagingTokens, paging?_pagingTokens]

/-! ## Around a derived table -/

/-- The tokens are those of a derived table, in parentheses, with no order and no page outside. -/
def Encloses (ts inner : List Token) : Prop :=
  ∃ before following, ts = before ++ .mark '(' :: inner ++ .mark ')' :: following ∧
    Endless before ∧ Endless following

theorem Encloses.of_pieces (before : List Piece) {inner following : List Piece}
    (opening closing : String) (ho : (tokens opening).getLast? = some (.mark '('))
    (hc : (tokens closing).head? = some (.mark ')')) (opens : endless opening = true)
    (closes : endless closing = true) (hb : Inner before) (hf : Inner following) :
    Encloses ((before ++ .text opening :: inner ++ .text closing :: following).flatMap Piece.tokens)
      (inner.flatMap Piece.tokens) := by
  obtain ⟨us, hus⟩ := List.getLast?_eq_some_iff.mp ho
  obtain ⟨ws, hws⟩ := List.head?_eq_some_iff.mp hc
  have first : Endless (us ++ [.mark '(']) := by
    simpa [Piece.tokens, Piece.sql, hus] using (Inner.text opens .nil).endless
  have last : Endless (.mark ')' :: ws) := by
    simpa [Piece.tokens, Piece.sql, hws] using (Inner.text closes .nil).endless
  refine ⟨before.flatMap Piece.tokens ++ us, ws ++ following.flatMap Piece.tokens, ?_, ?_, ?_⟩
  · simp [Piece.tokens, Piece.sql, hus, hws]
  · exact hb.endless.append fun t ht => first t (List.mem_append_left _ ht)
  · exact Endless.append (fun t ht => last t (List.mem_cons_of_mem _ ht)) hf.endless

theorem Inner.figurePieces (f : AggregateFunction) (column : String) :
    Inner (figurePieces f column) := by
  have target := Inner.qualified derivedAlias column
  unfold Sql.figurePieces
  split
  · exact .text rfl (target.append (.text rfl .nil))
  · exact target.aggregatePieces f

/-- A statement is its SELECT, or has it as a derived table. -/
theorem Retrieval.surround (d : Dialect) (x : Retrieval) :
    if x.outer = .rows then x.pieces d = x.inner.pieces d
    else Encloses (tokens (sqlOf (x.pieces d))) (tokens (sqlOf (x.inner.pieces d))) := by
  rw [(x.legible d).tokens_sqlOf, (x.inner.legible d).tokens_sqlOf]
  obtain ⟨outer, inner⟩ := x
  cases outer with
  | rows => rfl
  | count =>
    exact .of_pieces [] "SELECT COUNT(1) FROM (" ") AS " rfl rfl rfl rfl .nil
      (.ident derivedAlias .nil)
  | «exists» =>
    exact .of_pieces [] "SELECT CASE WHEN EXISTS (" ") THEN 1 ELSE 0 END" rfl rfl rfl rfl .nil .nil
  | aggregate f column =>
    have before : Inner (.text "SELECT " :: Sql.figurePieces f column
        ++ [.text " AS ", .ident scalarAlias]) :=
      .append (.text rfl (.figurePieces f column)) (.text rfl (.ident scalarAlias .nil))
    have whole : Encloses _ ((inner.pieces d).flatMap Piece.tokens) :=
      .of_pieces _ " FROM (" ") AS " rfl rfl rfl rfl before (.ident derivedAlias .nil)
    simpa [pieces] using whole

end RecordQuery.Sql
