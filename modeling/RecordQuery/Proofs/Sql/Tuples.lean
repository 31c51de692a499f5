import RecordQuery.Proofs.Compile.Meaning
import RecordQuery.Proofs.Compile.Numbering

/-!
# The rows in the text of an INSERT

An INSERT names its table first. Its first parentheses hold the column list and each later pair the
placeholders of a row, in column order. `Statement.tableName`, `Statement.columnNames` and
`Statement.tuples` read these off the tokens of a text; `Insert.pieces` writes them.
-/

namespace RecordQuery

namespace Sql

def Token.name? : Token → Option String
  | ident name => some name
  | _ => none

/-- The tokens in each pair of parentheses. Those since an open one are given. -/
def parenthesized : Option (List Token) → List Token → List (List Token)
  | _, [] => []
  | none, t :: ts => parenthesized (if t = .mark '(' then some [] else none) ts
  | some inner, t :: ts =>
    if t = .mark ')' then inner :: parenthesized none ts else parenthesized (some (inner ++ [t])) ts

/-- The token is no parenthesis. -/
def Token.isInner (t : Token) : Bool := t != .mark '(' && t != .mark ')'

theorem parenthesized_outside {ts : List Token} (h : ∀ t ∈ ts, t.isInner = true)
    (rest : List Token) : parenthesized none (ts ++ rest) = parenthesized none rest := by
  induction ts with
  | nil => rfl
  | cons t ts ih =>
    have ht : t ≠ .mark '(' := by
      rintro rfl
      exact absurd (h _ List.mem_cons_self) (by decide)
    rw [List.cons_append, parenthesized, if_neg ht]
    exact ih fun u hu => h u (List.mem_cons_of_mem _ hu)

theorem parenthesized_inside {ts : List Token} (h : ∀ t ∈ ts, t.isInner = true)
    (inner rest : List Token) :
    parenthesized (some inner) (ts ++ .mark ')' :: rest)
      = (inner ++ ts) :: parenthesized none rest := by
  induction ts generalizing inner with
  | nil => simp [parenthesized]
  | cons t ts ih =>
    have ht : t ≠ .mark ')' := by
      rintro rfl
      exact absurd (h _ List.mem_cons_self) (by decide)
    rw [List.cons_append, parenthesized, if_neg ht,
      ih fun u hu => h u (List.mem_cons_of_mem _ hu), List.append_assoc]
    rfl

theorem parenthesized_pair {ts : List Token} (h : ∀ t ∈ ts, t.isInner = true)
    (rest : List Token) :
    parenthesized none (.mark '(' :: (ts ++ .mark ')' :: rest))
      = ts :: parenthesized none rest := by
  rw [parenthesized, if_pos rfl, parenthesized_inside h, List.nil_append]

/-! ## Lists -/

/-- The tokens of a list of pieces. -/
def listed (ps : List Piece) : List Token := (separated ", " (ps.map ([·]))).flatMap Piece.tokens

theorem listed_cons (p : Piece) (ps : List Piece) :
    listed (p :: ps) = p.tokens ++ ps.flatMap fun q => .mark ',' :: q.tokens := by
  have comma : (Piece.text ", ").tokens = [.mark ','] := rfl
  simp [listed, separated, List.flatMap_map, List.flatMap_assoc, comma]

theorem isInner_of_mem_listed {ps : List Piece}
    (h : ∀ p ∈ ps, ∀ t ∈ p.tokens, t.isInner = true) : ∀ t ∈ listed ps, t.isInner = true := by
  cases ps with
  | nil => simp [listed, separated]
  | cons p ps =>
    intro t ht
    rw [listed_cons] at ht
    simp only [List.mem_append, List.mem_flatMap, List.mem_cons] at ht
    obtain ht | ⟨q, hq, rfl | ht⟩ := ht
    · exact h p List.mem_cons_self t ht
    · rfl
    · exact h q (List.mem_cons_of_mem _ hq) t ht

theorem filterMap_listed {f : Token → Option α} (hf : f (.mark ',') = none) (ps : List Piece) :
    (listed ps).filterMap f = ps.flatMap fun p => p.tokens.filterMap f := by
  cases ps with
  | nil => rfl
  | cons p ps => simp [listed_cons, List.filterMap_flatMap, hf]

theorem Piece.tokens_ident (name : String) : (ident name).tokens = [.ident name] :=
  tokens_quoted name

theorem Piece.tokens_parameter (slot : Nat) :
    (parameter slot).tokens = [.word (placeholder slot)] :=
  tokens_placeholder slot

def nameTokens (names : List String) : List Token := listed (names.map .ident)

def slotTokens (slots : List Nat) : List Token := listed (slots.map .parameter)

theorem isInner_nameTokens (names : List String) : ∀ t ∈ nameTokens names, t.isInner = true := by
  refine isInner_of_mem_listed fun p hp t ht => ?_
  obtain ⟨name, _, rfl⟩ := List.mem_map.mp hp
  rw [Piece.tokens_ident, List.mem_singleton] at ht
  rw [ht]
  rfl

theorem isInner_slotTokens (slots : List Nat) : ∀ t ∈ slotTokens slots, t.isInner = true := by
  refine isInner_of_mem_listed fun p hp t ht => ?_
  obtain ⟨slot, _, rfl⟩ := List.mem_map.mp hp
  rw [Piece.tokens_parameter, List.mem_singleton] at ht
  rw [ht]
  rfl

theorem names_nameTokens (names : List String) :
    (nameTokens names).filterMap Token.name? = names := by
  rw [nameTokens, filterMap_listed rfl]
  simp [List.flatMap_map, Piece.tokens_ident, Token.name?]

theorem placeholders_slotTokens (slots : List Nat) :
    (slotTokens slots).filterMap Token.placeholder? = slots.map placeholder := by
  rw [slotTokens, filterMap_listed rfl, List.flatMap_map, List.map_eq_flatMap]
  simp [Piece.tokens_parameter, placeholder?_placeholder]

/-! ## Inserts -/

theorem isInner_outputClause (d : Dialect) (key : Option String) :
    ∀ t ∈ ((key.bind d.outputClause?).getD []).flatMap Piece.tokens, t.isInner = true := by
  cases key with
  | none => simp
  | some column =>
    cases d with
    | sqlServer =>
      have words : (Piece.text " OUTPUT INSERTED.").tokens
          = [.word "OUTPUT", .word "INSERTED", .mark '.'] := rfl
      simp [Dialect.outputClause?, Piece.tokens_ident, words, Token.isInner]
    | sqlite => simp [Dialect.outputClause?]

theorem isInner_returningClause (d : Dialect) (key : Option String) :
    ∀ t ∈ ((key.bind d.returningClause?).getD []).flatMap Piece.tokens, t.isInner = true := by
  cases key with
  | none => simp
  | some column =>
    cases d with
    | sqlServer => simp [Dialect.returningClause?]
    | sqlite =>
      have word : (Piece.text " RETURNING ").tokens = [.word "RETURNING"] := rfl
      simp [Dialect.returningClause?, Piece.tokens_ident, word, Token.isInner]

theorem tokens_tuplePieces (row : List Nat) :
    (tuplePieces row).flatMap Piece.tokens = .mark '(' :: (slotTokens row ++ [.mark ')']) := by
  have opening : (Piece.text "(").tokens = [.mark '('] := rfl
  have closing : (Piece.text ")").tokens = [.mark ')'] := rfl
  simp [tuplePieces, slotTokens, listed, opening, closing, List.map_map, Function.comp_def]

theorem parenthesized_tuples (rows : List (List Nat)) (rest : List Token) :
    parenthesized none ((separated ", " (rows.map tuplePieces)).flatMap Piece.tokens ++ rest)
      = rows.map slotTokens ++ parenthesized none rest := by
  have comma : (Piece.text ", ").tokens = [.mark ','] := rfl
  have one (row : List Nat) (rest : List Token) :
      parenthesized none ((tuplePieces row).flatMap Piece.tokens ++ rest)
        = slotTokens row :: parenthesized none rest := by
    rw [tokens_tuplePieces, List.cons_append, List.append_assoc]
    exact parenthesized_pair (isInner_slotTokens row) rest
  have later (rows : List (List Nat)) :
      parenthesized none (((rows.map tuplePieces).flatMap fun ps => .text ", " :: ps).flatMap
          Piece.tokens ++ rest)
        = rows.map slotTokens ++ parenthesized none rest := by
    induction rows with
    | nil => rfl
    | cons row rows ih =>
      rw [List.map_cons, List.flatMap_cons, List.flatMap_append, List.flatMap_cons, comma,
        List.append_assoc, List.append_assoc, List.singleton_append, parenthesized,
        if_neg (by decide), one, ih]
      rfl
  cases rows with
  | nil => rfl
  | cons row rows =>
    rw [List.map_cons, separated, List.flatMap_append, List.append_assoc, one, later]
    rfl

namespace Insert

variable (d : Dialect) (i : Insert)

theorem tokens_pieces :
    (i.pieces d).flatMap Piece.tokens =
      .word "INSERT" :: .word "INTO" :: .ident i.table :: .mark '(' ::
        (nameTokens i.columns ++ .mark ')' ::
          (((i.returning.bind d.outputClause?).getD []).flatMap Piece.tokens ++ .word "VALUES" ::
            ((separated ", " (i.rows.map tuplePieces)).flatMap Piece.tokens ++
              ((i.returning.bind d.returningClause?).getD []).flatMap Piece.tokens))) := by
  have insert : (Piece.text "INSERT INTO ").tokens = [.word "INSERT", .word "INTO"] := rfl
  have opening : (Piece.text " (").tokens = [.mark '('] := rfl
  have closing : (Piece.text ")").tokens = [.mark ')'] := rfl
  have values : (Piece.text " VALUES ").tokens = [.word "VALUES"] := rfl
  simp [Insert.pieces, insert, opening, closing, values, Piece.tokens_ident, nameTokens, listed,
    List.map_map, Function.comp_def]

/-- The parentheses hold the column list and the rows, and nothing else. -/
theorem parenthesized_pieces :
    parenthesized none (tokens (sqlOf (i.pieces d)))
      = nameTokens i.columns :: i.rows.map slotTokens := by
  rw [(i.legible d).tokens_sqlOf, tokens_pieces]
  have head : ∀ t ∈ [Token.word "INSERT", .word "INTO", .ident i.table], t.isInner = true := by
    simp [Token.isInner]
  have last := parenthesized_outside (isInner_returningClause d i.returning) []
  rw [List.append_nil] at last
  change parenthesized none ([Token.word "INSERT", .word "INTO", .ident i.table] ++ .mark '(' :: _)
    = _
  rw [parenthesized_outside head, parenthesized_pair (isInner_nameTokens i.columns),
    parenthesized_outside (isInner_outputClause d i.returning), parenthesized, if_neg (by decide),
    parenthesized_tuples, last, parenthesized, List.append_nil]

end Insert

end Sql

open Sql

namespace Statement

variable (s : Statement)

/-- The first name in the text. -/
def tableName : Option String := (tokens s.sql).findSome? Token.name?

/-- The names in the first parentheses. -/
def columnNames : List String :=
  ((parenthesized none (tokens s.sql)).headD []).filterMap Token.name?

/-- The values of the placeholders in the parentheses after the first. -/
def tuples : List (List Value) :=
  (parenthesized none (tokens s.sql)).tail.map fun ts =>
    (ts.filterMap Token.placeholder?).map (Param.lookup s.params)

end Statement

section

variable (d : Dialect) (i : Insert) (bound : List Value)

theorem tableName_insert :
    (Statement.ofPieces (i.pieces d) bound).tableName = some i.table := by
  rw [Statement.tableName, Statement.ofPieces, (i.legible d).tokens_sqlOf, i.tokens_pieces]
  rfl

theorem columnNames_insert :
    (Statement.ofPieces (i.pieces d) bound).columnNames = i.columns := by
  rw [Statement.columnNames, Statement.ofPieces, i.parenthesized_pieces]
  exact names_nameTokens i.columns

theorem tuples_insert :
    (Statement.ofPieces (i.pieces d) bound).tuples
      = i.rows.map (·.map fun slot => Param.lookup (Param.number bound) (placeholder slot)) := by
  rw [Statement.tuples, Statement.ofPieces, i.parenthesized_pieces, List.tail_cons, List.map_map]
  refine List.map_congr_left fun row _ => ?_
  rw [Function.comp, placeholders_slotTokens, List.map_map]
  rfl

end

end RecordQuery
