import Mathlib.Logic.Function.Basic
import RecordQuery.Proofs.Sql.Legible

/-!
# Quoted names are read back

A name in brackets ends at the first closing bracket that is not doubled. `readQuoted?` reads such a
name off the front of a text, on its own and not as part of the tokens of a statement. What it reads
is exactly what `quoted` writes, up to the last bracket of it (`quoted_names_read_back`): no name
has a text that another one shares or starts with, unless a closing bracket follows, which then
belongs to the longer name.
-/

namespace RecordQuery.Sql

/-- The characters up to the bracket that closes a name, and those after it. Of two closing brackets
in a row the name has one. -/
def untilBracket? : List Char → Option (List Char × List Char)
  | [] => none
  | ']' :: ']' :: cs => (untilBracket? cs).map fun (name, rest) => (']' :: name, rest)
  | ']' :: cs => some ([], cs)
  | c :: cs => (untilBracket? cs).map fun (name, rest) => (c :: name, rest)

/-- The name in brackets that a text starts with, and the text after it. -/
def readQuoted? (text : String) : Option (String × String) :=
  match text.toList with
  | '[' :: cs => (untilBracket? cs).map fun (name, rest) => (.ofList name, .ofList rest)
  | _ => none

/-- The text does not go on with a closing bracket. -/
def Unbracketed (text : String) : Prop := text.toList.head? ≠ some ']'

theorem untilBracket?_cons {c : Char} (h : c ≠ ']') (cs : List Char) :
    untilBracket? (c :: cs) = (untilBracket? cs).map fun (name, rest) => (c :: name, rest) := by
  rw [untilBracket?]
  · exact fun _ same => absurd same h
  · exact fun same => absurd same h

theorem untilBracket?_doubled (cs : List Char) :
    untilBracket? (']' :: ']' :: cs)
      = (untilBracket? cs).map fun (name, rest) => (']' :: name, rest) := by
  rw [untilBracket?]

/-- A bracket with no other behind it closes the name. -/
theorem untilBracket?_closing {rest : List Char} (h : rest.head? ≠ some ']') :
    untilBracket? (']' :: rest) = some ([], rest) := by
  rw [untilBracket?]
  rintro cs rfl
  exact h rfl

/-- What is read was written with its brackets doubled, and with one that closes it. -/
theorem untilBracket?_eq_some_iff {cs name rest : List Char} :
    untilBracket? cs = some (name, rest) ↔
      cs = doubleBrackets name ++ ']' :: rest ∧ rest.head? ≠ some ']' := by
  constructor
  · intro h
    fun_induction untilBracket? cs generalizing name with
    | case1 => cases h
    | case2 cs ih =>
      obtain ⟨⟨inner, _⟩, read, he⟩ := Option.map_eq_some_iff.mp h
      cases he
      obtain ⟨rfl, apart⟩ := ih read
      exact ⟨rfl, apart⟩
    | case3 cs single =>
      cases h
      refine ⟨rfl, fun first => ?_⟩
      obtain ⟨tail, rfl⟩ := List.head?_eq_some_iff.mp first
      exact single tail rfl
    | case4 c cs _ other ih =>
      obtain ⟨⟨inner, _⟩, read, he⟩ := Option.map_eq_some_iff.mp h
      cases he
      obtain ⟨rfl, apart⟩ := ih read
      exact ⟨by rw [doubleBrackets, if_neg other]; rfl, apart⟩
  · rintro ⟨rfl, apart⟩
    induction name with
    | nil => exact untilBracket?_closing apart
    | cons c name ih =>
      by_cases bracket : c = ']'
      · subst bracket
        change untilBracket? (']' :: ']' :: (doubleBrackets name ++ ']' :: rest)) = _
        rw [untilBracket?_doubled, ih]
        rfl
      · rw [doubleBrackets, if_neg bracket, List.cons_append, untilBracket?_cons bracket, ih]
        rfl

theorem toList_quoted (name : String) :
    (quoted name).toList = '[' :: (doubleBrackets name.toList ++ [']']) :=
  String.toList_ofList

/-- Exactly the quoted names are read, each to its end. -/
theorem readQuoted?_eq_some_iff {text name rest : String} :
    readQuoted? text = some (name, rest) ↔ text = quoted name ++ rest ∧ Unbracketed rest := by
  have written : text = quoted name ++ rest ↔
      text.toList = '[' :: (doubleBrackets name.toList ++ ']' :: rest.toList) := by
    rw [← String.toList_inj, String.toList_append, toList_quoted]
    simp
  rw [written]
  unfold readQuoted? Unbracketed
  split
  · next cs opened =>
    have inner (cs : List Char) :
        ((untilBracket? cs).map fun (name, rest) => (String.ofList name, String.ofList rest))
            = some (name, rest) ↔
          untilBracket? cs = some (name.toList, rest.toList) := by
      rw [Option.map_eq_some_iff]
      constructor
      · rintro ⟨⟨inner, after⟩, read, he⟩
        cases he
        rw [read, String.toList_ofList, String.toList_ofList]
      · intro read
        exact ⟨_, read, by simp⟩
    rw [inner, untilBracket?_eq_some_iff, opened, List.cons.injEq]
    simp
  · next unopened =>
    refine iff_of_false nofun fun ⟨opened, _⟩ => ?_
    exact unopened _ opened

theorem quoted_injective : Function.Injective quoted := by
  intro name other same
  have whole (n : String) : readQuoted? (quoted n) = some (n, "") :=
    readQuoted?_eq_some_iff.mpr ⟨by simp, by simp [Unbracketed]⟩
  have read := whole name
  rw [same, whole other] at read
  cases read
  rfl

theorem sqlOf_qualified (label column : String) :
    sqlOf (qualified label column) = quoted label ++ ("." ++ quoted column) := by
  simp [qualified, sqlOf_cons, Piece.sql]

/-- An alias and a column are told apart by what is written of them. -/
theorem qualified_injective {label column label' column' : String}
    (same : sqlOf (qualified label column) = sqlOf (qualified label' column')) :
    label = label' ∧ column = column' := by
  have read (l c : String) :
      readQuoted? (sqlOf (qualified l c)) = some (l, "." ++ quoted c) :=
    readQuoted?_eq_some_iff.mpr ⟨sqlOf_qualified l c, by simp [Unbracketed]⟩
  have first := read label column
  rw [same, read label' column', Option.some.injEq, Prod.mk.injEq] at first
  obtain ⟨rfl, points⟩ := first
  refine ⟨rfl, quoted_injective ?_⟩
  have := congrArg String.toList points
  rw [String.toList_append, String.toList_append] at this
  exact (String.toList_inj.mp (List.append_cancel_left this)).symm

/-- Where no bracket is open a quoted name is one token of the text it stands in. -/
theorem tokens_around_quoted {before rest : String} (settled : (after before).settled = true)
    (apart : Unbracketed rest) (name : String) :
    tokens (before ++ (quoted name ++ rest)) = tokens before ++ .ident name :: tokens rest := by
  have opening : opens (quoted name ++ rest) = true := by
    rw [opens, String.toList_append, toList_quoted]
    rfl
  have closing : Apart (quoted name) rest := by
    intro c first
    rw [after_quoted]
    have other : c ≠ ']' := fun bracket => apart (bracket ▸ first)
    rw [Scan.extend?, if_neg other]
  rw [tokens_append (.of_opens settled opening), tokens_append closing, tokens_quoted]
  rfl

/-- A quoted name is read back wherever it stands. A reader of names in brackets takes it, and no
more, off any text that does not go on with a closing bracket, and takes nothing else off any text.
So a text with a quoted name in front has no other one, whatever the name is made of; names, and an
alias with its column, are told apart by what is written of them; and where no bracket is open the
name is one token of a text, between the tokens before it and those after it. -/
theorem quoted_names_read_back :
    (∀ name rest, Unbracketed rest → readQuoted? (quoted name ++ rest) = some (name, rest)) ∧
    (∀ text name rest, readQuoted? text = some (name, rest) →
      text = quoted name ++ rest ∧ Unbracketed rest) ∧
    (∀ name rest other more, Unbracketed rest → Unbracketed more →
      quoted name ++ rest = quoted other ++ more → name = other ∧ rest = more) ∧
    Function.Injective quoted ∧
    (∀ label column label' column',
      sqlOf (qualified label column) = sqlOf (qualified label' column') →
        label = label' ∧ column = column') ∧
    (∀ before name rest, (after before).settled = true → Unbracketed rest →
      tokens (before ++ (quoted name ++ rest)) = tokens before ++ .ident name :: tokens rest) := by
  have back (name rest : String) (apart : Unbracketed rest) :
      readQuoted? (quoted name ++ rest) = some (name, rest) :=
    readQuoted?_eq_some_iff.mpr ⟨rfl, apart⟩
  refine ⟨back, fun text name rest => readQuoted?_eq_some_iff.mp, ?_, quoted_injective,
    fun _ _ _ _ => qualified_injective, fun _ name _ settled apart =>
      tokens_around_quoted settled apart name⟩
  intro name rest other more apart apart' same
  have read := back name rest apart
  rw [same, back other more apart'] at read
  cases read
  exact ⟨rfl, rfl⟩

/-- A name that looks like the end of its own identifier and the start of a condition. -/
theorem quoted_names_read_back_hostile :
    Unbracketed " = @p1" ∧ (after "WHERE [t0].").settled = true ∧
    readQuoted? (quoted "]] OR [@p0].['" ++ " = @p1") = some ("]] OR [@p0].['", " = @p1") ∧
    tokens ("WHERE [t0]." ++ (quoted "]] OR [@p0].['" ++ " = @p1"))
      = [.word "WHERE", .ident "t0", .mark '.', .ident "]] OR [@p0].['", .sign "=",
        .word "@p1"] := by
  obtain ⟨back, _, _, _, _, around⟩ := quoted_names_read_back
  have apart : Unbracketed " = @p1" := by
    unfold Unbracketed
    decide
  exact ⟨apart, rfl, back _ _ apart, around _ _ _ rfl apart⟩

-- an even run of brackets belongs to the name, the last one of an odd run closes it
example : readQuoted? "[odd]]]].[x]" = some ("odd]].[x", "") ∧
    readQuoted? "[odd]]]]].[x]" = some ("odd]]", ".[x]") :=
  ⟨rfl, rfl⟩

end RecordQuery.Sql
