import RecordQuery.Proofs.Classify.Names

/-!
# Messages of violated constraints

Three engines report violated constraints in messages of fifteen forms (`ViolationMessage.form`).
Whatever names are put in one, no pattern that is tried before finds anything in it and the next
finds its words, which is computed on the symbols of the form (`isRecognised_all`). So the message
is classified as the violation, with the name in it or the names of its columns
(`classify_violation`).
-/

namespace RecordQuery

open Text Text.Pattern

/-! ## Forms of message -/

/-- The messages in which three engines report violations. -/
inductive ViolationMessage where
  | serverPrimaryKey | serverUniqueKey | serverUniqueIndex | serverForeignKey | serverReference
  | serverCheck | serverNotNull
  | postgresUnique | postgresForeignKey | postgresCheck | postgresNotNull
  | sqliteUnique | sqlitePrimaryKey | sqliteNotNull | sqliteCheck
  deriving DecidableEq, Repr

namespace ViolationMessage

def all : List ViolationMessage :=
  [serverPrimaryKey, serverUniqueKey, serverUniqueIndex, serverForeignKey, serverReference,
    serverCheck, serverNotNull, postgresUnique, postgresForeignKey, postgresCheck, postgresNotNull,
    sqliteUnique, sqlitePrimaryKey, sqliteNotNull, sqliteCheck]

theorem mem_all (v : ViolationMessage) : v ∈ all := by cases v <;> decide

def constraint : ViolationMessage → ConstraintKind
  | serverPrimaryKey | sqlitePrimaryKey => .primaryKey
  | serverUniqueKey | serverUniqueIndex | postgresUnique | sqliteUnique => .unique
  | serverForeignKey | serverReference | postgresForeignKey => .foreignKey
  | serverCheck | postgresCheck | sqliteCheck => .check
  | serverNotNull | postgresNotNull | sqliteNotNull => .notNull

/-- The unique index of a message is named after the words, on the same line. -/
def uniqueIndex : MessageForm :=
  ⟨[.text " in object '", .name 1, .text ".", .name 2, .text "' with "], "unique index",
    inQuotes '\'' 0 ++ [.text "."]⟩

/-- A null in a column is reported after the column, on the same line. -/
def notNull : MessageForm :=
  ⟨[.text " of relation \"", .name 1, .text "\" "], "violates not-null constraint", []⟩

/-- Name 0 is that of the constraint, the index or the column. The other open names are those of
tables, schemas and databases, and of the statement. -/
def form : ViolationMessage → MessageForm
  | serverPrimaryKey =>
    ⟨[], "Violation of PRIMARY KEY constraint", inQuotes '\'' 0 ++
      [.text ". Cannot insert duplicate key in object '", .name 1, .text ".", .name 2, .text "'."]⟩
  | serverUniqueKey =>
    ⟨[], "Violation of UNIQUE KEY constraint", inQuotes '\'' 0 ++
      [.text ". Cannot insert duplicate key in object '", .name 1, .text ".", .name 2, .text "'."]⟩
  | serverUniqueIndex => ⟨[], "Cannot insert duplicate key row", uniqueIndex.slots⟩
  | serverForeignKey =>
    ⟨[.text "The ", .name 1, .text " statement "], "conflicted with the FOREIGN KEY constraint",
      inQuotes '"' 0 ++ [.text ". The conflict occurred in database \"", .name 2, .text "\"."]⟩
  | serverReference =>
    ⟨[.text "The ", .name 1, .text " statement "], "conflicted with the REFERENCE constraint",
      inQuotes '"' 0 ++ [.text "."]⟩
  | serverCheck =>
    ⟨[.text "The ", .name 1, .text " statement "], "conflicted with the CHECK constraint",
      inQuotes '"' 0 ++ [.text "."]⟩
  | serverNotNull =>
    ⟨[], "Cannot insert the value NULL into column", inQuotes '\'' 0 ++
      [.text ", table '", .name 1, .text ".", .name 2, .text ".", .name 3,
        .text "'; column does not allow nulls."]⟩
  | postgresUnique => ⟨[], "duplicate key value violates unique constraint", inQuotes '"' 0 ++ []⟩
  | postgresForeignKey =>
    ⟨[.text "insert or update on table \"", .name 1, .text "\" "],
      "violates foreign key constraint", inQuotes '"' 0 ++ []⟩
  | postgresCheck =>
    ⟨[.text "new row for relation \"", .name 1, .text "\" "], "violates check constraint",
      inQuotes '"' 0 ++ []⟩
  | postgresNotNull => ⟨[], "null value in column", inQuotes '"' 0 ++ notNull.slots⟩
  | sqliteUnique => ⟨[], "UNIQUE constraint failed", [.text ": ", .columns]⟩
  | sqlitePrimaryKey => ⟨[], "PRIMARY KEY constraint failed", [.text ": ", .columns]⟩
  | sqliteNotNull => ⟨[], "NOT NULL constraint failed", [.text ": ", .columns]⟩
  | sqliteCheck => ⟨[], "CHECK constraint failed", [.text ": ", .name 0]⟩

/-- The name in a message, or those of its columns. -/
def reported (f : Filling) : ViolationMessage → String
  | sqliteUnique | sqlitePrimaryKey | sqliteNotNull =>
    ", ".intercalate (f.columns.map (·.column.text))
  | _ => (f.name 0).text

/-- How many forms are tried before the one that recognises the message. -/
def rank : ViolationMessage → Nat
  | serverPrimaryKey => 0
  | sqlitePrimaryKey => 1
  | serverUniqueKey => 2
  | serverUniqueIndex => 3
  | postgresUnique => 4
  | sqliteUnique => 5
  | serverForeignKey | serverReference => 6
  | postgresForeignKey => 7
  | serverCheck | postgresCheck => 9
  | sqliteCheck => 10
  | serverNotNull => 11
  | postgresNotNull => 12
  | sqliteNotNull => 13

/-- No form tried before is found in the message, and it has the words of the next. -/
def isRecognised (v : ViolationMessage) : Bool :=
  (constraintForms.take v.rank).all (lacks v.form.symbols ·.pattern) &&
  constraintForms[v.rank]?.any (v.form.opensWith ·.pattern.opening)

theorem isRecognised_all : ∀ v ∈ all, v.isRecognised = true := by decide +kernel

theorem uniqueIndex_opensWith : uniqueIndex.opensWith (phrase "unique index") = true := by
  decide +kernel

theorem notNull_opensWith : notNull.opensWith (phrase "violates not-null constraint") = true := by
  decide +kernel

/-! ## Names apart from the words -/

/-- The words before the name of a unique index, further on in a line. -/
def namedIndex : Pattern :=
  Pattern.all [Pattern.lazy (.noneOf ['\n']), boundary, phrase "unique index",
    ConstraintForm.quotedName]

theorem run_namedIndex (f : Filling) (before : Option Char) :
    namedIndex.run ⟨before, (message uniqueIndex.slots f).toList⟩ none (fun _ got => some got)
      = some (some (f.name 0).text.toList) := by
  have line : ∀ c ∈ (message uniqueIndex.lead f).toList, (CharClass.noneOf ['\n']).mem c = true :=
    mem_noneOf_of_not_mem (not_mem_message (by decide) f)
  have name : ConstraintForm.quotedName.run
      ⟨uniqueIndex.words.toList.getLast?, (message uniqueIndex.rest f).toList⟩ none
        (fun _ got => some got) = some (some (f.name 0).text.toList) := by
    rw [uniqueIndex, toList_inQuotes]
    exact ConstraintForm.quotedName_run _ _ (by decide) ..
  exact MessageForm.run_lazy_of_opensWith uniqueIndex_opensWith nofun line name

/-- A column in quotes, and more of its line. -/
def nullColumn : Pattern :=
  Pattern.all [greedy .blank, one (.letter '"'), capture (greedy (.noneOf ['"'])),
    one (.letter '"'), Pattern.lazy (.noneOf ['\r', '\n'])]

def nullReport : Pattern :=
  Pattern.all [boundary, phrase "violates not-null constraint", Pattern.empty]

theorem run_nullColumn (f : Filling) (before : Option Char) :
    nullColumn.run ⟨before, (message (inQuotes '"' 0 ++ notNull.slots) f).toList⟩ none
      (fun there caught => nullReport.run there caught fun _ got => some got)
        = some (some (f.name 0).text.toList) := by
  have line : ∀ c ∈ (message notNull.lead f).toList,
      (CharClass.noneOf ['\r', '\n']).mem c = true :=
    mem_noneOf_of_not_mem (not_mem_message (by decide) f)
  have report : (seq (Pattern.lazy (.noneOf ['\r', '\n'])) nullReport).run
      ⟨some '"', (message notNull.slots f).toList⟩ (some (f.name 0).text.toList)
        (fun _ got => some got) = some (some (f.name 0).text.toList) :=
    MessageForm.run_lazy_of_opensWith notNull_opensWith nofun line rfl
  rw [toList_inQuotes]
  exact run_marked _ _ (by decide) (by decide) (by decide) _ _ report

/-! ## Classification -/

section

variable {v : ViolationMessage} {f : Filling}

open ConstraintForm

/-- A form recognises the message where none before does and it has its words. -/
theorem classify_eq {form : ConstraintForm} (at? : constraintForms[v.rank]? = some form)
    {s : String} (found : v.form.opensWith form.pattern.opening = true →
      form.pattern.find? (message v.form.slots f) = some (some s)) :
    classify (message v.form.slots f)
      = .constraintViolation form.constraint (form.naming.name (some s)) := by
  have recognised := isRecognised_all v v.mem_all
  rw [isRecognised, Bool.and_eq_true, at?, Option.any_some] at recognised
  obtain ⟨first, opens⟩ := recognised
  have earlier : ∀ e ∈ constraintForms.take v.rank,
      e.pattern.find? (message v.form.slots f) = none := fun e mem =>
    find?_eq_none_of_lacks (fits_message v.form.slots f) (List.all_eq_true.mp first e mem)
  exact classify_of_first at? earlier (found opens)

theorem classify_named {k : ConstraintKind} {words : Pattern}
    (at? : constraintForms[v.rank]? = some (named k words)) {mark : Char} {more : List Slot}
    (rest : v.form.rest = inQuotes mark 0 ++ more) (hmark : mark ∈ ['\'', '"']) :
    classify (message v.form.slots f) = .constraintViolation k (f.name 0).text :=
  classify_eq at? fun opens => named_find? opens hmark rest

theorem classify_listed {k : ConstraintKind} {w : String}
    (at? : constraintForms[v.rank]? = some (listed k w))
    (rest : v.form.rest = [.text ": ", .columns]) : classify (message v.form.slots f)
      = .constraintViolation k (", ".intercalate (f.columns.map (·.column.text))) := by
  rw [classify_eq at? fun opens => listed_find? opens rest rfl, listed, Naming.name, Slot.fill,
    columnList_columns]

theorem classify_listedName {k : ConstraintKind} {w : String}
    (at? : constraintForms[v.rank]? = some (listed k w))
    (rest : v.form.rest = [.text ": ", .name 0]) :
    classify (message v.form.slots f) = .constraintViolation k (f.name 0).text := by
  rw [classify_eq at? fun opens => listed_find? opens rest rfl, listed, Naming.name, Slot.fill,
    columnList_identifier]

/-- A unique index is named further on in the line that has the words. -/
theorem classify_uniqueIndex : classify (message serverUniqueIndex.form.slots f)
    = .constraintViolation .unique (f.name 0).text := by
  have at? : constraintForms[serverUniqueIndex.rank]? = some ⟨.unique, .plain, seq boundary
      (seq (phrase "cannot insert duplicate key row") (seq boundary (opt namedIndex)))⟩ := rfl
  refine classify_eq at? fun opens => MessageForm.find?_of_opensWith opens ?_
  have last : serverUniqueIndex.form.words.toList.getLast? = some 'w' := by decide +kernel
  have apart : Place.atBoundary ⟨some 'w', (message uniqueIndex.slots f).toList⟩ = true := by
    have blank : (message uniqueIndex.slots f).toList.head? = some ' ' := by
      simp [uniqueIndex, MessageForm.slots, Slot.fill]
    rw [Place.atBoundary, blank]
    rfl
  rw [last, run_seq, run, form, if_pos apart]
  exact run_opt (run_namedIndex f _)

/-- The column of a null is named before the words that tell a null apart. -/
theorem classify_notNull : classify (message postgresNotNull.form.slots f)
    = .constraintViolation .notNull (f.name 0).text := by
  have at? : constraintForms[postgresNotNull.rank]? = some ⟨.notNull, .plain,
      seq (opt (seq boundary (seq (phrase "null value in column") nullColumn)))
        (seq boundary (phrase "violates not-null constraint"))⟩ := rfl
  refine classify_eq at? fun opens => ?_
  have column : (seq boundary (seq (phrase "null value in column") nullColumn)).run
      ⟨none, postgresNotNull.form.words.toList ++ (message postgresNotNull.form.rest f).toList⟩ none
        (fun there caught => nullReport.run there caught fun _ got => some got)
          = some (some (f.name 0).text.toList) :=
    MessageForm.run_of_opensWith opens (fun _ => rfl) (run_nullColumn f _)
  have start : (message postgresNotNull.form.slots f).toList = postgresNotNull.form.words.toList ++
      (message postgresNotNull.form.rest f).toList := postgresNotNull.form.toList_message f
  rw [← start] at column
  have matched : (seq (opt (seq boundary (seq (phrase "null value in column") nullColumn)))
      (seq boundary (phrase "violates not-null constraint"))).match?
        ⟨none, (message postgresNotNull.form.slots f).toList⟩
          = some (some (f.name 0).text.toList) :=
    (run_seq ..).trans (run_opt column)
  rw [find?, search_of_match? matched, Option.map_some, Option.map_some, String.ofList_toList]

end

/-- Whatever names are in it, a message that reports a violation is classified as that violation. -/
theorem classify_violation (v : ViolationMessage) (f : Filling) :
    classify (message v.form.slots f) = .constraintViolation v.constraint (v.reported f) := by
  cases v with
  | serverPrimaryKey => exact classify_named rfl rfl (by decide)
  | serverUniqueKey => exact classify_named rfl rfl (by decide)
  | serverUniqueIndex => exact classify_uniqueIndex
  | serverForeignKey => exact classify_named rfl rfl (by decide)
  | serverReference => exact classify_named rfl rfl (by decide)
  | serverCheck => exact classify_named rfl rfl (by decide)
  | serverNotNull => exact classify_named rfl rfl (by decide)
  | postgresUnique => exact classify_named rfl rfl (by decide)
  | postgresForeignKey => exact classify_named rfl rfl (by decide)
  | postgresCheck => exact classify_named rfl rfl (by decide)
  | postgresNotNull => exact classify_notNull
  | sqliteUnique => exact classify_listed rfl rfl
  | sqlitePrimaryKey => exact classify_listed rfl rfl
  | sqliteNotNull => exact classify_listed rfl rfl
  | sqliteCheck => exact classify_listedName rfl rfl

example : message serverReference.form.slots
    ⟨fun i => if i = 0 then ⟨"FK_Seats_Trips", rfl⟩ else ⟨"DELETE", rfl⟩, []⟩
      = "The DELETE statement conflicted with the REFERENCE constraint \"FK_Seats_Trips\"." := by
  decide +kernel

end ViolationMessage

end RecordQuery
