import RecordQuery.Error
import RecordQuery.Text.Pattern

/-!
# Classification of storage messages

Storage engines report failures as free text. `classify` tells constraint violations, timeouts,
contention and outages apart by the message forms of three engines; the first form in the list
that occurs in the message decides. Any other text is an error of the repository.
-/

namespace RecordQuery

open Text Text.Pattern

/-- What the captured part of a message names. -/
inductive Naming where
  /-- A constraint, an index or a column. -/
  | plain
  /-- A list of columns, each with its table in front. -/
  | columns
  deriving DecidableEq, Repr

/-- A form of message that reports a violated constraint. -/
structure ConstraintForm where
  constraint : ConstraintKind
  naming : Naming
  pattern : Pattern
  deriving DecidableEq, Repr

namespace ConstraintForm

def quote : Pattern := one (.oneOf ['\'', '"'])

/-- Blanks and a name in single or double quotes. -/
def quotedName : Pattern :=
  Pattern.all [greedy .blank, quote, capture (greedy (.noneOf ['\'', '"'])), quote]

/-- A phrase at the start of a word, and a quoted name after it if there is one. -/
def named (k : ConstraintKind) (words : Pattern) : ConstraintForm :=
  ⟨k, .plain, Pattern.all [boundary, words, opt quotedName]⟩

/-- A phrase at the start of a word, and the rest of the line after a colon if there is one. -/
def listed (k : ConstraintKind) (words : String) : ConstraintForm :=
  ⟨k, .columns, Pattern.all [boundary, phrase words,
    opt (Pattern.all [one (.letter ':'), greedy (.oneOf [' ', '\t']),
      capture (greedy (.noneOf ['\r', '\n']))])]⟩

end ConstraintForm

open ConstraintForm in
/-- The message forms in the order they are tried in. -/
def constraintForms : List ConstraintForm :=
  [ named .primaryKey (phrase "violation of primary key constraint"),
    listed .primaryKey "primary key constraint failed",
    named .unique (phrase "violation of unique key constraint"),
    ⟨.unique, .plain, Pattern.all [boundary, phrase "cannot insert duplicate key row", boundary,
      opt (Pattern.all [Pattern.lazy (.noneOf ['\n']), boundary, phrase "unique index",
        quotedName])]⟩,
    named .unique (phrase "duplicate key value violates unique constraint"),
    listed .unique "unique constraint failed",
    named .foreignKey (Pattern.all [phrase "conflicted with the ",
      phrases ["foreign key", "reference"], phrase " constraint"]),
    named .foreignKey (phrase "violates foreign key constraint"),
    ⟨.foreignKey, .plain, Pattern.all [boundary, phrase "foreign key constraint failed", boundary]⟩,
    named .check (Pattern.all [phrases ["conflicted with the", "violates"],
      phrase " check constraint"]),
    listed .check "check constraint failed",
    named .notNull (phrase "cannot insert the value null into column"),
    ⟨.notNull, .plain, Pattern.all [
      opt (Pattern.all [boundary, phrase "null value in column", greedy .blank,
        one (.letter '"'), capture (greedy (.noneOf ['"'])), one (.letter '"'),
        Pattern.lazy (.noneOf ['\r', '\n'])]),
      boundary, phrase "violates not-null constraint"]⟩,
    listed .notNull "not null constraint failed" ]

/-- One of several phrases that begins and ends at a word boundary. -/
def wholePhrases (words : Pattern) : Pattern := Pattern.all [boundary, words, boundary]

def timeoutPattern : Pattern :=
  wholePhrases <| phrases ["timeout expired", "timed out", "statement timeout", "lock timeout",
    "lock request time out period exceeded"]

def concurrencyPattern : Pattern :=
  wholePhrases <| alt (Pattern.all [phrase "deadlock", opt (phrase "ed")])
    (alt (phrases ["could not serialize access", "serialization failure"])
      (Pattern.all [phrase "database ", opt (phrase "table "), phrase "is locked"]))

def unavailablePattern : Pattern :=
  wholePhrases <| alt
    (Pattern.all [phrase "connection ", phrases ["refused", "reset", "closed", "lost", "failure",
      "failed", "timed out", "is broken"]])
    (phrases ["network-related", "transport-level error", "unable to open database",
      "server was not found", "server closed the connection"])

/-- The text after the last full stop. -/
def afterLastStop (cs : List Char) : List Char := (splitOn '.' cs).getLast?.getD []

/-- The columns of a list such as `Users.Email, Users.Tenant`, without their tables. -/
def columnList (s : String) : String :=
  let parts := ((splitOn ',' s.toList).map trimChars).filter (!·.isEmpty)
  String.intercalate ", " (parts.map fun p => String.ofList (afterLastStop p))

def Naming.name : Naming → Option String → String
  | _, none => ""
  | plain, some s => s
  | columns, some s => columnList s

/-- The violation a message reports, if it has one of the constraint forms. -/
def violation? (message : String) : Option (ConstraintKind × String) :=
  constraintForms.findSome? fun form =>
    (form.pattern.find? message).map fun got => (form.constraint, form.naming.name got)

def classify (message : String) : Error :=
  match violation? message with
  | some (k, name) => .constraintViolation k name
  | none =>
    if timeoutPattern.occursIn message then .timeout message
    else if concurrencyPattern.occursIn message then .concurrency message
    else if unavailablePattern.occursIn message then .unavailable message
    else .repository message

end RecordQuery
