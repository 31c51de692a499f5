import RecordQuery.Proofs.Classify.Messages
import RecordQuery.Proofs.Text.Words

/-!
# Messages of schema errors

Engines report an unknown table or column in messages that have its name in them. Whatever the name
is, nothing is found in such a message but a word that tells of a deadlock, and a name may be that
word: such an error passes for one that may go away when the statement is tried again
(`classify_schema`).
-/

namespace RecordQuery

open Text Text.Pattern

/-! ## Words of a message -/

/-- No word goes on from one slot to the next. -/
def slotsApart : List Slot → Bool
  | s :: t :: slots => (s.endsApart || t.startsApart) && slotsApart (t :: slots)
  | _ => true

theorem words_message {slots : List Slot} (h : slotsApart slots = true) (f : Filling) :
    words (message slots f).toList = slots.flatMap fun s => words (s.fill f).toList := by
  induction slots with
  | nil => rfl
  | cons s slots ih =>
    rw [message_cons, String.toList_append, List.flatMap_cons]
    cases slots with
    | nil => simp
    | cons t slots =>
      rw [slotsApart, Bool.and_eq_true, Bool.or_eq_true] at h
      rw [← ih h.2]
      obtain ends | starts := h.1
      · obtain ⟨c, last, apart⟩ := s.last_of_endsApart ends f
        exact words_append_of_last (by rw [last, Option.any_some, apart])
      · obtain ⟨c, head, apart⟩ := t.head_of_startsApart starts f
        refine words_append_of_head ?_
        rw [message_cons, String.toList_append, List.head?_append, head, Option.some_or,
          Option.any_some, apart]

/-! ## Deadlocks -/

def deadlockWords : Pattern := Pattern.all [phrase "deadlock", opt (phrase "ed")]

/-- The conflicts that are not told by one word. -/
def otherConflicts : Pattern :=
  alt (phrases ["could not serialize access", "serialization failure"])
    (Pattern.all [phrase "database ", opt (phrase "table "), phrase "is locked"])

theorem concurrencyPattern_eq :
    concurrencyPattern = seq boundary (seq (alt deadlockWords otherConflicts) boundary) := rfl

theorem spellings_deadlockWords :
    deadlockWords.spellings = ["deadlocked", "deadlock"].map String.toList := by decide +kernel

theorem plain_deadlockWords :
    deadlockWords.spellings.all (fun w => !w.isEmpty && w.all isAsciiWord) = true := by
  decide +kernel

/-- The name is one of the words that tell of a deadlock, in letters of either case. -/
def Identifier.isDeadlock (n : Identifier) : Bool :=
  ["deadlocked", "deadlock"].contains (lower n.text)

theorem Identifier.folded_mem_iff (n : Identifier) :
    folded n.text.toList ∈ deadlockWords.spellings ↔ n.isDeadlock = true := by
  have same : folded n.text.toList = (lower n.text).toList := by
    rw [lower, String.toList_ofList, folded]
    refine List.map_congr_left fun c mem => fold_of_ascii ?_
    have plain := isAsciiWord_iff.mp (n.isAsciiWord_of_mem c mem)
    omega
  rw [same, spellings_deadlockWords, isDeadlock, List.contains_iff_mem]
  exact List.mem_map_of_injective fun a b h => String.toList_inj.mp h

namespace Slot

/-- The names put in the slot. -/
def names : Slot → List Nat
  | name i => [i]
  | _ => []

/-- No word that tells of a deadlock is in the slot but by its name. -/
def isQuiet : Slot → Bool
  | text s => (words s.toList).all fun w => !deadlockWords.spellings.contains (folded w)
  | name _ => true
  | columns => false

theorem exists_word_iff (s : Slot) (h : s.isQuiet = true) (f : Filling) :
    (∃ w ∈ words (s.fill f).toList, folded w ∈ deadlockWords.spellings) ↔
      s.names.any (f.name · |>.isDeadlock) = true := by
  cases s with
  | text s =>
    refine iff_of_false ?_ Bool.false_ne_true
    rintro ⟨w, mem, spelled⟩
    have quiet := List.all_eq_true.mp h w mem
    rw [List.contains_iff_mem.mpr spelled] at quiet
    cases quiet
  | name i =>
    have whole : (∃ w ∈ words (f.name i).text.toList, folded w ∈ deadlockWords.spellings) ↔
        folded (f.name i).text.toList ∈ deadlockWords.spellings := by
      by_cases empty : (f.name i).text.toList = []
      · simp [empty, spellings_deadlockWords]
      · have all : ∀ c ∈ (f.name i).text.toList, isWord c = true :=
          fun c mem => isWord_of_isAsciiWord ((f.name i).isAsciiWord_of_mem c mem)
        rw [words_eq_singleton empty all]
        simp
    rw [fill, whole, (f.name i).folded_mem_iff, names, List.any_cons, List.any_nil, Bool.or_false]
  | columns => cases h

end Slot

theorem exists_word_message_iff {slots : List Slot} (apart : slotsApart slots = true)
    (quiet : slots.all Slot.isQuiet = true) (f : Filling) :
    (∃ w ∈ words (message slots f).toList, folded w ∈ deadlockWords.spellings) ↔
      (slots.flatMap Slot.names).any (f.name · |>.isDeadlock) = true := by
  rw [words_message apart, List.any_flatMap, List.any_eq_true]
  have slot (s : Slot) (mem : s ∈ slots) := s.exists_word_iff (List.all_eq_true.mp quiet s mem) f
  constructor
  · rintro ⟨w, mem, spelled⟩
    obtain ⟨s, hs, hw⟩ := List.mem_flatMap.mp mem
    exact ⟨s, hs, (slot s hs).mp ⟨w, hw, spelled⟩⟩
  · rintro ⟨s, hs, named⟩
    obtain ⟨w, hw, spelled⟩ := (slot s hs).mpr named
    exact ⟨w, List.mem_flatMap.mpr ⟨s, hs, hw⟩, spelled⟩

/-! ## Messages -/

/-- The messages in which the engines report that a table or a column is not there. -/
inductive SchemaMessage where
  | noSuchColumn | noSuchTable | noColumnNamed | invalidColumnName
  deriving DecidableEq, Repr

namespace SchemaMessage

def all : List SchemaMessage := [noSuchColumn, noSuchTable, noColumnNamed, invalidColumnName]

theorem mem_all (v : SchemaMessage) : v ∈ all := by cases v <;> decide

def slots : SchemaMessage → List Slot
  | noSuchColumn => [.text "no such column: ", .name 0]
  | noSuchTable => [.text "no such table: ", .name 0]
  | noColumnNamed => [.text "table ", .name 0, .text " has no column named ", .name 1]
  | invalidColumnName => [.text "Invalid column name '", .name 0, .text "'."]

def symbols (v : SchemaMessage) : List Sym := v.slots.flatMap Slot.symbols

/-- A name in the message tells of a deadlock. -/
def hasDeadlock (v : SchemaMessage) (f : Filling) : Bool :=
  (v.slots.flatMap Slot.names).any (f.name · |>.isDeadlock)

/-- Nothing that is looked for is found in the message but a deadlock, and this in a name. -/
def isQuiet (v : SchemaMessage) : Bool :=
  constraintForms.all (lacks v.symbols ·.pattern) && lacks v.symbols timeoutPattern &&
  lacks v.symbols (wholePhrases otherConflicts) && lacks v.symbols unavailablePattern &&
  slotsApart v.slots && v.slots.all Slot.isQuiet

theorem isQuiet_all : ∀ v ∈ all, v.isQuiet = true := by decide +kernel

theorem classify_eq (v : SchemaMessage) (f : Filling) :
    classify (message v.slots f) = if v.hasDeadlock f then .concurrency (message v.slots f)
      else .repository (message v.slots f) := by
  have quiet := isQuiet_all v v.mem_all
  simp only [isQuiet, Bool.and_eq_true] at quiet
  obtain ⟨⟨⟨⟨⟨violations, timeouts⟩, others⟩, outages⟩, apart⟩, slots⟩ := quiet
  have violation : violation? (message v.slots f) = none := findSome?_eq_none_of_lacks violations f
  have missing {p : Pattern} (h : lacks v.symbols p = true) :
      p.occursIn (message v.slots f) = false :=
    occursIn_eq_false_of_lacks (fits_message v.slots f) h
  have concurrency : concurrencyPattern.occursIn (message v.slots f) = v.hasDeadlock f := by
    have others : (seq boundary (seq otherConflicts boundary)).occursIn (message v.slots f)
        = false := missing others
    rw [concurrencyPattern_eq, Bool.eq_iff_iff, whole_alt_occursIn_iff rfl, others,
      whole_occursIn_iff rfl plain_deadlockWords, exists_word_message_iff apart slots, hasDeadlock]
    simp only [Bool.false_eq_true, or_false]
  simp only [classify, violation, missing timeouts, concurrency, missing outages,
    Bool.false_eq_true, if_false]

/-- Whatever names are in it, a message that reports a schema error is classified as an error of the
repository with the whole text, which is not tried again, unless a name tells of a deadlock. Then it
is classified as one, and tried again. -/
theorem classify_schema (v : SchemaMessage) (f : Filling) :
    classify (message v.slots f) = (if v.hasDeadlock f then .concurrency (message v.slots f)
      else .repository (message v.slots f)) ∧
    (classify (message v.slots f)).isTransient = v.hasDeadlock f := by
  refine ⟨v.classify_eq f, ?_⟩
  rw [v.classify_eq f]
  cases v.hasDeadlock f <;> rfl

/-- A table of the name Deadlock that is not there is taken for a deadlock. -/
theorem unknown_table_transient :
    classify "no such table: Deadlock" = .concurrency "no such table: Deadlock" ∧
    ¬∀ (v : SchemaMessage) (f : Filling), (∀ i, (f.name i).text ≠ "") →
      classify (message v.slots f) = .repository (message v.slots f) ∧
      (classify (message v.slots f)).isTransient = false := by
  have text : message noSuchTable.slots ⟨fun _ => ⟨"Deadlock", rfl⟩, []⟩
      = "no such table: Deadlock" := by rfl
  have taken : classify "no such table: Deadlock" = .concurrency "no such table: Deadlock" := by
    rw [← text, classify_eq]
    rfl
  refine ⟨taken, fun claimed => ?_⟩
  have claim := (claimed noSuchTable ⟨fun _ => ⟨"Deadlock", rfl⟩, []⟩ (by simp)).1
  rw [text, taken] at claim
  cases claim

end SchemaMessage

end RecordQuery
