import RecordQuery.Classify
import RecordQuery.Proofs.Text.Casing
import RecordQuery.Proofs.Text.Template

/-!
# Messages with open names

The messages of a storage engine are texts in which names are put. A message is made from a list of
slots by a filling of those that are open, and fits the symbols of the slots (`fits_message`).
-/

namespace RecordQuery

open Text

/-- ASCII letters, digits and underscores. -/
structure Identifier where
  text : String
  plain : text.toList.all isAsciiWord = true

theorem Identifier.isAsciiWord_of_mem (n : Identifier) :
    ∀ c ∈ n.text.toList, isAsciiWord c = true :=
  List.all_eq_true.mp n.plain

/-- A column with its table in front. -/
structure ListedColumn where
  table : Identifier
  column : Identifier

def ListedColumn.text (c : ListedColumn) : String := c.table.text ++ "." ++ c.column.text

/-- What is put in the open slots of a message. -/
structure Filling where
  name : Nat → Identifier
  columns : List ListedColumn

inductive Slot where
  | text (s : String)
  | name (i : Nat)
  /-- A list of columns, each with its table in front. -/
  | columns
  deriving DecidableEq, Repr

def Slot.fill (f : Filling) : Slot → String
  | text s => s
  | name i => (f.name i).text
  | columns => ", ".intercalate (f.columns.map (·.text))

/-- The message made from slots. -/
def message (slots : List Slot) (f : Filling) : String := String.join (slots.map (Slot.fill f))

/-! ## Symbols of a message -/

def Text.Stretch.identifier : Stretch := ⟨isAsciiWord, fun _ _ => true⟩

/-- A blank comes after a comma. -/
def Text.Stretch.listing : Stretch := ⟨fun _ => true, fun a b => b != ' ' || a == ','⟩

def Slot.symbols : Slot → List Sym
  | text s => s.toList.map fun c => .letter (fold c)
  | name _ => [.part .identifier]
  | columns => [.part .listing]

theorem Identifier.allowed (n : Identifier) (last : Option Char) :
    Stretch.identifier.Allows last (folded n.text.toList) := by
  have plain := n.isAsciiWord_of_mem
  generalize n.text.toList = cs at plain
  induction cs generalizing last with
  | nil => trivial
  | cons c cs ih =>
    obtain ⟨first, others⟩ := List.forall_mem_cons.mp plain
    refine ⟨?_, ih _ others⟩
    cases last <;> simp [Stretch.follows, Stretch.identifier, isAsciiWord_fold first]

/-- No blank is in a listed text but after a comma. -/
theorem allows_listing {cs : List Char} (h : ' ' ∉ cs) (last : Option Char) :
    Stretch.listing.Allows last cs := by
  induction cs generalizing last with
  | nil => trivial
  | cons c cs ih =>
    rw [List.mem_cons, not_or] at h
    refine ⟨?_, ih h.2 _⟩
    have other : c ≠ ' ' := fun same => h.1 same.symm
    cases last <;> simp [Stretch.follows, Stretch.listing, other]

theorem Identifier.not_mem_folded (n : Identifier) {c : Char} (h : isAsciiWord c = false) :
    c ∉ folded n.text.toList := by
  intro mem
  obtain ⟨d, hd, rfl⟩ := List.mem_map.mp mem
  rw [isAsciiWord_fold (n.isAsciiWord_of_mem d hd)] at h
  cases h

theorem ListedColumn.not_mem_folded (c : ListedColumn) : ' ' ∉ folded c.text.toList := by
  rw [text, String.toList_append, String.toList_append, folded_append, folded_append,
    List.mem_append, List.mem_append, not_or, not_or]
  exact ⟨⟨c.table.not_mem_folded rfl, by decide⟩, c.column.not_mem_folded rfl⟩

theorem allowed_columns (cs : List ListedColumn) (last : Option Char) :
    Stretch.listing.Allows last (folded (", ".intercalate (cs.map (·.text))).toList) := by
  induction cs generalizing last with
  | nil => trivial
  | cons c cs ih =>
    cases cs with
    | nil => exact allows_listing (by simpa using c.not_mem_folded) last
    | cons d cs =>
      rw [List.map_cons, List.map_cons, String.intercalate_cons_cons, String.toList_append,
        String.toList_append, folded_append, folded_append, List.append_assoc]
      refine (allows_listing c.not_mem_folded last).append ⟨?_, ?_, ih _⟩
      · cases (folded c.text.toList).getLast?.or last <;> rfl
      · rfl

theorem Slot.fits (s : Slot) (f : Filling) : Fits s.symbols (folded (s.fill f).toList) := by
  cases s with
  | text s =>
    rw [symbols, ← Function.comp_def, ← List.map_map]
    exact fits_letters _
  | name i => exact fits_part ((f.name i).allowed none)
  | columns => exact fits_part (allowed_columns f.columns none)

@[simp] theorem message_nil (f : Filling) : message [] f = "" := rfl

@[simp] theorem message_cons (s : Slot) (slots : List Slot) (f : Filling) :
    message (s :: slots) f = s.fill f ++ message slots f := by simp [message]

theorem message_append (slots slots' : List Slot) (f : Filling) :
    message (slots ++ slots') f = message slots f ++ message slots' f := by simp [message]

theorem fits_message (slots : List Slot) (f : Filling) :
    Fits (slots.flatMap Slot.symbols) (folded (message slots f).toList) := by
  induction slots with
  | nil => rfl
  | cons s slots ih =>
    rw [message_cons, String.toList_append, folded_append]
    exact (s.fits f).append ih

theorem findSome?_eq_none_of_missed {forms : List ConstraintForm} {m : String}
    (h : ∀ form ∈ forms, form.pattern.find? m = none) :
    (forms.findSome? fun form => (form.pattern.find? m).map fun got =>
      (form.constraint, form.naming.name got)) = none := by
  rw [List.findSome?_eq_none_iff]
  intro form mem
  rw [h form mem, Option.map_none]

/-- No constraint form is found in a message whose symbols lack them all. -/
theorem findSome?_eq_none_of_lacks {slots : List Slot} {forms : List ConstraintForm}
    (h : forms.all (lacks (slots.flatMap Slot.symbols) ·.pattern) = true) (f : Filling) :
    (forms.findSome? fun form => (form.pattern.find? (message slots f)).map fun got =>
      (form.constraint, form.naming.name got)) = none :=
  findSome?_eq_none_of_missed fun form mem =>
    find?_eq_none_of_lacks (fits_message slots f) (List.all_eq_true.mp h form mem)

/-- The first form that is found in a message decides. -/
theorem classify_of_first {n : Nat} {form : ConstraintForm}
    (at? : constraintForms[n]? = some form) {m s : String}
    (earlier : ∀ e ∈ constraintForms.take n, e.pattern.find? m = none)
    (found : form.pattern.find? m = some (some s)) :
    classify m = .constraintViolation form.constraint (form.naming.name (some s)) := by
  have missed := findSome?_eq_none_of_missed earlier
  have rest : constraintForms.drop n = form :: constraintForms.drop (n + 1) := by
    obtain ⟨within, rfl⟩ := List.getElem?_eq_some_iff.mp at?
    exact List.drop_eq_getElem_cons within
  have violation : violation? m = some (form.constraint, form.naming.name (some s)) := by
    rw [violation?, ← List.take_append_drop n constraintForms, List.findSome?_append, missed,
      Option.none_or, rest, List.findSome?_cons, found]
    rfl
  rw [classify, violation]

/-! ## Words apart -/

namespace Slot

/-- No word goes on past the end of the slot, whatever comes after. -/
def endsApart : Slot → Bool
  | text s => s.toList.getLast?.any (!isWord ·)
  | _ => false

/-- No word goes on from before the slot. -/
def startsApart : Slot → Bool
  | text s => s.toList.head?.any (!isWord ·)
  | _ => false

theorem last_of_endsApart {s : Slot} (h : s.endsApart = true) (f : Filling) :
    ∃ c, (s.fill f).toList.getLast? = some c ∧ isWord c = false := by
  cases s with
  | text s => simpa [fill, endsApart, Option.any_eq_true] using h
  | name i => cases h
  | columns => cases h

theorem head_of_startsApart {s : Slot} (h : s.startsApart = true) (f : Filling) :
    ∃ c, (s.fill f).toList.head? = some c ∧ isWord c = false := by
  cases s with
  | text s => simpa [fill, startsApart, Option.any_eq_true] using h
  | name i => cases h
  | columns => cases h

end Slot

end RecordQuery
