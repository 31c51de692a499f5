import RecordQuery.Proofs.Classify.Messages

/-!
# Words in a message

A form of message has words that tell what happened, with slots before and after them. Whatever is
put in the slots, a pattern that begins with these words is found where the message has them
(`find?_of_opensWith`), if it may start nowhere before; this is computed on the symbols of the form
(`opensWith`).
-/

namespace RecordQuery

open Text Text.Pattern

/-- A form of message: the words that tell what happened, and the slots before and after. -/
structure MessageForm where
  lead : List Slot
  words : String
  rest : List Slot

namespace MessageForm

def slots (m : MessageForm) : List Slot := m.lead ++ .text m.words :: m.rest

def symbols (m : MessageForm) : List Sym := m.slots.flatMap Slot.symbols

/-- The symbols from the words on. -/
def body (m : MessageForm) : List Sym := (Slot.text m.words :: m.rest).flatMap Slot.symbols

/-- No word goes on past the end of the slots. -/
def endsApart (slots : List Slot) : Bool := slots.getLast?.all Slot.endsApart

/-- The words of a message are a spelling of the pattern, at the start of a word, and no other
spelling starts there, and none before. -/
def opensWith (m : MessageForm) (words : Pattern) : Bool :=
  words.isLiteral && words.spellings.contains (folded m.words.toList) &&
  m.words.toList.head?.any isWord && endsApart m.lead &&
  words.spellings.all fun w => !mayStartIn (m.lead.flatMap Slot.symbols) m.body w &&
    (w == folded m.words.toList || !mayStart m.body w)

variable {m : MessageForm} {words q : Pattern} {f : Filling}

theorem toList_message (m : MessageForm) (f : Filling) : (message m.slots f).toList
    = (message m.lead f).toList ++ (m.words.toList ++ (message m.rest f).toList) := by
  simp [slots, message_append, Slot.fill]

theorem fits_body (m : MessageForm) (f : Filling) :
    Fits m.body (folded (m.words.toList ++ (message m.rest f).toList)) := by
  have fits := fits_message (.text m.words :: m.rest) f
  rwa [message_cons, String.toList_append] at fits

theorem last_of_endsApart {slots : List Slot} (h : endsApart slots = true) (f : Filling) :
    slots = [] ∨ ∃ c, (message slots f).toList.getLast? = some c ∧ isWord c = false := by
  rcases slots.eq_nil_or_concat with rfl | ⟨init, s, rfl⟩
  · exact .inl rfl
  · rw [List.concat_eq_append] at h ⊢
    rw [endsApart, List.getLast?_concat] at h
    obtain ⟨c, last, apart⟩ := Slot.last_of_endsApart h f
    refine .inr ⟨c, ?_, apart⟩
    rw [message_append, String.toList_append, List.getLast?_append, message_cons, message_nil,
      String.append_empty, last]
    rfl

section

variable {before : Option Char} {got r : Option (List Char)} {next : Next}

/-- A pattern that begins with words goes on after those of a message. -/
theorem run_of_opensWith (h : m.opensWith words = true)
    (start : m.lead = [] → before.any isWord = false)
    (after : q.run ⟨m.words.toList.getLast?, (message m.rest f).toList⟩ got next = some r) :
    (seq boundary (seq words q)).run ⟨(message m.lead f).toList.getLast?.or before,
      m.words.toList ++ (message m.rest f).toList⟩ got next = some r := by
  simp only [opensWith, Bool.and_eq_true, List.contains_iff_mem, List.all_eq_true,
    Bool.not_eq_true', Bool.or_eq_true, beq_iff_eq] at h
  obtain ⟨⟨⟨⟨literal, mem⟩, word⟩, apart⟩, only⟩ := h
  have left : ((message m.lead f).toList.getLast?.or before).any isWord = false := by
    obtain none | ⟨c, last, hc⟩ := last_of_endsApart apart f
    · rw [none]
      exact start none
    · rw [last, Option.some_or, Option.any_some, hc]
  have body := m.fits_body f
  generalize m.words.toList = words' at *
  obtain _ | ⟨c, cs⟩ := words'
  · cases word
  refine run_of_spelled literal ?_ mem ?_ (fun v spelled first => ?_) after
  · rw [Place.atBoundary, left]
    simpa using word
  · rw [Place.past?_eq_some_iff, length_folded, Place.skip_append, folded_append]
    refine ⟨List.prefix_append .., ?_⟩
    rw [List.getLast?_cons]
    rfl
  · obtain same | never := (only v spelled).2
    · exact same
    · rw [mayStart_of_start body first] at never
      cases never

/-- It does not go on from any place before the words. -/
theorem not_run_of_opensWith (h : m.opensWith words = true) {n : Nat}
    (hn : n < (message m.lead f).toList.length) :
    (seq boundary (seq words q)).run
      ((Place.mk before (message m.slots f).toList).skip n) got next = none := by
  simp only [opensWith, Bool.and_eq_true, List.all_eq_true, Bool.not_eq_true'] at h
  obtain ⟨⟨⟨⟨literal, -⟩, -⟩, -⟩, only⟩ := h
  rw [Option.eq_none_iff_forall_ne_some]
  intro r' found
  obtain ⟨-, w, spelled, there, past, -⟩ := spelled_of_run literal found
  have start := (Place.past?_eq_some_iff.mp past).1
  rw [Place.rest_skip, folded_drop, toList_message, folded_append] at start
  have may := mayStartIn_of_start (fits_message m.lead f) (m.fits_body f)
    (by rwa [length_folded]) start
  rw [(only w spelled).1] at may
  cases may

/-- A pattern that begins with words is found in a message that has them, with what it captures
after them. -/
theorem find?_of_opensWith {caught : String} (h : m.opensWith words = true)
    (after : q.run ⟨m.words.toList.getLast?, (message m.rest f).toList⟩ none (fun _ got => some got)
      = some (some caught.toList)) :
    (seq boundary (seq words q)).find? (message m.slots f) = some (some caught) := by
  have early (n : Nat) (hn : n < (message m.lead f).toList.length) :
      (seq boundary (seq words q)).match? ((Place.mk none ((message m.lead f).toList ++
        (m.words.toList ++ (message m.rest f).toList))).skip n) = none := by
    rw [← toList_message]
    exact not_run_of_opensWith h hn
  rw [find?, m.toList_message f, search_skip early,
    search_of_match? (run_of_opensWith h (fun _ => rfl) after), Option.map_some, Option.map_some,
    String.ofList_toList]

/-- A lazy run stops where a message has the words that a pattern begins with. -/
theorem run_lazy_of_opensWith {k : CharClass} (h : m.opensWith words = true)
    (start : m.lead = [] → before.any isWord = false)
    (all : ∀ c ∈ (message m.lead f).toList, k.mem c = true)
    (after : q.run ⟨m.words.toList.getLast?, (message m.rest f).toList⟩ got next = some r) :
    (seq (lazy k) (seq boundary (seq words q))).run ⟨before, (message m.slots f).toList⟩ got next
      = some r := by
  have early (n : Nat) (hn : n < (message m.lead f).toList.length) :
      (seq boundary (seq words q)).run ((Place.mk before ((message m.lead f).toList ++
        (m.words.toList ++ (message m.rest f).toList))).skip n) got next = none := by
    rw [← toList_message]
    exact not_run_of_opensWith h hn
  rw [m.toList_message f]
  exact run_lazy_append all early (run_of_opensWith h start after)

end

end MessageForm

end RecordQuery
