import RecordQuery.Proofs.Classify.Columns
import RecordQuery.Proofs.Classify.Forms

/-!
# Names after the words of a message

After the words that tell what happened a message has the name of a constraint in quotes, or a list
of columns to the end of the line. Where it has the words of a pattern, the pattern captures the
name (`named_find?`) or the list (`listed_find?`) whole, because no name has a quote, a blank or the
end of a line in it.
-/

namespace RecordQuery

open Text Text.Pattern

/-! ## Names and lists after the words -/

/-- A name in quotes, after a blank. -/
def inQuotes (mark : Char) (i : Nat) : List Slot :=
  [.text (String.ofList [' ', mark]), .name i, .text (String.singleton mark)]

theorem toList_inQuotes (mark : Char) (i : Nat) (more : List Slot) (f : Filling) :
    (message (inQuotes mark i ++ more) f).toList
      = [' '] ++ mark :: ((f.name i).text.toList ++ mark :: (message more f).toList) := by
  simp [inQuotes, Slot.fill]

/-- None of some characters is put in the slot. -/
def Slot.avoids (cs : List Char) : Slot → Bool
  | text s => s.toList.all (!cs.contains ·)
  | name _ => cs.all (!isAsciiWord ·)
  | columns => cs.all fun c => !(isAsciiWord c || ['.', ',', ' '].contains c)

theorem Slot.not_mem_fill {cs : List Char} {s : Slot} (h : s.avoids cs = true) (f : Filling) :
    ∀ c ∈ (s.fill f).toList, c ∉ cs := by
  intro c mem hc
  cases s with
  | text s =>
    have avoids := List.all_eq_true.mp h c mem
    rw [List.contains_iff_mem.mpr hc] at avoids
    cases avoids
  | name i =>
    have avoids := List.all_eq_true.mp h c hc
    rw [(f.name i).isAsciiWord_of_mem c mem] at avoids
    cases avoids
  | columns =>
    have avoids := List.all_eq_true.mp h c hc
    rw [Bool.not_eq_true', Bool.or_eq_false_iff] at avoids
    obtain word | other := mem_columns mem
    · rw [word] at avoids
      cases avoids.1
    · rw [List.contains_iff_mem.mpr other] at avoids
      cases avoids.2

def Slot.isOpen : Slot → Bool
  | text _ => false
  | _ => true

theorem Slot.head_fill {s : Slot} (h : s.isOpen = true) (f : Filling) :
    ∀ c ∈ (s.fill f).toList.head?, isBlank c = false := by
  cases s with
  | text t => cases h
  | name i => exact fun c hc => (f.name i).not_isBlank c (List.mem_of_head? hc)
  | columns => exact head_columns f.columns

theorem not_mem_message {cs : List Char} {slots : List Slot}
    (h : slots.all (Slot.avoids cs) = true) (f : Filling) :
    ∀ c ∈ (message slots f).toList, c ∉ cs := by
  induction slots with
  | nil => nofun
  | cons s slots ih =>
    rw [List.all_cons, Bool.and_eq_true] at h
    rw [message_cons, String.toList_append, List.forall_mem_append]
    exact ⟨s.not_mem_fill h.1 f, ih h.2⟩

theorem mem_noneOf_of_not_mem {cs xs : List Char} (h : ∀ c ∈ xs, c ∉ cs) :
    ∀ c ∈ xs, (CharClass.noneOf cs).mem c = true := by
  intro c mem
  simpa [CharClass.mem] using h c mem

section

variable {r : Option (List Char)} {next : Next}

/-- Blanks, a mark, a name and a mark after it. -/
theorem run_marked (before : Option Char) (got : Option (List Char)) {marks : List Char}
    {mark : Char} (h : mark ∈ marks)
    (plain : marks.all (fun c => !isBlank c && !isAsciiWord c) = true) {k : CharClass}
    (hk : k.mem mark = true) (n : Identifier) (more : List Char) {q : Pattern}
    (after : q.run ⟨some mark, more⟩ (some n.text.toList) next = some r) :
    (seq (greedy .blank) (seq (one k) (seq (capture (greedy (.noneOf marks))) (seq (one k) q)))).run
      ⟨before, [' '] ++ mark :: (n.text.toList ++ mark :: more)⟩ got next = some r := by
  have apart (c : Char) (mem : c ∈ marks) : isBlank c = false ∧ isAsciiWord c = false := by
    simpa using List.all_eq_true.mp plain c mem
  have blank : ∀ c ∈ [' '], CharClass.blank.mem c = true := List.forall_mem_singleton.mpr rfl
  have first : ∀ c ∈ (mark :: (n.text.toList ++ mark :: more)).head?,
      CharClass.blank.mem c = false := by
    rintro c ⟨⟩
    exact (apart mark h).1
  have stop : ∀ c ∈ (mark :: more).head?, (CharClass.noneOf marks).mem c = false := by
    rintro c ⟨⟩
    simpa [CharClass.mem] using h
  have name : ∀ c ∈ n.text.toList, (CharClass.noneOf marks).mem c = true :=
    mem_noneOf_of_not_mem fun c mem hc => n.not_mem (apart c hc).2 mem
  refine (run_seq ..).trans (run_greedy_append blank first ?_)
  refine (run_seq ..).trans (run_one_cons hk ?_)
  refine (run_seq ..).trans (run_capture_greedy name stop ?_)
  exact (run_seq ..).trans (run_one_cons hk after)

/-- The rest of a line after a colon and blanks. -/
theorem run_line (before : Option Char) (got : Option (List Char)) {blanks line : List Char}
    (blank : ∀ c ∈ blanks, c ∈ [' ', '\t']) (first : ∀ c ∈ line.head?, c ∉ [' ', '\t'])
    (within : ∀ c ∈ line, c ∉ ['\r', '\n']) :
    (seq (one (.letter ':')) (seq (greedy (.oneOf [' ', '\t']))
      (capture (greedy (.noneOf ['\r', '\n']))))).run ⟨before, ':' :: (blanks ++ line)⟩ got
      (fun _ caught => some caught) = some (some line) := by
  have skipped : ∀ c ∈ blanks, (CharClass.oneOf [' ', '\t']).mem c = true :=
    fun c hc => List.contains_iff_mem.mpr (blank c hc)
  have stop : ∀ c ∈ line.head?, (CharClass.oneOf [' ', '\t']).mem c = false := by
    intro c hc
    simpa [CharClass.mem] using first c hc
  refine (run_seq ..).trans (run_one_cons rfl ?_)
  have rest : (capture (greedy (.noneOf ['\r', '\n']))).run
      ⟨blanks.getLast?.or (some ':'), line ++ []⟩ got (fun _ caught => some caught)
        = some (some line) :=
    run_capture_greedy (mem_noneOf_of_not_mem within) (by simp) rfl
  rw [List.append_nil] at rest
  exact (run_seq ..).trans (run_greedy_append skipped stop rest)

end

/-! ## Matches -/

/-- The words that a pattern begins with. -/
def Text.Pattern.opening : Pattern → Pattern
  | seq boundary (seq words _) | seq (opt (seq boundary (seq words _))) _ => words
  | p => p

namespace ConstraintForm

variable {m : MessageForm} {words : Pattern} {f : Filling}

theorem quotedName_run (before : Option Char) (got : Option (List Char)) {mark : Char}
    (h : mark ∈ ['\'', '"']) (n : Identifier) (more : List Char) :
    quotedName.run ⟨before, [' '] ++ mark :: (n.text.toList ++ mark :: more)⟩ got
      (fun _ got => some got) = some (some n.text.toList) := by
  have marks : (CharClass.oneOf ['\'', '"']).mem mark = true := List.contains_iff_mem.mpr h
  have last : Pattern.empty.run ⟨some mark, more⟩ (some n.text.toList) (fun _ got => some got)
      = some (some n.text.toList) := rfl
  have found := run_marked before got h (by decide) marks n more last
  simpa only [quotedName, Pattern.all, quote, run_seq, run_empty] using found

/-- A name in quotes that comes after the words. -/
theorem named_find? {k : ConstraintKind} (h : m.opensWith words = true) {mark : Char}
    (hmark : mark ∈ ['\'', '"']) {i : Nat} {more : List Slot}
    (rest : m.rest = inQuotes mark i ++ more) :
    (named k words).pattern.find? (message m.slots f) = some (some (f.name i).text) := by
  have after : (opt quotedName).run ⟨m.words.toList.getLast?, (message m.rest f).toList⟩ none
      (fun _ got => some got) = some (some (f.name i).text.toList) := by
    rw [rest, toList_inQuotes]
    exact run_opt (quotedName_run _ _ hmark ..)
  exact MessageForm.find?_of_opensWith h after

/-- What is listed after the words, a colon and a blank. -/
theorem listed_find? {k : ConstraintKind} {w : String} (h : m.opensWith (phrase w) = true)
    {s : Slot} (rest : m.rest = [.text ": ", s]) (isOpen : s.isOpen = true) :
    (listed k w).pattern.find? (message m.slots f) = some (some (s.fill f)) := by
  have text : (message m.rest f).toList = ':' :: ([' '] ++ (s.fill f).toList) := by
    rw [rest]
    simp [Slot.fill]
  have first : ∀ c ∈ (s.fill f).toList.head?, c ∉ [' ', '\t'] := by
    rintro c hc mem
    have blank := Slot.head_fill isOpen f c hc
    obtain rfl | rfl : c = ' ' ∨ c = '\t' := by simpa using mem
    · cases blank
    · cases blank
  have within : ∀ c ∈ (s.fill f).toList, c ∉ ['\r', '\n'] := by
    refine Slot.not_mem_fill ?_ f
    cases s with
    | text t => cases isOpen
    | name i => rfl
    | columns => rfl
  have after : (opt (Pattern.all [one (.letter ':'), greedy (.oneOf [' ', '\t']),
      capture (greedy (.noneOf ['\r', '\n']))])).run
      ⟨m.words.toList.getLast?, (message m.rest f).toList⟩ none (fun _ got => some got)
        = some (some (s.fill f).toList) := by
    have blank : ∀ c ∈ [' '], c ∈ [' ', '\t'] := List.forall_mem_singleton.mpr List.mem_cons_self
    rw [text]
    exact run_opt (run_line _ _ blank first within)
  exact MessageForm.find?_of_opensWith h after

end ConstraintForm

end RecordQuery
