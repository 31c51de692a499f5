import RecordQuery.Proofs.Text.Casing
import RecordQuery.Proofs.Text.Matching

/-!
# Words of a text

The words of a text are its longest stretches of word characters (`mem_words_iff`). Two texts put
side by side have the words of both if no word goes on from one to the other. A pattern of letters
between boundaries is found in a text exactly if one of its words is a spelling of the pattern
(`whole_occursIn_iff`).
-/

namespace RecordQuery.Text

/-- The words of a text, in their order. -/
def words (cs : List Char) : List (List Char) :=
  (cs.splitOnP (!isWord ·)).filter (!·.isEmpty)

@[simp] theorem words_nil : words [] = [] := by simp [words]

theorem words_append_cons {c : Char} (h : isWord c = false) (xs ys : List Char) :
    words (xs ++ c :: ys) = words xs ++ words ys := by
  rw [words, List.splitOnP_append_cons xs ys (by simpa using h), List.filter_append]
  rfl

theorem words_cons {c : Char} (h : isWord c = false) (cs : List Char) :
    words (c :: cs) = words cs := by
  have apart := words_append_cons h [] cs
  rwa [words_nil, List.nil_append, List.nil_append] at apart

theorem words_append_of_head {xs ys : List Char} (h : ys.head?.any isWord = false) :
    words (xs ++ ys) = words xs ++ words ys := by
  cases ys with
  | nil => simp
  | cons c ys => rw [words_append_cons h, words_cons h]

theorem words_append_of_last {xs ys : List Char} (h : xs.getLast?.any isWord = false) :
    words (xs ++ ys) = words xs ++ words ys := by
  rcases xs.eq_nil_or_concat with rfl | ⟨init, c, rfl⟩
  · simp
  · rw [List.concat_eq_append] at h ⊢
    have stop : isWord c = false := by simpa using h
    rw [List.append_assoc, List.singleton_append, words_append_cons stop, words_append_cons stop,
      words_nil, List.append_nil]

theorem words_eq_singleton {w : List Char} (nonempty : w ≠ []) (h : ∀ c ∈ w, isWord c = true) :
    words w = [w] := by
  rw [words, List.splitOnP_eq_singleton fun c mem => by simp [h c mem]]
  simp [nonempty]

/-- A text that has a word character in front begins with a word. -/
theorem exists_first_word {c : Char} (h : isWord c = true) (cs : List Char) :
    ∃ w rest, c :: cs = w ++ rest ∧ rest.length ≤ cs.length ∧ rest.head?.any isWord = false ∧
      w ≠ [] ∧ ∀ d ∈ w, isWord d = true := by
  have all : ∀ d ∈ cs.takeWhile isWord, isWord d = true := List.all_eq_true.mp List.all_takeWhile
  refine ⟨c :: cs.takeWhile isWord, cs.dropWhile isWord, ?_, (List.dropWhile_suffix _).length_le,
    ?_, List.cons_ne_nil _ _, List.forall_mem_cons.mpr ⟨h, all⟩⟩
  · rw [List.cons_append, List.takeWhile_append_dropWhile]
  · have stop := List.head?_dropWhile_not isWord cs
    cases first : (cs.dropWhile isWord).head? with
    | none => rfl
    | some d =>
      rw [first] at stop
      simpa using stop

/-- A word has word characters, and no more of them before it or after it. -/
theorem mem_words_iff {cs w : List Char} : w ∈ words cs ↔ ∃ before after,
    cs = before ++ (w ++ after) ∧ before.getLast?.any isWord = false ∧
      after.head?.any isWord = false ∧ w ≠ [] ∧ ∀ c ∈ w, isWord c = true := by
  constructor
  · intro mem
    induction len : cs.length using Nat.strong_induction_on generalizing cs with
    | _ n ih =>
      subst len
      obtain _ | ⟨c, cs⟩ := cs
      · simp at mem
      · cases word : isWord c with
        | false =>
          rw [words_cons word] at mem
          obtain ⟨before, after, rfl, left, right⟩ := ih _ (Nat.lt_succ_self _) mem rfl
          refine ⟨c :: before, after, rfl, ?_, right⟩
          rw [List.getLast?_cons]
          cases last : before.getLast? with
          | none => simpa using word
          | some d => simpa [last] using left
        | true =>
          obtain ⟨first, rest, split, shorter, stop, nonempty, all⟩ := exists_first_word word cs
          rw [split, words_append_of_head stop, words_eq_singleton nonempty all,
            List.singleton_append, List.mem_cons] at mem
          obtain rfl | further := mem
          · exact ⟨[], rest, split, rfl, stop, nonempty, all⟩
          · obtain ⟨before, after, same, left, right⟩ :=
              ih _ (Nat.lt_succ_of_le shorter) further rfl
            refine ⟨first ++ before, after, ?_, ?_, right⟩
            · rw [split, same, List.append_assoc]
            · rw [List.getLast?_append]
              cases last : before.getLast? with
              | none =>
                -- the rest would begin with this word, and the first would go on
                rw [List.getLast?_eq_none_iff.mp last, List.nil_append] at same
                obtain ⟨d, w, rfl⟩ := List.exists_cons_of_ne_nil right.2.1
                rw [same, List.cons_append, List.head?_cons, Option.any_some,
                  right.2.2 d List.mem_cons_self] at stop
                cases stop
              | some d => simpa [last] using left
  · rintro ⟨before, after, rfl, left, right, nonempty, all⟩
    rw [words_append_of_last left, words_append_of_head right, words_eq_singleton nonempty all]
    simp

/-! ## Whole words of a pattern -/

namespace Pattern

variable {p q : Pattern}

theorem whole_match?_isSome_iff (literal : p.isLiteral = true) (here : Place) :
    ((seq boundary (seq p boundary)).match? here).isSome ↔ here.atBoundary = true ∧
      ∃ w ∈ p.spellings, ∃ there, here.past? w = some there ∧ there.atBoundary = true := by
  simp only [match?, run, run_literal literal]
  by_cases bound : here.atBoundary = true
  · rw [if_pos bound, List.findSome?_isSome_iff]
    simp [bound, Option.isSome_iff_exists, Option.bind_eq_some_iff]
  · simp [bound]

theorem whole_alt_occursIn_iff (literal : (alt p q).isLiteral = true) {text : String} :
    (seq boundary (seq (alt p q) boundary)).occursIn text = true ↔
      (seq boundary (seq p boundary)).occursIn text = true ∨
        (seq boundary (seq q boundary)).occursIn text = true := by
  have parts := literal
  simp only [isLiteral, Bool.and_eq_true] at parts
  simp only [occursIn_iff, whole_match?_isSome_iff literal, whole_match?_isSome_iff parts.1,
    whole_match?_isSome_iff parts.2, spellings, List.mem_append, or_and_right, exists_or,
    and_or_left]

/-- Word characters are between boundaries where they are all of a word. -/
theorem atBoundary_iff {w : List Char} (nonempty : w ≠ []) (all : ∀ c ∈ w, isWord c = true)
    (before : Option Char) (after : List Char) :
    ((Place.mk before (w ++ after)).atBoundary = true ↔ before.any isWord = false) ∧
    (((Place.mk before (w ++ after)).skip w.length).atBoundary = true ↔
      after.head?.any isWord = false) := by
  obtain ⟨c, u, rfl⟩ := List.exists_cons_of_ne_nil nonempty
  obtain ⟨v, d, last⟩ := (c :: u).eq_nil_or_concat.resolve_left nonempty
  have left : isWord c = true := all c List.mem_cons_self
  have right : isWord d = true := all d (by simp [last])
  constructor
  · simp [Place.atBoundary, left]
  · have ends : (c :: u).getLast? = some d := by
      rw [last, List.concat_eq_append, List.getLast?_concat]
    rw [Place.skip_append, ends, Option.some_or, Place.atBoundary, Option.any_some, right]
    cases after.head?.any isWord <;> simp

/-- A pattern of words between boundaries is found where one of the words of a text is one of
them, in letters of either case. -/
theorem whole_occursIn_iff (literal : p.isLiteral = true)
    (plain : p.spellings.all (fun w => !w.isEmpty && w.all isAsciiWord) = true) {text : String} :
    (seq boundary (seq p boundary)).occursIn text = true ↔
      ∃ w ∈ words text.toList, folded w ∈ p.spellings := by
  have word (w : List Char) (mem : w ∈ p.spellings) : w ≠ [] ∧ ∀ c ∈ w, isAsciiWord c = true := by
    simpa using List.all_eq_true.mp plain w mem
  rw [occursIn_iff]
  simp only [whole_match?_isSome_iff literal]
  constructor
  · rintro ⟨n, -, bound, w, spelled, there, past, bound'⟩
    obtain ⟨start, rfl⟩ := Place.past?_eq_some_iff.mp past
    obtain ⟨u, ⟨after, split⟩, rfl⟩ := List.prefix_map_iff.mp start
    rw [Place.rest_skip, Place.start] at split
    have here : (Place.start text.toList).skip n
        = ⟨(text.toList.take n).getLast?.or none, u ++ after⟩ := by
      rw [split]
      rfl
    have nonempty : u ≠ [] := by simpa using (word _ spelled).1
    have all : ∀ c ∈ u, isWord c = true :=
      fun c mem => isWord_of_fold ((word _ spelled).2 _ (List.mem_map_of_mem mem))
    have bounds := atBoundary_iff nonempty all ((text.toList.take n).getLast?.or none) after
    rw [here] at bound bound'
    rw [List.length_map] at bound'
    refine ⟨u, mem_words_iff.mpr ⟨text.toList.take n, after, ?_, ?_, bounds.2.mp bound', nonempty,
      all⟩, spelled⟩
    · rw [split, List.take_append_drop]
    · simpa using bounds.1.mp bound
  · rintro ⟨w, mem, spelled⟩
    obtain ⟨before, after, split, left, right, nonempty, all⟩ := mem_words_iff.mp mem
    have bounds := atBoundary_iff nonempty all (before.getLast?.or none) after
    have here : (Place.start text.toList).skip before.length
        = ⟨before.getLast?.or none, w ++ after⟩ := by
      rw [split]
      exact Place.skip_append ..
    have past : (Place.mk (before.getLast?.or none) (w ++ after)).past? (folded w)
        = some ((Place.mk (before.getLast?.or none) (w ++ after)).skip w.length) := by
      rw [Place.past?_eq_some_iff, length_folded, folded_append]
      exact ⟨List.prefix_append .., rfl⟩
    refine ⟨before.length, by simp [split], ?_, folded w, spelled, _, ?_, bounds.2.mpr right⟩
    · rw [here, bounds.1, Option.or_none]
      exact left
    · rw [here, past]

end Pattern

end RecordQuery.Text
