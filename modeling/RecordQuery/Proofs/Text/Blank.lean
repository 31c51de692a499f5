import Mathlib.Data.List.Induction
import Mathlib.Data.List.TakeWhile
import RecordQuery.Proofs.Number.Digits
import RecordQuery.Text.Blank

/-!
# Blanks at the ends of a text

A text is its trimmed text with blanks on either side (`exists_trimChars`), and the trimmed text has
none (`trimChars_trimChars`). The parts of a text between separators, once they are trimmed, are
those of the trimmed text (`trimmed_splitOn_trimChars`).
-/

namespace RecordQuery.Text

open Number

theorem isBlank_of_isDigit {c : Char} (h : isDigit c = true) : isBlank c = false := by
  have range := toNat_of_isDigit h
  simp [isBlank]
  omega

theorem trimStart_of_head {cs : List Char} (h : ∀ c ∈ cs.head?, isBlank c = false) :
    trimStart cs = cs := by
  cases cs with
  | nil => rfl
  | cons c cs => rw [trimStart, List.dropWhile_cons_of_neg (by simp [h c rfl])]

theorem trimChars_of_ends {cs : List Char} (first : ∀ c ∈ cs.head?, isBlank c = false)
    (last : ∀ c ∈ cs.getLast?, isBlank c = false) : trimChars cs = cs := by
  rw [trimChars, trimStart_of_head first, trimStart_of_head, List.reverse_reverse]
  simpa using last

theorem trimChars_of_not_blank {cs : List Char} (h : ∀ c ∈ cs, isBlank c = false) :
    trimChars cs = cs :=
  trimChars_of_ends (fun c hc => h c (List.mem_of_head? hc))
    fun c hc => h c (List.mem_of_getLast? hc)

/-! ## The trimmed text -/

theorem not_isBlank_head_trimStart (cs : List Char) :
    ∀ c ∈ (trimStart cs).head?, isBlank c = false := by
  intro c hc
  have stop := List.head?_dropWhile_not isBlank cs
  rw [show (cs.dropWhile isBlank).head? = some c from hc] at stop
  simpa using stop

/-- Blanks in front of the trimmed text and after it make up the whole text. -/
theorem exists_trimChars (cs : List Char) : ∃ before after, cs = before ++ (trimChars cs ++ after) ∧
    (∀ c ∈ before, isBlank c = true) ∧ ∀ c ∈ after, isBlank c = true := by
  have blanks (ds : List Char) : ∀ c ∈ ds.takeWhile isBlank, isBlank c = true :=
    List.all_eq_true.mp List.all_takeWhile
  refine ⟨cs.takeWhile isBlank, ((trimStart cs).reverse.takeWhile isBlank).reverse, ?_, blanks cs,
    fun c hc => blanks _ c (List.mem_reverse.mp hc)⟩
  have after :
      trimChars cs ++ ((trimStart cs).reverse.takeWhile isBlank).reverse = trimStart cs := by
    rw [trimChars, trimStart, ← List.reverse_append, List.takeWhile_append_dropWhile,
      List.reverse_reverse]
  rw [after, trimStart, List.takeWhile_append_dropWhile]

theorem mem_of_mem_trimChars {cs : List Char} {c : Char} (h : c ∈ trimChars cs) : c ∈ cs := by
  obtain ⟨before, after, split, -⟩ := exists_trimChars cs
  rw [split]
  exact List.mem_append_right _ (List.mem_append_left _ h)

theorem mem_trimChars_of_not_blank {cs : List Char} {c : Char} (h : isBlank c = false)
    (mem : c ∈ cs) : c ∈ trimChars cs := by
  obtain ⟨before, after, split, blank, blank'⟩ := exists_trimChars cs
  rw [split, List.mem_append, List.mem_append] at mem
  obtain left | within | right := mem
  · rw [blank c left] at h
    cases h
  · exact within
  · rw [blank' c right] at h
    cases h

theorem trimChars_trimChars (cs : List Char) : trimChars (trimChars cs) = trimChars cs := by
  refine trimChars_of_ends (fun c hc => ?_) fun c hc => ?_
  · have start : trimChars cs <+: trimStart cs := by
      rw [trimChars, ← List.reverse_suffix, List.reverse_reverse]
      exact trimStart_suffix _
    obtain ⟨after, split⟩ := start
    refine not_isBlank_head_trimStart cs c ?_
    rw [← split, List.head?_append, show (trimChars cs).head? = some c from hc]
    rfl
  · rw [trimChars, List.getLast?_reverse] at hc
    exact not_isBlank_head_trimStart _ c hc

/-- A blank at the end of a text is not in its trimmed text. -/
theorem trimChars_concat {c : Char} (blank : isBlank c = true) (cs : List Char) :
    trimChars (cs ++ [c]) = trimChars cs := by
  have start : trimStart (cs ++ [c])
      = if (trimStart cs).isEmpty then [] else trimStart cs ++ [c] := by
    rw [trimStart, List.dropWhile_append, List.dropWhile_cons_of_pos blank]
    rfl
  rw [trimChars, trimChars, start]
  cases h : trimStart cs with
  | nil => rfl
  | cons d ds =>
    rw [List.isEmpty_cons, if_neg Bool.false_ne_true, List.reverse_append, List.reverse_singleton,
      List.singleton_append, trimStart, List.dropWhile_cons_of_pos blank]
    rfl

/-! ## Parts of a text -/

theorem splitOn_eq_singleton {sep : Char} {cs : List Char} (h : sep ∉ cs) :
    splitOn sep cs = [cs] := by
  induction cs with
  | nil => rfl
  | cons c cs ih =>
    rw [List.mem_cons, not_or] at h
    rw [splitOn, if_neg (Ne.symm h.1), ih h.2]

theorem splitOn_append {sep : Char} {cs : List Char} (h : sep ∉ cs) (rest : List Char) :
    splitOn sep (cs ++ sep :: rest) = cs :: splitOn sep rest := by
  induction cs with
  | nil => rw [List.nil_append, splitOn, if_pos rfl]
  | cons c cs ih =>
    rw [List.mem_cons, not_or] at h
    rw [List.cons_append, splitOn, if_neg (Ne.symm h.1), ih h.2]

/-- A character in front of the parts of a text that is no separator belongs to the first. -/
theorem exists_splitOn_cons {sep c : Char} (other : c ≠ sep) (cs : List Char) :
    ∃ part parts, splitOn sep cs = part :: parts ∧
      splitOn sep (c :: cs) = (c :: part) :: parts := by
  rw [splitOn, if_neg other]
  cases h : splitOn sep cs with
  | nil => exact absurd h (splitOn_ne_nil sep cs)
  | cons part parts => exact ⟨part, parts, rfl, rfl⟩

/-- A character at the end of a text that is no separator belongs to the last of its parts. -/
theorem exists_splitOn_concat {sep c : Char} (other : c ≠ sep) (cs : List Char) :
    ∃ parts part, splitOn sep cs = parts ++ [part] ∧
      splitOn sep (cs ++ [c]) = parts ++ [part ++ [c]] := by
  induction cs with
  | nil => exact ⟨[], [], rfl, by simp [splitOn, other]⟩
  | cons d cs ih =>
    obtain ⟨parts, part, left, right⟩ := ih
    by_cases stop : d = sep
    · refine ⟨[] :: parts, part, ?_, ?_⟩
      · rw [splitOn, if_pos stop, left, List.cons_append]
      · rw [List.cons_append, splitOn, if_pos stop, right, List.cons_append]
    · rw [List.cons_append, splitOn, splitOn, if_neg stop, if_neg stop, left, right]
      cases parts with
      | nil => exact ⟨[], d :: part, rfl, rfl⟩
      | cons first parts => exact ⟨(d :: first) :: parts, part, rfl, rfl⟩

theorem not_mem_of_mem_splitOn {sep : Char} {cs part : List Char} (h : part ∈ splitOn sep cs) :
    sep ∉ part := by
  induction cs generalizing part with
  | nil =>
    rw [List.mem_singleton.mp h]
    exact List.not_mem_nil
  | cons c cs ih =>
    by_cases stop : c = sep
    · rw [splitOn, if_pos stop, List.mem_cons] at h
      obtain rfl | later := h
      · exact List.not_mem_nil
      · exact ih later
    · obtain ⟨first, parts, split, whole⟩ := exists_splitOn_cons stop cs
      rw [whole, List.mem_cons] at h
      obtain rfl | later := h
      · rw [List.mem_cons, not_or]
        exact ⟨Ne.symm stop, ih (split ▸ List.mem_cons_self)⟩
      · exact ih (split ▸ List.mem_cons_of_mem _ later)

theorem mem_of_mem_splitOn {sep : Char} {cs part : List Char} (h : part ∈ splitOn sep cs) {c : Char}
    (mem : c ∈ part) : c ∈ cs := by
  induction cs generalizing part with
  | nil =>
    rw [List.mem_singleton.mp h] at mem
    exact mem
  | cons d cs ih =>
    by_cases stop : d = sep
    · rw [splitOn, if_pos stop, List.mem_cons] at h
      obtain rfl | later := h
      · cases mem
      · exact List.mem_cons_of_mem d (ih later mem)
    · obtain ⟨first, parts, split, whole⟩ := exists_splitOn_cons stop cs
      rw [whole, List.mem_cons] at h
      obtain rfl | later := h
      · rw [List.mem_cons] at mem ⊢
        exact mem.imp_right (ih (split ▸ List.mem_cons_self))
      · exact List.mem_cons_of_mem d (ih (split ▸ List.mem_cons_of_mem _ later) mem)

/-! ## Trimmed parts -/

section

variable {sep c : Char}

/-- A blank in front of the parts of a text is in front of the first. -/
theorem trimmed_splitOn_blank (blank : isBlank c = true) (other : c ≠ sep) (cs : List Char) :
    (splitOn sep (c :: cs)).map trimChars = (splitOn sep cs).map trimChars := by
  obtain ⟨part, parts, split, whole⟩ := exists_splitOn_cons other cs
  have dropped : trimStart (c :: part) = trimStart part := List.dropWhile_cons_of_pos blank
  simp [split, whole, trimChars, dropped]

/-- A blank after the parts of a text is after the last. -/
theorem trimmed_splitOn_concat (blank : isBlank c = true) (other : c ≠ sep) (cs : List Char) :
    (splitOn sep (cs ++ [c])).map trimChars = (splitOn sep cs).map trimChars := by
  obtain ⟨parts, part, split, whole⟩ := exists_splitOn_concat other cs
  simp [split, whole, trimChars_concat blank]

theorem trimmed_splitOn_blanks (hsep : isBlank sep = false) {before after : List Char}
    (blank : ∀ c ∈ before, isBlank c = true) (blank' : ∀ c ∈ after, isBlank c = true)
    (cs : List Char) : (splitOn sep (before ++ (cs ++ after))).map trimChars
      = (splitOn sep cs).map trimChars := by
  have other {c : Char} (h : isBlank c = true) : c ≠ sep := by
    rintro rfl
    rw [hsep] at h
    cases h
  induction before with
  | nil =>
    rw [List.nil_append]
    induction after using List.reverseRecOn with
    | nil => rw [List.append_nil]
    | append_singleton after c ih =>
      have last : isBlank c = true := blank' c (by simp)
      rw [← List.append_assoc, trimmed_splitOn_concat last (other last)]
      exact ih fun d hd => blank' d (List.mem_append_left _ hd)
  | cons c before ih =>
    obtain ⟨first, others⟩ := List.forall_mem_cons.mp blank
    rw [List.cons_append, trimmed_splitOn_blank first (other first), ih others]

/-- The trimmed parts of a text are those of the trimmed text. -/
theorem trimmed_splitOn_trimChars (hsep : isBlank sep = false) (cs : List Char) :
    (splitOn sep (trimChars cs)).map trimChars = (splitOn sep cs).map trimChars := by
  obtain ⟨before, after, split, blank, blank'⟩ := exists_trimChars cs
  have parts := trimmed_splitOn_blanks hsep blank blank' (trimChars cs)
  rw [← split] at parts
  exact parts.symm

end

end RecordQuery.Text
