import RecordQuery.Proofs.Classify.Violations

/-!
# Failed checks

A message of a failed check ends in the name of the check, or in its expression where it has no
name. Unless a form that is tried before is found in it, it is classified as the violation of a
check, and the rest of its line is read as a list of columns, each with its table in front. So the
name is the one in the message only if that is a list with no full stop in it, with a comma and a
space between its parts (`failed_check_named`).
-/

namespace RecordQuery

open Text Text.Pattern

/-! ## Lists that are read as they are written -/

/-- The text is a list with no full stop in it: a comma and a space stand between its parts, none of
which is empty, has a comma in it or a blank at an end. -/
def IsPlainList (s : String) : Prop :=
  ∃ names : List String, s = ", ".intercalate names ∧
    ∀ n ∈ names, IsPart n.toList ∧ '.' ∉ n.toList

theorem listedParts_trim (s : String) : listedParts (trim s) = listedParts s := by
  rw [listedParts, listedParts, trim, String.toList_ofList, trimmed_splitOn_trimChars rfl]

theorem columnList_trim (s : String) : columnList (trim s) = columnList s := by
  rw [columnList_eq, columnList_eq, listedParts_trim]

theorem stop_not_mem_afterLastStop (cs : List Char) : '.' ∉ afterLastStop cs := by
  rw [afterLastStop]
  cases last : (splitOn '.' cs).getLast? with
  | none => exact List.not_mem_nil
  | some part => exact not_mem_of_mem_splitOn (List.mem_of_getLast? last)

/-- No full stop is left in a list of columns. -/
theorem stop_not_mem_columnList (s : String) : '.' ∉ (columnList s).toList := by
  rw [columnList_eq]
  intro mem
  obtain ⟨n, hn, stop⟩ | between := mem_intercalate mem
  · obtain ⟨part, -, rfl⟩ := List.mem_map.mp hn
    rw [String.toList_ofList] at stop
    exact stop_not_mem_afterLastStop part stop
  · revert between
    decide

theorem columnList_of_isPlainList {s : String} (h : IsPlainList s) : columnList s = s := by
  obtain ⟨names, rfl, plain⟩ := h
  have kept : ∀ n ∈ names, String.ofList (afterLastStop n.toList) = n := by
    intro n mem
    rw [afterLastStop_of_not_mem (plain n mem).2, String.ofList_toList]
  rw [columnList_eq, listedParts_intercalate fun n mem => (plain n mem).1, List.map_map]
  exact congrArg _ ((List.map_congr_left kept).trans (List.map_id names))

/-- A text is its own list of columns exactly if it is a list with no full stop in it. -/
theorem columnList_eq_trim_iff (s : String) : columnList s = trim s ↔ IsPlainList (trim s) := by
  constructor
  · intro same
    have stopless : '.' ∉ s.toList := by
      intro stop
      have kept : '.' ∈ (trim s).toList := by
        rw [trim, String.toList_ofList]
        exact mem_trimChars_of_not_blank rfl stop
      exact stop_not_mem_columnList s (same ▸ kept)
    have part (p : List Char) (mem : p ∈ listedParts s) : '.' ∉ p :=
      fun stop => stopless (mem_of_mem_listedParts mem stop)
    refine ⟨(listedParts s).map String.ofList, ?_, ?_⟩
    · rw [← same, columnList_eq]
      refine congrArg _ (List.map_congr_left fun p mem => ?_)
      rw [afterLastStop_of_not_mem (part p mem)]
    · intro n mem
      obtain ⟨p, listed, rfl⟩ := List.mem_map.mp mem
      rw [String.toList_ofList]
      exact ⟨isPart_of_mem_listedParts listed, part p listed⟩
  · intro plain
    rw [← columnList_trim, columnList_of_isPlainList plain]

/-! ## Messages -/

/-- The message of a failed check. -/
def failedCheck (check : String) : String := "CHECK constraint failed: " ++ check

/-- The rest of a line, from the first character that is no space or tab. -/
def unspaced (cs : List Char) : List Char := cs.dropWhile [' ', '\t'].contains

theorem exists_unspaced (cs : List Char) :
    ∃ spaces, cs = spaces ++ unspaced cs ∧ ∀ c ∈ spaces, c ∈ [' ', '\t'] :=
  ⟨cs.takeWhile [' ', '\t'].contains, List.takeWhile_append_dropWhile.symm, fun c mem =>
    List.contains_iff_mem.mp (List.all_eq_true.mp List.all_takeWhile c mem)⟩

theorem columnList_unspaced (s : String) :
    columnList (String.ofList (unspaced s.toList)) = columnList s := by
  obtain ⟨spaces, split, spaced⟩ := exists_unspaced s.toList
  have blank : ∀ c ∈ spaces, isBlank c = true := by
    intro c mem
    obtain rfl | rfl : c = ' ' ∨ c = '\t' := by simpa using spaced c mem
    · rfl
    · rfl
  have none : ∀ c ∈ ([] : List Char), isBlank c = true := nofun
  have comma : isBlank ',' = false := rfl
  have parts := trimmed_splitOn_blanks comma blank none (unspaced s.toList)
  rw [List.append_nil, ← split] at parts
  rw [columnList_eq, columnList_eq, listedParts, listedParts, String.toList_ofList, parts]

theorem not_mem_head_unspaced (cs : List Char) : ∀ c ∈ (unspaced cs).head?, c ∉ [' ', '\t'] := by
  intro c hc mem
  have stop := List.head?_dropWhile_not [' ', '\t'].contains cs
  rw [show (cs.dropWhile [' ', '\t'].contains).head? = some c from hc] at stop
  exact Bool.eq_false_iff.mp stop (List.contains_iff_mem.mpr mem)

theorem toList_failedCheck (check : String) : (failedCheck check).toList
    = "CHECK constraint failed".toList ++ ':' :: (' ' :: check.toList) := by
  have words : "CHECK constraint failed: ".toList
      = "CHECK constraint failed".toList ++ [':', ' '] := by decide +kernel
  have text : failedCheck check = "CHECK constraint failed: " ++ check := rfl
  rw [text, String.toList_append, words, List.append_assoc]
  rfl

/-- The words of a message begin it, and the rest of its line is captured after the blanks in front
of it. -/
theorem match?_of_begins {k : ConstraintKind} {w : String} {words blanks line : List Char}
    (literal : (phrase w).isLiteral = true) (spelled : (phrase w).spellings = [folded words])
    (word : words.head?.any isWord = true) (blank : ∀ c ∈ blanks, c ∈ [' ', '\t'])
    (first : ∀ c ∈ line.head?, c ∉ [' ', '\t']) (within : ∀ c ∈ line, c ∉ ['\r', '\n']) :
    (ConstraintForm.listed k w).pattern.match? ⟨none, words ++ ':' :: (blanks ++ line)⟩
      = some (some line) := by
  have after := run_opt (run_line (words.getLast?.or none) none blank first within)
  refine run_of_spelled literal ?_ (spelled ▸ List.mem_singleton_self _) ?_ ?_ after
  · cases words with
    | nil => cases word
    | cons c words => simpa [Place.atBoundary] using word
  · rw [Place.past?_eq_some_iff, length_folded, Place.skip_append, folded_append]
    exact ⟨List.prefix_append .., rfl⟩
  · intro v mem _
    rwa [spelled, List.mem_singleton] at mem

theorem failedCheck_find? {check : String} (line : ∀ c ∈ check.toList, c ∉ ['\r', '\n']) :
    (ConstraintForm.listed .check "check constraint failed").pattern.find? (failedCheck check)
      = some (some (String.ofList (unspaced check.toList))) := by
  obtain ⟨spaces, split, spaced⟩ := exists_unspaced check.toList
  have literal : (phrase "check constraint failed").isLiteral = true := by decide +kernel
  have spelled : (phrase "check constraint failed").spellings
      = [folded "CHECK constraint failed".toList] := by decide +kernel
  have word : "CHECK constraint failed".toList.head?.any isWord = true := by decide +kernel
  have blank : ∀ c ∈ ' ' :: spaces, c ∈ [' ', '\t'] :=
    List.forall_mem_cons.mpr ⟨List.mem_cons_self, spaced⟩
  have within : ∀ c ∈ unspaced check.toList, c ∉ ['\r', '\n'] :=
    fun c mem => line c (split ▸ List.mem_append_right _ mem)
  have matched := match?_of_begins (k := .check) literal spelled word blank
    (not_mem_head_unspaced check.toList) within
  rw [List.cons_append, ← split, ← toList_failedCheck] at matched
  rw [find?, search_of_match? matched, Option.map_some, Option.map_some]

/-- No line ends in a text, by evaluation. -/
theorem oneLine_of_all {cs : List Char} (h : cs.all (['\r', '\n'].contains · == false) = true) :
    ∀ c ∈ cs, c ∉ ['\r', '\n'] := by
  intro c mem
  simpa using List.all_eq_true.mp h c mem

/-! ## Classification -/

/-- A failed check is reported by what is listed after the colon, so by its name in the message
exactly if that is a list with no full stop in it. -/
theorem failed_check_named {check : String} (line : ∀ c ∈ check.toList, c ∉ ['\r', '\n'])
    (first : ∀ form ∈ constraintForms.take ViolationMessage.sqliteCheck.rank,
      form.pattern.occursIn (failedCheck check) = false) :
    classify (failedCheck check) = .constraintViolation .check (columnList check) ∧
    (classify (failedCheck check) = .constraintViolation .check (trim check) ↔
      IsPlainList (trim check)) := by
  have earlier : ∀ form ∈ constraintForms.take ViolationMessage.sqliteCheck.rank,
      form.pattern.find? (failedCheck check) = none :=
    fun form mem => Option.not_isSome_iff_eq_none.mp (Bool.eq_false_iff.mp (first form mem))
  have reported := classify_of_first rfl earlier (failedCheck_find? line)
  rw [ConstraintForm.listed, Naming.name, columnList_unspaced] at reported
  refine ⟨reported, ?_⟩
  rw [reported, Error.constraintViolation.injEq, eq_self_iff_true, true_and,
    columnList_eq_trim_iff]

/-- The parts of a list that a check has in its expression are a list themselves. -/
theorem failed_check_named_status :
    (∀ form ∈ constraintForms.take ViolationMessage.sqliteCheck.rank,
      form.pattern.occursIn (failedCheck " status IN ('open', 'shut')") = false) ∧
    classify (failedCheck " status IN ('open', 'shut')")
      = .constraintViolation .check "status IN ('open', 'shut')" := by
  have first : ∀ form ∈ constraintForms.take ViolationMessage.sqliteCheck.rank,
      form.pattern.occursIn (failedCheck " status IN ('open', 'shut')") = false := by
    decide +kernel
  have plain : IsPlainList (trim " status IN ('open', 'shut')") :=
    ⟨["status IN ('open'", "'shut')"], by decide +kernel, by
      intro n mem
      obtain rfl | rfl : n = "status IN ('open'" ∨ n = "'shut')" := by simpa using mem
      all_goals
        exact ⟨⟨by decide +kernel, by decide +kernel, by decide +kernel⟩, by decide +kernel⟩⟩
  have line : ∀ c ∈ " status IN ('open', 'shut')".toList, c ∉ ['\r', '\n'] :=
    oneLine_of_all (by decide +kernel)
  exact ⟨first, (failed_check_named line first).2.mpr plain⟩

/-- Of a check with a fraction in it the digits of the fraction are reported. -/
theorem fractional_check_misnamed :
    classify (failedCheck "price > 0.5") = .constraintViolation .check "5" ∧
    ¬∀ check : String, isBlankText check = false → (∀ c ∈ check.toList, c ∉ ['\r', '\n']) →
      (∀ form ∈ constraintForms.take ViolationMessage.sqliteCheck.rank,
        form.pattern.occursIn (failedCheck check) = false) →
      classify (failedCheck check) = .constraintViolation .check (trim check) := by
  have misnamed : classify (failedCheck "price > 0.5") = .constraintViolation .check "5" := by
    decide +kernel
  refine ⟨misnamed, fun claimed => ?_⟩
  have line : ∀ c ∈ "price > 0.5".toList, c ∉ ['\r', '\n'] :=
    oneLine_of_all (by decide +kernel)
  have claim := claimed "price > 0.5" (by decide) line (by decide +kernel)
  rw [misnamed] at claim
  exact absurd claim (by decide +kernel)

end RecordQuery
