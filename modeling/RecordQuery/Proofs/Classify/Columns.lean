import RecordQuery.Proofs.Classify.Messages
import RecordQuery.Proofs.Text.Blank

/-!
# Lists of columns

The parts of a list are read as they are written, if none is empty, has a comma in it or a blank at
an end (`listedParts_intercalate`). A message lists the columns of a constraint with their tables,
and `columnList` gives them without (`columnList_columns`). A text that is one identifier is its own
list.
-/

namespace RecordQuery

open Text

/-! ## Parts of a list -/

/-- The parts of a list between its commas, without the blanks around them. -/
def listedParts (s : String) : List (List Char) :=
  ((splitOn ',' s.toList).map trimChars).filter (!·.isEmpty)

theorem columnList_eq (s : String) : columnList s
    = ", ".intercalate ((listedParts s).map fun p => String.ofList (afterLastStop p)) := rfl

/-- A part of a list as it is read: not empty, with no comma in it and no blank at either end. -/
structure IsPart (p : List Char) : Prop where
  nonempty : p ≠ []
  commaless : ',' ∉ p
  trimmed : trimChars p = p

theorem isPart_of_mem_listedParts {s : String} {p : List Char} (h : p ∈ listedParts s) :
    IsPart p := by
  obtain ⟨mem, nonempty⟩ := List.mem_filter.mp h
  obtain ⟨part, split, rfl⟩ := List.mem_map.mp mem
  exact ⟨by simpa using nonempty, fun comma => not_mem_of_mem_splitOn split
    (mem_of_mem_trimChars comma), trimChars_trimChars part⟩

theorem mem_of_mem_listedParts {s : String} {p : List Char} (h : p ∈ listedParts s) {c : Char}
    (mem : c ∈ p) : c ∈ s.toList := by
  obtain ⟨part, split, rfl⟩ := List.mem_map.mp (List.mem_filter.mp h).1
  exact mem_of_mem_splitOn split (mem_of_mem_trimChars mem)

/-- What is listed is read back. -/
theorem listedParts_intercalate {names : List String} (h : ∀ n ∈ names, IsPart n.toList) :
    listedParts (", ".intercalate names) = names.map String.toList := by
  have kept {n : String} (part : IsPart n.toList) : (!n.toList.isEmpty) = true := by
    simpa using part.nonempty
  rw [listedParts]
  induction names with
  | nil => rfl
  | cons n names ih =>
    obtain ⟨part, others⟩ := List.forall_mem_cons.mp h
    cases names with
    | nil =>
      simp only [List.map_cons, List.map_nil, String.intercalate_singleton,
        splitOn_eq_singleton part.commaless, part.trimmed, List.filter_cons, kept part, if_true,
        List.filter_nil]
    | cons n' names =>
      have split : (", ".intercalate (n :: n' :: names)).toList
          = n.toList ++ ',' :: ' ' :: (", ".intercalate (n' :: names)).toList := by
        simp [String.intercalate_cons_cons]
      rw [split, splitOn_append part.commaless, List.map_cons, part.trimmed, List.filter_cons,
        kept part, if_pos rfl, trimmed_splitOn_blank rfl (by decide), ih others]
      rfl

/-- A character of a list is one of a name or one of those between two. -/
theorem mem_intercalate {names : List String} {c : Char}
    (mem : c ∈ (", ".intercalate names).toList) : (∃ n ∈ names, c ∈ n.toList) ∨ c ∈ [',', ' '] := by
  induction names with
  | nil => simp at mem
  | cons n names ih =>
    cases names with
    | nil => exact .inl ⟨n, List.mem_singleton_self n, by simpa using mem⟩
    | cons n' names =>
      rw [String.intercalate_cons_cons, String.toList_append, String.toList_append,
        List.mem_append, List.mem_append] at mem
      obtain (first | between) | more := mem
      · exact .inl ⟨n, List.mem_cons_self, first⟩
      · exact .inr between
      · exact (ih more).imp_left fun ⟨m, hm, hc⟩ => ⟨m, List.mem_cons_of_mem n hm, hc⟩

theorem afterLastStop_of_not_mem {cs : List Char} (h : '.' ∉ cs) : afterLastStop cs = cs := by
  rw [afterLastStop, splitOn_eq_singleton h]
  rfl

/-! ## Columns -/

namespace Identifier

theorem not_mem (n : Identifier) {c : Char} (h : isAsciiWord c = false) : c ∉ n.text.toList := by
  intro mem
  rw [n.isAsciiWord_of_mem c mem] at h
  cases h

theorem not_isBlank (n : Identifier) : ∀ c ∈ n.text.toList, isBlank c = false :=
  fun c mem => not_isBlank_of_isAsciiWord (n.isAsciiWord_of_mem c mem)

end Identifier

namespace ListedColumn

theorem toList_text (c : ListedColumn) :
    c.text.toList = c.table.text.toList ++ '.' :: c.column.text.toList := by simp [text]

theorem not_isBlank (c : ListedColumn) : ∀ d ∈ c.text.toList, isBlank d = false := by
  intro d mem
  rw [toList_text, List.mem_append, List.mem_cons] at mem
  obtain table | rfl | column := mem
  · exact c.table.not_isBlank d table
  · rfl
  · exact c.column.not_isBlank d column

theorem not_mem_comma (c : ListedColumn) : ',' ∉ c.text.toList := by
  rw [toList_text, List.mem_append, List.mem_cons, not_or, not_or]
  exact ⟨c.table.not_mem rfl, by decide, c.column.not_mem rfl⟩

theorem afterLastStop_text (c : ListedColumn) :
    afterLastStop c.text.toList = c.column.text.toList := by
  rw [afterLastStop, toList_text, splitOn_append (c.table.not_mem rfl),
    splitOn_eq_singleton (c.column.not_mem rfl)]
  rfl

end ListedColumn

/-- The characters of a list of columns. -/
theorem mem_columns {cs : List ListedColumn} {d : Char}
    (mem : d ∈ (", ".intercalate (cs.map (·.text))).toList) :
    isAsciiWord d = true ∨ d ∈ ['.', ',', ' '] := by
  obtain ⟨_, listed, hd⟩ | between := mem_intercalate mem
  · obtain ⟨c, -, rfl⟩ := List.mem_map.mp listed
    rw [c.toList_text, List.mem_append, List.mem_cons] at hd
    obtain table | rfl | column := hd
    · exact .inl (c.table.isAsciiWord_of_mem d table)
    · exact .inr List.mem_cons_self
    · exact .inl (c.column.isAsciiWord_of_mem d column)
  · exact .inr (List.mem_cons_of_mem _ between)

/-- No blank comes before the first column. -/
theorem head_columns (cs : List ListedColumn) :
    ∀ d ∈ (", ".intercalate (cs.map (·.text))).toList.head?, isBlank d = false := by
  have nonempty (c : ListedColumn) : c.text.toList ≠ [] := by simp [c.toList_text]
  intro d hd
  cases cs with
  | nil => simp at hd
  | cons c cs =>
    refine c.not_isBlank d (List.mem_of_head? ?_)
    cases cs with
    | nil => simpa using hd
    | cons e cs =>
      rw [List.map_cons, List.map_cons, String.intercalate_cons_cons, String.toList_append,
        String.toList_append, List.append_assoc, List.head?_append_of_ne_nil _ (nonempty c)] at hd
      exact hd

theorem ListedColumn.isPart (c : ListedColumn) : IsPart c.text.toList :=
  ⟨by simp [c.toList_text], c.not_mem_comma, trimChars_of_not_blank c.not_isBlank⟩

/-- Columns are listed by their names. -/
theorem columnList_columns (cs : List ListedColumn) :
    columnList (", ".intercalate (cs.map (·.text)))
      = ", ".intercalate (cs.map (·.column.text)) := by
  have parts : ∀ n ∈ cs.map (·.text), IsPart n.toList := by
    intro n mem
    obtain ⟨c, -, rfl⟩ := List.mem_map.mp mem
    exact c.isPart
  rw [columnList_eq, listedParts_intercalate parts, List.map_map, List.map_map]
  simp [Function.comp_def, ListedColumn.afterLastStop_text]

theorem columnList_identifier (n : Identifier) : columnList n.text = n.text := by
  rw [columnList_eq, listedParts, splitOn_eq_singleton (n.not_mem rfl), List.map_singleton,
    trimChars_of_not_blank n.not_isBlank]
  by_cases empty : n.text = ""
  · simp [empty]
  · simp [empty, afterLastStop_of_not_mem (n.not_mem rfl)]

end RecordQuery
