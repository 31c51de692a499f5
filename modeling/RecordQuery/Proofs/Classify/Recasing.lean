import RecordQuery.Classify
import RecordQuery.Proofs.Text.Recasing

/-!
# Classification ignores case

All patterns that messages are told apart by ignore case. So a message is classified alike in all
cases of its letters, and the names in it are read at the same spans (`classify_recased`), because
nothing that is done to a captured text, to list its columns, looks at a letter.
-/

namespace RecordQuery

open Text Text.Pattern

/-! ## Names -/

/-- What stands in a text at some spans, each given by its place and its length. -/
def readSpans (spans : List (Nat × Nat)) (text : String) : String :=
  ", ".intercalate (spans.map fun span => String.ofList ((text.toList.drop span.1).take span.2))

/-- The names are read at the same spans of the two texts. -/
def SameName (m m' name name' : String) : Prop :=
  ∃ spans, name = readSpans spans m ∧ name' = readSpans spans m'

section

variable {m m' : String}

theorem sameName_of_spans {cs ds : List (List Char)}
    (h : List.Forall₂ (SameSpan m.toList m'.toList) cs ds) :
    SameName m m' (", ".intercalate (cs.map String.ofList))
      (", ".intercalate (ds.map String.ofList)) := by
  have spans : ∃ spans : List (Nat × Nat),
      cs = spans.map (fun span => (m.toList.drop span.1).take span.2) ∧
      ds = spans.map (fun span => (m'.toList.drop span.1).take span.2) := by
    induction h with
    | nil => exact ⟨[], rfl, rfl⟩
    | cons span _ ih =>
      obtain ⟨spans, rfl, rfl⟩ := ih
      obtain ⟨i, n, rfl, rfl⟩ := span
      exact ⟨(i, n) :: spans, rfl, rfl⟩
  obtain ⟨spans, rfl, rfl⟩ := spans
  refine ⟨spans, ?_, ?_⟩ <;> rw [readSpans, List.map_map] <;> rfl

theorem getLast?_rel {R : α → β → Prop} {xs : List α} {ys : List β} (h : List.Forall₂ R xs ys) :
    Option.Rel R xs.getLast? ys.getLast? := by
  have reversed := List.rel_reverse h
  rw [List.getLast?_eq_head?_reverse, List.getLast?_eq_head?_reverse]
  generalize xs.reverse = us at *
  generalize ys.reverse = vs at *
  cases reversed with
  | nil => exact .none
  | cons related _ => exact .some related

theorem sameSpan_afterLastStop {cs ds : List Char} (h : Recased cs ds) :
    SameSpan cs ds (afterLastStop cs) (afterLastStop ds) := by
  have last := getLast?_rel (sameSpan_splitOn (by decide : ¬IsLetter '.') h)
  rw [afterLastStop, afterLastStop]
  generalize (splitOn '.' cs).getLast? = x at *
  generalize (splitOn '.' ds).getLast? = y at *
  cases last with
  | some span => exact span
  | none => exact .nil ..

theorem sameName_columnList {cs ds : List Char} (h : Recased m.toList m'.toList)
    (span : SameSpan m.toList m'.toList cs ds) :
    SameName m m' (columnList (String.ofList cs)) (columnList (String.ofList ds)) := by
  have text := span.recased h
  have parts : List.Forall₂ (SameSpan cs ds) ((splitOn ',' cs).map trimChars)
      ((splitOn ',' ds).map trimChars) := by
    rw [List.forall₂_map_left_iff, List.forall₂_map_right_iff]
    exact (sameSpan_splitOn (by decide) text).imp
      fun _ _ part => part.trans (sameSpan_trimChars (part.recased text))
  have kept : List.Forall₂ (SameSpan cs ds)
      (((splitOn ',' cs).map trimChars).filter (!·.isEmpty))
      (((splitOn ',' ds).map trimChars).filter (!·.isEmpty)) := by
    refine List.rel_filter (fun _ _ part => ?_) parts
    cases part.recased text <;> rfl
  have names : List.Forall₂ (SameSpan m.toList m'.toList)
      ((((splitOn ',' cs).map trimChars).filter (!·.isEmpty)).map afterLastStop)
      ((((splitOn ',' ds).map trimChars).filter (!·.isEmpty)).map afterLastStop) := by
    rw [List.forall₂_map_left_iff, List.forall₂_map_right_iff]
    exact kept.imp
      fun _ _ part => span.trans (part.trans (sameSpan_afterLastStop (part.recased text)))
  have name := sameName_of_spans names
  rw [List.map_map, List.map_map] at name
  rw [columnList, columnList, String.toList_ofList, String.toList_ofList]
  exact name

/-- What is captured at the same span names the same span. -/
theorem sameName_naming (h : Recased m.toList m'.toList) (n : Naming)
    {got got' : Option (List Char)} (caught : SameCapture m.toList m'.toList got got') :
    SameName m m' (n.name (got.map String.ofList)) (n.name (got'.map String.ofList)) := by
  cases caught with
  | none => exact ⟨[], rfl, rfl⟩
  | some span =>
    cases n with
    | plain =>
      have name := sameName_of_spans (.cons span .nil)
      rwa [List.map_singleton, List.map_singleton, String.intercalate_singleton,
        String.intercalate_singleton] at name
    | columns => exact sameName_columnList h span

/-! ## Classification -/

theorem constraintForms_ignoreCase : constraintForms.all (·.pattern.ignoresCase) = true := by
  decide +kernel

theorem timeout_ignoresCase : timeoutPattern.ignoresCase = true := by decide +kernel

theorem concurrency_ignoresCase : concurrencyPattern.ignoresCase = true := by decide +kernel

theorem unavailable_ignoresCase : unavailablePattern.ignoresCase = true := by decide +kernel

theorem occursIn_recased (h : Recased m.toList m'.toList) {p : Pattern}
    (hp : p.ignoresCase = true) : p.occursIn m = p.occursIn m' := by
  have found := search_recased h hp (SamePlace.start ..)
  rw [occursIn, occursIn, find?, find?, Option.isSome_map, Option.isSome_map]
  generalize p.search none m.toList = x at *
  generalize p.search none m'.toList = y at *
  cases found <;> rfl

theorem findSome?_rel {R : α → β → Prop} {l : List γ} {f : γ → Option α} {g : γ → Option β}
    (h : ∀ x ∈ l, Option.Rel R (f x) (g x)) : Option.Rel R (l.findSome? f) (l.findSome? g) := by
  induction l with
  | nil => exact .none
  | cons x l ih =>
    rw [List.forall_mem_cons] at h
    rw [List.findSome?_cons, List.findSome?_cons]
    obtain ⟨first, others⟩ := h
    generalize f x = u at *
    generalize g x = v at *
    cases first with
    | some related => exact .some related
    | none => exact ih others

theorem violation?_recased (h : Recased m.toList m'.toList) :
    Option.Rel (fun x y => x.1 = y.1 ∧ SameName m m' x.2 y.2) (violation? m) (violation? m') := by
  refine findSome?_rel fun form mem => ?_
  have found := search_recased h (List.all_eq_true.mp constraintForms_ignoreCase form mem)
    (SamePlace.start ..)
  rw [find?, find?, Option.map_map, Option.map_map]
  generalize form.pattern.search none m.toList = x at *
  generalize form.pattern.search none m'.toList = y at *
  cases found with
  | some caught => exact .some ⟨rfl, sameName_naming h form.naming caught⟩
  | none => exact .none

/-- The two messages report the same violation, of names read at the same spans, or they are the
same other error, each with its own text. -/
def ClassifiedAlike (m m' : String) : Prop :=
  (∃ k spans, classify m = .constraintViolation k (readSpans spans m) ∧
    classify m' = .constraintViolation k (readSpans spans m')) ∨
  ∃ e ∈ [Error.timeout, .concurrency, .unavailable, .repository],
    classify m = e m ∧ classify m' = e m'

/-- Whatever the case of its letters, a message is classified alike. -/
theorem classify_recased (h : lower m = lower m') : ClassifiedAlike m m' := by
  rw [ClassifiedAlike]
  have texts := recased_of_lower h
  have violations := violation?_recased texts
  rw [classify, classify]
  generalize violation? m = x at *
  generalize violation? m' = y at *
  cases violations with
  | @some x y same =>
    obtain ⟨k, name⟩ := x
    obtain ⟨k', name'⟩ := y
    obtain ⟨rfl, spans, rfl, rfl⟩ := same
    exact .inl ⟨k, spans, rfl, rfl⟩
  | none =>
    refine .inr ?_
    rw [occursIn_recased texts timeout_ignoresCase, occursIn_recased texts concurrency_ignoresCase,
      occursIn_recased texts unavailable_ignoresCase]
    cases timeoutPattern.occursIn m' with
    | true => exact ⟨.timeout, .head _, rfl, rfl⟩
    | false =>
      cases concurrencyPattern.occursIn m' with
      | true => exact ⟨.concurrency, .tail _ (.head _), rfl, rfl⟩
      | false =>
        cases unavailablePattern.occursIn m' with
        | true => exact ⟨.unavailable, .tail _ (.tail _ (.head _)), rfl, rfl⟩
        | false => exact ⟨.repository, .tail _ (.tail _ (.tail _ (.head _))), rfl, rfl⟩

theorem classify_recased_listed :
    lower "UNIQUE constraint failed: Users.Email" = lower "unique CONSTRAINT failed: USERS.email" ∧
    ClassifiedAlike "UNIQUE constraint failed: Users.Email"
      "unique CONSTRAINT failed: USERS.email" := by
  have same : lower "UNIQUE constraint failed: Users.Email"
      = lower "unique CONSTRAINT failed: USERS.email" := by decide +kernel
  exact ⟨same, classify_recased same⟩

end

end RecordQuery
