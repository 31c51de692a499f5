import Mathlib.Data.List.Forall2
import RecordQuery.Proofs.Text.Casing

/-!
# Texts in other cases

Two texts are `Recased` if they differ in the case of ASCII letters only. Patterns that ignore case
run alike on them: at the same places they match or do not, and what they capture is the same span
of both (`run_recased`, by induction on the pattern). The parts between separators, and a text
without the blanks around it, are the same spans too.
-/

namespace RecordQuery.Text

/-! ## Characters -/

/-- The same character, or one letter in two cases. -/
def SameLetter (c d : Char) : Prop := c.toLower = d.toLower

namespace SameLetter

variable {c d : Char}

theorem isWord_eq (h : SameLetter c d) : isWord c = isWord d := by
  obtain rfl | ⟨hc, hd⟩ := eq_or_isLetter h
  · rfl
  · rw [isWord_of_isAsciiWord hc.isAsciiWord, isWord_of_isAsciiWord hd.isAsciiWord]

theorem isBlank_eq (h : SameLetter c d) : isBlank c = isBlank d := by
  obtain rfl | ⟨hc, hd⟩ := eq_or_isLetter h
  · rfl
  · rw [not_isBlank_of_isAsciiWord hc.isAsciiWord, not_isBlank_of_isAsciiWord hd.isAsciiWord]

theorem fold_eq (h : SameLetter c d) : fold c = fold d := by
  obtain rfl | ⟨hc, hd⟩ := eq_or_isLetter h
  · rfl
  · rw [hc.fold, hd.fold]
    exact h

/-- No other character is the same as one that is not a letter. -/
theorem eq_iff (h : SameLetter c d) {e : Char} (he : ¬IsLetter e) : c = e ↔ d = e := by
  obtain rfl | ⟨hc, hd⟩ := eq_or_isLetter h
  · rfl
  · exact iff_of_false (fun same => he (same ▸ hc)) fun same => he (same ▸ hd)

end SameLetter

/-- The class has letters in both cases or in none. -/
def CharClass.ignoresCase : CharClass → Bool
  | oneOf cs | noneOf cs => cs.all fun c => !decide (IsLetter c)
  | _ => true

theorem contains_eq_of_sameLetter {cs : List Char}
    (h : cs.all (fun c => !decide (IsLetter c)) = true) {c d : Char} (same : SameLetter c d) :
    cs.contains c = cs.contains d := by
  have other (e : Char) (mem : e ∈ cs) : ¬IsLetter e := by simpa using List.all_eq_true.mp h e mem
  obtain rfl | ⟨hc, hd⟩ := eq_or_isLetter same
  · rfl
  · have absent {e : Char} (he : IsLetter e) : cs.contains e = false := by
      simpa using fun mem => other e mem he
    rw [absent hc, absent hd]

theorem CharClass.mem_eq {k : CharClass} (h : k.ignoresCase = true) {c d : Char}
    (same : SameLetter c d) : k.mem c = k.mem d := by
  cases k with
  | letter e => rw [mem, mem, same.fold_eq]
  | blank => exact same.isBlank_eq
  | oneOf cs => exact contains_eq_of_sameLetter h same
  | noneOf cs => rw [mem, mem, contains_eq_of_sameLetter h same]

/-! ## Spans of two texts -/

/-- The two texts differ in the case of letters only. -/
abbrev Recased (a b : List Char) : Prop := List.Forall₂ SameLetter a b

theorem recased_of_lower {s t : String} (h : lower s = lower t) : Recased s.toList t.toList := by
  have same := congrArg String.toList h
  rw [lower, lower, String.toList_ofList, String.toList_ofList] at same
  rwa [← List.forall₂_eq_eq_eq, List.forall₂_map_left_iff, List.forall₂_map_right_iff] at same

/-- The same stretch of two texts. -/
def SameSpan (a b cs ds : List Char) : Prop :=
  ∃ i n, cs = (a.drop i).take n ∧ ds = (b.drop i).take n

namespace SameSpan

variable {a b cs ds : List Char}

theorem recased (h : Recased a b) (span : SameSpan a b cs ds) : Recased cs ds := by
  obtain ⟨i, n, rfl, rfl⟩ := span
  exact List.forall₂_take n (List.forall₂_drop i h)

theorem nil (a b : List Char) : SameSpan a b [] [] := ⟨0, 0, rfl, rfl⟩

theorem drop (h : Recased a b) (i : Nat) : SameSpan a b (a.drop i) (b.drop i) := by
  refine ⟨i, a.length, (List.take_of_length_le ?_).symm, (List.take_of_length_le ?_).symm⟩
  · simp
  · simp [h.length_eq]

theorem take (a b : List Char) (n : Nat) : SameSpan a b (a.take n) (b.take n) := ⟨0, n, rfl, rfl⟩

/-- A span of a span is a span. -/
theorem trans {es fs : List Char} (h : SameSpan a b cs ds) (h' : SameSpan cs ds es fs) :
    SameSpan a b es fs := by
  obtain ⟨i, n, rfl, rfl⟩ := h
  obtain ⟨j, l, rfl, rfl⟩ := h'
  refine ⟨i + j, min l (n - j), ?_, ?_⟩ <;> rw [List.drop_take, List.take_take, List.drop_drop]

end SameSpan

/-- The text without the blanks in front is the same span. -/
theorem sameSpan_trimStart {a b : List Char} (h : Recased a b) :
    ∃ i, trimStart a = a.drop i ∧ trimStart b = b.drop i := by
  induction h with
  | nil => exact ⟨0, rfl, rfl⟩
  | @cons c d a b same h ih =>
    rw [trimStart, trimStart, List.dropWhile_cons, List.dropWhile_cons, same.isBlank_eq]
    cases isBlank d with
    | false => exact ⟨0, rfl, rfl⟩
    | true =>
      obtain ⟨i, left, right⟩ := ih
      exact ⟨i + 1, left, right⟩

theorem sameSpan_trimChars {a b : List Char} (h : Recased a b) :
    SameSpan a b (trimChars a) (trimChars b) := by
  obtain ⟨i, left, right⟩ := sameSpan_trimStart h
  have rest : Recased (a.drop i) (b.drop i) := List.forall₂_drop i h
  obtain ⟨j, left', right'⟩ := sameSpan_trimStart (List.rel_reverse rest)
  refine (SameSpan.drop h i).trans ?_
  rw [trimChars, trimChars, left, right, left', right', List.drop_reverse, List.drop_reverse,
    List.reverse_reverse, List.reverse_reverse, rest.length_eq]
  exact SameSpan.take ..

/-- The parts between separators are the same spans, and the first is at the start. -/
theorem exists_splitOn {sep : Char} (hsep : ¬IsLetter sep) {a b : List Char} (h : Recased a b) :
    ∃ n parts parts', splitOn sep a = a.take n :: parts ∧ splitOn sep b = b.take n :: parts' ∧
      List.Forall₂ (SameSpan a b) parts parts' := by
  induction h with
  | nil => exact ⟨0, [], [], rfl, rfl, .nil⟩
  | @cons c d a b same h ih =>
    obtain ⟨n, parts, parts', left, right, spans⟩ := ih
    have further : SameSpan (c :: a) (d :: b) a b := SameSpan.drop (.cons same h) 1
    have shifted := spans.imp fun _ _ span => further.trans span
    rw [splitOn, splitOn, left, right]
    by_cases stop : c = sep
    · rw [if_pos stop, if_pos ((same.eq_iff hsep).mp stop)]
      exact ⟨0, _, _, rfl, rfl, .cons (further.trans (SameSpan.take ..)) shifted⟩
    · rw [if_neg stop, if_neg (mt (same.eq_iff hsep).mpr stop)]
      exact ⟨n + 1, parts, parts', rfl, rfl, shifted⟩

theorem sameSpan_splitOn {sep : Char} (hsep : ¬IsLetter sep) {a b : List Char} (h : Recased a b) :
    List.Forall₂ (SameSpan a b) (splitOn sep a) (splitOn sep b) := by
  obtain ⟨n, parts, parts', left, right, spans⟩ := exists_splitOn hsep h
  rw [left, right]
  exact .cons (SameSpan.take ..) spans

/-! ## Runs -/

namespace Pattern

/-- The pattern has letters in both cases or in none. -/
def ignoresCase : Pattern → Bool
  | one k | greedy k | lazy k => k.ignoresCase
  | seq p q | alt p q => p.ignoresCase && q.ignoresCase
  | opt p | capture p => p.ignoresCase
  | empty | boundary => true

/-- The same place in two texts. -/
structure SamePlace (a b : List Char) (here there : Place) : Prop where
  before : here.before.any isWord = there.before.any isWord
  rest : ∃ i, here.rest = a.drop i ∧ there.rest = b.drop i

/-- Nothing, or the same span of both texts. -/
abbrev SameCapture (a b : List Char) : Option (List Char) → Option (List Char) → Prop :=
  Option.Rel (SameSpan a b)

/-- Both match and capture alike, or neither does. -/
abbrev SameMatch (a b : List Char) :
    Option (Option (List Char)) → Option (Option (List Char)) → Prop :=
  Option.Rel (SameCapture a b)

/-- What is done at the same places comes out alike. -/
def SameNext (a b : List Char) (next next' : Next) : Prop :=
  ∀ {here there : Place} {got got' : Option (List Char)}, SamePlace a b here there →
    SameCapture a b got got' → SameMatch a b (next here got) (next' there got')

theorem orElse_rel {R : α → β → Prop} {x y : Option α} {x' y' : Option β} (h : Option.Rel R x x')
    (h' : Option.Rel R y y') : Option.Rel R (x.orElse fun _ => y) (x'.orElse fun _ => y') := by
  cases h with
  | some related => exact .some related
  | none => exact h'

variable {a b : List Char}

namespace SamePlace

theorem start (a b : List Char) : SamePlace a b (.start a) (.start b) := ⟨rfl, 0, rfl, rfl⟩

/-- One text ends where the other does, and else both go on with the same letter. -/
theorem step (h : Recased a b) {before before' : Option Char} {cs ds : List Char}
    (place : SamePlace a b ⟨before, cs⟩ ⟨before', ds⟩) : cs = [] ∧ ds = [] ∨
      ∃ c cs' d ds', cs = c :: cs' ∧ ds = d :: ds' ∧ SameLetter c d ∧
        SamePlace a b ⟨some c, cs'⟩ ⟨some d, ds'⟩ := by
  obtain ⟨-, i, left, right⟩ := place
  dsimp only at left right
  have rest := List.forall₂_drop i h
  rw [← left, ← right] at rest
  cases rest with
  | nil => exact .inl ⟨rfl, rfl⟩
  | @cons c d cs ds same rest =>
    refine .inr ⟨c, cs, d, ds, rfl, rfl, same, same.isWord_eq, i + 1, ?_, ?_⟩
    · rw [← List.drop_drop, ← left]
      rfl
    · rw [← List.drop_drop, ← right]
      rfl

/-- Two texts are gone through together, letter by letter to their ends. -/
@[elab_as_elim]
theorem walk (h : Recased a b)
    {motive : Option Char → List Char → Option Char → List Char → Prop}
    (ends : ∀ before before', SamePlace a b ⟨before, []⟩ ⟨before', []⟩ →
      motive before [] before' [])
    (goes : ∀ before c cs before' d ds, SamePlace a b ⟨before, c :: cs⟩ ⟨before', d :: ds⟩ →
      SameLetter c d → motive (some c) cs (some d) ds → motive before (c :: cs) before' (d :: ds))
    {before before' : Option Char} {cs ds : List Char}
    (place : SamePlace a b ⟨before, cs⟩ ⟨before', ds⟩) : motive before cs before' ds := by
  induction cs generalizing before before' ds with
  | nil =>
    obtain ⟨-, rfl⟩ | ⟨_, _, _, _, impossible, -⟩ := place.step h
    · exact ends before before' place
    · cases impossible
  | cons c cs ih =>
    obtain ⟨impossible, -⟩ | ⟨_, _, d, ds, ⟨rfl, rfl⟩, rfl, same, after⟩ := place.step h
    · cases impossible
    · exact goes before c cs before' d ds place same (ih after)

theorem atBoundary_eq (h : Recased a b) {here there : Place} (place : SamePlace a b here there) :
    here.atBoundary = there.atBoundary := by
  obtain ⟨before, cs⟩ := here
  obtain ⟨before', ds⟩ := there
  rw [Place.atBoundary, Place.atBoundary, place.before]
  obtain ⟨rfl, rfl⟩ | ⟨c, cs, d, ds, rfl, rfl, same, -⟩ := place.step h
  · rfl
  · rw [List.head?_cons, List.head?_cons, Option.any_some, Option.any_some, same.isWord_eq]

end SamePlace

variable {next next' : Next} {got got' : Option (List Char)}

theorem runGreedy_recased (h : Recased a b) {k : CharClass} (hk : k.ignoresCase = true)
    (further : SameNext a b next next') (caught : SameCapture a b got got')
    {before before' : Option Char} {cs ds : List Char}
    (place : SamePlace a b ⟨before, cs⟩ ⟨before', ds⟩) :
    SameMatch a b (runGreedy k got next before cs) (runGreedy k got' next' before' ds) := by
  refine place.walk h ?_ ?_
  · exact fun _ _ place => further place caught
  · intro _ c _ _ d _ place same ih
    rw [runGreedy, runGreedy, k.mem_eq hk same]
    cases k.mem d with
    | false => exact further place caught
    | true => exact orElse_rel ih (further place caught)

theorem runLazy_recased (h : Recased a b) {k : CharClass} (hk : k.ignoresCase = true)
    (further : SameNext a b next next') (caught : SameCapture a b got got')
    {before before' : Option Char} {cs ds : List Char}
    (place : SamePlace a b ⟨before, cs⟩ ⟨before', ds⟩) :
    SameMatch a b (runLazy k got next before cs) (runLazy k got' next' before' ds) := by
  refine place.walk h ?_ ?_
  · exact fun _ _ place => further place caught
  · intro _ c _ _ d _ place same ih
    rw [runLazy, runLazy, k.mem_eq hk same]
    refine orElse_rel (further place caught) ?_
    cases k.mem d with
    | false => exact .none
    | true => exact ih

/-- What is captured between two places is the same span of both texts. -/
theorem sameSpan_between (h : Recased a b) {here here' there there' : Place}
    (first : SamePlace a b here here') (last : SamePlace a b there there') :
    SameSpan a b (here.rest.take (here.rest.length - there.rest.length))
      (here'.rest.take (here'.rest.length - there'.rest.length)) := by
  obtain ⟨i, left, right⟩ := first.rest
  obtain ⟨j, left', right'⟩ := last.rest
  refine ⟨i, (a.length - i) - (a.length - j), ?_, ?_⟩
  · rw [left, left', List.length_drop, List.length_drop]
  · rw [right, right', List.length_drop, List.length_drop, h.length_eq]

/-- A pattern that ignores case runs alike from the same place of two texts. -/
theorem run_recased (h : Recased a b) {p : Pattern} (hp : p.ignoresCase = true)
    {here there : Place} (place : SamePlace a b here there) (caught : SameCapture a b got got')
    (further : SameNext a b next next') :
    SameMatch a b (p.run here got next) (p.run there got' next') := by
  induction p generalizing here there got got' next next' with
  | empty => exact further place caught
  | one k =>
    obtain ⟨before, cs⟩ := here
    obtain ⟨before', ds⟩ := there
    obtain ⟨rfl, rfl⟩ | ⟨c, cs, d, ds, rfl, rfl, same, after⟩ := place.step h
    · exact .none
    · simp only [run, k.mem_eq hp same]
      cases k.mem d with
      | false => exact .none
      | true => exact further after caught
  | boundary =>
    rw [run, run, place.atBoundary_eq h]
    cases there.atBoundary with
    | false => exact .none
    | true => exact further place caught
  | seq p q ihp ihq =>
    rw [ignoresCase, Bool.and_eq_true] at hp
    exact ihp hp.1 place caught fun place caught => ihq hp.2 place caught further
  | alt p q ihp ihq =>
    rw [ignoresCase, Bool.and_eq_true] at hp
    exact orElse_rel (ihp hp.1 place caught further) (ihq hp.2 place caught further)
  | opt p ih => exact orElse_rel (ih hp place caught further) (further place caught)
  | greedy k => exact runGreedy_recased h hp further caught place
  | lazy k => exact runLazy_recased h hp further caught place
  | capture p ih =>
    exact ih hp place caught fun last _ =>
      further last (.some (sameSpan_between h place last))

theorem search_recased (h : Recased a b) {p : Pattern} (hp : p.ignoresCase = true)
    {before before' : Option Char} {cs ds : List Char}
    (place : SamePlace a b ⟨before, cs⟩ ⟨before', ds⟩) :
    SameMatch a b (p.search before cs) (p.search before' ds) := by
  have matched {here there : Place} (place : SamePlace a b here there) :
      SameMatch a b (p.match? here) (p.match? there) :=
    run_recased h hp place .none fun _ caught => .some caught
  refine place.walk h ?_ ?_
  · exact fun _ _ place => matched place
  · exact fun _ _ _ _ _ _ place _ ih => orElse_rel (matched place) ih

end Pattern

end RecordQuery.Text
