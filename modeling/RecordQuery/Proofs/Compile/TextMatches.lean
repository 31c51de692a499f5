import Mathlib.Data.List.Infix
import RecordQuery.Compile.Lowering
import RecordQuery.Proofs.Text.Casing
import RecordQuery.Search

/-!
# Text matches and their patterns

A text match of a constant binds a pattern for LIKE, in which `%` is any run of characters and `_`
any one character. A text in which the constant is found matches the pattern, whatever the constant
is. Only such texts match it exactly if the constant has neither of these two characters
(`text_matches_literal_iff`): they are wildcards of the pattern as well.
-/

namespace RecordQuery

open Sql

/-! ## Patterns -/

/-- A character that stands for others in a pattern. -/
def IsWildcard (c : Char) : Prop := c = '%' ∨ c = '_'

instance : DecidablePred IsWildcard := fun c => inferInstanceAs (Decidable (c = '%' ∨ c = '_'))

/-- A comparison of characters by what they fold to. No other character folds to what a wildcard
does. -/
structure Collation where
  fold : Char → Char
  apart : ∀ c d, fold c = fold d → IsWildcard c → c = d

namespace Collation

/-- Characters are compared as they are. -/
def exact : Collation := ⟨id, fun _ _ same _ => same⟩

/-- ASCII letters are compared regardless of case. -/
def ignoringCase : Collation where
  fold := Char.toLower
  apart c d same wild := by
    obtain rfl | ⟨letter, -⟩ := Text.eq_or_isLetter same
    · rfl
    · obtain rfl | rfl := wild
      · exact absurd letter (by decide)
      · exact absurd letter (by decide)

variable (k : Collation)

/-- A text matches a pattern: `%` stands for any run of characters, `_` for any one. -/
def likes : List Char → List Char → Bool
  | [], s => s.isEmpty
  | c :: p, s =>
    if c = '%' then s.tails.any (likes p)
    else match s with
      | [] => false
      | d :: s => (c == '_' || k.fold c == k.fold d) && likes p s

variable {k : Collation} {p s v t : List Char} {c : Char}

theorem likes_nil : k.likes [] s = true ↔ s = [] := List.isEmpty_iff

theorem likes_percent :
    k.likes ('%' :: p) s = true ↔ ∃ skipped rest, s = skipped ++ rest ∧ k.likes p rest = true := by
  have run : k.likes ('%' :: p) s = s.tails.any (k.likes p) := if_pos rfl
  rw [run, List.any_eq_true]
  constructor
  · rintro ⟨rest, suffix, h⟩
    obtain ⟨skipped, same⟩ := (List.mem_tails _ _).mp suffix
    exact ⟨skipped, rest, same.symm, h⟩
  · rintro ⟨skipped, rest, rfl, h⟩
    exact ⟨rest, (List.mem_tails _ _).mpr (List.suffix_append skipped rest), h⟩

theorem likes_cons (hc : c ≠ '%') : k.likes (c :: p) s = true ↔
    ∃ d rest, s = d :: rest ∧ (c = '_' ∨ k.fold c = k.fold d) ∧ k.likes p rest = true := by
  cases s with
  | nil =>
    have none : k.likes (c :: p) [] = false := if_neg hc
    rw [none]
    exact iff_of_false nofun nofun
  | cons d rest =>
    have one : k.likes (c :: p) (d :: rest)
        = ((c == '_' || k.fold c == k.fold d) && k.likes p rest) := if_neg hc
    rw [one, Bool.and_eq_true, Bool.or_eq_true, beq_iff_eq, beq_iff_eq]
    constructor
    · exact fun h => ⟨d, rest, rfl, h⟩
    · rintro ⟨_, _, same, h⟩
      cases same
      exact h

theorem likes_any (s : List Char) : k.likes ['%'] s = true :=
  likes_percent.mpr ⟨s, [], (List.append_nil s).symm, rfl⟩

/-- A text matches two patterns one after the other if it can be cut between them. -/
theorem likes_append : k.likes (v ++ p) s = true ↔
    ∃ t u, s = t ++ u ∧ k.likes v t = true ∧ k.likes p u = true := by
  induction v generalizing s with
  | nil =>
    constructor
    · exact fun h => ⟨[], s, rfl, rfl, h⟩
    · rintro ⟨t, u, rfl, empty, h⟩
      rwa [likes_nil.mp empty]
  | cons c v ih =>
    by_cases hc : c = '%'
    · subst hc
      simp only [List.cons_append, likes_percent, ih]
      constructor
      · rintro ⟨skipped, _, rfl, t, u, rfl, ht, hu⟩
        exact ⟨skipped ++ t, u, (List.append_assoc ..).symm, ⟨skipped, t, rfl, ht⟩, hu⟩
      · rintro ⟨_, u, rfl, ⟨skipped, t, rfl, ht⟩, hu⟩
        exact ⟨skipped, t ++ u, List.append_assoc .., t, u, rfl, ht, hu⟩
    · simp only [List.cons_append, likes_cons hc, ih]
      constructor
      · rintro ⟨d, _, rfl, fits, t, u, rfl, ht, hu⟩
        exact ⟨d :: t, u, rfl, ⟨d, t, rfl, fits, ht⟩, hu⟩
      · rintro ⟨_, u, rfl, ⟨d, t, rfl, fits, ht⟩, hu⟩
        exact ⟨d, t ++ u, rfl, fits, t, u, rfl, ht, hu⟩

/-! ## Literal texts -/

/-- A text matches itself as a pattern, also with wildcards, which stand for themselves too. -/
theorem likes_of_same (h : t.map k.fold = v.map k.fold) : k.likes v t = true := by
  induction v generalizing t with
  | nil => exact likes_nil.mpr (List.map_eq_nil_iff.mp h)
  | cons c v ih =>
    obtain ⟨d, t, rfl, same, rest⟩ := List.map_eq_cons_iff.mp h
    by_cases hc : c = '%'
    · subst hc
      exact likes_percent.mpr ⟨[d], t, rfl, ih rest⟩
    · exact (likes_cons hc).mpr ⟨d, t, rfl, .inr same.symm, ih rest⟩

/-- A pattern without wildcards is matched by the same text only. -/
theorem same_of_likes (hv : ∀ c ∈ v, ¬IsWildcard c) (h : k.likes v t = true) :
    t.map k.fold = v.map k.fold := by
  induction v generalizing t with
  | nil => rw [likes_nil.mp h]
  | cons c v ih =>
    have plain : ¬IsWildcard c := hv c List.mem_cons_self
    obtain ⟨d, t, rfl, fits, rest⟩ := (likes_cons fun hc => plain (.inl hc)).mp h
    have same := fits.resolve_left fun hc => plain (.inr hc)
    rw [List.map_cons, List.map_cons, same, ih (fun c hc => hv c (List.mem_cons_of_mem _ hc)) rest]

end Collation

/-- The text without its wildcards: nothing for a run of characters, a letter for a single one. -/
def withoutWildcards (v : List Char) : List Char :=
  v.flatMap fun c => if c = '%' then [] else if c = '_' then ['a'] else [c]

theorem not_isWildcard_of_mem {v : List Char} {c : Char} (h : c ∈ withoutWildcards v) :
    ¬IsWildcard c := by
  obtain ⟨d, -, mem⟩ := List.mem_flatMap.mp h
  split at mem
  · cases mem
  · next percent =>
    split at mem
    · rw [List.mem_singleton.mp mem]
      decide
    · next score =>
      rw [List.mem_singleton.mp mem]
      exact fun wild => wild.elim percent score

theorem Collation.likes_withoutWildcards (k : Collation) (v : List Char) :
    k.likes v (withoutWildcards v) = true := by
  induction v with
  | nil => rfl
  | cons c v ih =>
    rw [withoutWildcards, List.flatMap_cons]
    split
    · next percent =>
      subst percent
      exact likes_percent.mpr ⟨[], _, rfl, ih⟩
    · next percent =>
      refine (likes_cons percent).mpr ?_
      split
      · next score => exact ⟨'a', _, rfl, .inl score, ih⟩
      · exact ⟨c, _, rfl, .inr rfl, ih⟩

/-! ## Text matches -/

/-- A part of a text at the place that a text match is for. -/
def TextMatch.Part : TextMatch → List Char → List Char → Prop
  | .contains, t, s => t <:+: s
  | .startsWith, t, s => t <+: s
  | .endsWith, t, s => t <:+ s

/-- A text contains another one, starts or ends with it. -/
def TextMatch.Holds (m : TextMatch) (k : Collation) (v s : String) : Prop :=
  ∃ t, m.Part t s.toList ∧ t.map k.fold = v.toList.map k.fold

def Collation.matches (k : Collation) (pattern s : String) : Bool :=
  k.likes pattern.toList s.toList

section

variable {k : Collation} {m : TextMatch} {v s : String}

theorem matches_likePattern :
    k.matches (likePattern m v) s = true ↔ ∃ t, m.Part t s.toList ∧ k.likes v.toList t = true := by
  cases m with
  | contains =>
    have chars : (likePattern .contains v).toList = '%' :: (v.toList ++ ['%']) := by
      simp [likePattern]
    rw [Collation.matches, chars, Collation.likes_percent]
    simp only [Collation.likes_append, Collation.likes_any, and_true]
    constructor
    · rintro ⟨before, _, cut, t, after, rfl, h⟩
      exact ⟨t, ⟨before, after, by rw [cut, List.append_assoc]⟩, h⟩
    · rintro ⟨t, ⟨before, after, cut⟩, h⟩
      exact ⟨before, t ++ after, by rw [← cut, List.append_assoc], t, after, rfl, h⟩
  | startsWith =>
    have chars : (likePattern .startsWith v).toList = v.toList ++ ['%'] := by
      simp [likePattern]
    rw [Collation.matches, chars, Collation.likes_append]
    simp only [Collation.likes_any, and_true]
    constructor
    · rintro ⟨t, after, cut, h⟩
      exact ⟨t, ⟨after, cut.symm⟩, h⟩
    · rintro ⟨t, ⟨after, cut⟩, h⟩
      exact ⟨t, after, cut.symm, h⟩
  | endsWith =>
    have chars : (likePattern .endsWith v).toList = '%' :: v.toList := by
      simp [likePattern]
    rw [Collation.matches, chars, Collation.likes_percent]
    constructor
    · rintro ⟨before, t, cut, h⟩
      exact ⟨t, ⟨before, cut.symm⟩, h⟩
    · rintro ⟨t, ⟨before, cut⟩, h⟩
      exact ⟨before, t, cut.symm, h⟩

theorem matches_of_holds (h : m.Holds k v s) : k.matches (likePattern m v) s = true := by
  obtain ⟨t, part, same⟩ := h
  exact matches_likePattern.mpr ⟨t, part, Collation.likes_of_same same⟩

/-- The pattern is matched by no other texts exactly if the text has no wildcards. -/
theorem matches_iff_holds_iff :
    (∀ s, k.matches (likePattern m v) s = true ↔ m.Holds k v s) ↔
      ∀ c ∈ v.toList, ¬IsWildcard c := by
  constructor
  · intro literal c hc wild
    -- without its wildcards the text matches the pattern, and has no wildcard to find
    have whole : m.Part (withoutWildcards v.toList)
        (String.ofList (withoutWildcards v.toList)).toList := by
      rw [String.toList_ofList]
      cases m with
      | contains => exact List.infix_rfl
      | startsWith => exact List.prefix_rfl
      | endsWith => exact List.suffix_rfl
    obtain ⟨t, part, same⟩ :=
      (literal _).mp (matches_likePattern.mpr ⟨_, whole, k.likes_withoutWildcards _⟩)
    rw [String.toList_ofList] at part
    obtain ⟨d, hd, folded⟩ := List.mem_map.mp (same ▸ List.mem_map_of_mem hc)
    have mem : d ∈ withoutWildcards v.toList := by
      cases m with
      | contains => exact part.subset hd
      | startsWith => exact part.subset hd
      | endsWith => exact part.subset hd
    exact not_isWildcard_of_mem mem (k.apart c d folded.symm wild ▸ wild)
  · refine fun plain s => ⟨fun h => ?_, matches_of_holds⟩
    obtain ⟨t, part, h⟩ := matches_likePattern.mp h
    exact ⟨t, part, Collation.same_of_likes plain h⟩

end

namespace Expr

variable {s : Scope} {target : Expr} {n : Nat} {us : List Value} {t : Term}

theorem run_textMatch (m : TextMatch) (v : String)
    (h : (target.toOperand s).run n = (us, .ok t)) :
    ((callWith (.text m) target (.constant (.text v))).toCondition s).run n
      = (us ++ [.text (likePattern m v)], .ok (.like t (n + us.length))) := by
  change (target.toOperand s >>= fun t => do
    let pattern ← Lowering.push (.text (likePattern m v))
    return Condition.like t pattern).run n = _
  rw [Lowering.run_bind_of_ok h]
  rfl

end Expr

/-- The filter operator of a text match. -/
def FilterOperator.ofTextMatch : TextMatch → FilterOperator
  | .contains => .contains
  | .startsWith => .startsWith
  | .endsWith => .endsWith

theorem Filter.toExpr_ofTextMatch (m : TextMatch) (field : String) (v : Value) :
    Filter.toExpr ⟨field, .ofTextMatch m, v⟩
      = .callWith (.text m) (.named field) (.constant v) := by
  cases m <;> rfl

/-- A text match of a value, which a filter for it states of a field, compares the value with one
pattern bound for it. A text that has the constant at the place matched matches the pattern; no
other text does exactly if the constant has no wildcards. -/
theorem text_matches_literal_iff {s : Scope} {target : Expr} {n : Nat} {us : List Value} {t : Term}
    (h : (target.toOperand s).run n = (us, .ok t)) (m : TextMatch) (v : String) :
    (∀ field, Filter.toExpr ⟨field, .ofTextMatch m, .text v⟩
      = .callWith (.text m) (.named field) (.constant (.text v))) ∧
    ∃ pattern : String,
      ((Expr.callWith (.text m) target (.constant (.text v))).toCondition s).run n
        = (us ++ [.text pattern], .ok (.like t (n + us.length))) ∧
      ∀ k : Collation,
        (∀ x, m.Holds k v x → k.matches pattern x = true) ∧
        ((∀ x, k.matches pattern x = true ↔ m.Holds k v x) ↔ ∀ c ∈ v.toList, ¬IsWildcard c) :=
  ⟨fun field => Filter.toExpr_ofTextMatch m field _, likePattern m v, Expr.run_textMatch m v h,
    fun _ => ⟨fun _ => matches_of_holds, matches_iff_holds_iff⟩⟩

/-- The trips, which have names. -/
def namedTrips : Scope :=
  ⟨[⟨"Trip", "t0", { table := "Trips", columns := [⟨"id", "Id"⟩, ⟨"name", "Name"⟩] }⟩], 1⟩

/-- The names that match the pattern bound for "Night" at their end are those that end with it, in
any letter case. -/
theorem text_matches_literal_iff_night :
    ((Expr.named "name").toOperand namedTrips).run 0 = ([], .ok (.column "t0" "Name")) ∧
    ∃ pattern : String,
      ((Filter.toExpr ⟨"name", .endsWith, .text "Night"⟩).toCondition namedTrips).run 0
        = ([.text pattern], .ok (.like (.column "t0" "Name") 0)) ∧
      ∀ x, Collation.ignoringCase.matches pattern x = true
        ↔ TextMatch.endsWith.Holds .ignoringCase "Night" x := by
  have name : ((Expr.named "name").toOperand namedTrips).run 0
      = ([], .ok (.column "t0" "Name")) := rfl
  have plain : ∀ c ∈ "Night".toList, ¬IsWildcard c := by
    have letters : "Night".toList = ['N', 'i', 'g', 'h', 't'] := by decide
    rw [letters]
    simp [IsWildcard]
  obtain ⟨stated, pattern, bound, literal⟩ := text_matches_literal_iff name .endsWith "Night"
  have filter := stated "name"
  rw [FilterOperator.ofTextMatch] at filter
  exact ⟨name, pattern, filter ▸ bound, (literal .ignoringCase).2.mpr plain⟩

/-- A trip of the name "500 miles" is among those that a filter for "50%" finds, though its name
does not contain this. -/
theorem percent_sign_not_literal :
    ((Filter.toExpr ⟨"name", .contains, .text "50%"⟩).toCondition namedTrips).run 0
      = ([.text "%50%%"], .ok (.like (.column "t0" "Name") 0)) ∧
    Collation.exact.matches "%50%%" "500 miles" = true ∧
    ¬TextMatch.contains.Holds .exact "50%" "500 miles" := by
  refine ⟨by decide, by decide, ?_⟩
  rintro ⟨t, part, same⟩
  rw [Collation.exact, List.map_id, List.map_id] at same
  rw [same] at part
  have found : "50%".toList <:+: "500 miles".toList := part
  exact absurd found (by decide)

end RecordQuery
