import RecordQuery.Proofs.Value.Readings
import RecordQuery.Proofs.Value.Storage

/-!
# Variants and their codes

A column value is read as the variant whose code it equals, as an integer or as a text
(`codes_identify_variants`). The first variant that fits is the only one, since no value equals two
codes, and the storage changes the width of an integer but not its number.
-/

namespace RecordQuery

open Sqlite

namespace Value

/-- The integer that a value of an integer type is. -/
def integer? : Value → Option Int
  | int n => some n.toInt
  | long n => some n.toInt
  | _ => none

/-- An integer or a text. -/
def IsCode (c : Value) : Prop := (∃ n, c.integer? = some n) ∨ ∃ s, c = text s

/-- The value is the integer that the code is, in any spelling, or the text that the code is. -/
def EqualsCode (v c : Value) : Prop :=
  (∃ n, c.integer? = some n ∧ v.number? = some (n : ℚ)) ∨ ∃ s, c = text s ∧ v = text s

variable {v c : Value} {n : Int} {s : String}

theorem equalsCode_integer_iff (h : c.integer? = some n) :
    v.EqualsCode c ↔ v.number? = some (n : ℚ) := by
  constructor
  · rintro (⟨m, hm, value⟩ | ⟨s, rfl, -⟩)
    · rwa [← Option.some.inj (hm.symm.trans h)]
    · cases h
  · exact fun value => .inl ⟨n, h, value⟩

theorem equalsCode_text_iff : v.EqualsCode (text s) ↔ v = text s := by
  constructor
  · rintro (⟨n, absent, -⟩ | ⟨s', same, rfl⟩)
    · cases absent
    · exact same.symm
  · exact fun same => .inr ⟨s, rfl, same⟩

/-- An integer of either width is kept as one of 64 bits. -/
theorem exists_long_of_integer (h : c.integer? = some n) : ∃ k : Int64, k.toInt = n ∧
    c.long? = some k ∧ kept c = .long k ∧ (Stored.ofValue c).toValue = .long k := by
  cases c with
  | int k =>
    obtain rfl := Option.some.inj h
    exact ⟨k.toInt64, k.toInt_toInt64, rfl, rfl, rfl⟩
  | long k =>
    obtain rfl := Option.some.inj h
    exact ⟨k, rfl, rfl, rfl, rfl⟩
  | _ => cases h

theorem matchesCode_iff (h : c.IsCode) : v.matchesCode c = true ↔ v.EqualsCode c := by
  obtain ⟨n, hn⟩ | ⟨s, rfl⟩ := h
  · obtain ⟨k, rfl, read, -⟩ := exists_long_of_integer hn
    have other : v.matchesCode c = (c.long?.isSome && v.long? == c.long?) := by
      cases c with
      | text s => cases hn
      | _ => rfl
    rw [other, read, Option.isSome_some, Bool.true_and, beq_iff_eq, long?_eq_some_iff,
      equalsCode_integer_iff hn]
  · rw [equalsCode_text_iff]
    cases v <;> simp [matchesCode, text?]

/-- A code equals itself, also after the storage has kept it. -/
theorem IsCode.equalsCode (h : c.IsCode) : c.EqualsCode c ∧
    (Stored.ofValue c).toValue.EqualsCode c ∧ (kept c).EqualsCode c := by
  obtain ⟨n, hn⟩ | ⟨s, rfl⟩ := h
  · obtain ⟨k, rfl, read, kept, stored⟩ := exists_long_of_integer hn
    rw [kept, stored, equalsCode_integer_iff hn, equalsCode_integer_iff hn]
    exact ⟨long?_eq_some_iff.mp read, rfl, rfl⟩
  · have same : (text s).EqualsCode (text s) := equalsCode_text_iff.mpr rfl
    exact ⟨same, same, same⟩

theorem EqualsCode.ne_null (h : v.EqualsCode c) : v ≠ .null := by
  rintro rfl
  obtain ⟨n, -, value⟩ | ⟨s, -, same⟩ := h
  · cases value
  · cases same

end Value

/-! ## Enumerations -/

namespace Enumeration

variable {e : Enumeration} {v : Value} {i j : e.Index}

/-- All codes are integers, of either width, and no two are the same integer. -/
structure IntegerCodes (e : Enumeration) : Prop where
  integer : ∀ i, ∃ n, (e.code i).integer? = some n
  injective : ∀ i j, (e.code i).integer? = (e.code j).integer? → i = j

/-- All codes are texts, and no two are the same text. -/
structure TextCodes (e : Enumeration) : Prop where
  text : ∀ i, ∃ s, e.code i = .text s
  injective : ∀ i j, e.code i = e.code j → i = j

theorem isCode (h : e.IntegerCodes ∨ e.TextCodes) (i : e.Index) : (e.code i).IsCode :=
  h.imp (fun h => h.integer i) fun h => h.text i

/-- No value equals two codes. -/
theorem eq_of_equalsCode (h : e.IntegerCodes ∨ e.TextCodes) (hi : v.EqualsCode (e.code i))
    (hj : v.EqualsCode (e.code j)) : i = j := by
  obtain h | h := h
  · obtain ⟨n, hn⟩ := h.integer i
    obtain ⟨m, hm⟩ := h.integer j
    rw [Value.equalsCode_integer_iff hn] at hi
    rw [Value.equalsCode_integer_iff hm, hi, Option.some.injEq, Int.cast_inj] at hj
    exact h.injective i j (by rw [hn, hm, hj])
  · obtain ⟨s, hs⟩ := h.text i
    obtain ⟨t, ht⟩ := h.text j
    rw [hs, Value.equalsCode_text_iff] at hi
    rw [ht, Value.equalsCode_text_iff, hi] at hj
    exact h.injective i j (by rw [hs, ht, hj])

/-- The first variant that fits is any variant whose code the value equals. -/
theorem choiceOfValue_eq_ok_iff (h : e.IntegerCodes ∨ e.TextCodes) :
    Scalar.choiceOfValue e v = .ok i ↔ v.EqualsCode (e.code i) := by
  have fits (j : e.Index) := Value.matchesCode_iff (v := v) (isCode h j)
  unfold Scalar.choiceOfValue
  split
  · next j found =>
    have first : v.EqualsCode (e.code j) :=
      (fits j).mp (List.find?_some (p := fun i => v.matchesCode (e.code i)) found)
    rw [Except.ok.injEq]
    exact ⟨fun same => same ▸ first, eq_of_equalsCode h first⟩
  · next none =>
    refine iff_of_false nofun fun equal => ?_
    exact List.find?_eq_none.mp none i (List.mem_finRange i) ((fits i).mpr equal)

theorem choiceOfValue_of_none (h : e.IntegerCodes ∨ e.TextCodes)
    (none : ∀ i, ¬v.EqualsCode (e.code i)) : Scalar.choiceOfValue e v
      = .error (.mapping ("no " ++ e.name ++ " variant for code " ++ v.display)) := by
  have unfound : ((List.finRange e.variants.length).find? fun i => v.matchesCode (e.code i))
      = .none :=
    List.find?_eq_none.mpr fun i _ fits => none i ((Value.matchesCode_iff (isCode h i)).mp fits)
  rw [Scalar.choiceOfValue, unfound]

end Enumeration

open Enumeration Scalar in
/-- A variant is read from its code, as it is and after the storage has kept it, and from null the
first one; of any other value the variant whose code the value equals, and no variant if there is
none. -/
theorem codes_identify_variants {e : Enumeration} (h : e.IntegerCodes ∨ e.TextCodes) :
    (∀ i, ofValue (.choice e) (toValue (.choice e) i) = .ok i ∧
      ofValue (.choice e) (Stored.ofValue (toValue (.choice e) i)).toValue = .ok i ∧
      ofValue (.choice e) (kept (toValue (.choice e) i)) = .ok i) ∧
    ofValue (.choice e) .null = .ok (⟨0, Nat.succ_pos _⟩ : Fin e.variants.length) ∧
    ∀ v, v ≠ .null →
      (∀ i, ofValue (.choice e) v = .ok i ↔ v.EqualsCode (e.code i)) ∧
      ((∀ i, ¬v.EqualsCode (e.code i)) → ofValue (.choice e) v
        = .error (.error (.mapping ("no " ++ e.name ++ " variant for code " ++ v.display)))) := by
  have read {v : Value} {i : e.Index} (equal : v.EqualsCode (e.code i)) :
      ofValue (.choice e) v = .ok i := by
    rw [ofValue_of_present (Value.isNull_eq_false equal.ne_null)]
    exact reported_eq_ok_iff.mpr ((choiceOfValue_eq_ok_iff h).mpr equal)
  refine ⟨fun i => ?_, rfl, fun v hv => ?_⟩
  · obtain ⟨direct, stored, kept⟩ := (isCode h i).equalsCode
    exact ⟨read direct, read stored, read kept⟩
  · rw [ofValue_of_present (Value.isNull_eq_false hv)]
    exact ⟨fun i => reported_eq_ok_iff.trans (choiceOfValue_eq_ok_iff h),
      fun none => reported_eq_error_iff.mpr (choiceOfValue_of_none h none)⟩

/-- Integers of both widths, some of them past 32 bits. -/
def bands : Enumeration where
  name := "Band"
  first := ("Low", .long (-5000000000))
  others := [("Middle", .int 1), ("High", .long 9000000000)]

def middleBand : bands.Index := ⟨1, by decide⟩

/-- Texts, of which one is empty. -/
def currencies : Enumeration where
  name := "Currency"
  first := ("Euro", .text "EUR")
  others := [("Dollar", .text "USD"), ("None", .text "")]

open Scalar in
theorem codes_identify_variants_bands :
    bands.IntegerCodes ∧
      ofValue (.choice bands) (kept (toValue (.choice bands) middleBand)) = .ok middleBand ∧
      (Value.text "+1" ≠ .null ∧ ofValue (.choice bands) (.text "+1") = .ok middleBand) ∧
    currencies.TextCodes ∧
      (Value.int 1 ≠ .null ∧ ofValue (.choice currencies) (.int 1)
        = .error (.error (.mapping "no Currency variant for code 1"))) := by
  have integers : bands.IntegerCodes := by
    refine ⟨fun i => Option.isSome_iff_exists.mp ?_, by decide +kernel⟩
    revert i
    decide +kernel
  have texts : currencies.TextCodes := by
    refine ⟨fun i => ?_, by decide +kernel⟩
    match i with
    | ⟨0, _⟩ => exact ⟨_, rfl⟩
    | ⟨1, _⟩ => exact ⟨_, rfl⟩
    | ⟨2, _⟩ => exact ⟨_, rfl⟩
  have spelled : (Value.text "+1").EqualsCode (bands.code middleBand) := by
    have one : Number.readInt? "+1".toList = some 1 := by decide
    refine .inl ⟨1, rfl, ?_⟩
    rw [Value.number?, one]
    rfl
  have other (i : currencies.Index) : ¬(Value.int 1).EqualsCode (currencies.code i) := by
    obtain ⟨s, hs⟩ := texts.text i
    rw [hs, Value.equalsCode_text_iff]
    intro same
    cases same
  have spelled_ne : Value.text "+1" ≠ .null := by decide
  have one_ne : Value.int 1 ≠ .null := by decide
  obtain ⟨back, -, present⟩ := codes_identify_variants (.inl integers)
  obtain ⟨-, -, present'⟩ := codes_identify_variants (.inr texts)
  exact ⟨integers, (back middleBand).2.2,
    ⟨spelled_ne, ((present _ spelled_ne).1 middleBand).mpr spelled⟩, texts,
    one_ne, (present' _ one_ne).2 other⟩

end RecordQuery
