import RecordQuery.Text.Pattern

/-!
# ASCII letters

Lower case moves the ASCII capitals and nothing else (`toNat_toLower`). So two characters of one
lower case are the same or are both ASCII letters (`eq_or_isLetter`), which fold alike, belong to
words and are not blank.
-/

namespace RecordQuery.Text

theorem toNat_toLower (c : Char) :
    c.toLower.toNat = if 65 ≤ c.toNat ∧ c.toNat ≤ 90 then c.toNat + 32 else c.toNat := by
  have upper : (c.val ≥ 'A'.val ∧ c.val ≤ 'Z'.val) ↔ 65 ≤ c.toNat ∧ c.toNat ≤ 90 := Iff.rfl
  unfold Char.toLower
  split
  · next h =>
    have range := upper.mp h
    rw [if_pos range]
    have sum : (c.val + ('a'.val - 'A'.val)).toNat = (c.val.toNat + 32) % 2 ^ 32 :=
      UInt32.toNat_add ..
    refine sum.trans (Nat.mod_eq_of_lt ?_)
    rw [Char.toNat_val]
    omega
  · next h => rw [if_neg (mt upper.mpr h)]

theorem isAsciiWord_iff {c : Char} : isAsciiWord c = true ↔
    48 ≤ c.toNat ∧ c.toNat ≤ 57 ∨ 65 ≤ c.toNat ∧ c.toNat ≤ 90 ∨ c.toNat = 95 ∨
      97 ≤ c.toNat ∧ c.toNat ≤ 122 := by
  have between {m n : UInt32} : (decide (c.val ≥ m) && decide (c.val ≤ n)) = true ↔
      m.toNat ≤ c.toNat ∧ c.toNat ≤ n.toNat := by
    rw [Bool.and_eq_true, decide_eq_true_iff, decide_eq_true_iff]
    rfl
  have upper : c.isUpper = true ↔ 65 ≤ c.toNat ∧ c.toNat ≤ 90 := decide_eq_true_iff
  have lower : c.isLower = true ↔ 97 ≤ c.toNat ∧ c.toNat ≤ 122 := between
  have digit : c.isDigit = true ↔ 48 ≤ c.toNat ∧ c.toNat ≤ 57 := between
  have score : c = '_' ↔ c.toNat = 95 := by
    rw [← Char.toNat_inj]
    rfl
  change ((c.isUpper || c.isLower) || c.isDigit || c == '_') = true ↔ _
  simp only [Bool.or_eq_true, beq_iff_eq, upper, lower, digit, score]
  omega

theorem fold_of_ascii {c : Char} (h : c.toNat < 128) : fold c = c.toLower := by
  have kelvin : c ≠ '\u212A' := by
    rintro rfl
    exact absurd h (by decide)
  have long : c ≠ '\u017F' := by
    rintro rfl
    exact absurd h (by decide)
  rw [fold, if_neg kelvin, if_neg long]

theorem isAsciiWord_fold {c : Char} (h : isAsciiWord c = true) : isAsciiWord (fold c) = true := by
  rw [isAsciiWord_iff] at h
  rw [fold_of_ascii (by omega), isAsciiWord_iff, toNat_toLower]
  split <;> omega

theorem isWord_of_isAsciiWord {c : Char} (h : isAsciiWord c = true) : isWord c = true := by
  have range := isAsciiWord_iff.mp h
  rw [isWord_of_ascii (by omega), h]

theorem isWord_of_fold {c : Char} (h : isAsciiWord (fold c) = true) : isWord c = true := by
  by_cases ascii : c.toNat < 128
  · rw [fold_of_ascii ascii, isAsciiWord_iff, toNat_toLower] at h
    refine isWord_of_isAsciiWord (isAsciiWord_iff.mpr ?_)
    split at h <;> omega
  · -- past ASCII only the Kelvin sign and the long s fold to letters
    rw [fold] at h
    split at h
    · next kelvin => exact kelvin ▸ (by decide +kernel)
    · split at h
      · next long => exact long ▸ (by decide +kernel)
      · rw [isAsciiWord_iff, toNat_toLower] at h
        split at h <;> omega

theorem not_isBlank_of_isAsciiWord {c : Char} (h : isAsciiWord c = true) : isBlank c = false := by
  rw [isAsciiWord_iff] at h
  simp only [isBlank, Bool.or_eq_false_iff, Bool.and_eq_false_iff, beq_eq_false_iff_ne,
    decide_eq_false_iff_not]
  omega

/-! ## Letters -/

/-- An ASCII letter. -/
def IsLetter (c : Char) : Prop := 65 ≤ c.toNat ∧ c.toNat ≤ 90 ∨ 97 ≤ c.toNat ∧ c.toNat ≤ 122

instance : DecidablePred IsLetter := fun c =>
  inferInstanceAs (Decidable (65 ≤ c.toNat ∧ c.toNat ≤ 90 ∨ 97 ≤ c.toNat ∧ c.toNat ≤ 122))

theorem eq_or_isLetter {c d : Char} (h : c.toLower = d.toLower) :
    c = d ∨ IsLetter c ∧ IsLetter d := by
  have same : c.toLower.toNat = d.toLower.toNat := congrArg Char.toNat h
  rw [toNat_toLower, toNat_toLower] at same
  rw [← Char.toNat_inj, IsLetter, IsLetter]
  split at same <;> split at same <;> omega

namespace IsLetter

variable {c : Char}

theorem fold (h : IsLetter c) : fold c = c.toLower := fold_of_ascii (by unfold IsLetter at h; omega)

theorem isAsciiWord (h : IsLetter c) : isAsciiWord c = true :=
  isAsciiWord_iff.mpr (by unfold IsLetter at h; omega)

end IsLetter

end RecordQuery.Text
