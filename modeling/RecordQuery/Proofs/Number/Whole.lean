import RecordQuery.Number.Whole
import RecordQuery.Proofs.Number.Binary

/-!
# Numbers that are integers

`Datum.value?` is the number that bits denote. Differences and orders are those of the numbers
(`Datum.value?_sub`, `Datum.order?_eq`), and what a number has after its point needs no rounding
(`Double.value?_fract`). So a 64-bit integer is found exactly if the number is that integer
(`Double.whole?_eq_some_iff`): the greatest integer is rounded to `2 ^ 63`, and every number below
that is an integer below it or none.
-/

namespace RecordQuery.Number

/-! ## Values -/

namespace Datum

/-- The number that is denoted, if it is finite. -/
def value? : Datum → Option ℚ
  | finite negative m e => some (withMinus negative m * 2 ^ e)
  | _ => none

variable {v w : Datum} {a b : ℚ}

theorem exists_finite (h : v.value? = some a) :
    ∃ neg m e, v = .finite neg m e ∧ a = withMinus neg m * 2 ^ e := by
  cases v with
  | nan => cases h
  | infinite neg => cases h
  | finite neg m e => exact ⟨neg, m, e, rfl, (Option.some.inj h).symm⟩

end Datum

theorem abs_withMinus (neg : Bool) (m : Nat) : |((withMinus neg m : Int) : ℚ)| = m := by
  cases neg <;> simp [withMinus]

/-- Mantissas of one sign with the same value keep it with the sign. -/
theorem withMinus_mul_congr {m k : Nat} {e p : Int} (h : (m : ℚ) * 2 ^ e = k * 2 ^ p)
    (neg : Bool) : (withMinus neg m : ℚ) * 2 ^ e = withMinus neg k * 2 ^ p := by
  cases neg with
  | false => simpa [withMinus] using h
  | true => simpa [withMinus] using h

theorem multipleOf_mul {low e : Int} (h : low ≤ e) (neg : Bool) (m : Nat) :
    (multipleOf low neg m e : ℚ) * 2 ^ low = withMinus neg m * 2 ^ e := by
  refine withMinus_mul_congr ?_ neg
  rw [Nat.cast_mul, cast_twoPow_toNat (by omega), mul_assoc, ← two_zpow_add]
  congr 2
  omega

namespace Datum

variable {v w : Datum} {a b : ℚ}

theorem order?_eq (hv : v.value? = some a) (hw : w.value? = some b) :
    (v.order? w = some .lt ↔ a < b) ∧ (v.order? w = some .eq ↔ a = b) := by
  obtain ⟨neg, m, e, rfl, rfl⟩ := exists_finite hv
  obtain ⟨neg', n, p, rfl, rfl⟩ := exists_finite hw
  have unit := two_zpow_pos (min e p)
  rw [← multipleOf_mul (min_le_left e p), ← multipleOf_mul (min_le_right e p), order?,
    Option.some.injEq, Option.some.injEq, compare_lt_iff_lt, compare_eq_iff_eq,
    mul_lt_mul_iff_left₀ unit, mul_left_inj' unit.ne', Int.cast_lt, Int.cast_inj]
  exact ⟨Iff.rfl, Iff.rfl⟩

theorem value?_sub (hv : v.value? = some a) (hw : w.value? = some b) :
    (v.sub w).value? = some (a - b) := by
  obtain ⟨neg, m, e, rfl, rfl⟩ := exists_finite hv
  obtain ⟨neg', n, p, rfl, rfl⟩ := exists_finite hw
  rw [← multipleOf_mul (min_le_left e p), ← multipleOf_mul (min_le_right e p), ← sub_mul,
    ← Int.cast_sub, sub]
  generalize multipleOf (min e p) neg m e - multipleOf (min e p) neg' n p = d
  have signed : withMinus (decide (d < 0) || (d == 0 && neg && !neg')) d.natAbs = d := by
    obtain negative | rfl | positive := Int.lt_trichotomy d 0
    · simp only [negative, decide_true, Bool.true_or, withMinus, if_true]
      omega
    · simp [withMinus]
    · have nonzero : (d == 0) = false := by simpa using positive.ne'
      simp only [nonzero, Int.not_lt.mpr positive.le, withMinus, decide_false, Bool.false_and,
        Bool.or_false, Bool.false_eq_true, if_false]
      omega
  rw [value?, signed]

end Datum

/-! ## Towards zero -/

/-- What is left of a number without its whole part is less than one, and a multiple of its last
place. -/
theorem wholePart_add (m : Nat) (e : Int) :
    ∃ r : Nat, r ≤ m ∧ (r : ℚ) * 2 ^ e < 1 ∧ (m : ℚ) * 2 ^ e = wholePart m e + r * 2 ^ e := by
  unfold wholePart
  split
  · next whole =>
    refine ⟨0, Nat.zero_le _, by simp, ?_⟩
    rw [Nat.cast_mul, cast_twoPow_toNat whole]
    simp
  · next places =>
    have unit : (twoPow (-e).toNat : ℚ) * 2 ^ e = 1 := by
      rw [cast_twoPow_toNat (by omega), ← two_zpow_add]
      simp
    refine ⟨m % twoPow (-e).toNat, Nat.mod_le _ _, ?_, ?_⟩
    · rw [← unit]
      refine mul_lt_mul_of_pos_right ?_ (two_zpow_pos e)
      exact_mod_cast Nat.mod_lt m (twoPow_pos _)
    · nth_rewrite 1 [← Nat.div_add_mod' m (twoPow (-e).toNat)]
      rw [Nat.cast_add, Nat.cast_mul, add_mul, mul_assoc, unit, mul_one]

theorem abs_sub_wholePart (neg : Bool) (m : Nat) (e : Int) :
    ∃ r : Nat, r ≤ m ∧ (r : ℚ) * 2 ^ e < 1 ∧
      |(withMinus neg m : ℚ) * 2 ^ e - withMinus neg (wholePart m e)| = r * 2 ^ e := by
  obtain ⟨r, short, small, rest⟩ := wholePart_add m e
  have nonneg : (0 : ℚ) ≤ r * 2 ^ e := by positivity
  refine ⟨r, short, small, ?_⟩
  cases neg with
  | false =>
    have left : (withMinus false m : ℚ) * 2 ^ e - withMinus false (wholePart m e) = r * 2 ^ e := by
      simp only [withMinus, Bool.false_eq_true, if_false, Int.cast_natCast]
      linarith
    rw [left, abs_of_nonneg nonneg]
  | true =>
    have left : (withMinus true m : ℚ) * 2 ^ e - withMinus true (wholePart m e)
        = -(r * 2 ^ e) := by
      simp only [withMinus, if_true, Int.cast_neg, Int.cast_natCast]
      linarith
    rw [left, abs_neg, abs_of_nonneg nonneg]

/-- A whole part has no more places than the number. -/
theorem exists_wholePart (m : Nat) (e : Int) :
    ∃ k ≤ m, ((wholePart m e : Nat) : ℚ) = k * 2 ^ max e 0 := by
  unfold wholePart
  split
  · next whole =>
    refine ⟨m, le_rfl, ?_⟩
    rw [Nat.cast_mul, cast_twoPow_toNat whole, max_eq_left whole]
  · next places =>
    refine ⟨m / twoPow (-e).toNat, Nat.div_le_self _ _, ?_⟩
    rw [max_eq_right (by omega), zpow_zero, mul_one]

namespace Double

variable {x : Double} {neg : Bool} {m : Nat} {e : Int} {a : ℚ}

theorem bits_lt (x : Double) : x.bits.toNat < 2 * Format.double.signBit := x.bits.toNat_lt

/-- The ranges of mantissa and exponent. -/
theorem bounds (h : x.datum = .finite neg m e) : m < 2 ^ 53 ∧ -1074 ≤ e ∧ e ≤ 971 := by
  obtain ⟨fits, -⟩ := Format.fits_of_decode x.bits_lt h
  have finite : (e - -1074).toNat * 4503599627370496 + m < 9218868437227405312 := fits.finite
  have normal : 4503599627370496 ≤ m ∨ e = -1074 := fits.normal
  exact ⟨fits.mantissa, fits.exponent, by omega⟩

/-- A number with few enough places is not rounded. -/
theorem value?_ofDatum {v : Datum} (hv : v.value? = some a) (abs : |a| = m * 2 ^ e)
    (mantissa : m < 2 ^ 53) (low : -1074 ≤ e) (high : e ≤ 971) :
    (ofDatum v).datum.value? = some a := by
  obtain ⟨neg, n, p, rfl, rfl⟩ := Datum.exists_finite hv
  rw [abs_mul, abs_withMinus, abs_of_pos (two_zpow_pos p)] at abs
  have least : Format.double.minExponent = -1074 := by decide
  have range : (twoPow Format.double.exponentBits : Int) = 2048 := rfl
  obtain ⟨k, q, fits, same⟩ :=
    Format.exists_fits (f := .double) (e := e) mantissa (by omega) (by omega)
  have value := abs.trans same
  have bits := fits.encode value neg
  have bound := Format.withSign_lt (fits.finite.trans (Format.infinityBits_lt _)) neg
  rw [datum_ofDatum (by rwa [bits]), bits, fits.decode, Datum.value?, withMinus_mul_congr value]

theorem value?_trunc (h : x.datum = .finite neg m e) :
    x.trunc.datum.value? = some (withMinus neg (wholePart m e) : ℚ) := by
  obtain ⟨mantissa, low, high⟩ := bounds h
  obtain ⟨k, short, whole⟩ := exists_wholePart m e
  have value : (x.datum.trunc).value? = some (withMinus neg (wholePart m e) : ℚ) := by
    rw [h, Datum.trunc, Datum.value?, zpow_zero, mul_one]
  exact value?_ofDatum value ((abs_withMinus neg _).trans whole) (by omega) (by omega) (by omega)

theorem value?_fract (h : x.datum = .finite neg m e) :
    x.fract.datum.value?
      = some ((withMinus neg m : ℚ) * 2 ^ e - withMinus neg (wholePart m e)) := by
  obtain ⟨mantissa, low, high⟩ := bounds h
  obtain ⟨r, short, -, rest⟩ := abs_sub_wholePart neg m e
  have value : x.datum.value? = some ((withMinus neg m : ℚ) * 2 ^ e) := by rw [h, Datum.value?]
  exact value?_ofDatum (Datum.value?_sub value (value?_trunc h)) rest (by omega) low high

/-! ## Integers -/

theorem lessOrEqual_iff {y : Double} {b : ℚ} (hx : x.datum.value? = some a)
    (hy : y.datum.value? = some b) : x.lessOrEqual y = true ↔ a ≤ b := by
  obtain ⟨below, same⟩ := Datum.order?_eq hx hy
  rw [lessOrEqual, less, equals, Bool.or_eq_true, beq_iff_eq, beq_iff_eq, below, same,
    le_iff_lt_or_eq]

theorem less_iff {y : Double} {b : ℚ} (hx : x.datum.value? = some a)
    (hy : y.datum.value? = some b) : x.less y = true ↔ a < b := by
  rw [less, beq_iff_eq, (Datum.order?_eq hx hy).1]

theorem equals_iff {y : Double} {b : ℚ} (hx : x.datum.value? = some a)
    (hy : y.datum.value? = some b) : x.equals y = true ↔ a = b := by
  rw [equals, beq_iff_eq, (Datum.order?_eq hx hy).2]

theorem value?_zero : (ofInt 0).datum.value? = some 0 := by
  have datum : (ofInt 0).datum = .finite false 0 (-1074) := by decide +kernel
  rw [datum, Datum.value?]
  simp [withMinus]

theorem value?_minInt : (ofInt Int64.minValue.toInt).datum.value? = some (-2 ^ 63) := by
  have datum : (ofInt Int64.minValue.toInt).datum = .finite true (2 ^ 52) 11 := by decide +kernel
  rw [datum, Datum.value?]
  norm_num [withMinus]

/-- The greatest integer is not a number of the format. -/
theorem value?_maxInt : (ofInt Int64.maxValue.toInt).datum.value? = some (2 ^ 63) := by
  have datum : (ofInt Int64.maxValue.toInt).datum = .finite false (2 ^ 52) 11 := by decide +kernel
  rw [datum, Datum.value?]
  norm_num [withMinus]

theorem datum_ofDatum_nan : (ofDatum .nan).datum = .nan := by decide +kernel

theorem whole?_of_nan_fract (h : x.datum.sub x.trunc.datum = .nan) : x.whole? = none := by
  have fract : x.fract = ofDatum .nan := congrArg ofDatum h
  rw [whole?, fract, equals, datum_ofDatum_nan]
  rfl

theorem whole?_of_nan (h : x.datum = .nan) : x.whole? = none :=
  whole?_of_nan_fract (by rw [h, Datum.sub])

/-- An infinite number less itself is not a number. -/
theorem whole?_of_infinite (h : x.datum = .infinite neg) : x.whole? = none := by
  have trunc : x.trunc.datum = .infinite neg := by
    rw [trunc, h]
    exact datum_ofDatum_infinite neg
  refine whole?_of_nan_fract ?_
  rw [trunc, h, Datum.sub, if_pos rfl]

theorem whole?_of_finite (h : x.datum = .finite neg m e) {n : Int64} :
    x.whole? = some n ↔ (withMinus neg m : ℚ) * 2 ^ e = n.toInt := by
  have value : x.datum.value? = some ((withMinus neg m : ℚ) * 2 ^ e) := by rw [h, Datum.value?]
  obtain ⟨r, -, small, rest⟩ := abs_sub_wholePart neg m e
  rw [whole?, Option.ite_none_right_eq_some, Option.some.injEq, Bool.and_eq_true, Bool.and_eq_true,
    equals_iff (value?_fract h) value?_zero, lessOrEqual_iff value?_minInt value,
    less_iff value value?_maxInt, sub_eq_zero, h, Datum.toInt64]
  generalize (withMinus neg m : ℚ) * 2 ^ e = a at rest
  generalize withMinus neg (wholePart m e) = t at rest
  have low : Int64.minValue.toInt = -2 ^ 63 := by decide
  have high : Int64.maxValue.toInt = 2 ^ 63 - 1 := by decide
  constructor
  · rintro ⟨⟨⟨rfl, least⟩, greatest⟩, rfl⟩
    have least : -2 ^ 63 ≤ t := by exact_mod_cast least
    have greatest : t < 2 ^ 63 := by exact_mod_cast greatest
    -- below 2 ^ 63 an integer is at most the greatest one, so nothing is cut off
    have clamped : max Int64.minValue.toInt (min Int64.maxValue.toInt t) = t := by omega
    rw [clamped, Int64.toInt_ofInt_of_le least greatest]
  · rintro rfl
    -- two integers less than one apart are the same
    have near : |n.toInt - t| < 1 := by
      rw [← rest] at small
      exact_mod_cast small
    obtain rfl : n.toInt = t := sub_eq_zero.mp (Int.abs_lt_one_iff.mp near)
    have least : -2 ^ 63 ≤ n.toInt := n.le_toInt
    have greatest : n.toInt < 2 ^ 63 := n.toInt_lt
    have clamped : max Int64.minValue.toInt (min Int64.maxValue.toInt n.toInt) = n.toInt := by
      omega
    refine ⟨⟨⟨rfl, by exact_mod_cast least⟩, by exact_mod_cast greatest⟩, ?_⟩
    rw [clamped, Int64.ofInt_toInt]

/-- A 64-bit integer is found exactly if the number is that integer. -/
theorem whole?_eq_some_iff {n : Int64} :
    x.whole? = some n ↔ x.datum.value? = some (n.toInt : ℚ) := by
  cases h : x.datum with
  | nan => rw [whole?_of_nan h]; exact iff_of_false nofun nofun
  | infinite neg => rw [whole?_of_infinite h]; exact iff_of_false nofun nofun
  | finite neg m e => rw [whole?_of_finite h, Datum.value?, Option.some.injEq]

/-- A single number is widened to the double one of its value. -/
theorem value?_ofSingle (x : Single) : (ofSingle x).datum.value? = x.datum.value? := by
  cases h : x.datum with
  | nan =>
    rw [ofSingle, h, datum_ofDatum_nan]
  | infinite neg => rw [datum_ofSingle_infinite h]
  | finite neg m e =>
    obtain ⟨k, p, wide, same⟩ := datum_ofSingle_finite h
    rw [wide, Datum.value?, Datum.value?, withMinus_mul_congr same]

end Double

end RecordQuery.Number
