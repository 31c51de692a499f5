import Mathlib.Algebra.Order.Field.Power
import Mathlib.Tactic.FieldSimp
import Mathlib.Tactic.Linarith
import Mathlib.Tactic.Positivity
import Mathlib.Tactic.Ring
import RecordQuery.Number.Binary

/-!
# Exact floating-point numbers

`Format.Fits m e` says that `m * 2 ^ e` is a number of a format with `m` and `e` as `decode` gives
them. Rounding keeps such a number (`Format.Fits.roundRatio`), so its bits are those of any number
of its value (`Format.Fits.encode`), and a single number is the same after it has been made a double
one (`Single.ofDouble_ofSingle`).
-/

namespace RecordQuery.Number

theorem twoPow_eq (n : Nat) : twoPow n = 2 ^ n := rfl

theorem cast_twoPow (n : Nat) : ((twoPow n : Nat) : ℚ) = 2 ^ (n : Int) := by
  rw [twoPow_eq, Nat.cast_pow, zpow_natCast]
  rfl

theorem cast_twoPow_toNat {e : Int} (h : 0 ≤ e) : ((twoPow e.toNat : Nat) : ℚ) = 2 ^ e := by
  rw [cast_twoPow, Int.toNat_of_nonneg h]

theorem two_zpow_pos (e : Int) : (0 : ℚ) < 2 ^ e := by positivity

theorem two_zpow_lt_iff {a b : Int} : (2 : ℚ) ^ a < 2 ^ b ↔ a < b :=
  zpow_lt_zpow_iff_right₀ (by norm_num)

theorem two_zpow_add (a b : Int) : (2 : ℚ) ^ (a + b) = 2 ^ a * 2 ^ b :=
  zpow_add₀ (by norm_num) a b

namespace Format

variable {f : Format} {m n d bits field fraction : Nat} {e : Int} {neg : Bool}

/-- The bits of the magnitude `m * 2 ^ e`. -/
def magnitude (f : Format) (m : Nat) (e : Int) : Nat :=
  (e - f.minExponent).toNat * twoPow f.fractionBits + m

/-- The number `m * 2 ^ e` is one of the format, and `m` has all its places. -/
structure Fits (f : Format) (m : Nat) (e : Int) : Prop where
  mantissa : m < twoPow (f.fractionBits + 1)
  exponent : f.minExponent ≤ e
  /-- Only the smallest numbers have fewer places. -/
  normal : twoPow f.fractionBits ≤ m ∨ e = f.minExponent
  finite : f.magnitude m e < f.infinityBits

/-! ## Bits -/

/-- The bits of a sign, an exponent field and a fraction field. -/
def joined (f : Format) (neg : Bool) (field fraction : Nat) : Nat :=
  f.withSign neg (field * twoPow f.fractionBits + fraction)

theorem signBit_eq (f : Format) : f.signBit = twoPow f.exponentBits * twoPow f.fractionBits :=
  Nat.pow_add ..

theorem infinityBits_lt (f : Format) : f.infinityBits < f.signBit := by
  rw [signBit_eq, infinityBits]
  exact Nat.mul_lt_mul_of_pos_right (Nat.sub_lt (twoPow_pos _) Nat.one_pos) (twoPow_pos _)

theorem withSign_lt (h : bits < f.signBit) (neg : Bool) : f.withSign neg bits < 2 * f.signBit := by
  unfold withSign
  split <;> omega

theorem joined_eq (f : Format) (neg : Bool) (field fraction : Nat) :
    f.joined neg field fraction = fraction + twoPow f.fractionBits *
      (field + twoPow f.exponentBits * if neg then 1 else 0) := by
  rw [joined, withSign, signBit_eq]
  cases neg
  · simp only [Bool.false_eq_true, if_false]
    ring
  · simp only [if_true]
    ring

theorem fields_joined (hfield : field < twoPow f.exponentBits)
    (hfraction : fraction < twoPow f.fractionBits) (neg : Bool) :
    f.isNegative (f.joined neg field fraction) = neg ∧
      f.exponentField (f.joined neg field fraction) = field ∧
      f.fractionField (f.joined neg field fraction) = fraction := by
  have high : f.joined neg field fraction / twoPow f.fractionBits
      = field + twoPow f.exponentBits * if neg then 1 else 0 := by
    rw [joined_eq, Nat.add_mul_div_left _ _ (twoPow_pos _), Nat.div_eq_of_lt hfraction,
      Nat.zero_add]
  refine ⟨?_, ?_, ?_⟩
  · rw [isNegative, signBit_eq, Nat.mul_comm (twoPow _), ← Nat.div_div_eq_div_mul, high,
      Nat.add_mul_div_left _ _ (twoPow_pos _), Nat.div_eq_of_lt hfield, Nat.zero_add]
    cases neg <;> rfl
  · rw [exponentField, high, Nat.add_mul_mod_self_left, Nat.mod_eq_of_lt hfield]
  · rw [fractionField, joined_eq, Nat.add_mul_mod_self_left, Nat.mod_eq_of_lt hfraction]

theorem decode_joined (hfield : field < twoPow f.exponentBits)
    (hfraction : fraction < twoPow f.fractionBits) (neg : Bool) :
    f.decode (f.joined neg field fraction) =
      if field = twoPow f.exponentBits - 1 then if fraction = 0 then .infinite neg else .nan
      else if field = 0 then .finite neg fraction f.minExponent
      else .finite neg (twoPow f.fractionBits + fraction) (f.minExponent + field - 1) := by
  obtain ⟨sign, high, low⟩ := fields_joined hfield hfraction neg
  rw [decode, sign, high, low]

/-- All bits of the width of a format are those of some fields. -/
theorem exists_joined (h : bits < 2 * f.signBit) :
    ∃ neg field fraction, field < twoPow f.exponentBits ∧ fraction < twoPow f.fractionBits ∧
      bits = f.joined neg field fraction := by
  have fields (b : Nat) (hb : b < f.signBit) :
      b / twoPow f.fractionBits < twoPow f.exponentBits ∧
        b % twoPow f.fractionBits < twoPow f.fractionBits ∧
        b / twoPow f.fractionBits * twoPow f.fractionBits + b % twoPow f.fractionBits = b :=
    ⟨(Nat.div_lt_iff_lt_mul (twoPow_pos _)).mpr (f.signBit_eq ▸ hb), Nat.mod_lt _ (twoPow_pos _),
      Nat.div_add_mod' _ _⟩
  by_cases hs : bits < f.signBit
  · obtain ⟨hfield, hfraction, parts⟩ := fields bits hs
    refine ⟨false, _, _, hfield, hfraction, ?_⟩
    rw [joined, parts]
    rfl
  · obtain ⟨hfield, hfraction, parts⟩ := fields (bits - f.signBit) (by omega)
    refine ⟨true, _, _, hfield, hfraction, ?_⟩
    rw [joined, parts, withSign, if_pos rfl]
    omega

theorem withSign_infinityBits (f : Format) (neg : Bool) :
    f.withSign neg f.infinityBits = f.joined neg (twoPow f.exponentBits - 1) 0 := rfl

theorem decode_infinity (f : Format) (neg : Bool) :
    f.decode (f.withSign neg f.infinityBits) = .infinite neg := by
  have field : twoPow f.exponentBits - 1 < twoPow f.exponentBits :=
    Nat.sub_lt (twoPow_pos _) Nat.one_pos
  rw [withSign_infinityBits, decode_joined field (twoPow_pos _), if_pos rfl, if_pos rfl]

/-- The magnitude of a number with a leading place in its mantissa. -/
theorem magnitude_normal (h : f.minExponent ≤ e) (fraction : Nat) :
    f.magnitude (twoPow f.fractionBits + fraction) e
      = (e - f.minExponent + 1).toNat * twoPow f.fractionBits + fraction := by
  rw [magnitude, Int.toNat_add (by omega) (by omega), Nat.add_mul]
  simp only [Int.toNat_one]
  omega

theorem magnitude_least (f : Format) (m : Nat) : f.magnitude m f.minExponent = m := by
  simp [magnitude]

theorem lt_of_joined_finite
    (h : field * twoPow f.fractionBits + fraction < f.infinityBits) :
    field < twoPow f.exponentBits - 1 := by
  refine lt_of_mul_lt_mul_right (lt_of_le_of_lt (Nat.le_add_right _ fraction) h) ?_
  exact Nat.zero_le _

theorem joined_finite (h : field < twoPow f.exponentBits - 1)
    (hfraction : fraction < twoPow f.fractionBits) :
    field * twoPow f.fractionBits + fraction < f.infinityBits := by
  calc field * twoPow f.fractionBits + fraction
      < (field + 1) * twoPow f.fractionBits := by rw [Nat.succ_mul]; omega
    _ ≤ f.infinityBits := Nat.mul_le_mul_right _ h

/-- Bits of a magnitude that fits are decoded to it. -/
theorem Fits.decode (h : f.Fits m e) (neg : Bool) :
    f.decode (f.withSign neg (f.magnitude m e)) = .finite neg m e := by
  have double : twoPow (f.fractionBits + 1) = twoPow f.fractionBits * 2 := twoPow_succ _
  have mantissa := h.mantissa
  have exponent := h.exponent
  have finite := h.finite
  by_cases normal : twoPow f.fractionBits ≤ m
  · obtain ⟨fraction, rfl⟩ := Nat.exists_eq_add_of_le normal
    rw [magnitude_normal exponent] at finite ⊢
    have field := lt_of_joined_finite finite
    rw [← joined, decode_joined (by omega) (by omega), if_neg (by omega), if_neg (by omega)]
    congr 1
    omega
  · obtain rfl := h.normal.resolve_left normal
    have least : m = 0 * twoPow f.fractionBits + m := by omega
    rw [magnitude_least] at finite ⊢
    rw [least] at finite
    have field := lt_of_joined_finite finite
    rw [least, ← joined, decode_joined (by omega) (by omega), if_neg (by omega), if_pos rfl,
      ← least]

/-- What `decode` gives fits, and the bits are those of its magnitude. -/
theorem fits_of_decode (hb : bits < 2 * f.signBit) (h : f.decode bits = .finite neg m e) :
    f.Fits m e ∧ bits = f.withSign neg (f.magnitude m e) := by
  obtain ⟨sign, field, fraction, hfield, hfraction, rfl⟩ := exists_joined hb
  have double : twoPow (f.fractionBits + 1) = twoPow f.fractionBits * 2 := twoPow_succ _
  rw [decode_joined hfield hfraction] at h
  split at h
  · split at h <;> cases h
  next top =>
  have finite : field * twoPow f.fractionBits + fraction < f.infinityBits :=
    joined_finite (by omega) hfraction
  split at h
  · next least =>
    cases h
    rw [least, Nat.zero_mul, Nat.zero_add] at finite
    refine ⟨⟨by omega, le_rfl, .inr rfl, by rwa [magnitude_least]⟩, ?_⟩
    rw [magnitude_least, joined, least, Nat.zero_mul, Nat.zero_add]
  · next normal =>
    cases h
    have place : (f.minExponent + field - 1 - f.minExponent + 1).toNat = field := by omega
    have same := magnitude_normal (f := f) (e := f.minExponent + field - 1) (by omega) fraction
    rw [place] at same
    refine ⟨⟨by omega, by omega, .inl (Nat.le_add_right _ _), by rwa [same]⟩, ?_⟩
    rw [same, joined]

/-- A mantissa that is not too long is shifted until it has a leading place or the exponent is
least. -/
theorem exists_fits (mantissa : m < twoPow (f.fractionBits + 1)) (exponent : f.minExponent ≤ e)
    (finite : e - f.minExponent + 3 ≤ twoPow f.exponentBits) :
    ∃ k p, f.Fits k p ∧ (m : ℚ) * 2 ^ e = k * 2 ^ p := by
  obtain ⟨shift, rfl⟩ := Int.le.dest exponent
  induction shift generalizing m with
  | zero =>
    have least : f.minExponent + (0 : Nat) = f.minExponent := by omega
    rw [least] at finite ⊢
    refine ⟨m, _, ⟨mantissa, le_rfl, .inr rfl, ?_⟩, rfl⟩
    rw [magnitude_least]
    calc m < 2 * twoPow f.fractionBits := by rw [Nat.mul_comm]; exact mantissa
      _ ≤ f.infinityBits := Nat.mul_le_mul_right _ (by omega)
  | succ shift ih =>
    by_cases normal : twoPow f.fractionBits ≤ m
    · obtain ⟨fraction, rfl⟩ := Nat.exists_eq_add_of_le normal
      have double : twoPow (f.fractionBits + 1) = twoPow f.fractionBits * 2 := twoPow_succ _
      refine ⟨_, _, ⟨mantissa, exponent, .inl normal, ?_⟩, rfl⟩
      rw [magnitude_normal exponent]
      exact joined_finite (by omega) (by omega)
    · have double : 2 * m < twoPow (f.fractionBits + 1) := by rw [twoPow_succ]; omega
      obtain ⟨k, p, fits, same⟩ := ih double (by omega) (by omega)
      refine ⟨k, p, fits, ?_⟩
      rw [← same, Nat.cast_mul, Nat.cast_succ, ← add_assoc, two_zpow_add, zpow_one]
      ring

/-! ## Rounding -/

theorem divEven_mul (m : Nat) (hd : 0 < d) : divEven (m * d) d = m := by
  simp [divEven, Nat.mul_div_cancel _ hd, hd]

theorem scaleRatio_spec (n : Nat) (hd : 0 < d) (e : Int) :
    0 < (scaleRatio n d e).2 ∧
      ((scaleRatio n d e).1 : ℚ) = n / d * 2 ^ (-e) * (scaleRatio n d e).2 := by
  have hd' : (d : ℚ) ≠ 0 := by positivity
  unfold scaleRatio
  split
  · next he =>
    refine ⟨hd, ?_⟩
    rw [Nat.cast_mul, cast_twoPow_toNat (by omega)]
    field_simp
  · next he =>
    refine ⟨Nat.mul_pos hd (twoPow_pos _), ?_⟩
    have cancel : (2 : ℚ) ^ (-e) * 2 ^ e = 1 := by
      rw [← two_zpow_add]
      simp
    rw [Nat.cast_mul, cast_twoPow_toNat (by omega)]
    calc (n : ℚ) = n / d * d * 1 := by field_simp
      _ = n / d * 2 ^ (-e) * (d * 2 ^ e) := by
        rw [← cancel]
        ring

/-- The logarithms of numerator and denominator locate a quotient between powers of two. -/
theorem ratio_bounds (hn : 0 < n) (hd : 0 < d) :
    (2 : ℚ) ^ ((n.log2 : Int) - d.log2 - 1) < n / d ∧
      (n : ℚ) / d < 2 ^ ((n.log2 : Int) - d.log2 + 1) := by
  have cast (k : Nat) (hk : 0 < k) :
      (2 : ℚ) ^ (k.log2 : Int) ≤ k ∧ (k : ℚ) < 2 ^ (k.log2 + 1 : Int) := by
    have low := Nat.log2_self_le hk.ne'
    have high := Nat.lt_log2_self (n := k)
    constructor
    · rw [zpow_natCast]
      exact_mod_cast low
    · rw [show ((k.log2 : Int) + 1) = ((k.log2 + 1 : Nat) : Int) by omega, zpow_natCast]
      exact_mod_cast high
  obtain ⟨nlow, nhigh⟩ := cast n hn
  obtain ⟨dlow, dhigh⟩ := cast d hd
  have hd' : (0 : ℚ) < d := by positivity
  rw [lt_div_iff₀ hd', div_lt_iff₀ hd']
  constructor
  · calc (2 : ℚ) ^ ((n.log2 : Int) - d.log2 - 1) * d
        < 2 ^ ((n.log2 : Int) - d.log2 - 1) * 2 ^ (d.log2 + 1 : Int) :=
          mul_lt_mul_of_pos_left dhigh (two_zpow_pos _)
      _ = 2 ^ (n.log2 : Int) := by rw [← two_zpow_add]; congr 1; ring
      _ ≤ n := nlow
  · calc (n : ℚ) < 2 ^ (n.log2 + 1 : Int) := nhigh
      _ = 2 ^ ((n.log2 : Int) - d.log2 + 1) * 2 ^ (d.log2 : Int) := by
          rw [← two_zpow_add]; congr 1; ring
      _ ≤ 2 ^ ((n.log2 : Int) - d.log2 + 1) * d :=
          mul_le_mul_of_nonneg_left dlow (two_zpow_pos _).le

theorem scaled_lt_iff (n : Nat) (hd : 0 < d) (e : Int) (k : Nat) :
    (scaleRatio n d e).1 / (scaleRatio n d e).2 < twoPow k ↔ (n : ℚ) / d < 2 ^ (e + k) := by
  obtain ⟨positive, scaled⟩ := scaleRatio_spec n hd e
  have cancel : (2 : ℚ) ^ (-e) * 2 ^ e = 1 := by
    rw [← two_zpow_add]
    simp
  have hden : (0 : ℚ) < (scaleRatio n d e).2 := by exact_mod_cast positive
  rw [Nat.div_lt_iff_lt_mul positive, ← Nat.cast_lt (α := ℚ), Nat.cast_mul, scaled, cast_twoPow,
    mul_lt_mul_iff_left₀ hden, add_comm, two_zpow_add, ← mul_lt_mul_iff_left₀ (two_zpow_pos e),
    mul_assoc, cancel, mul_one]

/-- The last place puts the first one in the leading place of a mantissa, unless it is raised to
that of the smallest numbers. -/
theorem lastPlace_spec (f : Format) (hn : 0 < n) (hd : 0 < d) :
    ∃ t : Int, f.lastPlace n d = max t f.minExponent ∧
      (2 : ℚ) ^ (t + f.fractionBits) ≤ n / d ∧ (n : ℚ) / d < 2 ^ (t + f.fractionBits + 1) := by
  obtain ⟨low, high⟩ := ratio_bounds hn hd
  let guess : Int := n.log2 - d.log2 - f.fractionBits - 1
  have test := scaled_lt_iff n hd guess (f.fractionBits + 1)
  have sum : guess + (f.fractionBits + 1 : Nat) = guess + f.fractionBits + 1 := by omega
  rw [sum] at test
  by_cases small : (n : ℚ) / d < 2 ^ (guess + f.fractionBits + 1)
  · refine ⟨guess, ?_, ?_, small⟩
    · rw [lastPlace]
      exact congrArg (max · f.minExponent) (if_pos (test.mpr small))
    · refine le_of_lt (lt_of_eq_of_lt ?_ low)
      congr 1
      omega
  · refine ⟨guess + 1, ?_, ?_, lt_of_lt_of_eq high ?_⟩
    · rw [lastPlace]
      exact congrArg (max · f.minExponent) (if_neg fun h => small (test.mp h))
    · rw [add_right_comm]
      exact not_lt.mp small
    · congr 1
      omega

/-- The last place of a number that fits is its exponent. -/
theorem Fits.lastPlace (h : f.Fits m e) (hn : 0 < n) (hd : 0 < d)
    (hv : (n : ℚ) / d = m * 2 ^ e) : f.lastPlace n d = e := by
  obtain ⟨t, place, low, high⟩ := f.lastPlace_spec hn hd
  have exponent := h.exponent
  have upper : t ≤ e := by
    have below : (n : ℚ) / d < 2 ^ (e + f.fractionBits + 1) := by
      rw [hv, show e + f.fractionBits + 1 = ((f.fractionBits + 1 : Nat) : Int) + e by omega,
        two_zpow_add, ← cast_twoPow]
      exact mul_lt_mul_of_pos_right (by exact_mod_cast h.mantissa) (two_zpow_pos _)
    have := two_zpow_lt_iff.mp (low.trans_lt below)
    omega
  obtain normal | rfl := h.normal
  · have above : (2 : ℚ) ^ (e + f.fractionBits) ≤ n / d := by
      rw [hv, add_comm, two_zpow_add, ← cast_twoPow]
      exact mul_le_mul_of_nonneg_right (by exact_mod_cast normal) (two_zpow_pos _).le
    have := two_zpow_lt_iff.mp (above.trans_lt high)
    omega
  · omega

/-- A quotient that is a number of the format is rounded to it. -/
theorem Fits.roundRatio (h : f.Fits m e) (hd : 0 < d) (hv : (n : ℚ) / d = m * 2 ^ e) :
    f.roundRatio n d = f.magnitude m e := by
  have hden : (d : ℚ) ≠ 0 := by positivity
  by_cases hn : n = 0
  · obtain rfl : m = 0 := by
      rw [hn, Nat.cast_zero, zero_div, zero_eq_mul] at hv
      exact_mod_cast hv.resolve_right (two_zpow_pos e).ne'
    have he : e = f.minExponent :=
      h.normal.resolve_left (Nat.not_le.mpr (twoPow_pos f.fractionBits))
    simp [Format.roundRatio, magnitude, hn, he]
  · obtain ⟨positive, scaled⟩ := scaleRatio_spec n hd e
    have exact : (scaleRatio n d e).1 = m * (scaleRatio n d e).2 := by
      have cancel : (2 : ℚ) ^ e * 2 ^ (-e) = 1 := by
        rw [← two_zpow_add]
        simp
      rw [hv, mul_assoc (m : ℚ), cancel, mul_one] at scaled
      exact_mod_cast scaled
    rw [Format.roundRatio, if_neg hn, h.lastPlace (Nat.pos_of_ne_zero hn) hd hv]
    simp only [exact, divEven_mul m positive]
    exact min_eq_left h.finite.le

/-- The bits of a number are those of an equal one that fits. -/
theorem Fits.encode {k : Nat} {p : Int} (h : f.Fits m e) (hv : (k : ℚ) * 2 ^ p = m * 2 ^ e)
    (neg : Bool) : f.encode (.finite neg k p) = f.withSign neg (f.magnitude m e) := by
  obtain ⟨positive, scaled⟩ := scaleRatio_spec k Nat.one_pos (-p)
  rw [Nat.cast_one, div_one, neg_neg, hv] at scaled
  have rounded := h.roundRatio (n := (scaleRatio k 1 (-p)).1) positive (by
    rw [scaled, mul_div_assoc, div_self (by positivity), mul_one])
  exact congrArg (f.withSign neg) rounded

theorem eq_of_decode_infinite (hb : bits < 2 * f.signBit) (h : f.decode bits = .infinite neg) :
    bits = f.withSign neg f.infinityBits := by
  obtain ⟨sign, field, fraction, hfield, hfraction, rfl⟩ := exists_joined hb
  rw [decode_joined hfield hfraction] at h
  split at h
  · next top =>
    split at h
    · next zero =>
      cases h
      rw [withSign_infinityBits, top, zero]
    · cases h
  · split at h <;> cases h

end Format

/-! ## Single and double numbers -/

theorem Single.bits_lt (x : Single) : x.bits.toNat < 2 * Format.single.signBit :=
  x.bits.toNat_lt

theorem Double.datum_ofDatum {v : Datum} (h : Format.double.encode v < 2 * Format.double.signBit) :
    (Double.ofDatum v).datum = Format.double.decode (Format.double.encode v) := by
  have bits : (Format.double.encode v).toUInt64.toNat = Format.double.encode v :=
    UInt64.toNat_ofNat_of_lt' h
  rw [Double.datum, Double.ofDatum, bits]

/-- A number of the single format is one of the double format. -/
theorem Format.Fits.widened {m : Nat} {e : Int} (h : single.Fits m e) :
    ∃ k p, double.Fits k p ∧ (m : ℚ) * 2 ^ e = k * 2 ^ p := by
  have least : double.minExponent = -1074 := by decide
  have range : (twoPow double.exponentBits : Int) = 2048 := rfl
  have mantissa : m < 2 ^ 24 := h.mantissa
  have exponent : -149 ≤ e := h.exponent
  have finite : (e - -149).toNat * 8388608 + m < 2139095040 := h.finite
  exact exists_fits (mantissa.trans (by decide)) (by omega) (by omega)

/-- The double number of a single one has the same value. -/
theorem Double.datum_ofSingle_finite {x : Single} {neg : Bool} {m : Nat} {e : Int}
    (h : x.datum = .finite neg m e) :
    ∃ k p, (Double.ofSingle x).datum = .finite neg k p ∧ (m : ℚ) * 2 ^ e = k * 2 ^ p := by
  obtain ⟨fits, -⟩ := Format.fits_of_decode x.bits_lt h
  obtain ⟨k, p, wide, same⟩ := fits.widened
  have bits := wide.encode same neg
  have bound := Format.withSign_lt (wide.finite.trans (Format.infinityBits_lt _)) neg
  refine ⟨k, p, ?_, same⟩
  rw [Double.ofSingle, h, Double.datum_ofDatum (by rwa [bits]), bits, wide.decode]

theorem Double.datum_ofDatum_infinite (neg : Bool) :
    (Double.ofDatum (.infinite neg)).datum = .infinite neg := by
  have bound := Format.withSign_lt Format.double.infinityBits_lt neg
  rw [Double.datum_ofDatum (v := .infinite neg) bound]
  exact Format.double.decode_infinity neg

theorem Double.datum_ofSingle_infinite {x : Single} {neg : Bool} (h : x.datum = .infinite neg) :
    (Double.ofSingle x).datum = .infinite neg := by
  rw [Double.ofSingle, h, Double.datum_ofDatum_infinite]

/-- A number is the same after it has been made a double one, unless it is not a number. -/
theorem Single.ofDouble_ofSingle {x : Single} (h : x.datum ≠ .nan) :
    Single.ofDouble (Double.ofSingle x) = x := by
  have same : Format.single.encode (Double.ofSingle x).datum = x.bits.toNat := by
    cases hx : x.datum with
    | nan => exact absurd hx h
    | infinite neg =>
      rw [Double.datum_ofSingle_infinite hx]
      exact (Format.eq_of_decode_infinite x.bits_lt hx).symm
    | finite neg m e =>
      obtain ⟨k, p, wide, value⟩ := Double.datum_ofSingle_finite hx
      obtain ⟨fits, bits⟩ := Format.fits_of_decode x.bits_lt hx
      rw [wide, fits.encode value.symm, ← bits]
  rw [Single.ofDouble, Single.ofDatum, same]
  exact congrArg Single.mk UInt32.ofNat_toNat

end RecordQuery.Number
