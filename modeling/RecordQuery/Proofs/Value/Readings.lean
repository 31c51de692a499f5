import RecordQuery.Proofs.Number.Whole
import RecordQuery.Proofs.Value.Text
import RecordQuery.Scalar

/-!
# Exact readings

A timestamp is read from its text, and by the layout it was written in, unless it is a leap second
before the end of a minute (`timestamp_text_read_back`). An integer is read from a value exactly if
the value is a number equal to it (`integer_readings_exact`): whether the value is an integer of
another width, a truth value, a text of digits or a floating-point number, nothing is rounded or cut
off at a bound.
-/

namespace RecordQuery

open Number Calendar

namespace Value

theorem isNull_eq_false {v : Value} (h : v ≠ .null) : v.isNull = false := by
  cases v with
  | null => exact absurd rfl h
  | _ => rfl

/-- A timestamp is read from its text, by the layout it was written in, and no other has the same
text, where a leap second is the last of its minute. Elsewhere the second after is read. -/
theorem timestamp_text_read_back :
    (∀ t : Timestamp, t.time.LeapLast → (text (timestamp t).display).timestamp? = some t ∧
      Layout.storage.read? (timestamp t).display = some t) ∧
    (∀ t t' : Timestamp, t.time.LeapLast → t'.time.LeapLast →
      (timestamp t).display = (timestamp t').display → t = t') ∧
    ∀ t : Timestamp, ¬t.time.LeapLast →
      (text (timestamp t).display).timestamp? = some t.shown ∧ t.shown ≠ t := by
  have read (t : Timestamp) : (text (timestamp t).display).timestamp? = some t.shown :=
    Timestamp.read?_text t
  have kept {t : Timestamp} (last : t.time.LeapLast) : t.shown = t :=
    Timestamp.shown_eq_self_iff.mpr last
  refine ⟨fun t last => ?_, fun t t' last last' same => ?_, fun t early => ⟨read t, ?_⟩⟩
  · have stored : Layout.storage.read? (timestamp t).display = some t.shown :=
      Timestamp.storage_read?_text t
    rw [read, stored, kept last]
    exact ⟨rfl, rfl⟩
  · have shown := read t
    rw [same, read, Option.some.injEq, kept last, kept last'] at shown
    exact shown.symm
  · exact fun same => early (Timestamp.shown_eq_self_iff.mp same)

/-- The leap second at the end of the last year, and one before the end of its minute. -/
theorem timestamp_text_read_back_leaps :
    (lastLeapSecond.time.LeapLast ∧
      (text (timestamp lastLeapSecond).display).timestamp? = some lastLeapSecond) ∧
    (¬midMinute.time.LeapLast ∧ (text (timestamp midMinute).display).timestamp?
      = some midMinute.shown) := by
  obtain ⟨back, -, after⟩ := timestamp_text_read_back
  have last : lastLeapSecond.time.LeapLast := by decide
  have early : ¬midMinute.time.LeapLast := by decide
  exact ⟨⟨last, (back _ last).1⟩, early, (after _ early).1⟩

/-- A leap second before the end of its minute is read as the second after. -/
theorem midMinute_read_after :
    (timestamp midMinute).display = "2024-03-01 08:30:31.500" ∧
    (text "2024-03-01 08:30:31.500").timestamp? = some midMinute.shown ∧
    ¬∀ t : Timestamp, (text (timestamp t).display).timestamp? = some t := by
  have written : (timestamp midMinute).display = "2024-03-01 08:30:31.500" := by
    decide +kernel
  have read : (text (timestamp midMinute).display).timestamp?
      = some midMinute.shown := Timestamp.read?_text _
  refine ⟨written, written ▸ read, fun claimed => midMinute_shown_ne ?_⟩
  rw [claimed, Option.some.injEq] at read
  exact read.symm

/-! ## Integers -/

/-- The number that a value is, or spells as an integer. -/
def number? : Value → Option ℚ
  | bool b => some (if b then 1 else 0)
  | int n => some n.toInt
  | long n => some n.toInt
  | single x => x.datum.value?
  | double x => x.datum.value?
  | text s => (readInt? s.toList).map Int.cast
  | _ => none

theorem toInt_int32?_iff {k n : Int} :
    (int32? k).map Int32.toInt = some n ↔ k = n ∧ -2 ^ 31 ≤ n ∧ n < 2 ^ 31 := by
  have low : Int32.minValue.toInt = -2 ^ 31 := by decide
  have high : Int32.maxValue.toInt = 2 ^ 31 - 1 := by decide
  rw [int32?, low, high]
  split
  · next range =>
    rw [Option.map_some, Option.some.injEq, Int32.toInt_ofInt_of_le range.1 (by omega)]
    omega
  · next range => exact iff_of_false nofun (by omega)

theorem toInt_int64?_iff {k n : Int} :
    (int64? k).map Int64.toInt = some n ↔ k = n ∧ -2 ^ 63 ≤ n ∧ n < 2 ^ 63 := by
  have low : Int64.minValue.toInt = -2 ^ 63 := by decide
  have high : Int64.maxValue.toInt = 2 ^ 63 - 1 := by decide
  rw [int64?, low, high]
  split
  · next range =>
    rw [Option.map_some, Option.some.injEq, Int64.toInt_ofInt_of_le range.1 (by omega)]
    omega
  · next range => exact iff_of_false nofun (by omega)

/-- A 32-bit integer is read exactly if a 64-bit one is read that is within 32 bits. -/
theorem toInt_int?_iff (v : Value) (n : Int) : v.int?.map Int32.toInt = some n ↔
    v.long?.map Int64.toInt = some n ∧ -2 ^ 31 ≤ n ∧ n < 2 ^ 31 := by
  have whole (x : Double) : (x.whole?.bind fun k => int32? k.toInt).map Int32.toInt = some n ↔
      x.whole?.map Int64.toInt = some n ∧ -2 ^ 31 ≤ n ∧ n < 2 ^ 31 := by
    cases x.whole? with
    | none => exact iff_of_false nofun fun h => nomatch h.1
    | some k => rw [Option.bind_some, toInt_int32?_iff, Option.map_some, Option.some.injEq]
  cases v with
  | bool b => cases b <;> simp [int?, long?] <;> omega
  | int k =>
    have low := k.le_toInt
    have high := k.toInt_lt
    rw [int?, long?, Option.map_some, Option.map_some, Int32.toInt_toInt64, Option.some.injEq]
    omega
  | long k => rw [int?, long?, toInt_int32?_iff, Option.map_some, Option.some.injEq]
  | single x => exact whole _
  | double x => exact whole x
  | text s =>
    rw [int?, long?]
    cases readInt? s.toList with
    | none => exact iff_of_false nofun fun h => nomatch h.1
    | some k =>
      rw [Option.bind_some, Option.bind_some, toInt_int32?_iff, toInt_int64?_iff]
      omega
  | _ => exact iff_of_false nofun fun h => nomatch h.1

theorem toInt_eq_iff (k : Int64) (n : Int) :
    k.toInt = n ↔ (k.toInt : ℚ) = n ∧ -2 ^ 63 ≤ n ∧ n < 2 ^ 63 := by
  have low := k.le_toInt
  have high := k.toInt_lt
  rw [Int.cast_inj]
  omega

theorem toInt_whole?_iff (x : Double) (n : Int) : x.whole?.map Int64.toInt = some n ↔
    x.datum.value? = some (n : ℚ) ∧ -2 ^ 63 ≤ n ∧ n < 2 ^ 63 := by
  rw [Option.map_eq_some_iff]
  constructor
  · rintro ⟨k, whole, rfl⟩
    exact ⟨Double.whole?_eq_some_iff.mp whole, k.le_toInt, k.toInt_lt⟩
  · rintro ⟨value, low, high⟩
    have same := Int64.toInt_ofInt_of_le low high
    exact ⟨Int64.ofInt n, Double.whole?_eq_some_iff.mpr (by rwa [same]), same⟩

/-- A 64-bit integer is read exactly if the value is that number. -/
theorem toInt_long?_iff (v : Value) (n : Int) : v.long?.map Int64.toInt = some n ↔
    v.number? = some (n : ℚ) ∧ -2 ^ 63 ≤ n ∧ n < 2 ^ 63 := by
  cases v with
  | bool b =>
    have bit := toInt_eq_iff (if b then 1 else 0) n
    cases b <;> simpa [long?, number?] using bit
  | int k =>
    rw [long?, number?, Option.map_some, Option.some.injEq, Option.some.injEq,
      ← Int32.toInt_toInt64]
    exact toInt_eq_iff _ n
  | long k =>
    rw [long?, number?, Option.map_some, Option.some.injEq, Option.some.injEq]
    exact toInt_eq_iff k n
  | single x => rw [long?, number?, ← Double.value?_ofSingle]; exact toInt_whole?_iff _ n
  | double x => exact toInt_whole?_iff x n
  | text s =>
    rw [long?, number?]
    cases readInt? s.toList with
    | none => exact iff_of_false nofun fun h => nomatch h.1
    | some k =>
      rw [Option.bind_some, toInt_int64?_iff, Option.map_some, Option.some.injEq, Int.cast_inj]
  | _ => exact iff_of_false nofun fun h => nomatch h.1

theorem long?_eq_some_iff {v : Value} {n : Int64} :
    v.long? = some n ↔ v.number? = some (n.toInt : ℚ) := by
  have injective : Function.Injective Int64.toInt := fun _ _ => Int64.toInt_inj.mp
  rw [← (Option.map_injective injective).eq_iff, Option.map_some, toInt_long?_iff]
  exact and_iff_left ⟨n.le_toInt, n.toInt_lt⟩

theorem int?_eq_some_iff {v : Value} {n : Int32} :
    v.int? = some n ↔ v.number? = some (n.toInt : ℚ) := by
  have injective : Function.Injective Int32.toInt := fun _ _ => Int32.toInt_inj.mp
  have low := n.le_toInt
  have high := n.toInt_lt
  rw [← (Option.map_injective injective).eq_iff, Option.map_some, toInt_int?_iff, toInt_long?_iff,
    and_assoc]
  exact and_iff_left ⟨⟨by omega, by omega⟩, low, high⟩

end Value

namespace Scalar

open Value

/-- What is read as a type is read of a value, or is the zero of the type. -/
theorem ofValue_eq_ok_iff {t : Scalar} {expected : String} {v : Value}
    {read : Value → Option t.Carrier}
    (present : ∀ v, t.ofPresent v = reported (expect expected v (read v)))
    (absent : read .null = none) {x : t.Carrier} :
    t.ofValue v = .ok x ↔ read v = some x ∨ v = .null ∧ x = t.zero := by
  have expected_iff : t.ofPresent v = .ok x ↔ read v = some x := by
    rw [present, reported_eq_ok_iff]
    unfold expect
    cases read v with
    | none => exact iff_of_false nofun nofun
    | some y => rw [Except.ok.injEq, Option.some.injEq]
  by_cases null : v = .null
  · subst null
    rw [absent]
    exact ⟨fun h => .inr ⟨rfl, (Except.ok.inj h).symm⟩,
      fun h => h.elim nofun fun h => congrArg Except.ok h.2.symm⟩
  · rw [ofValue, isNull_eq_false null, if_neg Bool.false_ne_true, expected_iff]
    exact ⟨.inl, fun h => h.resolve_right fun h => null h.1⟩

theorem ofValue_int_iff (v : Value) (n : Int32) : Scalar.int.ofValue v = .ok n ↔
    v.number? = some (n.toInt : ℚ) ∨ v = .null ∧ n = 0 := by
  rw [← int?_eq_some_iff]
  exact ofValue_eq_ok_iff (fun _ => rfl) rfl

theorem ofValue_long_iff (v : Value) (n : Int64) : Scalar.long.ofValue v = .ok n ↔
    v.number? = some (n.toInt : ℚ) ∨ v = .null ∧ n = 0 := by
  rw [← long?_eq_some_iff]
  exact ofValue_eq_ok_iff (fun _ => rfl) rfl

end Scalar

/-- What is read as an integer of 64 bits is a number equal to it, and what is read as one of 32
bits is that number too. So a column of either type is read as the number it holds, and as zero if
it is null. -/
theorem Value.integer_readings_exact :
    (∀ (v : Value) (n : Int), v.int?.map Int32.toInt = some n ↔
      v.long?.map Int64.toInt = some n ∧ -2 ^ 31 ≤ n ∧ n < 2 ^ 31) ∧
    (∀ (v : Value) (n : Int), v.long?.map Int64.toInt = some n ↔
      v.number? = some (n : ℚ) ∧ -2 ^ 63 ≤ n ∧ n < 2 ^ 63) ∧
    (∀ (v : Value) (n : Int32), Scalar.int.ofValue v = .ok n ↔
      v.number? = some (n.toInt : ℚ) ∨ v = .null ∧ n = 0) ∧
    ∀ (v : Value) (n : Int64), Scalar.long.ofValue v = .ok n ↔
      v.number? = some (n.toInt : ℚ) ∨ v = .null ∧ n = 0 :=
  ⟨Value.toInt_int?_iff, Value.toInt_long?_iff, Scalar.ofValue_int_iff, Scalar.ofValue_long_iff⟩

end RecordQuery
