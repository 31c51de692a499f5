import Mathlib.Data.List.Basic
import Mathlib.Data.List.TakeWhile
import RecordQuery.Number.Digits
import RecordQuery.Number.Hex
import RecordQuery.Number.Power

/-!
# Digits that are read back

The digits of a number are read as that number: `ofDigits_padded` with zeros in front,
`spanDigitsUpTo_padded` with text after them, `readInt?_padded` as an integer. An integer is read
from digits with one sign in front of them or none, and from nothing else (`readInt?_eq_some_iff`).
Octets are read from their hexadecimal digits (`readHex?_hexText`).
-/

namespace RecordQuery.Number

theorem isDigit_eq (c : Char) : isDigit c = c.isDigit := by
  rw [Bool.eq_iff_iff]
  simp [isDigit, Char.isDigit, Char.le_def]

theorem toNat_of_isDigit {c : Char} (h : isDigit c = true) : 48 ≤ c.toNat ∧ c.toNat ≤ 57 := by
  simpa [isDigit, Char.le_def, UInt32.le_iff_toNat_le] using h

theorem isDigit_of_mem_natDigits {n : Nat} {c : Char} (h : c ∈ natDigits n) :
    isDigit c = true := by
  rw [isDigit_eq]
  exact Nat.isDigit_of_mem_toDigits (by decide) (by decide) h

theorem isDigit_of_mem_padded {width n : Nat} {c : Char} (h : c ∈ padded width n) :
    isDigit c = true := by
  obtain h | h := List.mem_append.mp h
  · rw [List.eq_of_mem_replicate h]
    rfl
  · exact isDigit_of_mem_natDigits h

theorem padded_ne_nil (width n : Nat) : padded width n ≠ [] :=
  List.append_ne_nil_of_right_ne_nil _ Nat.toDigits_ne_nil

theorem exists_padded_eq_cons (width n : Nat) :
    ∃ d ds, padded width n = d :: ds ∧ isDigit d = true := by
  obtain ⟨d, ds, hds⟩ := List.exists_cons_of_ne_nil (padded_ne_nil width n)
  have head : d ∈ padded width n := hds ▸ List.mem_cons_self
  exact ⟨d, ds, hds, isDigit_of_mem_padded head⟩

theorem length_padded {width n : Nat} (hw : 0 < width) (h : n < tenPow width) :
    (padded width n).length = width := by
  have short : (natDigits n).length ≤ width := (Nat.length_toDigits_le_iff (by decide) hw).mpr h
  simp only [padded, List.length_append, List.length_replicate]
  omega

theorem ofDigitsFrom_eq (acc : Nat) (cs : List Char) :
    ofDigitsFrom acc cs = Nat.ofDigitChars 10 cs acc := by
  have step : (fun n c => n * 10 + digitValue c) = fun n c => 10 * n + (c.toNat - '0'.toNat) := by
    funext n c
    rw [Nat.mul_comm, digitValue]
  rw [ofDigitsFrom, step]
  rfl

theorem ofDigits_padded (width n : Nat) : ofDigits (padded width n) = n := by
  have zeros (k : Nat) : ofDigitsFrom 0 (List.replicate k '0') = 0 := by
    induction k with
    | zero => rfl
    | succ k ih => exact ih
  have split (as bs : List Char) :
      ofDigitsFrom 0 (as ++ bs) = ofDigitsFrom (ofDigitsFrom 0 as) bs := List.foldl_append
  rw [ofDigits, padded, split, zeros, ofDigitsFrom_eq]
  exact Nat.ofDigitChars_ten_toDigits

/-! ## Reading -/

theorem spanDigits_of_isDigit {ds rest : List Char} (hd : ∀ c ∈ ds, isDigit c = true)
    (hr : ∀ c ∈ rest.head?, isDigit c = false) : spanDigits (ds ++ rest) = (ds, rest) := by
  rw [spanDigits, List.takeWhile_append_of_pos hd, List.dropWhile_append_of_pos hd]
  cases rest with
  | nil => simp
  | cons c rest => simp [hr c rfl]

theorem spanDigitsUpTo_of_isDigit {ds : List Char} (rest : List Char)
    (hd : ∀ c ∈ ds, isDigit c = true) :
    spanDigitsUpTo ds.length (ds ++ rest) = (ds, rest) := by
  have all : ds.takeWhile isDigit = ds := List.takeWhile_eq_self_iff.mpr hd
  rw [spanDigitsUpTo, List.take_left, all, List.drop_left]

theorem spanDigitsUpTo_padded {width n : Nat} (hw : 0 < width) (h : n < tenPow width)
    (rest : List Char) :
    spanDigitsUpTo width (padded width n ++ rest) = (padded width n, rest) := by
  have digits : ∀ c ∈ padded width n, isDigit c = true := fun c => isDigit_of_mem_padded
  have span := spanDigitsUpTo_of_isDigit rest digits
  rwa [length_padded hw h] at span

theorem spanSign_of_isDigit {cs : List Char} (h : ∀ c ∈ cs, isDigit c = true) :
    spanSign cs = (false, cs) := by
  unfold spanSign
  split
  · exact absurd (h _ List.mem_cons_self) (by decide)
  · exact absurd (h _ List.mem_cons_self) (by decide)
  · rfl

/-- One or more digits. -/
structure IsDigits (ds : List Char) : Prop where
  nonempty : ds ≠ []
  digit : ∀ c ∈ ds, isDigit c = true

theorem isDigits_padded (width n : Nat) : IsDigits (padded width n) :=
  ⟨padded_ne_nil width n, fun _ => isDigit_of_mem_padded⟩

theorem readNat?_eq_some_iff {cs : List Char} {n : Nat} :
    readNat? cs = some n ↔ IsDigits cs ∧ ofDigits cs = n := by
  have digits : (!cs.isEmpty && cs.all isDigit) = true ↔ IsDigits cs := by
    rw [Bool.and_eq_true, List.all_eq_true]
    exact ⟨fun h => ⟨by simpa using h.1, h.2⟩, fun h => ⟨by simpa using h.nonempty, h.digit⟩⟩
  rw [readNat?, Option.ite_none_right_eq_some, digits, Option.some.injEq]

/-- Digits with a sign in front of them or none, and the number they write. -/
def WritesInt (cs ds : List Char) (n : Int) : Prop :=
  cs = ds ∧ n = ofDigits ds ∨ cs = '+' :: ds ∧ n = ofDigits ds ∨
    cs = '-' :: ds ∧ n = -(ofDigits ds : Int)

theorem spanSign_cases (cs : List Char) :
    spanSign cs = (false, cs) ∨ (∃ ds, cs = '+' :: ds ∧ spanSign cs = (false, ds)) ∨
      ∃ ds, cs = '-' :: ds ∧ spanSign cs = (true, ds) := by
  unfold spanSign
  split
  · exact .inr (.inr ⟨_, rfl, rfl⟩)
  · exact .inr (.inl ⟨_, rfl, rfl⟩)
  · exact .inl rfl

theorem readInt?_spanSign_iff {cs ds : List Char} {negative : Bool}
    (h : spanSign cs = (negative, ds)) {n : Int} : readInt? cs = some n ↔
      IsDigits ds ∧ n = if negative then -(ofDigits ds : Int) else ofDigits ds := by
  have read : readInt? cs
      = (readNat? ds).map fun (n : Nat) => if negative then -(n : Int) else n := by
    simp only [readInt?, h]
    cases readNat? ds <;> rfl
  rw [read, Option.map_eq_some_iff]
  constructor
  · rintro ⟨value, read, rfl⟩
    obtain ⟨digits, rfl⟩ := readNat?_eq_some_iff.mp read
    exact ⟨digits, rfl⟩
  · rintro ⟨digits, rfl⟩
    exact ⟨ofDigits ds, readNat?_eq_some_iff.mpr ⟨digits, rfl⟩, rfl⟩

/-- An integer is read from digits with a sign in front of them or none, and from nothing else. -/
theorem readInt?_eq_some_iff {cs : List Char} {n : Int} :
    readInt? cs = some n ↔ ∃ ds, IsDigits ds ∧ WritesInt cs ds n := by
  constructor
  · intro h
    obtain same | ⟨ds, rfl, plus⟩ | ⟨ds, rfl, minus⟩ := spanSign_cases cs
    · obtain ⟨digits, rfl⟩ := (readInt?_spanSign_iff same).mp h
      exact ⟨cs, digits, .inl ⟨rfl, rfl⟩⟩
    · obtain ⟨digits, rfl⟩ := (readInt?_spanSign_iff plus).mp h
      exact ⟨ds, digits, .inr (.inl ⟨rfl, rfl⟩)⟩
    · obtain ⟨digits, rfl⟩ := (readInt?_spanSign_iff minus).mp h
      exact ⟨ds, digits, .inr (.inr ⟨rfl, rfl⟩)⟩
  · rintro ⟨ds, digits, ⟨rfl, rfl⟩ | ⟨rfl, rfl⟩ | ⟨rfl, rfl⟩⟩
    · exact (readInt?_spanSign_iff (spanSign_of_isDigit digits.digit)).mpr ⟨digits, rfl⟩
    · have plus : spanSign ('+' :: ds) = (false, ds) := rfl
      exact (readInt?_spanSign_iff plus).mpr ⟨digits, rfl⟩
    · have minus : spanSign ('-' :: ds) = (true, ds) := rfl
      exact (readInt?_spanSign_iff minus).mpr ⟨digits, rfl⟩

theorem readInt?_padded (width n : Nat) : readInt? (padded width n) = some (n : Int) :=
  readInt?_eq_some_iff.mpr
    ⟨_, isDigits_padded width n, .inl ⟨rfl, by rw [ofDigits_padded]⟩⟩

/-! ## Two digits -/

theorem digitValue_lt {c : Char} (h : isDigit c = true) : digitValue c < 10 := by
  have range := toNat_of_isDigit h
  have zero : '0'.toNat = 48 := rfl
  rw [digitValue]
  omega

theorem digitChar_digitValue {c : Char} (h : isDigit c = true) : digitChar (digitValue c) = c := by
  have range := toNat_of_isDigit h
  have zero : '0'.toNat = 48 := rfl
  have same : '0'.toNat + (c.toNat - '0'.toNat) = c.toNat := by omega
  rw [digitChar, digitValue, same, Char.ofNat_toNat]

theorem ofDigits_pair (a b : Char) : ofDigits [a, b] = digitValue a * 10 + digitValue b := by
  simp [ofDigits, ofDigitsFrom]

theorem ofDigits_lt_of_pair {ds : List Char} (h : IsDigits ds) (two : ds.length = 2) :
    ofDigits ds < 100 := by
  obtain ⟨a, b, rfl⟩ := List.length_eq_two.mp two
  have tens := digitValue_lt (h.digit a (by simp))
  have ones := digitValue_lt (h.digit b (by simp))
  rw [ofDigits_pair]
  omega

/-- Two digits are those of their number. -/
theorem padded_ofDigits {ds : List Char} (h : IsDigits ds) (two : ds.length = 2) :
    padded 2 (ofDigits ds) = ds := by
  obtain ⟨a, b, rfl⟩ := List.length_eq_two.mp two
  have ha := h.digit a (by simp)
  have hb := h.digit b (by simp)
  have pairs : ∀ m < 10, ∀ n < 10, padded 2 (m * 10 + n) = [digitChar m, digitChar n] := by
    decide +kernel
  rw [ofDigits_pair, pairs _ (digitValue_lt ha) _ (digitValue_lt hb), digitChar_digitValue ha,
    digitChar_digitValue hb]

/-! ## Hexadecimal digits -/

theorem hexValue?_hexChar {n : Nat} (h : n < 16) : hexValue? (hexChar n) = some n := by
  revert n
  decide

theorem readHex?_hexText (octets : List UInt8) : readHex? (hexText octets) = some octets := by
  induction octets with
  | nil => rfl
  | cons b octets ih =>
    have high : hexValue? (hexChar (b.toNat / 16)) = some (b.toNat / 16) :=
      hexValue?_hexChar (by have := b.toNat_lt; omega)
    have low : hexValue? (hexChar (b.toNat % 16)) = some (b.toNat % 16) :=
      hexValue?_hexChar (Nat.mod_lt _ (by decide))
    have whole : (b.toNat / 16 * 16 + b.toNat % 16).toUInt8 = b := by
      rw [Nat.div_add_mod']
      exact UInt8.ofNat_toNat
    rw [hexText, List.flatMap_cons]
    change readHex? (hexChar (b.toNat / 16) :: hexChar (b.toNat % 16) :: hexText octets) = _
    rw [readHex?, high, low, ih]
    exact congrArg (fun b => some (b :: octets)) whole

theorem length_hexText (octets : List UInt8) : (hexText octets).length = 2 * octets.length := by
  induction octets with
  | nil => rfl
  | cons b octets ih =>
    have pair : hexText (b :: octets)
        = hexChar (b.toNat / 16) :: hexChar (b.toNat % 16) :: hexText octets := rfl
    rw [pair, List.length_cons, List.length_cons, List.length_cons, ih]
    omega

end RecordQuery.Number
