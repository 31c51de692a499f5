import RecordQuery.Calendar.Layout
import RecordQuery.Proofs.Number.Digits
import RecordQuery.Proofs.Text.Blank
import RecordQuery.Uuid

/-!
# Values that are read from their text

What the storage keeps as text is read back as the value it was written for: an identifier from
its five groups of digits, and a timestamp from its date and time of day. A year outside four
digits is written with a sign and read up to the first mark. A leap second is written as the second
after, and read as a leap second if that is second 60, so it is read back where it is the last of
its minute, and elsewhere as the second after (`Timestamp.read?_text`). The digits of each part are
`Number.padded` ones, so each is read by one lemma about those.
-/

namespace RecordQuery

open Number

namespace Uuid

/-- Groups of digits are read as the digits together. -/
theorem readHyphenated?_groups {a b c d : List Char} (ha : a.length = 8) (hb : b.length = 4)
    (hc : c.length = 4) (hd : d.length = 4) (e : List Char) :
    readHyphenated? (a ++ '-' :: (b ++ '-' :: (c ++ '-' :: (d ++ '-' :: e))))
      = readPlain? (a ++ b ++ c ++ d ++ e) := by
  simp [readHyphenated?, List.drop_append, List.drop_eq_nil_of_le, ha, hb, hc, hd]

theorem read?_text (u : Uuid) : read? u.text = some u := by
  obtain ⟨octets, size⟩ := u
  have length : (hexText octets).length = 32 := by rw [length_hexText, size]
  generalize hds : hexText octets = ds at length
  have plain : readPlain? ds = some ⟨octets, size⟩ := by
    rw [readPlain?, ← hds, readHex?_hexText]
    exact dif_pos size
  have first : (ds.take 8).length = 8 := by simp [length]
  have four (k : Nat) (hk : k ≤ 16) : ((ds.drop k).take 4).length = 4 := by
    simp only [List.length_take, List.length_drop, length]
    omega
  have groups := readHyphenated?_groups first (four 8 (by decide)) (four 12 (by decide))
    (four 16 (by decide)) (ds.drop 20)
  have together : ds.take 8 ++ (ds.drop 8).take 4 ++ (ds.drop 12).take 4 ++ (ds.drop 16).take 4
      ++ ds.drop 20 = ds := by
    have step (k : Nat) : (ds.drop k).take 4 ++ ds.drop (k + 4) = ds.drop k := by
      rw [← List.drop_drop, List.take_append_drop]
    rw [List.append_assoc, step 16, List.append_assoc, step 12, List.append_assoc, step 8,
      List.take_append_drop]
  rw [together, plain] at groups
  have toList : (Uuid.text ⟨octets, size⟩).toList = ds.take 8 ++ '-' :: ((ds.drop 8).take 4 ++
      '-' :: ((ds.drop 12).take 4 ++ '-' :: ((ds.drop 16).take 4 ++ '-' :: ds.drop 20))) := by
    rw [text, String.toList_ofList, ← hds]
    simp only [List.append_assoc, List.cons_append]
  have width : (Uuid.text ⟨octets, size⟩).toList.length = 36 := by
    rw [toList]
    simp [length]
  rw [read?, if_neg (by omega), if_pos width, toList, groups]

end Uuid

/-! ## Timestamps -/

open Text

namespace Calendar

theorem trimStart_padded (width n : Nat) (rest : List Char) :
    trimStart (padded width n ++ rest) = padded width n ++ rest := by
  obtain ⟨d, ds, hds, digit⟩ := exists_padded_eq_cons width n
  rw [hds]
  refine trimStart_of_head fun c hc => ?_
  cases hc
  exact isBlank_of_isDigit digit

theorem readNumber?_padded {p : Part} {n : Nat} (h : n < tenPow p.width) (rest : List Char) :
    readNumber? p (padded p.width n ++ rest) = some ((n : Int), rest) := by
  have width : 0 < p.width := by cases p <;> decide
  obtain ⟨d, ds, hds, digit⟩ := exists_padded_eq_cons p.width n
  have unblank := trimStart_padded p.width n rest
  have span := spanDigitsUpTo_padded width h rest
  have value := ofDigits_padded p.width n
  unfold readNumber?
  rw [unblank]
  rw [hds] at span value ⊢
  -- a sign is no digit
  split
  · next sign => cases sign; exact absurd digit (by decide)
  · next sign => cases sign; exact absurd digit (by decide)
  · simp only [span, value, List.isEmpty_cons]
    rfl

theorem readNumber?_yearText (y : Int) {rest : List Char}
    (h : ∀ c ∈ rest.head?, isDigit c = false) :
    readNumber? .year (yearText y ++ rest) = some (y, rest) := by
  unfold yearText
  split
  · next range =>
    have year : y.toNat < tenPow Part.year.width := by
      change _ < 10000
      omega
    have read := readNumber?_padded year rest
    rwa [Int.toNat_of_nonneg range.1] at read
  · next range =>
    have digits : spanDigits (padded 4 y.natAbs ++ rest) = (padded 4 y.natAbs, rest) :=
      spanDigits_of_isDigit (fun c => isDigit_of_mem_padded) h
    have some : (padded 4 y.natAbs).isEmpty = false := by simpa using padded_ne_nil 4 y.natAbs
    have unblank (sign : Char) (hs : isBlank sign = false) :
        trimStart (sign :: (padded 4 y.natAbs ++ rest)) = sign :: (padded 4 y.natAbs ++ rest) :=
      trimStart_of_head fun c hc => by cases hc; exact hs
    unfold readNumber?
    by_cases negative : y < 0
    · rw [if_pos negative, List.cons_append, unblank '-' rfl]
      simp only [digits, some, ofDigits_padded]
      simp only [Bool.false_eq_true, if_false, if_true, Option.some.injEq, Prod.mk.injEq, and_true]
      omega
    · rw [if_neg negative, List.cons_append, unblank '+' rfl]
      simp only [digits, some, ofDigits_padded]
      simp only [Bool.false_eq_true, if_false, Option.some.injEq, Prod.mk.injEq, and_true]
      omega

theorem readFraction?_digits {ds : List Char} (hd : ∀ c ∈ ds, isDigit c = true) (ne : ds ≠ [])
    (h : ds.length ≤ 9) :
    readFraction? ('.' :: ds) = some (ofDigits ds * tenPow (9 - ds.length), []) := by
  have all : (ds.take 9).takeWhile isDigit = ds := by
    rw [List.take_of_length_le h, List.takeWhile_eq_self_iff]
    exact hd
  simp [readFraction?, spanDigitsUpTo, all, ne, spanDigits]

theorem readFraction?_fractionText {nanos : Nat} (h : nanos < nanosPerSecond) :
    readFraction? (fractionText nanos) = some (nanos, []) := by
  have places {width n : Nat} (hw : 0 < width ∧ width ≤ 9) (hn : n < tenPow width) :
      readFraction? ('.' :: padded width n) = some (n * tenPow (9 - width), []) := by
    have length := length_padded hw.1 hn
    rw [readFraction?_digits (fun c => isDigit_of_mem_padded) (padded_ne_nil width n) (by omega),
      ofDigits_padded, length]
  have bound : nanosPerSecond = 1000000000 := rfl
  unfold fractionText
  split
  · next zero => rw [zero]; rfl
  split
  · next milli =>
    rw [places (by decide) (by change _ < 1000; omega)]
    have : nanos / 1000000 * tenPow 6 = nanos := by change _ * 1000000 = _; omega
    rw [this]
  split
  · next micro =>
    rw [places (by decide) (by change _ < 1000000; omega)]
    have : nanos / 1000 * tenPow 3 = nanos := by change _ * 1000 = _; omega
    rw [this]
  · rw [places (by decide) h]
    have : nanos * tenPow 0 = nanos := Nat.mul_one nanos
    rw [this]

namespace TimeOfDay

/-- The time of day that is shown: for a leap second before the end of its minute, the second
after. -/
def shown (t : TimeOfDay) : TimeOfDay :=
  if h : t.LeapLast then t
  else { t with
    second := t.second + 1
    nanos := t.nanos - nanosPerSecond
    second_lt := by
      have := t.second_lt
      have := (Classical.not_imp.mp h).2
      omega
    nanos_lt := Nat.lt_of_le_of_lt (Nat.sub_le ..) t.nanos_lt }

theorem shown_eq_self_iff {t : TimeOfDay} : t.shown = t ↔ t.LeapLast := by
  rw [shown]
  split
  · next last => exact iff_of_true rfl last
  · next early =>
    refine iff_of_false (fun same => ?_) early
    exact absurd (congrArg TimeOfDay.second same) (Nat.succ_ne_self _)

theorem of?_after {t : TimeOfDay} (early : ¬t.LeapLast) :
    of? t.hour t.minute (t.second + 1) (t.nanos - nanosPerSecond) = some t.shown := by
  have below := t.nanos_lt
  have second := t.second_lt
  obtain ⟨leap, before⟩ := Classical.not_imp.mp early
  rw [of?, dif_pos ⟨⟨t.hour_lt, t.minute_lt, by omega, by omega⟩, by omega⟩, shown, dif_neg early]

end TimeOfDay

/-- The timestamp that is shown, with the time of day that is. -/
def Timestamp.shown (t : Timestamp) : Timestamp := { t with time := t.time.shown }

theorem Timestamp.shown_eq_self_iff {t : Timestamp} : t.shown = t ↔ t.time.LeapLast := by
  rw [← TimeOfDay.shown_eq_self_iff]
  refine ⟨fun same => congrArg Timestamp.time same, fun same => ?_⟩
  rw [shown, same]

namespace Parts

theorem timestamp?_ofTimestamp (t : Timestamp) : (ofTimestamp t).timestamp? = some t.shown := by
  have whole {second nanos : Nat}
      (h : TimeOfDay.of? t.time.hour t.time.minute second nanos = some t.time.shown) :
      Timestamp.of? t.date.year t.date.month t.date.day t.time.hour t.time.minute second nanos
        = some t.shown := by
    rw [Timestamp.of?, h, Date.of?_self]
    rfl
  have second := t.time.second_lt
  have nanos := t.time.nanos_lt
  have size : nanosPerSecond = 1000000000 := rfl
  have shown : (ofTimestamp t).second = t.time.second + t.time.nanos / 1000000000 := rfl
  have fraction : (ofTimestamp t).nanos = t.time.nanos % 1000000000 := rfl
  by_cases last : t.time.LeapLast
  · have same {second nanos : Nat} (hs : second = t.time.second) (hn : nanos = t.time.nanos) :
        TimeOfDay.of? t.time.hour t.time.minute second nanos = some t.time.shown := by
      rw [hs, hn, TimeOfDay.of?_self last, TimeOfDay.shown_eq_self_iff.mpr last]
    rw [TimeOfDay.LeapLast] at last
    by_cases leap : (ofTimestamp t).second = 60
    · rw [timestamp?, if_pos leap]
      exact whole (same (by omega) (by omega))
    · rw [timestamp?, if_neg leap]
      exact whole (same (by omega) (by omega))
  · obtain ⟨leap, early⟩ := Classical.not_imp.mp last
    have after : (ofTimestamp t).second = t.time.second + 1 := by omega
    have left : (ofTimestamp t).nanos = t.time.nanos - nanosPerSecond := by omega
    rw [timestamp?, if_neg (by omega), after, left]
    exact whole (TimeOfDay.of?_after last)

end Parts

namespace Layout

variable {items : Layout} {ps : Parts} {cs rest : List Char}

theorem readParts?_number {p : Part} {n : Int} (h : readNumber? p cs = some (n, rest)) :
    readParts? (.number p :: items) ps cs = readParts? items (ps.set p n) rest := by
  simp [readParts?, LayoutItem.read?, h]

theorem readParts?_mark (c : Char) :
    readParts? (.mark c :: items) ps (c :: rest) = readParts? items ps rest := by
  simp [readParts?, LayoutItem.read?]

theorem readParts?_blank {written : List Char} {c : Char} (hc : isBlank c = true)
    (h : trimStart rest = rest) :
    readParts? (.blanks written :: items) ps (c :: rest) = readParts? items ps rest := by
  have trimmed : trimStart (c :: rest) = rest := by
    rw [trimStart, List.dropWhile_cons_of_pos hc]
    exact h
  simp [readParts?, LayoutItem.read?, trimmed]

theorem readParts?_fraction {nanos : Nat} (h : readFraction? cs = some (nanos, [])) :
    readParts? [.fraction] ps cs = some ({ ps with nanos }, []) := by
  simp [readParts?, LayoutItem.read?, h]

end Layout

namespace Timestamp

theorem toList_text (t : Timestamp) :
    t.text.toList = yearText t.date.year ++ '-' :: (padded 2 t.date.month ++ '-' ::
      (padded 2 t.date.day ++ ' ' :: (padded 2 t.time.hour ++ ':' :: (padded 2 t.time.minute ++
        ':' :: (padded 2 (t.time.second + t.time.nanos / nanosPerSecond) ++
          fractionText (t.time.nanos % nanosPerSecond)))))) := by
  rw [text, Layout.write, String.toList_ofList]
  simp [Layout.storage, LayoutItem.write, partText, Parts.ofTimestamp]

theorem readParts?_text (t : Timestamp) :
    Layout.storage.readParts? {} t.text.toList = some (Parts.ofTimestamp t, []) := by
  have two {p : Part} (hp : p.width = 2) {n : Nat} (hn : n < 100) (rest : List Char) :
      readNumber? p (padded 2 n ++ rest) = some ((n : Int), rest) := by
    have read := readNumber?_padded (p := p) (n := n) (by rw [hp]; exact hn) rest
    rwa [hp] at read
  have month : t.date.month < 100 := by have := t.date.month_range; omega
  have day : t.date.day < 100 := by
    have range := t.date.day_range
    have length : daysIn t.date.year t.date.month ≤ 31 := by
      unfold daysIn
      repeat' split
      all_goals decide
    omega
  have hour : t.time.hour < 100 := by have := t.time.hour_lt; omega
  have minute : t.time.minute < 100 := by have := t.time.minute_lt; omega
  have second : t.time.second + t.time.nanos / nanosPerSecond < 100 := by
    have := t.time.second_lt
    have := t.time.nanos_lt
    simp only [nanosPerSecond] at this ⊢
    omega
  rw [toList_text, Layout.storage, Layout.readParts?_number (readNumber?_yearText _ (by simp; rfl)),
    Layout.readParts?_mark, Layout.readParts?_number (two rfl month _), Layout.readParts?_mark,
    Layout.readParts?_number (two rfl day _), Layout.readParts?_blank rfl (trimStart_padded 2 _ _),
    Layout.readParts?_number (two rfl hour _), Layout.readParts?_mark,
    Layout.readParts?_number (two rfl minute _), Layout.readParts?_mark,
    Layout.readParts?_number (two rfl second _),
    Layout.readParts?_fraction (readFraction?_fractionText (Nat.mod_lt _ (by decide)))]
  rfl

theorem storage_read?_text (t : Timestamp) : Layout.storage.read? t.text = some t.shown := by
  simp [Layout.read?, readParts?_text, Parts.timestamp?_ofTimestamp]

/-- What is read from the text of a timestamp is what is shown of it, years of more digits
included. -/
theorem read?_text (t : Timestamp) : read? t.text = some t.shown := by
  rw [read?, storage_read?_text]
  rfl

end Timestamp

/-- The leap second at the end of the last year of four digits. -/
def lastLeapSecond : Timestamp :=
  ⟨⟨9999, 12, 31, by decide, by decide, by decide⟩,
    ⟨23, 59, 59, 1999999999, by decide, by decide, by decide, by decide⟩⟩

/-- Halfway through a leap second after second 30. -/
def midMinute : Timestamp :=
  ⟨⟨2024, 3, 1, by decide, by decide, by decide⟩,
    ⟨8, 30, 30, 1500000000, by decide, by decide, by decide, by decide⟩⟩

theorem midMinute_shown_ne : midMinute.shown ≠ midMinute := by
  rw [ne_eq, Timestamp.shown_eq_self_iff]
  decide

end Calendar

end RecordQuery
