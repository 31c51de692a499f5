import RecordQuery.Calendar.Offset
import RecordQuery.Proofs.Number.Digits
import RecordQuery.Proofs.Result
import RecordQuery.Proofs.Text.Blank

/-!
# Offsets and their texts

An offset is read from a sign, hours, a colon and minutes below 60 (`Spelling`). Hours and minutes
are integers, so they may have a sign of their own, which the layout `+HH:MM` does not have
(`layout_of_accepted_iff`), and they are as large as 32 bits allow, so that their seconds may not be
(`overflow_free_iff`). The text of an offset is read as the offset without its seconds, and a text
of two digits for either number is the text of what is read from it (`offset_text_read_back`).
-/

namespace RecordQuery.Calendar.Offset

open Number Text

/-! ## Spellings -/

/-- Between the least and the greatest number of 32 bits. -/
def IsInt32 (n : Int) : Prop := -2147483648 ≤ n ∧ n ≤ 2147483647

instance : DecidablePred IsInt32 := fun n =>
  inferInstanceAs (Decidable (-2147483648 ≤ n ∧ n ≤ 2147483647))

/-- How a text spells an offset: a sign, hours, a colon and minutes below 60, with blanks around
them. -/
structure Spelling (s : String) where
  mark : Char
  before : List Char
  after : List Char
  hours : Int
  minutes : Int
  signed : mark = '+' ∨ mark = '-'
  split : trimChars s.toList = mark :: (before ++ ':' :: after)
  hours_read : readInt? before = some hours
  minutes_read : readInt? after = some minutes
  hours_range : IsInt32 hours
  minutes_range : IsInt32 minutes
  minutes_lt : minutes < 60

theorem int32?_eq_some_iff {n : Int} {m : Int32} :
    int32? n = some m ↔ IsInt32 n ∧ m = Int32.ofInt n := by
  have low : Int32.minValue.toInt = -2147483648 := by decide
  have high : Int32.maxValue.toInt = 2147483647 := by decide
  rw [int32?, low, high, Option.ite_none_right_eq_some, Option.some.injEq, eq_comm (a := m)]
  rfl

theorem readInt32?_eq_some_iff {cs : List Char} {m : Int32} : readInt32? cs = some m ↔
    ∃ n, readInt? cs = some n ∧ IsInt32 n ∧ m = Int32.ofInt n := by
  simp only [readInt32?, Option.bind_eq_some_iff, int32?_eq_some_iff]

theorem toInt_ofInt {n : Int} (h : IsInt32 n) : (Int32.ofInt n).toInt = n :=
  Int32.toInt_ofInt_of_le (by have := h.1; omega) (by have := h.2; omega)

theorem isInt32_toInt (m : Int32) : IsInt32 m.toInt := ⟨m.le_toInt, by have := m.toInt_lt; omega⟩

theorem checkedInt32_eq_ok_iff {n : Int} {m : Int32} : checkedInt32 n = .ok m ↔ m.toInt = n := by
  have converted : checkedInt32 n = .ok m ↔ int32? n = some m := by
    rw [checkedInt32]
    cases int32? n with
    | none => exact iff_of_false nofun nofun
    | some k => rw [Except.ok.injEq, Option.some.injEq]
  rw [converted, int32?_eq_some_iff]
  constructor
  · rintro ⟨range, rfl⟩
    exact toInt_ofInt range
  · rintro rfl
    exact ⟨isInt32_toInt m, (Int32.ofInt_toInt m).symm⟩

theorem sixty_le_iff {n : Int} (h : IsInt32 n) : 60 ≤ Int32.ofInt n ↔ 60 ≤ n := by
  have sixty : (60 : Int32).toInt = 60 := rfl
  rw [Int32.le_iff_toInt_le, toInt_ofInt h, sixty]

theorem splitColon_append {before : List Char} (h : ':' ∉ before) (after : List Char) :
    splitColon (before ++ ':' :: after) = some (before, after) := by
  induction before with
  | nil => rfl
  | cons c cs ih =>
    have hc : c ≠ ':' := fun e => h (e ▸ List.mem_cons_self)
    rw [List.cons_append, splitColon, if_neg hc, ih fun hm => h (List.mem_cons_of_mem _ hm)]
    rfl

theorem eq_of_splitColon {cs before after : List Char} (h : splitColon cs = some (before, after)) :
    cs = before ++ ':' :: after := by
  induction cs generalizing before with
  | nil => cases h
  | cons c cs ih =>
    rw [splitColon] at h
    split at h
    · next colon =>
      cases h
      rw [colon, List.nil_append]
    · obtain ⟨⟨before, after⟩, split, same⟩ := Option.map_eq_some_iff.mp h
      cases same
      rw [ih split, List.cons_append]

/-- No colon is in a number. -/
theorem colon_not_mem {cs : List Char} {n : Int} (h : readInt? cs = some n) : ':' ∉ cs := by
  obtain ⟨ds, digits, written⟩ := readInt?_eq_some_iff.mp h
  have digitless : ':' ∉ ds := fun mem => absurd (digits.digit _ mem) (by decide)
  obtain ⟨rfl, -⟩ | ⟨rfl, -⟩ | ⟨rfl, -⟩ := written
  · exact digitless
  · exact List.not_mem_cons_of_ne_of_not_mem (by decide) digitless
  · exact List.not_mem_cons_of_ne_of_not_mem (by decide) digitless

/-! ## Reading -/

/-- Every product and sum is a number of 32 bits. -/
theorem secondsOf_eq_ok_iff {sign hours minutes n : Int32} : secondsOf sign hours minutes = .ok n ↔
    IsInt32 (hours.toInt * 3600) ∧ IsInt32 (minutes.toInt * 60) ∧
      IsInt32 (hours.toInt * 3600 + minutes.toInt * 60) ∧
      n.toInt = sign.toInt * (hours.toInt * 3600 + minutes.toInt * 60) := by
  simp only [secondsOf, bind_ok_iff, checkedInt32_eq_ok_iff]
  constructor
  · rintro ⟨a, ha, b, hb, c, hc, hn⟩
    rw [ha, hb] at hc
    rw [hc] at hn
    exact ⟨ha ▸ isInt32_toInt a, hb ▸ isInt32_toInt b, hc ▸ isInt32_toInt c, hn⟩
  · rintro ⟨ha, hb, hc, hn⟩
    refine ⟨.ofInt _, toInt_ofInt ha, .ofInt _, toInt_ofInt hb,
      .ofInt (hours.toInt * 3600 + minutes.toInt * 60), ?_, ?_⟩
    · rw [toInt_ofInt ha, toInt_ofInt hb, toInt_ofInt hc]
    · rw [toInt_ofInt hc, hn]

namespace Spelling

variable {s : String}

def sign (p : Spelling s) : Int := if p.mark = '-' then -1 else 1

/-- The seconds east of Greenwich that the text spells. -/
def total (p : Spelling s) : Int := p.sign * (p.hours * 3600 + p.minutes * 60)

/-- The products and sums on the way to the seconds, as they are without an overflow. -/
def steps (p : Spelling s) : List Int :=
  [p.hours * 3600, p.minutes * 60, p.hours * 3600 + p.minutes * 60, p.total]

theorem sign_range (p : Spelling s) : IsInt32 p.sign := by
  unfold sign
  split <;> decide

theorem readParts?_eq (p : Spelling s) :
    readParts? s = some (.ofInt p.sign, .ofInt p.hours, .ofInt p.minutes) := by
  have hours : readInt32? p.before = some (Int32.ofInt p.hours) :=
    readInt32?_eq_some_iff.mpr ⟨_, p.hours_read, p.hours_range, rfl⟩
  have minutes : readInt32? p.after = some (Int32.ofInt p.minutes) :=
    readInt32?_eq_some_iff.mpr ⟨_, p.minutes_read, p.minutes_range, rfl⟩
  have few : ¬60 ≤ Int32.ofInt p.minutes := by
    rw [sixty_le_iff p.minutes_range]
    exact Int.not_le.mpr p.minutes_lt
  rw [readParts?, p.split, sign]
  obtain plus | minus := p.signed
  · simp only [plus, splitColon_append (colon_not_mem p.hours_read), hours, minutes,
      Option.bind_eq_bind, Option.bind_some, if_neg few]
    rfl
  · simp only [minus, splitColon_append (colon_not_mem p.hours_read), hours, minutes,
      Option.bind_eq_bind, Option.bind_some, if_neg few]
    rfl

theorem secondsOf_eq_ok_iff (p : Spelling s) {n : Int32} :
    secondsOf (.ofInt p.sign) (.ofInt p.hours) (.ofInt p.minutes) = .ok n ↔
      (∀ n ∈ p.steps, IsInt32 n) ∧ n.toInt = p.total := by
  rw [Offset.secondsOf_eq_ok_iff, toInt_ofInt p.sign_range, toInt_ofInt p.hours_range,
    toInt_ofInt p.minutes_range, ← total]
  simp only [steps, List.forall_mem_cons, List.not_mem_nil, false_imp_iff, implies_true, and_true]
  constructor
  · rintro ⟨hours, minutes, sum, total⟩
    exact ⟨⟨hours, minutes, sum, total ▸ isInt32_toInt n⟩, total⟩
  · rintro ⟨⟨hours, minutes, sum, -⟩, total⟩
    exact ⟨hours, minutes, sum, total⟩

/-- What is read are the seconds that the text spells, if they can be computed. -/
theorem read?_of_fits (p : Spelling s) (h : ∀ n ∈ p.steps, IsInt32 n) :
    read? s = .ok (of? p.total) := by
  have range : IsInt32 p.total := h _ (by simp [steps])
  have seconds := p.secondsOf_eq_ok_iff.mpr ⟨h, toInt_ofInt range⟩
  rw [read?, p.readParts?_eq]
  simp only [seconds, Except.map, toInt_ofInt range]

theorem read?_of_overflow (p : Spelling s) (h : ¬∀ n ∈ p.steps, IsInt32 n) :
    read? s = .error ⟨⟩ := by
  rw [read?, p.readParts?_eq]
  dsimp only
  cases seconds : secondsOf (.ofInt p.sign) (.ofInt p.hours) (.ofInt p.minutes) with
  | error o => rfl
  | ok n => exact absurd (p.secondsOf_eq_ok_iff.mp seconds).1 h

end Spelling

/-- What is read after a sign is hours, a colon and minutes. -/
theorem spelling_of_sides {s : String} {mark : Char} {cs : List Char} {sign : Int32}
    {parts : Int32 × Int32 × Int32} (signed : mark = '+' ∨ mark = '-')
    (text : trimChars s.toList = mark :: cs)
    (read : ((splitColon cs).bind fun sides => (readInt32? sides.1).bind fun hours =>
      (readInt32? sides.2).bind fun minutes =>
        if 60 ≤ minutes then none else some (sign, hours, minutes)) = some parts) :
    Nonempty (Spelling s) := by
  simp only [Option.bind_eq_some_iff] at read
  obtain ⟨⟨before, after⟩, split, _, hours, _, minutes, few⟩ := read
  obtain ⟨h, hours_read, hours_range, rfl⟩ := readInt32?_eq_some_iff.mp hours
  obtain ⟨m, minutes_read, minutes_range, rfl⟩ := readInt32?_eq_some_iff.mp minutes
  rw [Option.ite_none_left_eq_some, sixty_le_iff minutes_range, Int.not_le] at few
  rw [eq_of_splitColon split] at text
  exact ⟨⟨mark, before, after, h, m, signed, text, hours_read, minutes_read, hours_range,
    minutes_range, few.1⟩⟩

theorem spelling_of_readParts? {s : String} {parts : Int32 × Int32 × Int32}
    (h : readParts? s = some parts) : Nonempty (Spelling s) := by
  unfold readParts? at h
  split at h
  · next text => exact spelling_of_sides (.inl rfl) text h
  · next text => exact spelling_of_sides (.inr rfl) text h
  · cases h

theorem read?_of_unspelled {s : String} (h : IsEmpty (Spelling s)) : read? s = .ok none := by
  rw [read?]
  cases parts : readParts? s with
  | none => rfl
  | some _ =>
    obtain ⟨p⟩ := spelling_of_readParts? parts
    exact (h.false p).elim

/-- Nothing is read but what a text spells. -/
theorem exists_spelling {s : String} {o : Offset} (h : read? s = .ok (some o)) :
    Nonempty (Spelling s) := by
  refine Classical.byContradiction fun none => ?_
  rw [read?_of_unspelled ⟨fun p => none ⟨p⟩⟩] at h
  cases h

/-! ## The layout -/

/-- The layout `+HH:MM`: a sign, hours in digits, a colon, and minutes below 60 in digits. -/
def IsLayout (cs : List Char) : Prop :=
  ∃ mark hours minutes, cs = mark :: (hours ++ ':' :: minutes) ∧ (mark = '+' ∨ mark = '-') ∧
    IsDigits hours ∧ IsDigits minutes ∧ ofDigits minutes < 60

def startsWithSign (cs : List Char) : Bool := cs.head?.any ['+', '-'].contains

theorem not_startsWithSign {ds : List Char} (h : IsDigits ds) :
    startsWithSign ds = false := by
  cases ds with
  | nil => rfl
  | cons d ds =>
    rw [startsWithSign, List.head?_cons, Option.any_some, Bool.eq_false_iff, ne_eq,
      List.contains_iff_mem]
    intro sign
    have digit := h.digit d List.mem_cons_self
    obtain rfl | rfl : d = '+' ∨ d = '-' := by simpa using sign
    · cases digit
    · cases digit

/-- A number without a sign of its own is all digits. -/
theorem isDigits_of_unsigned {cs : List Char} {n : Int} (h : readInt? cs = some n)
    (unsigned : startsWithSign cs = false) : IsDigits cs ∧ n = ofDigits cs := by
  obtain ⟨ds, digits, ⟨rfl, value⟩ | ⟨rfl, -⟩ | ⟨rfl, -⟩⟩ := readInt?_eq_some_iff.mp h
  · exact ⟨digits, value⟩
  · cases unsigned
  · cases unsigned

theorem eq_of_colons {before after before' after' : List Char} (h : ':' ∉ before)
    (h' : ':' ∉ before') (same : before ++ ':' :: after = before' ++ ':' :: after') :
    before = before' ∧ after = after' := by
  have split := splitColon_append h after
  rw [same, splitColon_append h' after', Option.some.injEq, Prod.mk.injEq] at split
  exact ⟨split.1.symm, split.2.symm⟩

theorem colon_not_mem_digits {ds : List Char} (h : IsDigits ds) : ':' ∉ ds :=
  fun mem => absurd (h.digit _ mem) (by decide)

namespace Spelling

variable {s : String}

/-- The hours or the minutes have a sign of their own. -/
def signsAgain (p : Spelling s) : Bool := startsWithSign p.before || startsWithSign p.after

theorem isLayout_iff (p : Spelling s) :
    IsLayout (trimChars s.toList) ↔ p.signsAgain = false := by
  rw [signsAgain, Bool.or_eq_false_iff, p.split]
  constructor
  · rintro ⟨mark, hours, minutes, same, -, hoursDigits, minutesDigits, -⟩
    obtain ⟨rfl, rfl⟩ := eq_of_colons (colon_not_mem p.hours_read)
      (colon_not_mem_digits hoursDigits) (List.cons.inj same).2
    exact ⟨not_startsWithSign hoursDigits, not_startsWithSign minutesDigits⟩
  · rintro ⟨hours, minutes⟩
    obtain ⟨hoursDigits, -⟩ := isDigits_of_unsigned p.hours_read hours
    obtain ⟨minutesDigits, value⟩ := isDigits_of_unsigned p.minutes_read minutes
    have few := p.minutes_lt
    exact ⟨_, _, _, rfl, p.signed, hoursDigits, minutesDigits, by omega⟩

end Spelling

/-- A text that is read is a sign, hours, a colon and minutes, and has the layout `+HH:MM` exactly
if neither the hours nor the minutes have a sign of their own. -/
theorem layout_of_accepted_iff {s : String} {o : Offset} (h : read? s = .ok (some o)) :
    Nonempty (Spelling s) ∧
      ∀ p : Spelling s, IsLayout (trimChars s.toList) ↔ p.signsAgain = false :=
  ⟨exists_spelling h, fun p => p.isLayout_iff⟩

/-- Five hours, less thirty minutes. -/
def lessMinutes : Spelling "+05:-30" where
  mark := '+'
  before := "05".toList
  after := "-30".toList
  hours := 5
  minutes := -30
  signed := .inl rfl
  split := by decide +kernel
  hours_read := by decide +kernel
  minutes_read := by decide +kernel
  hours_range := by decide
  minutes_range := by decide
  minutes_lt := by decide

theorem read?_lessMinutes : read? "+05:-30" = .ok (some ⟨16200, by decide⟩) := by decide +kernel

theorem layout_of_accepted_iff_lessMinutes :
    read? "+05:-30" = .ok (some ⟨16200, by decide⟩) ∧
    (IsLayout (trimChars "+05:-30".toList) ↔ lessMinutes.signsAgain = false) :=
  ⟨read?_lessMinutes, (layout_of_accepted_iff read?_lessMinutes).2 lessMinutes⟩

/-- Minutes with a sign of their own are taken off the hours. -/
theorem signed_minutes_accepted :
    read? "+05:-30" = .ok (some ⟨16200, by decide⟩) ∧
    ¬∀ (s : String) (o : Offset), read? s = .ok (some o) → IsLayout (trimChars s.toList) := by
  refine ⟨read?_lessMinutes, fun claimed => ?_⟩
  have unsigned := lessMinutes.isLayout_iff.mp (claimed _ _ read?_lessMinutes)
  exact absurd unsigned (by decide +kernel)

/-! ## Overflows -/

namespace Spelling

variable {s : String}

theorem fits_iff (p : Spelling s) : (∀ n ∈ p.steps, IsInt32 n) ↔
    (-596523 ≤ p.hours ∧ p.hours ≤ 596523) ∧ -35791394 ≤ p.minutes ∧
      IsInt32 (p.hours * 3600 + p.minutes * 60) := by
  have few := p.minutes_lt
  simp only [steps, List.forall_mem_cons, List.not_mem_nil, false_imp_iff, implies_true, and_true,
    IsInt32, total, sign]
  split <;> omega

end Spelling

/-- The arithmetic of a text that spells an offset does not overflow exactly if its hours and
minutes are in these bounds, and then it is read as the seconds it spells, or not at all if these
are out of range. Else nothing is read, whatever the seconds are. -/
theorem overflow_free_iff (s : String) :
    (IsEmpty (Spelling s) → read? s = .ok none) ∧
    ∀ p : Spelling s,
      ((∀ n ∈ p.steps, IsInt32 n) ↔ (-596523 ≤ p.hours ∧ p.hours ≤ 596523) ∧
        -35791394 ≤ p.minutes ∧ IsInt32 (p.hours * 3600 + p.minutes * 60)) ∧
      ((∀ n ∈ p.steps, IsInt32 n) → read? s = .ok (of? p.total)) ∧
      ((¬∀ n ∈ p.steps, IsInt32 n) → read? s = .error ⟨⟩) :=
  ⟨read?_of_unspelled, fun p => ⟨p.fits_iff, p.read?_of_fits, p.read?_of_overflow⟩⟩

/-- Half past five, 268435456 hours too far east. -/
def farEast : Spelling "+268435461:30" where
  mark := '+'
  before := "268435461".toList
  after := "30".toList
  hours := 268435461
  minutes := 30
  signed := .inl rfl
  split := by decide +kernel
  hours_read := by decide +kernel
  minutes_read := by decide +kernel
  hours_range := by decide
  minutes_range := by decide
  minutes_lt := by decide

theorem isEmpty_spelling_unsigned : IsEmpty (Spelling "05:30") := by
  refine ⟨fun p => ?_⟩
  have text : trimChars "05:30".toList = "05:30".toList := by decide +kernel
  have mark : p.mark = '0' := (List.cons.inj (p.split.symm.trans text)).1
  obtain plus | minus := p.signed
  · rw [plus] at mark
    exact absurd mark (by decide)
  · rw [minus] at mark
    exact absurd mark (by decide)

theorem overflow_free_iff_farEast :
    read? "05:30" = .ok none ∧
    ((∀ n ∈ lessMinutes.steps, IsInt32 n) ∧ read? "+05:-30" = .ok (of? 16200)) ∧
    (¬∀ n ∈ farEast.steps, IsInt32 n) ∧ read? "+268435461:30" = .error ⟨⟩ := by
  have fits : ∀ n ∈ lessMinutes.steps, IsInt32 n := by decide
  have far : ¬∀ n ∈ farEast.steps, IsInt32 n := by decide
  exact ⟨(overflow_free_iff "05:30").1 isEmpty_spelling_unsigned,
    ⟨fits, ((overflow_free_iff "+05:-30").2 lessMinutes).2.1 fits⟩,
    far, ((overflow_free_iff "+268435461:30").2 farEast).2.2 far⟩

/-- Hours far out of range overflow, and are not found to be out of range. -/
theorem farEast_overflows :
    read? "+268435461:30" = .error ⟨⟩ ∧
    ¬∀ (s : String) (p : Spelling s),
      (∀ n ∈ p.steps, IsInt32 n) ∧ (of? p.total = none → read? s = .ok none) := by
  have overflows : read? "+268435461:30" = .error ⟨⟩ := by decide +kernel
  refine ⟨overflows, fun claimed => ?_⟩
  have rejected := (claimed _ farEast).2 (by decide)
  rw [overflows] at rejected
  cases rejected

/-! ## Texts of offsets -/

theorem tdiv_sixty (n : Int) :
    n.tdiv 60 = if n < 0 then -((n.natAbs / 60 : Nat) : Int) else (n.natAbs / 60 : Nat) := by
  split
  · next negative =>
    have same : n = -(n.natAbs : Int) := by omega
    conv_lhs => rw [same]
    rw [Int.neg_tdiv]
    rfl
  · next positive =>
    have same : n = (n.natAbs : Int) := by omega
    conv_lhs => rw [same]
    rfl

/-- The offset without its seconds, so nearer to Greenwich if it has any. -/
def truncated (o : Offset) : Offset :=
  ⟨o.seconds.tdiv 60 * 60, by
    have range := o.range
    rw [tdiv_sixty]
    split <;> omega⟩

theorem truncated_of_whole {o : Offset} (h : o.seconds % 60 = 0) : o.truncated = o := by
  obtain ⟨seconds, range⟩ := o
  have whole : seconds.tdiv 60 * 60 = seconds := Int.tdiv_mul_cancel (Int.dvd_of_emod_eq_zero h)
  simp only [truncated, whole]

theorem of?_seconds (o : Offset) : of? o.seconds = some o := dif_pos o.range

theorem seconds_of_of? {n : Int} {o : Offset} (h : of? n = some o) : o.seconds = n := by
  obtain ⟨range, same⟩ := Option.dite_none_right_eq_some.mp h
  cases same
  rfl

/-- No blank is around a sign and digits. -/
theorem trimChars_marked {mark : Char} (hm : mark = '+' ∨ mark = '-') (before : List Char)
    {ds : List Char} (digits : IsDigits ds) :
    trimChars (mark :: (before ++ ':' :: ds)) = mark :: (before ++ ':' :: ds) := by
  refine trimChars_of_ends (fun c hc => ?_) fun c hc => ?_
  · cases hc
    obtain rfl | rfl := hm <;> rfl
  · have last : (mark :: (before ++ ':' :: ds)).getLast? = ds.getLast? := by
      rw [List.getLast?_cons_of_ne_nil (by simp), List.getLast?_append,
        List.getLast?_cons_of_ne_nil digits.nonempty,
        List.getLast?_eq_some_getLast digits.nonempty]
      rfl
    rw [last] at hc
    exact isBlank_of_isDigit (digits.digit c (List.mem_of_getLast? hc))

/-- The text of an offset spells its hours and minutes. -/
def spelling (o : Offset) : Spelling o.text where
  mark := if o.seconds < 0 then '-' else '+'
  before := padded 2 (o.seconds.natAbs / 60 / 60)
  after := padded 2 (o.seconds.natAbs / 60 % 60)
  hours := (o.seconds.natAbs / 60 / 60 : Nat)
  minutes := (o.seconds.natAbs / 60 % 60 : Nat)
  signed := by split <;> simp
  split := by
    rw [text, String.toList_ofList, List.cons_append]
    exact trimChars_marked (by split <;> simp) _ (isDigits_padded _ _)
  hours_read := readInt?_padded _ _
  minutes_read := readInt?_padded _ _
  hours_range := by
    have range := o.range
    constructor <;> omega
  minutes_range := by constructor <;> omega
  minutes_lt := by omega

theorem total_spelling (o : Offset) : o.spelling.total = o.truncated.seconds := by
  have whole : o.truncated.seconds = o.seconds.tdiv 60 * 60 := rfl
  rw [whole, tdiv_sixty, Spelling.total, Spelling.sign, spelling]
  by_cases negative : o.seconds < 0
  · simp only [if_pos negative, if_true]
    omega
  · simp only [if_neg negative, if_neg (show '+' ≠ '-' by decide)]
    omega

/-- An offset is read from its text without its seconds. -/
theorem read?_text_eq (o : Offset) : read? o.text = .ok (some o.truncated) := by
  have range := o.range
  have fits : ∀ n ∈ o.spelling.steps, IsInt32 n := by
    refine o.spelling.fits_iff.mpr ⟨?_, ?_, ?_⟩ <;> simp only [spelling, IsInt32] <;> omega
  rw [o.spelling.read?_of_fits fits, total_spelling, of?_seconds]

/-- An offset of whole minutes is read from its text. -/
theorem read?_text {o : Offset} (h : o.seconds % 60 = 0) : read? o.text = .ok (some o) := by
  rw [read?_text_eq, truncated_of_whole h]

/-- The layout of the texts of offsets, two digits for the hours and two for the minutes. -/
def IsPaired (s : String) : Prop :=
  ∃ mark hours minutes, s = String.ofList (mark :: (hours ++ ':' :: minutes)) ∧
    (mark = '+' ∨ mark = '-') ∧ IsDigits hours ∧ IsDigits minutes ∧
    hours.length = 2 ∧ minutes.length = 2

/-- The text of an offset is that of its hours and minutes, with the sign of its seconds. -/
theorem text_of_seconds {o : Offset} {sign : Int} (hs : sign = 1 ∨ sign = -1) {hours minutes : Nat}
    (few : minutes < 60) (h : o.seconds = sign * (hours * 3600 + minutes * 60)) :
    o.text = String.ofList ((if o.seconds < 0 then '-' else '+') ::
      (padded 2 hours ++ ':' :: padded 2 minutes)) := by
  have whole : o.seconds.natAbs / 60 = hours * 60 + minutes := by
    obtain rfl | rfl := hs <;> omega
  have hour : (hours * 60 + minutes) / 60 = hours := by omega
  have minute : (hours * 60 + minutes) % 60 = minutes := by omega
  rw [text, whole, hour, minute]
  rfl

/-- The seconds of what is read from a text of digits. -/
theorem seconds_of_layout {mark : Char} (marked : mark = '+' ∨ mark = '-')
    {hours minutes : List Char} (hoursDigits : IsDigits hours)
    (minutesDigits : IsDigits minutes) (two : hours.length = 2) {o : Offset}
    (h : read? (String.ofList (mark :: (hours ++ ':' :: minutes))) = .ok (some o)) :
    ofDigits minutes < 60 ∧ o.seconds =
      (if mark = '-' then -1 else 1) * (ofDigits hours * 3600 + ofDigits minutes * 60) := by
  obtain ⟨p⟩ := exists_spelling h
  have split := p.split
  rw [String.toList_ofList, trimChars_marked marked hours minutesDigits] at split
  obtain ⟨sameMark, rest⟩ := List.cons.inj split
  obtain ⟨sameHours, sameMinutes⟩ :=
    eq_of_colons (colon_not_mem_digits hoursDigits) (colon_not_mem p.hours_read) rest
  have hoursValue := (isDigits_of_unsigned p.hours_read
    (sameHours ▸ not_startsWithSign hoursDigits)).2
  have minutesValue := (isDigits_of_unsigned p.minutes_read
    (sameMinutes ▸ not_startsWithSign minutesDigits)).2
  rw [← sameHours] at hoursValue
  rw [← sameMinutes] at minutesValue
  have few := p.minutes_lt
  have short := ofDigits_lt_of_pair hoursDigits two
  have fits : ∀ n ∈ p.steps, IsInt32 n :=
    p.fits_iff.mpr ⟨by omega, by omega, by constructor <;> omega⟩
  rw [p.read?_of_fits fits] at h
  have seconds := seconds_of_of? (Except.ok.inj h)
  rw [Spelling.total, Spelling.sign, ← sameMark, hoursValue, minutesValue] at seconds
  exact ⟨by omega, seconds⟩

/-- A text of two digits for the hours and two for the minutes is the text of the offset that is
read from it, if it is not the nought with a minus. -/
theorem text_of_read? {s : String} (paired : IsPaired s) {o : Offset} (h : read? s = .ok (some o)) :
    o.text = if s = "-00:00" then "+00:00" else s := by
  by_cases nought : s = "-00:00"
  · have read : read? "-00:00" = .ok (some utc) := by decide +kernel
    rw [nought, read, Except.ok.injEq, Option.some.injEq] at h
    rw [if_pos nought, ← h]
    decide +kernel
  obtain ⟨mark, hours, minutes, rfl, marked, hoursDigits, minutesDigits, two, two'⟩ := paired
  obtain ⟨few, seconds⟩ := seconds_of_layout marked hoursDigits minutesDigits two h
  have sign : (if o.seconds < 0 then '-' else '+') = mark := by
    obtain rfl | rfl := marked
    · exact if_neg (by simp at seconds; omega)
    · refine if_pos (Int.not_le.mp fun positive => nought ?_)
      have noHours : ofDigits hours = 0 := by simp at seconds; omega
      have noMinutes : ofDigits minutes = 0 := by simp at seconds; omega
      rw [← padded_ofDigits hoursDigits two, ← padded_ofDigits minutesDigits two', noHours,
        noMinutes]
      decide +kernel
  rw [if_neg nought, text_of_seconds (by split <;> simp) few seconds, sign,
    padded_ofDigits hoursDigits two, padded_ofDigits minutesDigits two']

/-- The text of an offset is read as the offset without its seconds, which is the offset itself if
it has none. A text of two digits for the hours and two for the minutes is the text of what is read
from it, but for a nought with a minus. -/
theorem offset_text_read_back :
    (∀ o : Offset, read? o.text = .ok (some o.truncated)) ∧
    (∀ o : Offset, 60 ∣ o.seconds → read? o.text = .ok (some o)) ∧
    ∀ s : String, IsPaired s → ∀ o : Offset, read? s = .ok (some o) →
      o.text = if s = "-00:00" then "+00:00" else s := by
  refine ⟨read?_text_eq, fun o whole => ?_, fun s paired o => text_of_read? paired⟩
  exact read?_text (Int.emod_eq_zero_of_dvd whole)

/-- An hour and a half west, and a nought with a minus. -/
theorem offset_text_read_back_west :
    read? (Offset.mk (-5400) (by decide)).text = .ok (some ⟨-5400, by decide⟩) ∧
    (read? "-00:00" = .ok (some utc) ∧ utc.text = "+00:00") := by
  obtain ⟨-, whole, back⟩ := offset_text_read_back
  have nought : read? "-00:00" = .ok (some utc) := by decide +kernel
  have paired : IsPaired "-00:00" :=
    ⟨'-', padded 2 0, padded 2 0, by decide +kernel, .inr rfl, isDigits_padded 2 0,
      isDigits_padded 2 0, by decide +kernel, by decide +kernel⟩
  exact ⟨whole _ ⟨-90, rfl⟩, nought, (back _ paired utc nought).trans (if_pos rfl)⟩

end RecordQuery.Calendar.Offset
