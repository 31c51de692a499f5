/-!
# Dates and times of day

Dates of the proleptic Gregorian calendar from year -262143 to year 262142, and times of day to
the nanosecond. A leap second is the second before it with a nanosecond count of at least 10^9.
-/

namespace RecordQuery.Calendar

def isLeap (year : Int) : Bool := year % 4 == 0 && (year % 100 != 0 || year % 400 == 0)

def daysIn (year : Int) (month : Nat) : Nat :=
  if month = 2 then if isLeap year then 29 else 28
  else if month = 4 ∨ month = 6 ∨ month = 9 ∨ month = 11 then 30
  else 31

def minYear : Int := -262143

def maxYear : Int := 262142

structure Date where
  year : Int
  month : Nat
  day : Nat
  year_range : minYear ≤ year ∧ year ≤ maxYear
  month_range : 1 ≤ month ∧ month ≤ 12
  day_range : 1 ≤ day ∧ day ≤ daysIn year month
  deriving DecidableEq, Repr

namespace Date

/-- The date of a year, a month and a day, if there is such a day. -/
def of? (year : Int) (month day : Nat) : Option Date :=
  if h : (minYear ≤ year ∧ year ≤ maxYear) ∧ (1 ≤ month ∧ month ≤ 12)
      ∧ (1 ≤ day ∧ day ≤ daysIn year month) then
    some ⟨year, month, day, h.1, h.2.1, h.2.2⟩
  else none

def next? (d : Date) : Option Date :=
  if d.day < daysIn d.year d.month then of? d.year d.month (d.day + 1)
  else if d.month < 12 then of? d.year (d.month + 1) 1
  else of? (d.year + 1) 1 1

def previous? (d : Date) : Option Date :=
  if 1 < d.day then of? d.year d.month (d.day - 1)
  else if 1 < d.month then of? d.year (d.month - 1) (daysIn d.year (d.month - 1))
  else of? (d.year - 1) 12 31

theorem of?_self (d : Date) : of? d.year d.month d.day = some d := by
  rw [of?, dif_pos ⟨d.year_range, d.month_range, d.day_range⟩]

end Date

def nanosPerSecond : Nat := 1000000000

/-- A time of day, with a leap second after any second. -/
structure TimeOfDay where
  hour : Nat
  minute : Nat
  second : Nat
  nanos : Nat
  hour_lt : hour < 24
  minute_lt : minute < 60
  second_lt : second < 60
  nanos_lt : nanos < 2 * nanosPerSecond
  deriving DecidableEq, Repr

namespace TimeOfDay

/-- A leap second, if this is one, is the last of its minute. -/
def LeapLast (t : TimeOfDay) : Prop := nanosPerSecond ≤ t.nanos → t.second = 59

instance : DecidablePred LeapLast := fun t =>
  inferInstanceAs (Decidable (nanosPerSecond ≤ t.nanos → t.second = 59))

/-- The time of day of its parts; a leap second is given as one after second 59. -/
def of? (hour minute second nanos : Nat) : Option TimeOfDay :=
  if h : (hour < 24 ∧ minute < 60 ∧ second < 60 ∧ nanos < 2 * nanosPerSecond)
      ∧ (nanosPerSecond ≤ nanos → second = 59) then
    some ⟨hour, minute, second, nanos, h.1.1, h.1.2.1, h.1.2.2.1, h.1.2.2.2⟩
  else none

theorem of?_self {t : TimeOfDay} (h : t.LeapLast) :
    of? t.hour t.minute t.second t.nanos = some t := by
  rw [of?, dif_pos ⟨⟨t.hour_lt, t.minute_lt, t.second_lt, t.nanos_lt⟩, h⟩]

end TimeOfDay

end RecordQuery.Calendar
