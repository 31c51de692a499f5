import RecordQuery.Calendar.Date

/-!
# Timestamps

A date and a time of day without a time zone.
-/

namespace RecordQuery.Calendar

structure Timestamp where
  date : Date
  time : TimeOfDay
  deriving DecidableEq, Repr

namespace Timestamp

def of? (year : Int) (month day hour minute second nanos : Nat) : Option Timestamp := do
  let date ← Date.of? year month day
  let time ← TimeOfDay.of? hour minute second nanos
  return ⟨date, time⟩

/-- Midnight at the start of 1970. -/
def epoch : Timestamp :=
  ⟨⟨1970, 1, 1, by decide, by decide, by decide⟩,
    ⟨0, 0, 0, 0, by decide, by decide, by decide, by decide⟩⟩

/-- The timestamp a number of minutes earlier (later, for a negative number), less than a day
away. Seconds and their fraction stay. -/
def minutesBefore? (t : Timestamp) (minutes : Int) : Option Timestamp := do
  let total : Int := t.time.hour * 60 + t.time.minute - minutes
  let date ←
    if total < 0 then t.date.previous?
    else if 1440 ≤ total then t.date.next?
    else some t.date
  let m := (total % 1440).toNat
  return ⟨date, { t.time with
    hour := m / 60, minute := m % 60, hour_lt := by omega, minute_lt := by omega }⟩

end Timestamp

end RecordQuery.Calendar
