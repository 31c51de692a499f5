import RecordQuery.Number.Checked
import RecordQuery.Text.Blank

/-!
# Time zone offsets

An `Offset` is a whole number of seconds east of Greenwich, less than a day either way. Its text
`+HH:MM` drops the seconds.
-/

namespace RecordQuery.Calendar

open RecordQuery.Number RecordQuery.Text

structure Offset where
  seconds : Int
  range : -86400 < seconds ∧ seconds < 86400
  deriving DecidableEq, Repr

namespace Offset

def utc : Offset := ⟨0, by decide⟩

def of? (seconds : Int) : Option Offset :=
  if h : -86400 < seconds ∧ seconds < 86400 then some ⟨seconds, h⟩ else none

def text (o : Offset) : String :=
  let minutes := o.seconds.natAbs / 60
  let sign := if o.seconds < 0 then '-' else '+'
  String.ofList (sign :: padded 2 (minutes / 60) ++ ':' :: padded 2 (minutes % 60))

/-- What stands before and after the first colon. -/
def splitColon : List Char → Option (List Char × List Char)
  | [] => none
  | c :: cs =>
    if c = ':' then some ([], cs)
    else (splitColon cs).map fun (before, after) => (c :: before, after)

/-- A 32-bit integer as `readInt?` spells it, so with a sign of its own or without. -/
def readInt32? (cs : List Char) : Option Int32 := (readInt? cs).bind int32?

/-- A sign, hours, a colon and minutes below 60, with blanks around them. -/
def readParts? (s : String) : Option (Int32 × Int32 × Int32) :=
  let parts (sign : Int32) (cs : List Char) : Option (Int32 × Int32 × Int32) := do
    let (before, after) ← splitColon cs
    let hours ← readInt32? before
    let minutes ← readInt32? after
    if 60 ≤ minutes then none else some (sign, hours, minutes)
  match trimChars s.toList with
  | '+' :: cs => parts 1 cs
  | '-' :: cs => parts (-1) cs
  | _ => none

/-- The seconds of hours and minutes, computed in 32 bits. -/
def secondsOf (sign hours minutes : Int32) : Except Overflow Int32 := do
  let ofHours ← checkedInt32 (hours.toInt * 3600)
  let ofMinutes ← checkedInt32 (minutes.toInt * 60)
  let sum ← checkedInt32 (ofHours.toInt + ofMinutes.toInt)
  checkedInt32 (sign.toInt * sum.toInt)

/-- The offset that a text gives, if it is one. The seconds are computed before it is known whether
they are those of an offset. -/
def read? (s : String) : Except Overflow (Option Offset) :=
  match readParts? s with
  | none => .ok none
  | some (sign, hours, minutes) => (secondsOf sign hours minutes).map fun n => of? n.toInt

end Offset

end RecordQuery.Calendar
