import RecordQuery.Calendar.Timestamp
import RecordQuery.Number.Digits
import RecordQuery.Number.Power
import RecordQuery.Text.Blank

/-!
# Timestamp text

A `Layout` is a list of items that both writes and reads a timestamp. `storage` is the layout
timestamps are kept in as text, `iso` the one they travel in; text in any of the accepted layouts
is read by `Timestamp.read?`.
-/

namespace RecordQuery.Calendar

open RecordQuery.Number RecordQuery.Text

/-- A numeric part of a timestamp. -/
inductive Part where
  | year | month | day | hour | minute | second
  deriving DecidableEq, Repr

inductive LayoutItem where
  /-- Written with zeros to the full width; read with blanks before it and fewer digits. A year
  may have a sign, and then any number of digits. -/
  | number (p : Part)
  /-- Read at exactly the full width. -/
  | exact (p : Part)
  | mark (c : Char)
  /-- Any of several characters; the first is written. -/
  | anyOf (cs : List Char)
  /-- Read as any run of blanks, also none. -/
  | blanks (written : List Char)
  /-- Nothing, or a point and a fraction of a second. -/
  | fraction
  deriving DecidableEq, Repr

abbrev Layout := List LayoutItem

/-- The parts a text was read into, before they are known to be a timestamp. -/
structure Parts where
  year : Int := 0
  month : Nat := 0
  day : Nat := 0
  hour : Nat := 0
  minute : Nat := 0
  second : Nat := 0
  nanos : Nat := 0
  deriving DecidableEq, Repr

namespace Parts

def set (ps : Parts) : Part → Int → Parts
  | .year, n => { ps with year := n }
  | .month, n => { ps with month := n.toNat }
  | .day, n => { ps with day := n.toNat }
  | .hour, n => { ps with hour := n.toNat }
  | .minute, n => { ps with minute := n.toNat }
  | .second, n => { ps with second := n.toNat }

/-- A leap second is shown as the second after, which may be second 60. -/
def ofTimestamp (t : Timestamp) : Parts :=
  ⟨t.date.year, t.date.month, t.date.day, t.time.hour, t.time.minute,
    t.time.second + t.time.nanos / nanosPerSecond, t.time.nanos % nanosPerSecond⟩

/-- Second 60 is a leap second. -/
def timestamp? (ps : Parts) : Option Timestamp :=
  if ps.second = 60 then
    Timestamp.of? ps.year ps.month ps.day ps.hour ps.minute 59 (ps.nanos + nanosPerSecond)
  else Timestamp.of? ps.year ps.month ps.day ps.hour ps.minute ps.second ps.nanos

end Parts

def Part.width : Part → Nat
  | .year => 4
  | _ => 2

/-! ## Writing -/

/-- Years outside 0 to 9999 carry a sign. -/
def yearText (y : Int) : List Char :=
  if 0 ≤ y ∧ y ≤ 9999 then padded 4 y.toNat
  else (if y < 0 then '-' else '+') :: padded 4 y.natAbs

def partText (ps : Parts) : Part → List Char
  | .year => yearText ps.year
  | .month => padded 2 ps.month
  | .day => padded 2 ps.day
  | .hour => padded 2 ps.hour
  | .minute => padded 2 ps.minute
  | .second => padded 2 ps.second

/-- The fewest of no, three, six or nine digits that show all of a fraction. -/
def fractionText (nanos : Nat) : List Char :=
  if nanos = 0 then []
  else if nanos % 1000000 = 0 then '.' :: padded 3 (nanos / 1000000)
  else if nanos % 1000 = 0 then '.' :: padded 6 (nanos / 1000)
  else '.' :: padded 9 nanos

def LayoutItem.write (ps : Parts) : LayoutItem → List Char
  | number p => partText ps p
  | exact p => partText ps p
  | mark c => [c]
  | anyOf cs => cs.take 1
  | blanks written => written
  | fraction => fractionText ps.nanos

def Layout.write (l : Layout) (t : Timestamp) : String :=
  String.ofList (l.flatMap (LayoutItem.write (.ofTimestamp t)))

/-! ## Reading -/

/-- Blanks, then a number of at most the part's width; after a sign, a year of any width. -/
def readNumber? (p : Part) (cs : List Char) : Option (Int × List Char) :=
  let number (negative : Bool) (r : List Char × List Char) : Option (Int × List Char) :=
    if r.1.isEmpty then none
    else some (if negative then -(ofDigits r.1 : Int) else ofDigits r.1, r.2)
  match p, trimStart cs with
  | .year, '-' :: rest => number true (spanDigits rest)
  | .year, '+' :: rest => number false (spanDigits rest)
  | p, rest => number false (spanDigitsUpTo p.width rest)

def readExact? (p : Part) (cs : List Char) : Option (Int × List Char) :=
  let (ds, rest) := spanDigitsUpTo p.width cs
  if ds.length = p.width then some (ofDigits ds, rest) else none

/-- After a point, one to nine digits of a fraction; further digits are dropped. -/
def readFraction? : List Char → Option (Nat × List Char)
  | '.' :: cs =>
    let (ds, rest) := spanDigitsUpTo 9 cs
    if ds.isEmpty then none
    else some (ofDigits ds * tenPow (9 - ds.length), (spanDigits rest).2)
  | cs => some (0, cs)

def LayoutItem.read? (ps : Parts) (cs : List Char) : LayoutItem → Option (Parts × List Char)
  | number p => (readNumber? p cs).map fun (n, rest) => (ps.set p n, rest)
  | exact p => (readExact? p cs).map fun (n, rest) => (ps.set p n, rest)
  | mark c => match cs with
    | d :: rest => if d = c then some (ps, rest) else none
    | [] => none
  | anyOf ms => match cs with
    | d :: rest => if ms.contains d then some (ps, rest) else none
    | [] => none
  | blanks _ => some (ps, trimStart cs)
  | fraction => (readFraction? cs).map fun (n, rest) => ({ ps with nanos := n }, rest)

/-- The parts a layout reads from the front of a text, and what follows. -/
def Layout.readParts? : Layout → Parts → List Char → Option (Parts × List Char)
  | [], ps, cs => some (ps, cs)
  | item :: items, ps, cs => do
    let (ps, rest) ← item.read? ps cs
    Layout.readParts? items ps rest

/-- The timestamp a whole text spells in a layout. -/
def Layout.read? (l : Layout) (s : String) : Option Timestamp := do
  let (ps, rest) ← l.readParts? {} s.toList
  if rest.isEmpty then ps.timestamp? else none

/-! ## Layouts in use -/

/-- The layout `2024-03-01 08:30:00.250`. -/
def Layout.storage : Layout :=
  [.number .year, .mark '-', .number .month, .mark '-', .number .day, .blanks [' '],
    .number .hour, .mark ':', .number .minute, .mark ':', .number .second, .fraction]

/-- The storage layout with a `T` between date and time. -/
def Layout.storageT : Layout :=
  [.number .year, .mark '-', .number .month, .mark '-', .number .day, .mark 'T',
    .number .hour, .mark ':', .number .minute, .mark ':', .number .second, .fraction]

/-- The layout `2024-03-01T08:30:00.250`, read with blanks between the parts and at the end. -/
def Layout.iso : Layout :=
  [.number .year, .blanks [], .mark '-', .number .month, .blanks [], .mark '-', .number .day,
    .blanks [], .mark 'T', .number .hour, .blanks [], .mark ':', .number .minute, .blanks [],
    .mark ':', .number .second, .fraction, .blanks []]

/-- The date and time part of an Internet timestamp. -/
def Layout.internet : Layout :=
  [.exact .year, .mark '-', .exact .month, .mark '-', .exact .day, .anyOf ['T', 't', ' '],
    .exact .hour, .mark ':', .exact .minute, .mark ':', .exact .second, .fraction]

/-- A time zone as minutes east: `Z`, or a sign and `HH:MM` less than a day. -/
def readZone? (cs : List Char) : Option Int :=
  match cs with
  | ['Z'] => some 0
  | ['z'] => some 0
  | sign :: h1 :: h2 :: ':' :: m1 :: m2 :: [] =>
    if (sign = '+' ∨ sign = '-' ∨ sign = '\u2212') ∧ [h1, h2, m1, m2].all isDigit
        ∧ ofDigits [h1, h2] < 24 ∧ ofDigits [m1, m2] < 60 then
      let minutes : Int := ofDigits [h1, h2] * 60 + ofDigits [m1, m2]
      some (if sign = '+' then minutes else -minutes)
    else none
  | _ => none

namespace Timestamp

/-- The text a timestamp is stored as. -/
def text (t : Timestamp) : String := Layout.storage.write t

def isoText (t : Timestamp) : String := Layout.iso.write t

def readIso? (s : String) : Option Timestamp := Layout.iso.read? s

/-- An Internet timestamp, moved to Coordinated Universal Time. -/
def readInternet? (s : String) : Option Timestamp := do
  let (ps, rest) ← Layout.internet.readParts? {} s.toList
  let t ← ps.timestamp?
  let minutes ← readZone? rest
  t.minutesBefore? minutes

/-- Text in the storage layout, the storage layout with a `T`, or the Internet layout. -/
def read? (s : String) : Option Timestamp :=
  (Layout.storage.read? s).orElse fun _ =>
    (Layout.storageT.read? s).orElse fun _ => readInternet? s

end Timestamp

end RecordQuery.Calendar
