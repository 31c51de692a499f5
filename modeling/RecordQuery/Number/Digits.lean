/-!
# Digits

Whole numbers as decimal digits. `readInt?` reads an optional sign and one or more ASCII digits;
`natText` and `padded` write them.
-/

namespace RecordQuery.Number

def isDigit (c : Char) : Bool := '0' ≤ c && c ≤ '9'

def digitValue (c : Char) : Nat := c.toNat - '0'.toNat

/-- The digit character of a number below ten. -/
def digitChar (n : Nat) : Char := Char.ofNat ('0'.toNat + n)

/-- The number a list of digits writes, continued from `acc`. -/
def ofDigitsFrom (acc : Nat) (cs : List Char) : Nat :=
  cs.foldl (fun n c => n * 10 + digitValue c) acc

def ofDigits (cs : List Char) : Nat := ofDigitsFrom 0 cs

/-- The digits at the front and what follows them. -/
def spanDigits (cs : List Char) : List Char × List Char :=
  (cs.takeWhile isDigit, cs.dropWhile isDigit)

/-- At most `limit` digits from the front and what follows them. -/
def spanDigitsUpTo (limit : Nat) (cs : List Char) : List Char × List Char :=
  let ds := (cs.take limit).takeWhile isDigit
  (ds, cs.drop ds.length)

/-- One or more digits and nothing else. -/
def readNat? (cs : List Char) : Option Nat :=
  if !cs.isEmpty && cs.all isDigit then some (ofDigits cs) else none

/-- A sign, if there is one, as "negative", and what follows it. -/
def spanSign : List Char → Bool × List Char
  | '-' :: cs => (true, cs)
  | '+' :: cs => (false, cs)
  | cs => (false, cs)

/-- An optional sign and one or more digits. -/
def readInt? (cs : List Char) : Option Int :=
  let (negative, digits) := spanSign cs
  (readNat? digits).map fun n => if negative then -(n : Int) else n

/-- The digits of a number, most significant first. -/
def natDigits (n : Nat) : List Char := Nat.toDigits 10 n

def natText (n : Nat) : String := String.ofList (natDigits n)

def intText (n : Int) : String :=
  if n < 0 then "-" ++ natText n.natAbs else natText n.natAbs

/-- The digits of a number with zeros in front up to a width. -/
def padded (width n : Nat) : List Char :=
  let ds := natDigits n
  List.replicate (width - ds.length) '0' ++ ds

/-- The number of digits of a positive number; zero has none. -/
def digitCount (n : Nat) : Nat := if n = 0 then 0 else (natDigits n).length

/-- A 32-bit integer, if the number is one. -/
def int32? (n : Int) : Option Int32 :=
  if Int32.minValue.toInt ≤ n ∧ n ≤ Int32.maxValue.toInt then some (Int32.ofInt n) else none

/-- A 64-bit integer, if the number is one. -/
def int64? (n : Int) : Option Int64 :=
  if Int64.minValue.toInt ≤ n ∧ n ≤ Int64.maxValue.toInt then some (Int64.ofInt n) else none

end RecordQuery.Number
