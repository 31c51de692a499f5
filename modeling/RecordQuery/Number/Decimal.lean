import RecordQuery.Number.Binary

/-!
# Decimal text of floating-point numbers

`Decimal` is a signed `coefficient * 10 ^ exponent`. `Format.shortest` gives the decimal of fewest
digits that rounds to a number, the nearest of those; `Decimal.text` writes it without an
exponent. `Literal.read?` reads the usual spellings, and `Format.ofLiteral` rounds what was read.
-/

namespace RecordQuery.Number

structure Decimal where
  negative : Bool
  coefficient : Nat
  exponent : Int
  deriving DecidableEq, Repr

namespace Decimal

/-- Drops the zeros at the end of the coefficient; `fuel` bounds their number. -/
def stripZeros : Nat → Nat → Int → Nat × Int
  | 0, c, e => (c, e)
  | fuel + 1, c, e => if c % 10 = 0 then stripZeros fuel (c / 10) (e + 1) else (c, e)

/-- The same number with no zero at the end of its coefficient. -/
def normal (d : Decimal) : Decimal :=
  let (c, e) := stripZeros (digitCount d.coefficient - 1) d.coefficient d.exponent
  ⟨d.negative, c, e⟩

/-- Digits, and a point with digits after it when the exponent is negative. -/
def text (d : Decimal) : String :=
  let digits :=
    if 0 ≤ d.exponent then natDigits d.coefficient ++ List.replicate d.exponent.toNat '0'
    else
      let places := (-d.exponent).toNat
      let ds := padded (places + 1) d.coefficient
      ds.take (ds.length - places) ++ '.' :: ds.drop (ds.length - places)
  String.ofList (if d.negative then '-' :: digits else digits)

end Decimal

namespace Format

/-- The decimals that round to a positive number `m * 2 ^ e` lie between `low` and `high`; all
three are numerators over `den`. -/
structure Interval where
  low : Nat
  value : Nat
  high : Nat
  den : Nat
  /-- Both ends round to the number too. -/
  closed : Bool
  deriving DecidableEq, Repr

/-- Below the least number of a binade the gap is half as wide. -/
def interval (f : Format) (m : Nat) (e : Int) : Interval :=
  let narrow := m == twoPow f.fractionBits && f.minExponent < e
  let (s, den) := scaleRatio 1 1 (2 - e)
  ⟨(if narrow then 4 * m - 1 else 4 * m - 2) * s, 4 * m * s, (4 * m + 2) * s, den, m % 2 == 0⟩

namespace Interval

/-- The exponent of the first digit. -/
def leading (i : Interval) : Int :=
  if i.den ≤ i.value then (digitCount (i.value / i.den) : Int) - 1
  else -(digitCount ((i.den + i.value - 1) / i.value - 1) : Int)

/-- The multiple of `10 ^ place` in the interval that is nearest to the number, a tie upwards. -/
def onGrid (i : Interval) (place : Int) : Option Nat :=
  let a := if place < 0 then tenPow (-place).toNat else 1
  let b := i.den * if place < 0 then 1 else tenPow place.toNat
  let fits (x : Nat) : Bool :=
    if i.closed then i.low * a ≤ x && x ≤ i.high * a else i.low * a < x && x < i.high * a
  let q := i.value * a / b
  let below := fits (q * b)
  let above := fits ((q + 1) * b)
  if below && (!above || i.value * a - q * b < (q + 1) * b - i.value * a) then some q
  else if above then some (q + 1)
  else none

/-- The grids of one digit, two digits and so on; the first with a point in the interval. -/
def shortest (i : Interval) (maxDigits : Nat) : Option (Nat × Int) :=
  (List.range maxDigits).findSome? fun (k : Nat) =>
    let place := i.leading - k
    (i.onGrid place).map fun c => (c, place)

end Interval

/-- Seventeen digits tell all numbers of either format apart. -/
def shortest (f : Format) (negative : Bool) (m : Nat) (e : Int) : Decimal :=
  if m = 0 then ⟨negative, 0, 0⟩
  else match (f.interval m e).shortest 17 with
    | some (c, p) => Decimal.normal ⟨negative, c, p⟩
    | none => ⟨negative, 0, 0⟩

def text (f : Format) : Datum → String
  | .nan => "NaN"
  | .infinite negative => if negative then "-inf" else "inf"
  | .finite negative m e => (f.shortest negative m e).text

end Format

/-- What a floating-point literal spells. -/
inductive Literal where
  | nan
  | infinite (negative : Bool)
  | finite (d : Decimal)
  deriving DecidableEq, Repr

namespace Literal

/-- An exponent part, or nothing: the exponent. -/
def readExponent? : List Char → Option Int
  | [] => some 0
  | c :: cs => if c = 'e' ∨ c = 'E' then readInt? cs else none

/-- Digits with an optional point and an optional exponent. -/
def readDecimal? (negative : Bool) (cs : List Char) : Option Decimal :=
  let (front, rest) := spanDigits cs
  let (back, rest) := match rest with
    | '.' :: r => spanDigits r
    | r => ([], r)
  if front.isEmpty && back.isEmpty then none
  else (readExponent? rest).map fun e =>
    ⟨negative, ofDigits (front ++ back), e - back.length⟩

/-- A sign, then digits or a name of infinity or of no number in letters of either case. -/
def read? (cs : List Char) : Option Literal :=
  let (negative, rest) := spanSign cs
  let word := String.ofList (rest.map Char.toLower)
  if word == "inf" || word == "infinity" then some (.infinite negative)
  else if word == "nan" then some .nan
  else (readDecimal? negative rest).map .finite

end Literal

namespace Format

/-- The nearest number to a decimal. A decimal past `10 ^ 400` is past every number, and one below
`10 ^ -400` is nearest to zero. -/
def ofDecimal (f : Format) (d : Decimal) : Nat :=
  let size : Int := digitCount d.coefficient + d.exponent
  f.withSign d.negative <|
    if d.coefficient = 0 ∨ size < -400 then 0
    else if 400 < size then f.infinityBits
    else if d.exponent < 0 then f.roundRatio d.coefficient (tenPow (-d.exponent).toNat)
    else f.roundRatio (d.coefficient * tenPow d.exponent.toNat) 1

def ofLiteral (f : Format) : Literal → Nat
  | .nan => f.encode .nan
  | .infinite negative => f.encode (.infinite negative)
  | .finite d => f.ofDecimal d

end Format

namespace Single

def text (x : Single) : String := Format.single.text x.datum

def read? (s : String) : Option Single :=
  (Literal.read? s.toList).map fun l => ⟨(Format.single.ofLiteral l).toUInt32⟩

end Single

namespace Double

def text (x : Double) : String := Format.double.text x.datum

def read? (s : String) : Option Double :=
  (Literal.read? s.toList).map fun l => ⟨(Format.double.ofLiteral l).toUInt64⟩

end Double

end RecordQuery.Number
