import RecordQuery.Number.Digits
import RecordQuery.Number.Power

/-!
# Binary floating-point numbers

A number of a `Format` is kept as its bits, so equal values are equal data. `Format.decode` says
what bits denote, `±m * 2 ^ e` with exact `m` and `e`; `Format.encode` gives the bits of the
nearest number, ties to the even neighbour. `Single` and `Double` are the two formats in use, and
all conversions between them, from integers and to integers go through these two functions.
-/

namespace RecordQuery.Number

/-- A binary interchange format, by the widths of its exponent and fraction fields. -/
structure Format where
  exponentBits : Nat
  fractionBits : Nat
  deriving DecidableEq, Repr

/-- What the bits of a number denote. -/
inductive Datum where
  | nan
  | infinite (negative : Bool)
  /-- The number `m * 2 ^ e`, negated if `negative`. -/
  | finite (negative : Bool) (m : Nat) (e : Int)
  deriving DecidableEq, Repr

namespace Format

def single : Format := ⟨8, 23⟩

def double : Format := ⟨11, 52⟩

/-- The exponent of the last place of the smallest numbers. -/
def minExponent (f : Format) : Int := 2 - (twoPow (f.exponentBits - 1) : Int) - f.fractionBits

def signBit (f : Format) : Nat := twoPow (f.exponentBits + f.fractionBits)

/-- The bits of positive infinity, above those of every finite magnitude. -/
def infinityBits (f : Format) : Nat := (twoPow f.exponentBits - 1) * twoPow f.fractionBits

def exponentField (f : Format) (bits : Nat) : Nat :=
  bits / twoPow f.fractionBits % twoPow f.exponentBits

def fractionField (f : Format) (bits : Nat) : Nat := bits % twoPow f.fractionBits

def isNegative (f : Format) (bits : Nat) : Bool := bits / f.signBit % 2 == 1

def decode (f : Format) (bits : Nat) : Datum :=
  let field := f.exponentField bits
  let fraction := f.fractionField bits
  if field = twoPow f.exponentBits - 1 then
    if fraction = 0 then .infinite (f.isNegative bits) else .nan
  else if field = 0 then .finite (f.isNegative bits) fraction f.minExponent
  else .finite (f.isNegative bits) (twoPow f.fractionBits + fraction) (f.minExponent + field - 1)

/-- The quotient rounded to the nearest number, a tie to the even one. -/
def divEven (n d : Nat) : Nat :=
  let q := n / d
  let r := n % d
  if 2 * r < d || (2 * r == d && q % 2 == 0) then q else q + 1

/-- `n / d` as a quotient of naturals after division by `2 ^ e`. -/
def scaleRatio (n d : Nat) (e : Int) : Nat × Nat :=
  if e < 0 then (n * twoPow (-e).toNat, d) else (n, d * twoPow e.toNat)

/-- The exponent of the last place of the number nearest to `n / d`. -/
def lastPlace (f : Format) (n d : Nat) : Int :=
  let guess := (n.log2 : Int) - d.log2 - f.fractionBits - 1
  let (n', d') := scaleRatio n d guess
  let e := if n' / d' < twoPow (f.fractionBits + 1) then guess else guess + 1
  max e f.minExponent

/-- The bits of the magnitude nearest to `n / d`, for positive `d`. -/
def roundRatio (f : Format) (n d : Nat) : Nat :=
  if n = 0 then 0
  else
    let e := f.lastPlace n d
    let (n', d') := scaleRatio n d e
    let bits := (e - f.minExponent).toNat * twoPow f.fractionBits + divEven n' d'
    min bits f.infinityBits

def withSign (f : Format) (negative : Bool) (magnitude : Nat) : Nat :=
  if negative then f.signBit + magnitude else magnitude

def encode (f : Format) : Datum → Nat
  | .nan => f.infinityBits + twoPow (f.fractionBits - 1)
  | .infinite negative => f.withSign negative f.infinityBits
  | .finite negative m e =>
    let (n, d) := scaleRatio m 1 (-e)
    f.withSign negative (f.roundRatio n d)

/-- The nearest number to an integer. -/
def ofInt (f : Format) (n : Int) : Nat := f.encode (.finite (n < 0) n.natAbs 0)

end Format

namespace Datum

def isNaN : Datum → Bool
  | nan => true
  | _ => false

end Datum

/-- A number of 32 bits. -/
structure Single where
  bits : UInt32
  deriving DecidableEq, Repr

/-- A number of 64 bits. -/
structure Double where
  bits : UInt64
  deriving DecidableEq, Repr

namespace Single

def datum (x : Single) : Datum := Format.single.decode x.bits.toNat

def ofDatum (v : Datum) : Single := ⟨(Format.single.encode v).toUInt32⟩

def ofInt (n : Int) : Single := ⟨(Format.single.ofInt n).toUInt32⟩

end Single

namespace Double

def datum (x : Double) : Datum := Format.double.decode x.bits.toNat

def ofDatum (v : Datum) : Double := ⟨(Format.double.encode v).toUInt64⟩

def ofInt (n : Int) : Double := ⟨(Format.double.ofInt n).toUInt64⟩

def ofSingle (x : Single) : Double := ofDatum x.datum

def isNaN (x : Double) : Bool := x.datum.isNaN

end Double

/-- The nearest single number. -/
def Single.ofDouble (x : Double) : Single := Single.ofDatum x.datum

end RecordQuery.Number
