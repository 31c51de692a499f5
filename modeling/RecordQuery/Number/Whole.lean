import RecordQuery.Number.Binary
import RecordQuery.Number.Digits

/-!
# Whole floating-point numbers

`Double.whole?` is the 64-bit integer that a number equals. Whether there is one is found in
floating-point arithmetic: the number less itself towards zero is zero, and the number is between
the least and the greatest integer, the latter rounded to a number of the format.
-/

namespace RecordQuery.Number

/-- The natural number next to `m * 2 ^ e` towards zero. -/
def wholePart (m : Nat) (e : Int) : Nat :=
  if 0 ≤ e then m * twoPow e.toNat else m / twoPow (-e).toNat

def withMinus (negative : Bool) (n : Nat) : Int := if negative then -(n : Int) else n

/-- The number `m * 2 ^ e` as a multiple of `2 ^ low`, for `low` at most `e`. -/
def multipleOf (low : Int) (negative : Bool) (m : Nat) (e : Int) : Int :=
  withMinus negative (m * twoPow (e - low).toNat)

namespace Datum

/-- The integer next to a number towards zero. -/
def trunc : Datum → Datum
  | finite negative m e => finite negative (wholePart m e) 0
  | v => v

/-- The exact difference; zero is negative only as the difference of a negative and a positive
zero. -/
def sub : Datum → Datum → Datum
  | nan, _ => nan
  | _, nan => nan
  | infinite a, infinite b => if a = b then nan else infinite a
  | infinite a, finite _ _ _ => infinite a
  | finite _ _ _, infinite b => infinite (!b)
  | finite a m e, finite b n p =>
    let low := min e p
    let d := multipleOf low a m e - multipleOf low b n p
    finite (d < 0 || (d == 0 && a && !b)) d.natAbs low

/-- The order of two numbers; there is none with what is not a number. -/
def order? : Datum → Datum → Option Ordering
  | nan, _ => none
  | _, nan => none
  | infinite a, infinite b => some (compare b a)
  | infinite a, finite _ _ _ => some (if a then .lt else .gt)
  | finite _ _ _, infinite b => some (if b then .gt else .lt)
  | finite a m e, finite b n p =>
    some (compare (multipleOf (min e p) a m e) (multipleOf (min e p) b n p))

/-- The nearest 64-bit integer towards zero; zero for what is not a number. -/
def toInt64 : Datum → Int64
  | nan => 0
  | infinite negative => if negative then Int64.minValue else Int64.maxValue
  | finite negative m e =>
    Int64.ofInt (max Int64.minValue.toInt
      (min Int64.maxValue.toInt (withMinus negative (wholePart m e))))

end Datum

namespace Double

def trunc (x : Double) : Double := ofDatum x.datum.trunc

def sub (x y : Double) : Double := ofDatum (x.datum.sub y.datum)

/-- What a number has after its point. -/
def fract (x : Double) : Double := x.sub x.trunc

def equals (x y : Double) : Bool := x.datum.order? y.datum == some .eq

def less (x y : Double) : Bool := x.datum.order? y.datum == some .lt

def lessOrEqual (x y : Double) : Bool := x.less y || x.equals y

/-- The 64-bit integer a number equals, if it equals one. -/
def whole? (x : Double) : Option Int64 :=
  if x.fract.equals (ofInt 0) && (ofInt Int64.minValue.toInt).lessOrEqual x
      && x.less (ofInt Int64.maxValue.toInt) then
    some x.datum.toInt64
  else none

end Double

end RecordQuery.Number
