/-!
# Hexadecimal digits

Digits are written in lower case and read in either case.
-/

namespace RecordQuery.Number

/-- The value of a hexadecimal digit. -/
def hexValue? (c : Char) : Option Nat :=
  if '0' ≤ c ∧ c ≤ '9' then some (c.toNat - '0'.toNat)
  else if 'a' ≤ c ∧ c ≤ 'f' then some (c.toNat - 'a'.toNat + 10)
  else if 'A' ≤ c ∧ c ≤ 'F' then some (c.toNat - 'A'.toNat + 10)
  else none

def hexChar (n : Nat) : Char :=
  if n < 10 then Char.ofNat ('0'.toNat + n) else Char.ofNat ('a'.toNat + (n - 10))

/-- Two lower-case digits for every octet. -/
def hexText (octets : List UInt8) : List Char :=
  octets.flatMap fun b => [hexChar (b.toNat / 16), hexChar (b.toNat % 16)]

/-- The octets a list of digit pairs spells. -/
def readHex? : List Char → Option (List UInt8)
  | [] => some []
  | [_] => none
  | a :: b :: rest => do
    let high ← hexValue? a
    let low ← hexValue? b
    let octets ← readHex? rest
    return (high * 16 + low).toUInt8 :: octets

end RecordQuery.Number
