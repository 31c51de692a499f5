import RecordQuery.Number.Hex

/-!
# Universally unique identifiers

Sixteen octets. The text form is hyphenated lower-case hexadecimal; it is read also without
hyphens, in braces, or after `urn:uuid:`, with letters in either case.
-/

namespace RecordQuery

open Number

structure Uuid where
  octets : List UInt8
  size : octets.length = 16
  deriving DecidableEq, Repr

namespace Uuid

def ofOctets? (octets : List UInt8) : Option Uuid :=
  if h : octets.length = 16 then some ⟨octets, h⟩ else none

def nil : Uuid := ⟨List.replicate 16 0, by simp⟩

def text (u : Uuid) : String :=
  let ds := hexText u.octets
  String.ofList <| ds.take 8 ++ '-' :: (ds.drop 8).take 4 ++ '-' :: (ds.drop 12).take 4
    ++ '-' :: (ds.drop 16).take 4 ++ '-' :: ds.drop 20

/-- Thirty-two digits. -/
def readPlain? (cs : List Char) : Option Uuid := (readHex? cs).bind ofOctets?

/-- Digits in groups of 8, 4, 4, 4 and 12. -/
def readHyphenated? (cs : List Char) : Option Uuid :=
  match cs.drop 8, cs.drop 13, cs.drop 18, cs.drop 23 with
  | '-' :: _, '-' :: _, '-' :: _, '-' :: last =>
    readPlain? (cs.take 8 ++ (cs.drop 9).take 4 ++ (cs.drop 14).take 4 ++ (cs.drop 19).take 4
      ++ last)
  | _, _, _, _ => none

def read? (s : String) : Option Uuid :=
  let cs := s.toList
  if cs.length = 32 then readPlain? cs
  else if cs.length = 36 then readHyphenated? cs
  else if cs.length = 38 then
    if cs.head? = some '{' ∧ cs.getLast? = some '}' then readHyphenated? (cs.drop 1).dropLast
    else none
  else if cs.length = 45 then
    if (cs.take 9).map Char.toLower = "urn:uuid:".toList then readHyphenated? (cs.drop 9) else none
  else none

end Uuid

end RecordQuery
