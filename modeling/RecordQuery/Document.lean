import RecordQuery.Number.Decimal
import RecordQuery.Number.Hex

/-!
# Documents

A `Document` is a JSON value. `Document.render` writes its text, `Document.parse?` reads one.
Numbers written as digits alone are whole, all others are floating-point.
-/

namespace RecordQuery

open Number

inductive Document where
  | null
  | bool (b : Bool)
  | whole (n : Int)
  | real (x : Double)
  | text (s : String)
  | list (ds : List Document)
  | object (ms : List (String × Document))
  deriving Repr

namespace Document

/-- The member of a name. -/
def get? : Document → String → Option Document
  | object ms, name => (ms.find? (·.1 == name)).map (·.2)
  | _, _ => none

def text? : Document → Option String
  | text s => some s
  | _ => none

def whole? : Document → Option Int
  | whole n => some n
  | _ => none

def bool? : Document → Option Bool
  | bool b => some b
  | _ => none

def list? : Document → Option (List Document)
  | list ds => some ds
  | _ => none

/-! ## Writing -/

def escapeChar (c : Char) : List Char :=
  if c = '"' then ['\\', '"']
  else if c = '\\' then ['\\', '\\']
  else if c.toNat < 32 then ['\\', 'u', '0', '0', hexChar (c.toNat / 16), hexChar (c.toNat % 16)]
  else [c]

def renderText (s : String) : String :=
  String.ofList ('"' :: s.toList.flatMap escapeChar ++ ['"'])

/-- Digits with a point, also for whole values. -/
def renderReal (x : Double) : String :=
  let s := x.text
  if s.toList.contains '.' then s else s ++ ".0"

mutual

/-- Writes a document after the text so far. -/
def write (acc : String) : Document → String
  | null => acc ++ "null"
  | bool b => acc ++ if b then "true" else "false"
  | whole n => acc ++ intText n
  | real x => acc ++ renderReal x
  | text s => acc ++ renderText s
  | list ds => writeItems (acc ++ "[") ds ++ "]"
  | object ms => writeMembers (acc ++ "\x7b") ms ++ "\x7d"

def writeItems (acc : String) : List Document → String
  | [] => acc
  | [d] => write acc d
  | d :: ds => writeItems (write acc d ++ ",") ds

def writeMembers (acc : String) : List (String × Document) → String
  | [] => acc
  | [(name, d)] => write (acc ++ renderText name ++ ":") d
  | (name, d) :: ms => writeMembers (write (acc ++ renderText name ++ ":") d ++ ",") ms

end

def render (d : Document) : String := write "" d

/-! ## Reading -/

def isGap (c : Char) : Bool := c == ' ' || c == '\t' || c == '\n' || c == '\r'

def skipGap (cs : List Char) : List Char := cs.dropWhile isGap

/-- The number of four hexadecimal digits, and what follows them. -/
def readUnit? : List Char → Option (Nat × List Char)
  | a :: b :: c :: d :: rest => do
    let a ← hexValue? a
    let b ← hexValue? b
    let c ← hexValue? c
    let d ← hexValue? d
    return (((a * 16 + b) * 16 + c) * 16 + d, rest)
  | _ => none

/-- The character of an escaped number; two numbers may make up one character. -/
def readEscaped? (cs : List Char) : Option (Char × List Char) := do
  let (high, rest) ← readUnit? cs
  if high < 0xD800 ∨ 0xDFFF < high then return (Char.ofNat high, rest)
  match rest with
  | '\\' :: 'u' :: rest => do
    let (low, rest) ← readUnit? rest
    if high < 0xDC00 ∧ 0xDC00 ≤ low ∧ low ≤ 0xDFFF then
      return (Char.ofNat (0x10000 + (high - 0xD800) * 1024 + (low - 0xDC00)), rest)
    else none
  | _ => none

def shortEscape? (c : Char) : Option Char :=
  match c with
  | '"' => some '"'
  | '\\' => some '\\'
  | '/' => some '/'
  | 'b' => some '\x08'
  | 'f' => some '\x0c'
  | 'n' => some '\n'
  | 'r' => some '\r'
  | 't' => some '\t'
  | _ => none

/-- The text up to the closing quote, read in reverse onto `acc`. -/
def readText? : Nat → List Char → List Char → Option (String × List Char)
  | 0, _, _ => none
  | fuel + 1, acc, cs =>
    match cs with
    | [] => none
    | '"' :: rest => some (String.ofList acc.reverse, rest)
    | '\\' :: 'u' :: rest => do
      let (c, rest) ← readEscaped? rest
      readText? fuel (c :: acc) rest
    | '\\' :: c :: rest => do
      let c ← shortEscape? c
      readText? fuel (c :: acc) rest
    | c :: rest => readText? fuel (c :: acc) rest

def isNumberChar (c : Char) : Bool :=
  isDigit c || c == '-' || c == '+' || c == '.' || c == 'e' || c == 'E'

/-- Digits alone make a whole number, unless it is negative zero or too large for 64 bits. -/
def ofNumeral? (cs : List Char) : Option Document :=
  let wholeNumber : Option Int := do
    let n ← readInt? cs
    if Int64.minValue.toInt ≤ n ∧ n < UInt64.size ∧ cs ≠ ['-', '0'] then some n else none
  match wholeNumber with
  | some n => some (whole n)
  | none =>
    let (negative, digits) := spanSign cs
    (Literal.readDecimal? negative digits).map fun d =>
      real ⟨(Format.double.ofDecimal d).toUInt64⟩

mutual

/-- A document and what follows it; the first number bounds the steps. -/
def read? : Nat → List Char → Option (Document × List Char)
  | 0, _ => none
  | fuel + 1, cs =>
    match skipGap cs with
    | 'n' :: 'u' :: 'l' :: 'l' :: rest => some (null, rest)
    | 't' :: 'r' :: 'u' :: 'e' :: rest => some (bool true, rest)
    | 'f' :: 'a' :: 'l' :: 's' :: 'e' :: rest => some (bool false, rest)
    | '"' :: rest => (readText? (rest.length + 1) [] rest).map fun (s, rest) => (text s, rest)
    | '[' :: rest =>
      match skipGap rest with
      | ']' :: rest => some (list [], rest)
      | rest => readItems? fuel [] rest
    | '\x7b' :: rest =>
      match skipGap rest with
      | '\x7d' :: rest => some (object [], rest)
      | rest => readMembers? fuel [] rest
    | rest => (ofNumeral? (rest.takeWhile isNumberChar)).map (·, rest.dropWhile isNumberChar)

def readItems? : Nat → List Document → List Char → Option (Document × List Char)
  | 0, _, _ => none
  | fuel + 1, acc, cs =>
    match read? fuel cs with
    | none => none
    | some (d, rest) =>
      match skipGap rest with
      | ',' :: rest => readItems? fuel (d :: acc) rest
      | ']' :: rest => some (list (d :: acc).reverse, rest)
      | _ => none

def readMembers? : Nat → List (String × Document) → List Char → Option (Document × List Char)
  | 0, _, _ => none
  | fuel + 1, acc, cs =>
    match skipGap cs with
    | '"' :: rest =>
      match readText? (rest.length + 1) [] rest with
      | none => none
      | some (name, rest) =>
        match skipGap rest with
        | ':' :: rest =>
          match read? fuel rest with
          | none => none
          | some (d, rest) =>
            match skipGap rest with
            | ',' :: rest => readMembers? fuel ((name, d) :: acc) rest
            | '\x7d' :: rest => some (object ((name, d) :: acc).reverse, rest)
            | _ => none
        | _ => none
    | _ => none

end

/-- The document a whole text spells. -/
def parse? (s : String) : Option Document :=
  let cs := s.toList
  match read? (2 * cs.length + 2) cs with
  | some (d, rest) => if (skipGap rest).isEmpty then some d else none
  | none => none

end Document

end RecordQuery
