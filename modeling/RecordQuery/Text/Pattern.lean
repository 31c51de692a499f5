import RecordQuery.Text.Blank
import RecordQuery.Text.Word

/-!
# Message patterns

A `Pattern` describes a stretch of text: letters regardless of case, runs of a character class,
word boundaries, alternatives, optional parts and one captured part. `Pattern.find?` looks for
the leftmost place a pattern matches; among the ways to match there the first alternative wins,
an optional part is tried before it is left out, and a run tries longer (`greedy`) or shorter
(`lazy`) stretches first.
-/

namespace RecordQuery.Text

/-- A class of characters. -/
inductive CharClass where
  /-- A letter in either case, or the character itself. -/
  | letter (c : Char)
  | blank
  | oneOf (cs : List Char)
  | noneOf (cs : List Char)
  deriving DecidableEq, Repr

/-- The character a letter is compared by: ASCII capitals, the Kelvin sign and the long s count
as the small letters they fold to. -/
def fold (c : Char) : Char :=
  if c = '\u212A' then 'k' else if c = '\u017F' then 's' else c.toLower

def CharClass.mem (k : CharClass) (c : Char) : Bool :=
  match k with
  | letter d => fold c == fold d
  | blank => isBlank c
  | oneOf cs => cs.contains c
  | noneOf cs => !cs.contains c

inductive Pattern where
  | empty
  | one (k : CharClass)
  /-- A place with a word character on exactly one side. -/
  | boundary
  | seq (p q : Pattern)
  | alt (p q : Pattern)
  | opt (p : Pattern)
  | greedy (k : CharClass)
  | lazy (k : CharClass)
  | capture (p : Pattern)
  deriving DecidableEq, Repr

namespace Pattern

/-- A place in a text: the character before it and the characters after it. -/
structure Place where
  before : Option Char
  rest : List Char
  deriving DecidableEq, Repr

/-- The start of a text. -/
def Place.start (cs : List Char) : Place := ⟨none, cs⟩

def Place.atBoundary (p : Place) : Bool :=
  p.before.any isWord != p.rest.head?.any isWord

/-- What is done with the place a match ends at and the text captured on the way. -/
abbrev Next := Place → Option (List Char) → Option (Option (List Char))

/-- Longer runs of the class first. -/
def runGreedy (k : CharClass) (got : Option (List Char)) (next : Next) :
    Option Char → List Char → Option (Option (List Char))
  | before, [] => next ⟨before, []⟩ got
  | before, c :: cs =>
    if k.mem c then
      (runGreedy k got next (some c) cs).orElse fun _ => next ⟨before, c :: cs⟩ got
    else next ⟨before, c :: cs⟩ got

/-- Shorter runs of the class first. -/
def runLazy (k : CharClass) (got : Option (List Char)) (next : Next) :
    Option Char → List Char → Option (Option (List Char))
  | before, [] => next ⟨before, []⟩ got
  | before, c :: cs =>
    (next ⟨before, c :: cs⟩ got).orElse fun _ =>
      if k.mem c then runLazy k got next (some c) cs else none

/-- The captured text of the first way to match at a place and go on from there. -/
def run : Pattern → Place → Option (List Char) → Next → Option (Option (List Char))
  | empty, here, got, next => next here got
  | one k, here, got, next =>
    match here.rest with
    | [] => none
    | c :: cs => if k.mem c then next ⟨some c, cs⟩ got else none
  | boundary, here, got, next => if here.atBoundary then next here got else none
  | seq p q, here, got, next => p.run here got fun there caught => q.run there caught next
  | alt p q, here, got, next => (p.run here got next).orElse fun _ => q.run here got next
  | opt p, here, got, next => (p.run here got next).orElse fun _ => next here got
  | greedy k, here, got, next => runGreedy k got next here.before here.rest
  | lazy k, here, got, next => runLazy k got next here.before here.rest
  | capture p, here, got, next =>
    p.run here got fun there _ =>
      next there (some (here.rest.take (here.rest.length - there.rest.length)))

/-- The captured text of a match that starts at a place, if there is one. -/
def match? (p : Pattern) (here : Place) : Option (Option (List Char)) :=
  p.run here none fun _ got => some got

/-- The leftmost match at or after a place. -/
def search (p : Pattern) : Option Char → List Char → Option (Option (List Char))
  | before, [] => p.match? ⟨before, []⟩
  | before, c :: cs => (p.match? ⟨before, c :: cs⟩).orElse fun _ => p.search (some c) cs

/-- The leftmost match in a text, as the text it captured. -/
def find? (p : Pattern) (text : String) : Option (Option String) :=
  (p.search none text.toList).map fun got => got.map String.ofList

def occursIn (p : Pattern) (text : String) : Bool := (p.find? text).isSome

/-! ## Building patterns -/

/-- The letters of a phrase, each in either case. -/
def phrase (s : String) : Pattern :=
  s.toList.foldr (fun c p => seq (one (.letter c)) p) empty

/-- One of several phrases, the first that fits. -/
def phrases : List String → Pattern
  | [] => empty
  | [s] => phrase s
  | s :: rest => alt (phrase s) (phrases rest)

/-- Patterns one after another. -/
def all : List Pattern → Pattern
  | [] => empty
  | [p] => p
  | p :: rest => seq p (all rest)

end Pattern

end RecordQuery.Text
