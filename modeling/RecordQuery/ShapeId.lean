/-!
# Identities of shapes

A kind of record has a `ShapeId`. What belongs to a shape is found by its identity; its name is for
messages, and two shapes may have the same.
-/

namespace RecordQuery

structure ShapeId where
  name : String
  /-- A number that no other shape of the name has. -/
  serial : Nat := 0
  deriving DecidableEq, Repr

/-- The first shape of a name. -/
instance : Coe String ShapeId := ⟨fun name => { name }⟩

end RecordQuery
