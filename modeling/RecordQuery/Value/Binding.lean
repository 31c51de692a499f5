import RecordQuery.Value.Basic

/-!
# Bound values

`Value.bound` is what a parameter is bound to: an empty byte sequence and a timestamp whose year
the storage does not accept are bound as null, every other value as itself.
-/

namespace RecordQuery

open Calendar

/-- The first year the storage accepts. -/
def minStorageYear : Int := 1753

/-- The last year the storage accepts. -/
def maxStorageYear : Int := 9999

def inStorageRange (t : Timestamp) : Bool :=
  minStorageYear ≤ t.date.year && t.date.year ≤ maxStorageYear

namespace Value

def bound : Value → Value
  | bytes [] => null
  | timestamp t => if inStorageRange t then timestamp t else null
  | v => v

@[simp] theorem bound_bound (v : Value) : v.bound.bound = v.bound := by
  cases v with
  | bytes b => cases b <;> rfl
  | timestamp t => by_cases h : inStorageRange t <;> simp [bound, h]
  | _ => rfl

end Value

end RecordQuery
