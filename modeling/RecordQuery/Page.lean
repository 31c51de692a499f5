import RecordQuery.Error

/-!
# Pagination

A `Pagination` is what a query asks for, as rows to skip and take or as a page and its size;
`Pagination.window` settles it into a `Window`. Row counts are 64-bit, and the start of a page
that lies past the last row number is that number.
-/

namespace RecordQuery

open Number

/-- The rows to skip and the rows to return after them; all of them without `take`. -/
structure Window where
  skip : UInt64
  take : Option UInt64
  deriving DecidableEq, Repr

structure Pagination where
  skip : Option UInt64 := none
  take : Option UInt64 := none
  page : Option UInt64 := none
  pageSize : Option UInt64 := none
  deriving DecidableEq, Repr

/-- The product, or the greatest row number if the product is past it. -/
def saturatingMul (a b : UInt64) : UInt64 := (min (a.toNat * b.toNat) (UInt64.size - 1)).toUInt64

namespace Pagination

/-- The rows before a page of a size, where both are given. -/
def pageStart? (p : Pagination) : Option UInt64 :=
  match p.page, p.pageSize with
  | some page, some size => some (saturatingMul (page - 1) size)
  | _, _ => none

/-- Pages and page sizes count from 1. A given `skip` or `take` wins over the one a page has. -/
def window (p : Pagination) : Except Error Window :=
  if p.page = some 0 then .error (.invalidPagination "page must be at least 1, got 0")
  else if p.pageSize = some 0 then
    .error (.invalidPagination "page size must be at least 1, got 0")
  else .ok ⟨(p.skip.or p.pageStart?).getD 0, p.take.or p.pageSize⟩

end Pagination

/-- The page number and size reported for a window that returned a number of rows. -/
def pageFigures (w : Option Window) (returned : Nat) : Except Overflow (UInt64 × UInt64) :=
  match w with
  | some ⟨skip, some take⟩ =>
    if 0 < take then (checkedUInt64 ((skip / take).toNat + 1)).map fun page => (page, take)
    else .ok (1, returned.toUInt64)
  | _ => .ok (1, returned.toUInt64)

end RecordQuery
