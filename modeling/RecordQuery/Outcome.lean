import RecordQuery.Error

/-!
# Outcomes

Results as callers see them: a write succeeds or fails with a message, a lookup finds a value,
finds none or fails, and a page of results comes with the number of rows in all pages.
-/

namespace RecordQuery

inductive WriteOutcome where
  | success
  | failure (message : String)
  deriving DecidableEq, Repr

namespace WriteOutcome

def ofResult : Except Error α → WriteOutcome
  | .ok _ => success
  | .error e => failure e.message

def isSuccess : WriteOutcome → Bool
  | success => true
  | failure _ => false

def fold (onSuccess : β) (onFailure : String → β) : WriteOutcome → β
  | success => onSuccess
  | failure m => onFailure m

end WriteOutcome

inductive Lookup (α : Type) where
  | found (a : α)
  | missing
  | failed (message : String)
  deriving DecidableEq, Repr

namespace Lookup

def ofError (e : Error) : Lookup α := failed e.message

def ofResult : Except Error (Option α) → Lookup α
  | .ok (some a) => found a
  | .ok none => missing
  | .error e => ofError e

def hasValue : Lookup α → Bool
  | found _ => true
  | _ => false

def isFailure : Lookup α → Bool
  | failed _ => true
  | _ => false

def fold (onValue : α → β) (onMissing : β) (onFailure : String → β) : Lookup α → β
  | found a => onValue a
  | missing => onMissing
  | failed m => onFailure m

def map (f : α → β) : Lookup α → Lookup β
  | found a => found (f a)
  | missing => missing
  | failed m => failed m

def value? : Lookup α → Option α
  | found a => some a
  | _ => none

end Lookup

/-- One page of a longer result. -/
structure Paged (α : Type) where
  items : List α
  /-- The number of rows in all pages. -/
  totalCount : UInt64
  page : UInt64
  pageSize : UInt64
  deriving DecidableEq, Repr

namespace Paged

/-- The number of pages of that size that hold all rows. -/
def totalPages (p : Paged α) : UInt64 :=
  if p.pageSize = 0 then 0
  else p.totalCount / p.pageSize + if p.totalCount % p.pageSize = 0 then 0 else 1

def hasNext (p : Paged α) : Bool := p.page < p.totalPages

def hasPrevious (p : Paged α) : Bool := 1 < p.page

def map (f : α → β) (p : Paged α) : Paged β :=
  ⟨p.items.map f, p.totalCount, p.page, p.pageSize⟩

end Paged

end RecordQuery
