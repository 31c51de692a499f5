import RecordQuery.Number.Digits

/-!
# Checked arithmetic

A sum or a product is computed without a bound and put into the type that is to hold it. One that
the type cannot hold is an `Overflow`.
-/

namespace RecordQuery.Number

/-- A number that the type it was computed for cannot hold. Nothing is made of it. -/
structure Overflow where
  deriving DecidableEq, Repr

def checkedInt32 (n : Int) : Except Overflow Int32 :=
  match int32? n with
  | some m => .ok m
  | none => .error ⟨⟩

def checkedUInt64 (n : Nat) : Except Overflow UInt64 :=
  if n < UInt64.size then .ok n.toUInt64 else .error ⟨⟩

theorem checkedUInt64_eq_ok_iff {n : Nat} {m : UInt64} :
    checkedUInt64 n = .ok m ↔ m.toNat = n := by
  rw [checkedUInt64]
  split
  · next small =>
    rw [Except.ok.injEq, ← UInt64.toNat_inj, Nat.toUInt64, UInt64.toNat_ofNat_of_lt' small, eq_comm]
  · next large => exact iff_of_false nofun fun same => large (same ▸ m.toNat_lt_size)

theorem checkedUInt64_eq_error_iff {n : Nat} : checkedUInt64 n = .error ⟨⟩ ↔ UInt64.size ≤ n := by
  rw [checkedUInt64]
  split
  · next small => exact iff_of_false nofun (Nat.not_le.mpr small)
  · next large => exact iff_of_true rfl (Nat.le_of_not_lt large)

theorem checkedUInt64_toNat (m : UInt64) : checkedUInt64 m.toNat = .ok m :=
  checkedUInt64_eq_ok_iff.mpr rfl

end RecordQuery.Number
