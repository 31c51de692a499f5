/-!
# Powers of two and of ten

`twoPow n` is the place value of bit `n`, `tenPow n` that of decimal digit `n`.
-/

namespace RecordQuery.Number

def twoPow (n : Nat) : Nat := Nat.pow 2 n

def tenPow (n : Nat) : Nat := Nat.pow 10 n

theorem twoPow_succ (n : Nat) : twoPow (n + 1) = twoPow n * 2 := rfl

theorem twoPow_pos (n : Nat) : 0 < twoPow n := Nat.pow_pos (by decide)

end RecordQuery.Number
