/-!
# Powers of two and of ten

* `twoPow_succ`, `twoPow_pos`, `tenPow_succ`, `tenPow_pos`.
-/

namespace DiskUsage.Number

/-- Two to a power. -/
def twoPow (n : Nat) : Nat := Nat.pow 2 n

/-- Ten to a power. -/
def tenPow (n : Nat) : Nat := Nat.pow 10 n

@[simp] theorem twoPow_zero : twoPow 0 = 1 := rfl

@[simp] theorem tenPow_zero : tenPow 0 = 1 := rfl

theorem twoPow_succ (n : Nat) : twoPow (n + 1) = 2 * twoPow n := by
  rw [Nat.mul_comm]
  rfl

theorem tenPow_succ (n : Nat) : tenPow (n + 1) = 10 * tenPow n := by
  rw [Nat.mul_comm]
  rfl

theorem twoPow_pos (n : Nat) : 0 < twoPow n :=
  Nat.pow_pos (by decide)

theorem tenPow_pos (n : Nat) : 0 < tenPow n :=
  Nat.pow_pos (by decide)

end DiskUsage.Number
