/-!
# Rounding a quotient

A quotient of naturals is rounded to the nearest natural; a tie goes to the even neighbour.

* `two_mul_roundHalfEven_le`, `le_two_mul_roundHalfEven`: the result is within half a unit.
-/

namespace DiskUsage.Number

/-- The natural nearest to `num / den`, the even one of two. -/
def roundHalfEven (num den : Nat) : Nat :=
  let q := num / den
  let r := num % den
  if 2 * r < den then q
  else if den < 2 * r then q + 1
  else if q % 2 = 0 then q
  else q + 1

/-- The result is at most half a unit too large. -/
theorem two_mul_roundHalfEven_le (num den : Nat) (h : 0 < den) :
    2 * (roundHalfEven num den * den) ≤ 2 * num + den := by
  have hd := Nat.div_add_mod num den
  rw [Nat.mul_comm] at hd
  have hm := Nat.mod_lt num h
  simp only [roundHalfEven]
  split
  · omega
  · split
    · rw [Nat.add_mul]; omega
    · split
      · omega
      · rw [Nat.add_mul]; omega

/-- The result is at most half a unit too small. -/
theorem le_two_mul_roundHalfEven (num den : Nat) (h : 0 < den) :
    2 * num ≤ 2 * (roundHalfEven num den * den) + den := by
  have hd := Nat.div_add_mod num den
  rw [Nat.mul_comm] at hd
  have hm := Nat.mod_lt num h
  simp only [roundHalfEven]
  split
  · omega
  · split
    · rw [Nat.add_mul]; omega
    · split
      · omega
      · rw [Nat.add_mul]; omega

end DiskUsage.Number
