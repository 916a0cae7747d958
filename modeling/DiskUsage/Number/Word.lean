import DiskUsage.Number.Numeral

/-!
# Sums in 64-bit words

Sizes are added in words of 64 bits, without a check for overflow: of a sum that is too large only
the remainder is kept.  Whether the remainder is taken after every addition or once at the end makes
no difference, so it is taken once.

* `wrap`: what a word keeps of a number.
* `wrap_add_wrap`, `wrap_wrap_add`: taking the remainder of a part first.
* `ofNat_wrap`: the word is the same.
-/

namespace DiskUsage.Number

/-- What a 64-bit word keeps of a number. -/
def wrap (n : Nat) : Nat := n % wordCount

theorem wrap_lt (n : Nat) : wrap n < wordCount := Nat.mod_lt n (by decide)

/-- What fits is kept whole. -/
theorem wrap_of_lt {n : Nat} (h : n < wordCount) : wrap n = n := Nat.mod_eq_of_lt h

@[simp] theorem wrap_zero : wrap 0 = 0 := rfl

@[simp] theorem wrap_wrap (n : Nat) : wrap (wrap n) = wrap n := Nat.mod_mod n wordCount

@[simp] theorem wrap_add_wrap (a b : Nat) : wrap (a + wrap b) = wrap (a + b) :=
  Nat.add_mod_mod a b wordCount

@[simp] theorem wrap_wrap_add (a b : Nat) : wrap (wrap a + b) = wrap (a + b) :=
  Nat.mod_add_mod a wordCount b

/-- Sums of what words cannot tell apart. -/
theorem wrap_add_congr {a b c d : Nat} (h : wrap a = wrap b) (k : wrap c = wrap d) :
    wrap (a + c) = wrap (b + d) := by
  rw [← wrap_wrap_add, h, wrap_wrap_add, ← wrap_add_wrap, k, wrap_add_wrap]

/-- The word is the same. -/
@[simp] theorem ofNat_wrap (n : Nat) : UInt64.ofNat (wrap n) = UInt64.ofNat n := by
  apply UInt64.toNat_inj.mp
  simp [wrap, wordCount]

end DiskUsage.Number
