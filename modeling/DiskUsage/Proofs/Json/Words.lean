import DiskUsage.Json.Magnitude
import Mathlib.Algebra.Group.Nat.Defs
import Mathlib.Data.Nat.Log

/-!
# Words are never too large

A natural that fits a 64-bit word is far from the largest number of binary floating point, so it is
never too large for a number.

* `nearest_ne_infinite`: a quotient of moderate numbers is not rounded to infinity.
* `isHuge_ofNat`: a word in digits is not too large.
-/

namespace DiskUsage

namespace Number.Binary64

/-- The binade of a quotient is that of the numerator less that of the denominator, or one lower. -/
theorem floorLog2_bounds (num den : Nat) :
    (Nat.log2 num : Int) - Nat.log2 den - 1 ≤ floorLog2 num den
      ∧ floorLog2 num den ≤ Nat.log2 num - Nat.log2 den := by
  unfold floorLog2
  dsimp only
  split <;> omega

theorem carry_of_le (m : Nat) {e : Int} (he : e ≤ 970) :
    ∃ m' e', carry m e = finite m' e' ∧ m' ≤ m ∧ e' ≤ e + 1 := by
  unfold carry
  by_cases hm : m = twoPow 53
  · rw [if_pos hm]
    refine ⟨twoPow 52, e + 1, if_neg (by omega), ?_, Int.le_refl _⟩
    rw [hm]
    decide
  · rw [if_neg hm]
    exact ⟨m, e, if_neg (by omega), Nat.le_refl _, by omega⟩

theorem roundHalfEven_le (num den : Nat) : roundHalfEven num den ≤ num + 1 := by
  have hdiv := Nat.div_le_self num den
  unfold roundHalfEven
  dsimp only
  split
  · omega
  · split
    · omega
    · split <;> omega

/-- A quotient of moderate numbers is rounded to a finite number near it. -/
theorem nearest_of_moderate {num : Nat} (den : Nat) (hzero : num ≠ 0) (hnum : Nat.log2 num ≤ 1000) :
    ∃ m e, nearest num den = finite m e ∧ m ≤ (scale num den (gridExponent num den)).1 + 1
      ∧ e ≤ max ((Nat.log2 num : Int) - 52) (-1074) + 1 := by
  have hlog := floorLog2_bounds num den
  have hgrid : gridExponent num den ≤ max ((Nat.log2 num : Int) - 52) (-1074) := by
    unfold gridExponent
    omega
  have hround := roundHalfEven_le (scale num den (gridExponent num den)).1
    (scale num den (gridExponent num den)).2
  obtain ⟨m, e, heq, hm, he⟩ := carry_of_le
    (roundHalfEven (scale num den (gridExponent num den)).1 (scale num den (gridExponent num den)).2)
    (show gridExponent num den ≤ 970 by omega)
  refine ⟨m, e, ?_, hm.trans hround, by omega⟩
  unfold nearest
  rw [if_neg hzero]
  exact heq

theorem nearest_ne_infinite {num den : Nat} (hnum : Nat.log2 num ≤ 1000) :
    nearest num den ≠ infinite := by
  by_cases hzero : num = 0
  · rw [hzero]
    nofun
  · obtain ⟨m, e, heq, -, -⟩ := nearest_of_moderate den hzero hnum
    rw [heq]
    nofun

/-- A word is rounded to a number of moderate mantissa and exponent. -/
theorem ofNat_of_le {n : Nat} (h : n ≤ maxWord) :
    ∃ m e, ofNat n = finite m e ∧ m ≤ 2 ^ 118 ∧ e ≤ 13 := by
  by_cases hzero : n = 0
  · exact ⟨0, 0, by rw [hzero]; rfl, Nat.zero_le _, by decide⟩
  · have hlog : Nat.log2 n < 64 := (Nat.log2_lt hzero).2 (by unfold maxWord wordCount at h; omega)
    obtain ⟨m, e, heq, hm, he⟩ := nearest_of_moderate 1 hzero (by omega)
    refine ⟨m, e, heq, hm.trans ?_, by omega⟩
    have hgrid : -53 ≤ gridExponent n 1 := by
      have hbounds := floorLog2_bounds n 1
      have hone : Nat.log2 1 = 0 := by decide
      unfold gridExponent
      omega
    have hpow : twoPow (-gridExponent n 1).toNat ≤ 2 ^ 53 :=
      Nat.pow_le_pow_right (by decide) (by omega)
    have hn : n ≤ 2 ^ 64 := by unfold maxWord wordCount at h; omega
    have hscale : (scale n 1 (gridExponent n 1)).1 ≤ 2 ^ 64 * 2 ^ 53 := by
      unfold scale
      split
      · exact hn.trans (by decide)
      · exact Nat.mul_le_mul hn hpow
    omega

end Number.Binary64

namespace Json

open Number

theorem le_ofDigitChars (n : Nat) (cs : List Char) : n ≤ Nat.ofDigitChars 10 cs n := by
  induction cs generalizing n with
  | nil => exact Nat.le_refl n
  | cons c cs ih =>
    rw [Nat.ofDigitChars_cons]
    have hrest := ih (10 * n + (c.toNat - '0'.toNat))
    omega

/-- All digits of a word are taken. -/
theorem takeWord_of_le {n : Nat} {cs : List Char} (h : Nat.ofDigitChars 10 cs n ≤ maxWord) :
    takeWord n cs = (Nat.ofDigitChars 10 cs n, []) := by
  induction cs generalizing n with
  | nil => rfl
  | cons c cs ih =>
    rw [Nat.ofDigitChars_cons, Nat.mul_comm 10 n] at h ⊢
    have hle := le_ofDigitChars (n * 10 + (c.toNat - '0'.toNat)) cs
    rw [takeWord, if_pos (hle.trans h), ih h]

/-- **Words** are not too large. -/
theorem isHuge_ofNat {n : Nat} (h : n < wordCount) : (Numeral.ofNat n).isHuge = false := by
  have hword : n ≤ maxWord := by unfold maxWord; omega
  have hdigits : Nat.ofDigitChars 10 (Nat.toDigits 10 n) 0 = n :=
    Nat.ofDigitChars_toDigits (by decide) (by decide)
  have htake : takeWord 0 (Nat.toDigits 10 n) = (n, []) := by
    rw [takeWord_of_le (by rw [hdigits]; exact hword), hdigits]
  have hsignificand : (Numeral.ofNat n).significand = (n, 0) := by
    simp [Numeral.significand, Numeral.ofNat, htake, takeWord]
  have hoverflows : overflows n 0 = false := by
    obtain ⟨m, e, heq, hm, he⟩ := Binary64.ofNat_of_le hword
    have hone : Binary64.ofNat 1 = .finite (2 ^ 52) (-52) := by decide +kernel
    have hproduct : (Binary64.ofNat n).mul (Binary64.ofNat 1) ≠ .infinite := by
      rw [heq, hone]
      have hexponent : ¬0 ≤ e + -52 := by omega
      have hlog : Nat.log2 (m * 2 ^ 52) ≤ 1000 := by
        by_cases hm0 : m * 2 ^ 52 = 0
        · rw [hm0]
          exact Nat.zero_le _
        · have hlt : m * 2 ^ 52 < 2 ^ 1001 :=
            (Nat.mul_le_mul_right (2 ^ 52) hm).trans_lt (by decide +kernel)
          have hbits := (Nat.log2_lt hm0).2 hlt
          omega
      show Binary64.nearestScaled (m * 2 ^ 52) (e + -52) ≠ .infinite
      unfold Binary64.nearestScaled
      rw [if_neg hexponent]
      exact Binary64.nearest_ne_infinite hlog
    simp [overflows, hproduct]
  rw [Numeral.isHuge, hsignificand]
  exact hoverflows

end Json

end DiskUsage
