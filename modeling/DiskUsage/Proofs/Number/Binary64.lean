import DiskUsage.Number.Binary64
import Mathlib.Algebra.Order.Floor.Semifield
import Mathlib.Data.Int.Log
import Mathlib.Data.Rat.Floor
import Mathlib.Tactic.Linarith
import Mathlib.Tactic.Positivity
import Mathlib.Tactic.Ring

/-!
# What binary floating point computes

The numbers of one binade lie on a grid, and a quotient is rounded to the nearest point of its grid, ties to
the even one.  A larger quotient is never rounded to a smaller number, though its grid may be a wider one; and
what lies on its grid already is not changed.

* `IsNearest`, `IsNearest.mono`, `isNearest_roundHalfEven`: the nearest natural.
* `grid`, `gridExponent_eq`: the grid of a quotient.
* `IsRounded`, `IsRounded.mono`, `isRounded_self`: rounding, and what it keeps.
* `Binary64.Holds`, `Binary64.exists_holds_nearest`, `Binary64.holds_mul_two_pow`: what the operations compute.
* `Binary64.floorWord_eq`: the integer part as a word.
-/

namespace DiskUsage.Number

variable {x y q r v w : ℚ} {m n num den : ℕ} {e : ℤ}

/-! ### The nearest natural -/

/-- The natural is nearest to the number; of two that are equally near it is the even one. -/
structure IsNearest (x : ℚ) (m : ℕ) : Prop where
  le_add_half : x ≤ m + 1 / 2
  le_half_add : (m : ℚ) ≤ x + 1 / 2
  even_of_tie : x = m + 1 / 2 ∨ (m : ℚ) = x + 1 / 2 → Even m

/-- **A larger number** never has a smaller nearest natural: between two naturals there is one tie only, and
it always goes to the same of them. -/
theorem IsNearest.mono (hx : IsNearest x m) (hy : IsNearest y n) (h : x ≤ y) : m ≤ n := by
  by_contra hlt
  have hsucc : (n : ℚ) + 1 ≤ m := by exact_mod_cast Nat.lt_of_not_le hlt
  have hyn := hy.le_add_half
  have hxm := hx.le_half_add
  have hm : m = n + 1 := by
    have hle : (m : ℚ) ≤ n + 1 := by linarith
    exact_mod_cast le_antisymm hle hsucc
  have hevenN : Even n := hy.even_of_tie (.inl (by linarith))
  have hevenM : Even m := hx.even_of_tie (.inr (by linarith))
  rw [hm, Nat.even_add_one] at hevenM
  exact hevenM hevenN

theorem isNearest_natCast (n : ℕ) : IsNearest n n := by
  refine ⟨by linarith, by linarith, ?_⟩
  rintro (htie | htie)
  · linarith
  · linarith

/-- A tie goes to the even neighbour. -/
theorem roundHalfEven_even (num den : ℕ) (h : 0 < den)
    (htie : 2 * num = 2 * (roundHalfEven num den * den) + den
      ∨ 2 * (roundHalfEven num den * den) = 2 * num + den) :
    roundHalfEven num den % 2 = 0 := by
  have hd := Nat.div_add_mod num den
  rw [Nat.mul_comm] at hd
  have hm := Nat.mod_lt num h
  unfold roundHalfEven at htie ⊢
  dsimp only at htie ⊢
  split_ifs at htie ⊢ with hbelow habove heven
  · omega
  · rw [Nat.add_mul] at htie
    omega
  · exact heven
  · omega

theorem isNearest_roundHalfEven (num : ℕ) (h : 0 < den) :
    IsNearest ((num : ℚ) / den) (roundHalfEven num den) := by
  have hden : (0 : ℚ) < den := by exact_mod_cast h
  have hle : 2 * (num : ℚ) ≤ 2 * (roundHalfEven num den * den) + den := by
    exact_mod_cast le_two_mul_roundHalfEven num den h
  have hge : 2 * (roundHalfEven num den * den : ℚ) ≤ 2 * num + den := by
    exact_mod_cast two_mul_roundHalfEven_le num den h
  refine ⟨?_, ?_, fun htie => Nat.even_iff.2 (roundHalfEven_even num den h ?_)⟩
  · rw [div_le_iff₀ hden]
    linarith
  · rw [← sub_le_iff_le_add, le_div_iff₀ hden]
    linarith
  · refine htie.imp (fun htie => ?_) fun htie => ?_
    · rw [div_eq_iff hden.ne'] at htie
      have hcast : 2 * (num : ℚ) = 2 * (roundHalfEven num den * den) + den := by linarith
      exact_mod_cast hcast
    · rw [← sub_eq_iff_eq_add, eq_div_iff hden.ne'] at htie
      have hcast : 2 * (roundHalfEven num den * den : ℚ) = 2 * num + den := by linarith
      exact_mod_cast hcast

/-! ### The grid of a number -/

/-- The numbers near `q` are the multiples of two to this power: they have 53 bits, and none is below
`2 ^ (-1074)`. -/
def grid (q : ℚ) : ℤ :=
  max (Int.log 2 q - 52) (-1074)

theorem grid_mono (hq : 0 < q) (h : q ≤ r) : grid q ≤ grid r := by
  have hlog : Int.log 2 q ≤ Int.log 2 r := Int.log_mono_right hq h
  unfold grid
  omega

/-- A number has at most 53 bits on its grid. -/
theorem lt_two_pow_grid (hq : 0 < q) : q < 2 ^ (grid q + 53) := by
  rw [show (2 : ℚ) = (2 : ℕ) from rfl, Int.lt_zpow_iff_log_lt Nat.one_lt_two hq, grid]
  omega

/-- A number has 53 bits on its grid, unless it is on the finest one. -/
theorem two_pow_grid_le (hq : 0 < q) (h : -1074 < grid q) : 2 ^ (grid q + 52) ≤ q := by
  rw [show (2 : ℚ) = (2 : ℕ) from rfl, Int.zpow_le_iff_le_log Nat.one_lt_two hq]
  unfold grid at h ⊢
  omega

/-- What has at most 53 bits above a place lies on a grid at least as fine. -/
theorem grid_le (hq : 0 < q) (hlt : q < 2 ^ (e + 53)) (he : -1074 ≤ e) : grid q ≤ e := by
  rw [show (2 : ℚ) = (2 : ℕ) from rfl, Int.lt_zpow_iff_log_lt Nat.one_lt_two hq] at hlt
  unfold grid
  omega

/-! ### Rounding -/

/-- The point of its grid that is nearest to a number. -/
def IsRounded (q v : ℚ) : Prop :=
  ∃ m : ℕ, IsNearest (q / 2 ^ grid q) m ∧ v = m * 2 ^ grid q

theorem two_zpow_pos (e : ℤ) : (0 : ℚ) < 2 ^ e :=
  zpow_pos (by norm_num) e

theorem two_zpow_add (e : ℤ) (n : ℕ) : (2 : ℚ) ^ (e + n) = (2 ^ n : ℕ) * 2 ^ e := by
  rw [zpow_add₀ (by norm_num), zpow_natCast, mul_comm]
  norm_num

/-- A mantissa has at most 53 bits, or is the next power of two. -/
theorem IsNearest.le_mantissa (hq : 0 < q) (h : IsNearest (q / 2 ^ grid q) m) : m ≤ 2 ^ 53 := by
  refine h.mono (isNearest_natCast _) ?_
  rw [div_le_iff₀ (two_zpow_pos _), ← two_zpow_add]
  exact (lt_two_pow_grid hq).le

/-- Unless the grid is the finest one, a mantissa has 53 bits. -/
theorem IsNearest.mantissa_le (hq : 0 < q) (hg : -1074 < grid q) (h : IsNearest (q / 2 ^ grid q) m) :
    2 ^ 52 ≤ m := by
  refine (isNearest_natCast _).mono h ?_
  rw [le_div_iff₀ (two_zpow_pos _), ← two_zpow_add]
  exact two_pow_grid_le hq hg

theorem isRounded_zero_iff : IsRounded 0 v ↔ v = 0 := by
  have hzero : IsNearest (0 / 2 ^ grid 0) 0 := by
    rw [zero_div]
    exact_mod_cast isNearest_natCast 0
  refine ⟨?_, ?_⟩
  · rintro ⟨m, hm, rfl⟩
    rw [Nat.le_zero.1 (hm.mono hzero le_rfl), Nat.cast_zero, zero_mul]
  · rintro rfl
    exact ⟨0, hzero, by simp⟩

/-- **Rounding is monotone**.  On one grid the nearest points are in order; and from one grid to a wider one
there is a power of two between them. -/
theorem IsRounded.mono (hq : IsRounded q v) (hr : IsRounded r w) (hnonneg : 0 ≤ q) (h : q ≤ r) : v ≤ w := by
  rcases hnonneg.eq_or_lt with rfl | hpos
  · obtain ⟨n, -, rfl⟩ := hr
    rw [isRounded_zero_iff.1 hq]
    exact mul_nonneg n.cast_nonneg (two_zpow_pos _).le
  obtain ⟨m, hm, rfl⟩ := hq
  obtain ⟨n, hn, rfl⟩ := hr
  rcases (grid_mono hpos h).eq_or_lt with heq | hlt
  · rw [← heq] at hn ⊢
    have hmn : m ≤ n := hm.mono hn (div_le_div_of_nonneg_right h (two_zpow_pos _).le)
    exact mul_le_mul_of_nonneg_right (by exact_mod_cast hmn) (two_zpow_pos _).le
  · have hcoarse : -1074 < grid r := lt_of_le_of_lt (le_max_right _ _) hlt
    have hm53 : (m : ℚ) ≤ (2 ^ 53 : ℕ) := by exact_mod_cast hm.le_mantissa hpos
    have hn52 : ((2 ^ 52 : ℕ) : ℚ) ≤ n := by exact_mod_cast hn.mantissa_le (hpos.trans_le h) hcoarse
    calc (m : ℚ) * 2 ^ grid q
        ≤ (2 ^ 53 : ℕ) * 2 ^ grid q := mul_le_mul_of_nonneg_right hm53 (two_zpow_pos _).le
      _ = 2 ^ (grid q + 53) := (two_zpow_add _ 53).symm
      _ ≤ 2 ^ (grid r + 52) := zpow_le_zpow_right₀ (by norm_num) (by omega)
      _ = (2 ^ 52 : ℕ) * 2 ^ grid r := two_zpow_add _ 52
      _ ≤ n * 2 ^ grid r := mul_le_mul_of_nonneg_right hn52 (two_zpow_pos _).le

/-- A number is rounded in one way only. -/
theorem IsRounded.unique (hv : IsRounded q v) (hw : IsRounded q w) (hnonneg : 0 ≤ q) : v = w :=
  le_antisymm (hv.mono hw hnonneg le_rfl) (hw.mono hv hnonneg le_rfl)

/-- **What has 53 bits** is rounded to itself. -/
theorem isRounded_self (hm : m < 2 ^ 53) (he : -1074 ≤ e) : IsRounded (m * 2 ^ e) (m * 2 ^ e) := by
  rcases Nat.eq_zero_or_pos m with rfl | hpos
  · simpa using isRounded_zero_iff.2 rfl
  have hmpos : (0 : ℚ) < m * 2 ^ e := mul_pos (by exact_mod_cast hpos) (two_zpow_pos e)
  have hlt : (m : ℚ) * 2 ^ e < 2 ^ (e + 53) :=
    calc (m : ℚ) * 2 ^ e
        < (2 ^ 53 : ℕ) * 2 ^ e := mul_lt_mul_of_pos_right (by exact_mod_cast hm) (two_zpow_pos e)
      _ = 2 ^ (e + 53) := (two_zpow_add e 53).symm
  -- its grid is as fine as the given one, so the number is a whole multiple there
  obtain ⟨k, hk⟩ := Int.le.dest (grid_le hmpos hlt he)
  have hpow : (2 : ℚ) ^ e = (2 ^ k : ℕ) * 2 ^ grid (m * 2 ^ e) := by rw [← two_zpow_add, hk]
  have hself : (m : ℚ) * 2 ^ e = (m * 2 ^ k : ℕ) * 2 ^ grid (m * 2 ^ e) := by
    rw [Nat.cast_mul, mul_assoc, ← hpow]
  refine ⟨m * 2 ^ k, ?_, hself⟩
  rw [(div_eq_iff (two_zpow_pos _).ne').2 hself]
  exact isNearest_natCast _

/-- Naturals up to `2 ^ 53` are rounded to themselves. -/
theorem isRounded_natCast (hn : n ≤ 2 ^ 53) : IsRounded n n := by
  rcases hn.eq_or_lt with rfl | hlt
  · have hself : IsRounded ((2 ^ 52 : ℕ) * 2 ^ (1 : ℤ)) ((2 ^ 52 : ℕ) * 2 ^ (1 : ℤ)) :=
      isRounded_self (by norm_num) (by norm_num)
    norm_num at hself ⊢
    exact hself
  · simpa using isRounded_self (m := n) (e := 0) hlt (by norm_num)

namespace Binary64

/-! ### Quotients of naturals -/

theorem cast_twoPow (k : ℕ) : (twoPow k : ℚ) = 2 ^ k :=
  Nat.cast_pow 2 k

theorem two_zpow_of_nonneg (he : 0 ≤ e) : (2 : ℚ) ^ e = twoPow e.toNat := by
  rw [cast_twoPow, ← zpow_natCast, Int.toNat_of_nonneg he]

theorem two_zpow_of_not_nonneg (he : ¬0 ≤ e) : (2 : ℚ) ^ e = (twoPow (-e).toNat : ℚ)⁻¹ := by
  rw [cast_twoPow, ← zpow_natCast, ← zpow_neg, Int.toNat_of_nonneg (by omega), neg_neg]

theorem scale_snd_pos (num : ℕ) (hden : 0 < den) (e : ℤ) : 0 < (scale num den e).2 := by
  unfold scale
  split
  · exact Nat.mul_pos hden (twoPow_pos _)
  · exact hden

/-- The quotient is divided by the power of two. -/
theorem scale_eq (num den : ℕ) (e : ℤ) :
    ((scale num den e).1 : ℚ) / (scale num den e).2 = num / den / 2 ^ e := by
  unfold scale
  split
  · next he => rw [two_zpow_of_nonneg he, Nat.cast_mul, div_mul_eq_div_div]
  · next he => rw [two_zpow_of_not_nonneg he, Nat.cast_mul, div_inv_eq_mul, div_mul_eq_mul_div]

theorem quotient_eq (m : ℕ) (e : ℤ) : ((quotient m e).1 : ℚ) / (quotient m e).2 = m * 2 ^ e := by
  unfold quotient
  split
  · next he => rw [two_zpow_of_nonneg he, Nat.cast_mul, Nat.cast_one, div_one]
  · next he => rw [two_zpow_of_not_nonneg he, div_eq_mul_inv]

theorem two_pow_div (i j : ℕ) : (2 : ℚ) ^ i / 2 ^ j = 2 ^ ((i : ℤ) - j) := by
  rw [zpow_sub₀ (by norm_num), zpow_natCast, zpow_natCast]

/-- The numbers of bits bound a quotient from above. -/
theorem div_lt_two_zpow (num : ℕ) (hden : 0 < den) :
    (num : ℚ) / den < 2 ^ ((num.log2 : ℤ) - den.log2 + 1) := by
  have hnumhigh : (num : ℚ) < 2 ^ (num.log2 + 1) := by exact_mod_cast Nat.lt_log2_self
  have hdenlow : (2 : ℚ) ^ den.log2 ≤ den := by exact_mod_cast Nat.log2_self_le hden.ne'
  calc (num : ℚ) / den
      < 2 ^ (num.log2 + 1) / 2 ^ den.log2 := div_lt_div₀ hnumhigh hdenlow (by positivity) (by positivity)
    _ = 2 ^ (((num.log2 + 1 : ℕ) : ℤ) - den.log2) := two_pow_div _ _
    _ = 2 ^ ((num.log2 : ℤ) - den.log2 + 1) := by rw [Nat.cast_succ, add_sub_right_comm]

/-- The numbers of bits bound a quotient from below. -/
theorem two_zpow_le_div (hnum : 0 < num) (hden : 0 < den) :
    (2 : ℚ) ^ ((num.log2 : ℤ) - den.log2 - 1) ≤ num / den := by
  have hnumlow : (2 : ℚ) ^ num.log2 ≤ num := by exact_mod_cast Nat.log2_self_le hnum.ne'
  have hdenhigh : (den : ℚ) < 2 ^ (den.log2 + 1) := by exact_mod_cast Nat.lt_log2_self
  calc (2 : ℚ) ^ ((num.log2 : ℤ) - den.log2 - 1)
      = 2 ^ ((num.log2 : ℤ) - (den.log2 + 1 : ℕ)) := by rw [Nat.cast_succ, sub_add_eq_sub_sub]
    _ = 2 ^ num.log2 / 2 ^ (den.log2 + 1) := (two_pow_div _ _).symm
    _ ≤ num / den :=
      div_le_div₀ (Nat.cast_nonneg num) hnumlow (by exact_mod_cast hden) hdenhigh.le

/-- The power of two is found from the numbers of bits, and by comparing once where they leave two. -/
theorem floorLog2_eq (hnum : 0 < num) (hden : 0 < den) :
    floorLog2 num den = Int.log 2 ((num : ℚ) / den) := by
  have hq : (0 : ℚ) < num / den := div_pos (by exact_mod_cast hnum) (by exact_mod_cast hden)
  have hhigh := div_lt_two_zpow num hden
  have hlow := two_zpow_le_div hnum hden
  unfold floorLog2
  dsimp only
  generalize (num.log2 : ℤ) - den.log2 = d at hhigh hlow ⊢
  have hcompare : (scale num den d).2 ≤ (scale num den d).1 ↔ (2 : ℚ) ^ d ≤ num / den := by
    have hpos : (0 : ℚ) < (scale num den d).2 := by exact_mod_cast scale_snd_pos num hden d
    rw [← one_le_div (two_zpow_pos d), ← scale_eq, one_le_div hpos, Nat.cast_le]
  rw [show (2 : ℚ) = (2 : ℕ) from rfl] at hhigh hlow hcompare
  rw [Int.lt_zpow_iff_log_lt Nat.one_lt_two hq] at hhigh
  rw [Int.zpow_le_iff_le_log Nat.one_lt_two hq] at hlow hcompare
  split
  · next hle =>
    have := hcompare.1 hle
    omega
  · next hle =>
    have := mt hcompare.2 hle
    omega

theorem gridExponent_eq (hnum : 0 < num) (hden : 0 < den) :
    gridExponent num den = grid ((num : ℚ) / den) := by
  rw [gridExponent, floorLog2_eq hnum hden, grid]

/-! ### What a number stands for -/

/-- The number stands for `v`; the infinite one, for anything beyond the finite ones. -/
def Holds : Binary64 → ℚ → Prop
  | finite m e, v => m < 2 ^ 53 ∧ -1074 ≤ e ∧ v = m * 2 ^ e
  | infinite, v => 2 ^ 1024 ≤ v
  | undefined, _ => False

variable {a : Binary64} {k : ℕ}

/-- A mantissa that is too long by one bit is that of the next power of two. -/
theorem holds_carry (hm : m ≤ 2 ^ 53) (he : -1074 ≤ e) (hfull : -1074 < e → 2 ^ 52 ≤ m) :
    (carry m e).Holds (m * 2 ^ e) := by
  have hinfinite : ∀ {m : ℕ} {e : ℤ}, 2 ^ 52 ≤ m → 971 < e → infinite.Holds (m * 2 ^ e) := by
    intro m e hm he
    calc (2 : ℚ) ^ 1024
        = (2 ^ 52 : ℕ) * 2 ^ (972 : ℤ) := two_zpow_add 972 52
      _ ≤ m * 2 ^ e := mul_le_mul (by exact_mod_cast hm) (zpow_le_zpow_right₀ (by norm_num) (by omega))
        (two_zpow_pos _).le m.cast_nonneg
  unfold carry
  by_cases hcarry : m = twoPow 53
  · have hnext : (m : ℚ) * 2 ^ e = (2 ^ 52 : ℕ) * 2 ^ (e + 1) := by
      rw [hcarry, cast_twoPow, zpow_add₀ (by norm_num)]
      norm_num
      ring
    rw [if_pos hcarry, hnext]
    dsimp only
    split
    · next hlarge => exact hinfinite le_rfl hlarge
    · exact ⟨by decide, by omega, rfl⟩
  · rw [if_neg hcarry]
    dsimp only
    split
    · next hlarge => exact hinfinite (hfull (by omega)) hlarge
    · exact ⟨lt_of_le_of_ne hm hcarry, he, rfl⟩

/-- **The nearest number** is the quotient, rounded. -/
theorem exists_holds_nearest (num : ℕ) (hden : 0 < den) :
    ∃ v, IsRounded ((num : ℚ) / den) v ∧ (nearest num den).Holds v := by
  rcases Nat.eq_zero_or_pos num with rfl | hnum
  · refine ⟨0, ?_, by decide, by decide, by simp⟩
    rw [Nat.cast_zero, zero_div]
    exact isRounded_zero_iff.2 rfl
  have hq : (0 : ℚ) < num / den := div_pos (by exact_mod_cast hnum) (by exact_mod_cast hden)
  have hnearest := isNearest_roundHalfEven (scale num den (grid (num / den))).1
    (scale_snd_pos num hden (grid (num / den)))
  rw [scale_eq] at hnearest
  refine ⟨_, ⟨_, hnearest, rfl⟩, ?_⟩
  unfold nearest
  rw [if_neg hnum.ne', gridExponent_eq hnum hden]
  exact holds_carry (hnearest.le_mantissa hq) (le_max_right _ _) fun hg => hnearest.mantissa_le hq hg

theorem exists_holds_nearestScaled (n : ℕ) (e : ℤ) :
    ∃ v, IsRounded (n * 2 ^ e) v ∧ (nearestScaled n e).Holds v := by
  unfold nearestScaled
  split
  · next he =>
    have h := exists_holds_nearest (n * twoPow e.toNat) one_pos
    rwa [Nat.cast_one, div_one, Nat.cast_mul, ← two_zpow_of_nonneg he] at h
  · next he =>
    have h := exists_holds_nearest n (twoPow_pos (-e).toNat)
    rwa [div_eq_mul_inv, ← two_zpow_of_not_nonneg he] at h

/-- Naturals up to `2 ^ 53` are exact. -/
theorem holds_ofNat (hn : n ≤ 2 ^ 53) : (ofNat n).Holds n := by
  obtain ⟨v, hv, hholds⟩ := exists_holds_nearest n one_pos
  rw [Nat.cast_one, div_one] at hv
  rwa [hv.unique (isRounded_natCast hn) n.cast_nonneg] at hholds

/-- A small natural is a finite number. -/
theorem exists_ofNat_eq_finite (hn : n ≤ 2 ^ 53) :
    ∃ m e, ofNat n = finite m e ∧ (n : ℚ) = m * 2 ^ e := by
  have hholds := holds_ofNat hn
  cases h : ofNat n with
  | finite m e =>
    rw [h] at hholds
    exact ⟨m, e, rfl, hholds.2.2⟩
  | infinite =>
    rw [h] at hholds
    have hsmall : (n : ℚ) ≤ 2 ^ 53 := by exact_mod_cast hn
    have hlarge : (2 : ℚ) ^ 53 < 2 ^ 1024 := pow_lt_pow_right₀ one_lt_two (by norm_num)
    exact absurd hholds (not_le.2 (hsmall.trans_lt hlarge))
  | undefined =>
    rw [h] at hholds
    exact hholds.elim

theorem mul_finite (m : ℕ) (e : ℤ) (n : ℕ) (f : ℤ) :
    (finite m e).mul (finite n f) = nearestScaled (m * n) (e + f) := by
  simp [mul]

/-- **A product with a power of two** is exact, as only the exponent changes. -/
theorem holds_mul_two_pow (ha : a.Holds v) (hk : k ≤ 53) :
    (a.mul (ofNat (2 ^ k))).Holds (v * (2 ^ k : ℕ)) := by
  obtain ⟨n, f, hunit, hpow⟩ := exists_ofNat_eq_finite (Nat.pow_le_pow_right Nat.two_pos hk)
  rw [hunit]
  cases a with
  | finite m e =>
    obtain ⟨hm, he, rfl⟩ := ha
    have hproduct : ((m * n : ℕ) : ℚ) * 2 ^ (e + f) = m * 2 ^ e * (2 ^ k : ℕ) := by
      rw [Nat.cast_mul, zpow_add₀ (by norm_num), mul_mul_mul_comm, ← hpow]
    have hself : IsRounded (m * 2 ^ e * (2 ^ k : ℕ)) (m * 2 ^ e * (2 ^ k : ℕ)) := by
      rw [mul_assoc, mul_comm _ ((2 ^ k : ℕ) : ℚ), ← two_zpow_add]
      exact isRounded_self hm (by omega)
    have hnonneg : 0 ≤ (m : ℚ) * 2 ^ e * (2 ^ k : ℕ) :=
      mul_nonneg (mul_nonneg m.cast_nonneg (two_zpow_pos e).le) (Nat.cast_nonneg _)
    obtain ⟨w, hw, hholds⟩ := exists_holds_nearestScaled (m * n) (e + f)
    rw [hproduct] at hw
    rwa [mul_finite, ← hw.unique hself hnonneg]
  | infinite =>
    have hone : (1 : ℚ) ≤ (2 ^ k : ℕ) := by exact_mod_cast Nat.one_le_two_pow
    have hlarge : (2 : ℚ) ^ 1024 ≤ v * (2 ^ k : ℕ) :=
      le_trans ha (le_mul_of_one_le_right ((pow_pos two_pos 1024).le.trans ha) hone)
    cases n with
    | zero =>
      rw [Nat.cast_zero, zero_mul] at hpow
      linarith
    | succ n => exact hlarge
  | undefined => exact ha.elim

/-! ### The integer part -/

/-- **The integer part**, as a word. -/
theorem floorWord_eq (ha : a.Holds v) : a.floorWord = min ⌊v⌋₊ maxWord := by
  cases a with
  | finite m e =>
    obtain ⟨-, -, rfl⟩ := ha
    have hquotient : ⌊(m : ℚ) * 2 ^ e⌋₊ = (quotient m e).1 / (quotient m e).2 := by
      rw [← Nat.floor_div_eq_div (K := ℚ), quotient_eq]
    rw [hquotient, floorWord]
  | infinite =>
    have hword : (maxWord : ℚ) ≤ 2 ^ 64 := by exact_mod_cast (by decide : maxWord ≤ 2 ^ 64)
    have hlarge : (2 : ℚ) ^ 64 ≤ 2 ^ 1024 := pow_le_pow_right₀ one_le_two (by norm_num)
    exact (min_eq_right (Nat.le_floor ((hword.trans hlarge).trans ha))).symm
  | undefined => exact ha.elim

end Binary64

end DiskUsage.Number
