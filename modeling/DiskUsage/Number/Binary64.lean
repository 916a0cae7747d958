import DiskUsage.Number.Numeral
import DiskUsage.Number.Power
import DiskUsage.Number.Rounding

/-!
# Binary floating point without a sign

Non-negative numbers of 64-bit binary floating point, computed exactly: a finite number is a
mantissa times a power of two, and every operation rounds its exact result once, to nearest, ties
to even.

* `nearest`: the number nearest to a quotient of naturals.
* `gridExponent`: numbers of one binade are the multiples of two to this power; a mantissa has 53
  bits, and no power below `2 ^ (-1074)` is used.
* `nearest_zero`, `floor_ofNat_zero`: zero stays zero.
-/

namespace DiskUsage.Number

/-- A non-negative number of 64-bit binary floating point. -/
inductive Binary64 where
  /-- The number `mantissa * 2 ^ exponent`. -/
  | finite (mantissa : Nat) (exponent : Int)
  /-- Larger than every finite number. -/
  | infinite
  /-- The result of an operation that has none. -/
  | undefined
  deriving DecidableEq, Repr

namespace Binary64

/-- The number zero. -/
def zero : Binary64 := finite 0 0

/-- The quotient `num / den * 2 ^ (-e)` as a quotient of naturals. -/
def scale (num den : Nat) (e : Int) : Nat × Nat :=
  if 0 ≤ e then (num, den * twoPow e.toNat) else (num * twoPow (-e).toNat, den)

/-- The exponent of the largest power of two that is at most `num / den`. -/
def floorLog2 (num den : Nat) : Int :=
  let d : Int := (Nat.log2 num : Int) - (Nat.log2 den : Int)
  let (a, b) := scale num den d
  if b ≤ a then d else d - 1

/-- Numbers near `num / den` are the multiples of two to this power. -/
def gridExponent (num den : Nat) : Int :=
  max (floorLog2 num den - 52) (-1074)

/-- A mantissa of 54 bits is carried into the exponent, and numbers from `2 ^ 1024` on are
infinite. -/
def carry (m : Nat) (e : Int) : Binary64 :=
  let (m, e) := if m = twoPow 53 then (twoPow 52, e + 1) else (m, e)
  if 971 < e then infinite else finite m e

/-- The number nearest to `num / den`. -/
def nearest (num den : Nat) : Binary64 :=
  if num = 0 then zero
  else
    let e := gridExponent num den
    let (a, b) := scale num den e
    carry (roundHalfEven a b) e

/-- The number nearest to `n * 2 ^ e`. -/
def nearestScaled (n : Nat) (e : Int) : Binary64 :=
  if 0 ≤ e then nearest (n * twoPow e.toNat) 1 else nearest n (twoPow (-e).toNat)

/-- The number nearest to a natural. -/
def ofNat (n : Nat) : Binary64 :=
  nearest n 1

def add : Binary64 → Binary64 → Binary64
  | undefined, _ => undefined
  | _, undefined => undefined
  | infinite, _ => infinite
  | _, infinite => infinite
  | finite m e, finite n f =>
    let low := min e f
    nearestScaled (m * twoPow (e - low).toNat + n * twoPow (f - low).toNat) low

def mul : Binary64 → Binary64 → Binary64
  | undefined, _ => undefined
  | _, undefined => undefined
  | infinite, finite 0 _ => undefined
  | finite 0 _, infinite => undefined
  | infinite, _ => infinite
  | _, infinite => infinite
  | finite m e, finite n f => nearestScaled (m * n) (e + f)

def div : Binary64 → Binary64 → Binary64
  | undefined, _ => undefined
  | _, undefined => undefined
  | infinite, infinite => undefined
  | infinite, _ => infinite
  | finite _ _, infinite => zero
  | finite m e, finite n f =>
    if n = 0 then (if m = 0 then undefined else infinite)
    else
      let (a, b) := scale m n (f - e)
      nearest a b

/-- A finite number as a quotient of naturals. -/
def quotient (m : Nat) (e : Int) : Nat × Nat :=
  if 0 ≤ e then (m * twoPow e.toNat, 1) else (m, twoPow (-e).toNat)

/-- The number is finite and not zero, or infinite. -/
def isPositive : Binary64 → Bool
  | finite m _ => m != 0
  | infinite => true
  | undefined => false

/-- The number is at least a natural. -/
def reaches (n : Nat) : Binary64 → Bool
  | finite m e => let (a, b) := quotient m e; decide (n * b ≤ a)
  | infinite => true
  | undefined => false

/-- What the number is above its integer part is at most `2 ^ (-52)`. -/
def isNearlyWhole : Binary64 → Bool
  | finite m e => let (a, b) := quotient m e; decide (a % b * twoPow 52 ≤ b)
  | infinite => true
  | undefined => true

/-- The integer part, as a 64-bit word: larger numbers give the largest word, and the undefined one
gives zero. -/
def floorWord : Binary64 → Nat
  | finite m e => let (a, b) := quotient m e; min (a / b) maxWord
  | infinite => maxWord
  | undefined => 0

/-- The nearest integer, halves upwards, as a 64-bit word. -/
def roundWord : Binary64 → Nat
  | finite m e => let (a, b) := quotient m e; min ((2 * a + b) / (2 * b)) maxWord
  | infinite => maxWord
  | undefined => 0

/-- The 64 bits of the number; a mantissa of 53 bits loses its first bit. -/
def toBits : Binary64 → Nat
  | finite m e => if m < twoPow 52 then m else (e + 1075).toNat * twoPow 52 + (m - twoPow 52)
  | infinite => 0x7ff * twoPow 52
  | undefined => 0x7ff * twoPow 52 + twoPow 51

/-- The decimal nearest to the number among those with `places` decimal places, ties to even. -/
def toFixed (places : Nat) : Binary64 → String
  | finite m e =>
    let (a, b) := quotient m e
    let digits := Nat.toDigits 10 (roundHalfEven (a * tenPow places) b)
    let digits := List.replicate (places + 1 - digits.length) '0' ++ digits
    if places = 0 then String.ofList digits
    else
      let whole := digits.length - places
      String.ofList (digits.take whole ++ '.' :: digits.drop whole)
  | infinite => "inf"
  | undefined => "NaN"

@[simp] theorem nearest_zero (den : Nat) : nearest 0 den = zero := rfl

@[simp] theorem floor_ofNat_zero : floorWord (ofNat 0) = 0 := by decide

end Binary64

end DiskUsage.Number
