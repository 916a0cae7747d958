import DiskUsage.Json.Value
import DiskUsage.Number.Binary64

/-!
# Numbers too large for binary floating point

A number is kept as the digits that fit one 64-bit word and a power of ten.  It is too large if the
power of ten is beyond 308, or if the word times the power, both rounded, rounds to infinity.  A number
is refused for that even where nothing reads it.

* `Json.isSound`: every string in a value is a text and no number is too large.
-/

namespace DiskUsage.Json

open Number

/-- The largest exponent that is read as such; from there on only its sign counts. -/
def maxExponent : Nat := 2147483647

/-- Take digits as long as the number stays a word; the digits that are left over. -/
def takeWord (n : Nat) : List Char → Nat × List Char
  | [] => (n, [])
  | c :: cs =>
    let n' := n * 10 + (c.toNat - '0'.toNat)
    if n' ≤ maxWord then takeWord n' cs else (n, c :: cs)

/-- The word and the power of ten that a numeral is kept as, its written exponent apart: digits of
the whole part that do not fit raise the power, and digits of the fraction that do fit lower it. -/
def Numeral.significand (n : Numeral) : Nat × Int :=
  let (word, left) := takeWord 0 n.whole
  let fraction := n.fraction.getD []
  let (word, rest) := takeWord word fraction
  (word, (left.length : Int) - (fraction.length - rest.length : Nat))

/-- A word times a power of ten is infinite. -/
def overflows (word : Nat) (power : Int) : Bool :=
  if word == 0 || power < 0 then false
  else if 308 < power then true
  else (Binary64.ofNat word).mul (Binary64.ofNat (tenPow power.toNat)) == .infinite

/-- The number is too large. -/
def Numeral.isHuge (n : Numeral) : Bool :=
  let (word, power) := n.significand
  match n.exponent with
  | none => overflows word power
  | some (negative, digits) =>
    let e := Nat.ofDigitChars 10 digits 0
    if maxExponent < e then word != 0 && !negative
    else overflows word (if negative then power - e else power + e)

mutual
/-- Every string is a text and no number is too large. -/
def isSound : Json → Bool
  | number n => !n.isHuge
  | broken => false
  | array items => soundItems items
  | object fields => soundFields fields
  | _ => true

def soundItems : List Json → Bool
  | [] => true
  | j :: rest => j.isSound && soundItems rest

def soundFields : List (Option String × Json) → Bool
  | [] => true
  | (name, j) :: rest => name.isSome && j.isSound && soundFields rest
end

example : Numeral.isHuge ⟨false, ['1'], none, some (false, ['3', '0', '9'])⟩ = true := by
  decide +kernel
example : Numeral.isHuge ⟨false, ['1'], none, some (false, ['3', '0', '8'])⟩ = false := by
  decide +kernel

end DiskUsage.Json
