/-!
# Numerals

Decimal numerals in ASCII digits.  Writing is `Nat.toDigits 10`; reading takes any number of leading
zeros, and for integers a sign.

* `natural?_toDigits`: what is written is read back.
* `natural?_eq_some_iff`: exactly the non-empty runs of digits are read.
-/

namespace DiskUsage.Number

/-- One more than the largest 64-bit word. -/
def wordCount : Nat := 18446744073709551616

/-- The largest 64-bit word. -/
def maxWord : Nat := wordCount - 1

/-- The number that a non-empty run of digits stands for. -/
def natural? (cs : List Char) : Option Nat :=
  if cs.isEmpty then none
  else if cs.all Char.isDigit then some (Nat.ofDigitChars 10 cs 0)
  else none

/-- The number that digits after an optional sign stand for. -/
def integer? : List Char → Option Int
  | '-' :: cs => (natural? cs).map fun n => -(n : Int)
  | '+' :: cs => (natural? cs).map Int.ofNat
  | cs => (natural? cs).map Int.ofNat

/-- A 64-bit word: digits after an optional plus sign. -/
def word? (cs : List Char) : Option UInt64 :=
  let digits := match cs with
    | '+' :: rest => rest
    | _ => cs
  (natural? digits).bind fun n => if n < wordCount then some (UInt64.ofNat n) else none

theorem natural?_eq_some_iff {cs : List Char} {n : Nat} :
    natural? cs = some n
      ↔ cs ≠ [] ∧ cs.all Char.isDigit = true ∧ n = Nat.ofDigitChars 10 cs 0 := by
  unfold natural?
  by_cases hn : cs = []
  · subst hn
    exact ⟨nofun, fun h => absurd rfl h.1⟩
  · rw [if_neg (by simpa using hn)]
    split
    · next hd => exact ⟨fun h => ⟨hn, hd, (Option.some.inj h).symm⟩, fun h => congrArg some h.2.2.symm⟩
    · next hd => exact ⟨nofun, fun h => absurd h.2.1 hd⟩

/-- What is written is read back. -/
theorem natural?_toDigits (n : Nat) : natural? (Nat.toDigits 10 n) = some n := by
  rw [natural?_eq_some_iff]
  refine ⟨Nat.toDigits_ne_nil, ?_, ?_⟩
  · rw [List.all_eq_true]
    exact fun c hc => Nat.isDigit_of_mem_toDigits (by decide) (by decide) hc
  · rw [Nat.ofDigitChars_toDigits] <;> decide

end DiskUsage.Number
