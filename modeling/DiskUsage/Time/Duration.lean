import DiskUsage.Number.Binary64

/-!
# Lengths of time

A length of time is a number of whole seconds, a 64-bit word, and of nanoseconds below a second.

* `Duration.describe`: the text in the largest unit that leaves a whole part, with as many decimal
  places as it needs.
* `Duration.ofParts?`: nanoseconds of a second or more carry into the seconds.
-/

namespace DiskUsage

/-- Nanoseconds in one second. -/
def nanosPerSecond : Nat := 1000000000

theorem nanosPerSecond_pos : 0 < nanosPerSecond := by decide

/-- What is left after whole seconds is below a second. -/
theorem mod_nanosPerSecond_lt (nanos : Nat) : nanos % nanosPerSecond < nanosPerSecond :=
  Nat.mod_lt nanos nanosPerSecond_pos

/-- A length of time. -/
structure Duration where
  secs : UInt64
  nanos : Nat
  nanos_lt : nanos < nanosPerSecond := by decide
  deriving DecidableEq, Repr

namespace Duration

def zero : Duration := { secs := 0, nanos := 0 }

instance : Inhabited Duration := ⟨zero⟩

def ofSecs (secs : UInt64) : Duration := { secs, nanos := 0 }

/-- Seconds and nanoseconds, the nanoseconds carrying; `none` if the seconds are no word. -/
def ofParts? (secs nanos : Nat) : Option Duration :=
  let total := secs + nanos / nanosPerSecond
  if total < Number.wordCount then
    some ⟨UInt64.ofNat total, nanos % nanosPerSecond, mod_nanosPerSecond_lt nanos⟩
  else none

/-- The length of time in nanoseconds. -/
def toNanos (d : Duration) : Nat :=
  d.secs.toNat * nanosPerSecond + d.nanos

/-- The decimal places of `part / 10 ^ places`, without zeros at the end. -/
def decimals (part places : Nat) : List Char :=
  let digits := Nat.toDigits 10 part
  let digits := List.replicate (places - digits.length) '0' ++ digits
  match (digits.reverse.dropWhile (· == '0')).reverse with
  | [] => []
  | ds => '.' :: ds

/-- A whole part, the decimal places of `part / 10 ^ places`, and a unit. -/
def inUnit (whole part places : Nat) (unit : String) : String :=
  String.ofList (Nat.toDigits 10 whole ++ decimals part places) ++ unit

/-- The text of a length of time in the largest unit that leaves a whole part. -/
def describe (d : Duration) : String :=
  if 0 < d.secs.toNat then inUnit d.secs.toNat d.nanos 9 "s"
  else if 1000000 ≤ d.nanos then inUnit (d.nanos / 1000000) (d.nanos % 1000000) 6 "ms"
  else if 1000 ≤ d.nanos then inUnit (d.nanos / 1000) (d.nanos % 1000) 3 "µs"
  else inUnit d.nanos 0 0 "ns"

open Number in
/-- The length of time in seconds, as a number of binary floating point. -/
def toSeconds (d : Duration) : Binary64 :=
  (Binary64.ofNat d.secs.toNat).add
    ((Binary64.ofNat d.nanos).div (Binary64.ofNat nanosPerSecond))

example : (ofParts? 1 1500000000).map describe = some "2.5s" := by decide +kernel
example : (ofParts? 0 10200).map describe = some "10.2µs" := by decide +kernel
example : (ofParts? 0 0).map describe = some "0ns" := by decide +kernel

theorem toNanos_lt (d : Duration) : d.toNanos < Number.wordCount * nanosPerSecond := by
  have h := d.secs.toNat_lt
  have hn := d.nanos_lt
  simp only [toNanos, Number.wordCount, nanosPerSecond] at *
  omega

/-- A length of time is read back from its two parts. -/
theorem ofParts?_self (d : Duration) : ofParts? d.secs.toNat d.nanos = some d := by
  have h := d.secs.toNat_lt
  have hn := d.nanos_lt
  have hq : d.nanos / nanosPerSecond = 0 := Nat.div_eq_of_lt hn
  have hr : d.nanos % nanosPerSecond = d.nanos := Nat.mod_eq_of_lt hn
  unfold ofParts?
  simp only [hq, hr, Nat.add_zero, UInt64.ofNat_toNat]
  rw [if_pos (by simpa [Number.wordCount] using h)]

end Duration

end DiskUsage
