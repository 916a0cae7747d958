import DiskUsage.Time.Duration

/-!
# Points in time

A point in time is a signed number of whole seconds from the Unix epoch, and of nanoseconds after
it.

* `Timestamp.secondsSince?`: the whole seconds from one point to a later one.
* `secondsSince?_isSome_iff`: there are none iff the first point lies after the second.
-/

namespace DiskUsage

/-- A point in time: `nanos` nanoseconds after `secs` seconds from the Unix epoch. -/
structure Timestamp where
  secs : Int
  nanos : Nat
  nanos_lt : nanos < nanosPerSecond
  deriving Repr

namespace Timestamp

theorem ext_iff {s t : Timestamp} : s = t ↔ s.secs = t.secs ∧ s.nanos = t.nanos := by
  cases s
  cases t
  simp

instance : DecidableEq Timestamp := fun _ _ => decidable_of_iff _ ext_iff.symm

/-- The point so many whole seconds after the epoch. -/
def ofUnixSeconds (n : Nat) : Timestamp :=
  ⟨Int.ofNat n, 0, nanosPerSecond_pos⟩

/-- The largest number of seconds that a clock counts. -/
def maxSecs : Nat := 9223372036854775807

/-- Nanoseconds from the Unix epoch. -/
def toNanos (t : Timestamp) : Int :=
  t.secs * nanosPerSecond + t.nanos

/-- Seconds and nanoseconds after the epoch, the nanoseconds carrying; `none` beyond the clock. -/
def ofParts? (secs nanos : Nat) : Option Timestamp :=
  let total := secs + nanos / nanosPerSecond
  if total ≤ maxSecs then
    some ⟨Int.ofNat total, nanos % nanosPerSecond, mod_nanosPerSecond_lt nanos⟩
  else none

/-- Seconds and nanoseconds after the epoch, unless the point lies before it. -/
def toParts? (t : Timestamp) : Option (Nat × Nat) :=
  if 0 ≤ t.secs then some (t.secs.toNat, t.nanos) else none

/-- Whole seconds from `past` to `now`, unless `past` lies after `now`. -/
def secondsSince? (now past : Timestamp) : Option Nat :=
  if past.toNanos ≤ now.toNanos then
    some ((now.toNanos - past.toNanos).toNat / nanosPerSecond)
  else none

/-- The point a number of seconds earlier. -/
def minusSecs (t : Timestamp) (n : Int) : Timestamp :=
  { t with secs := t.secs - n }

/-- Whole seconds from the epoch, as a word; a point before it counts as the epoch. -/
def unixSeconds (t : Timestamp) : Nat :=
  t.secs.toNat

theorem secondsSince?_isSome_iff (now past : Timestamp) :
    (now.secondsSince? past).isSome = true ↔ past.toNanos ≤ now.toNanos := by
  unfold secondsSince?
  split <;> simp_all

end Timestamp

end DiskUsage
