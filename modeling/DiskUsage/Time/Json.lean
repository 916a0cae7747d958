import DiskUsage.Json.Record
import DiskUsage.Time.Timestamp

/-!
# Times in JSON

A length of time and a point in time are records of two whole numbers, the seconds and the
nanoseconds, with no other field; a complete array stands for one too.  Nanoseconds of a second or
more carry when they are read.  A point before the epoch cannot be written.

* `Duration.ofJson?_toJson`: a length of time is read back.
* `Timestamp.toJson?_eq_none_iff`: exactly the points before the epoch cannot be written.
-/

namespace DiskUsage

/-- Two whole numbers under these names: a 64-bit word and a 32-bit one. -/
def secondsAndNanos? (secsName nanosName : String) (j : Json) : Option (Nat × Nat) := do
  match ← j.readExactRecord? [secsName, nanosName] with
  | [secs, nanos] =>
    let s ← secs.word?
    let n ← nanos.natural?
    if n < 4294967296 then some (s, n) else none
  | _ => none

namespace Duration

/-- A length of time as a record. -/
def toJson (d : Duration) : Json :=
  .record [("secs", .nat d.secs.toNat), ("nanos", .nat d.nanos)]

/-- Read a length of time. -/
def ofJson? (j : Json) : Option Duration := do
  let (secs, nanos) ← secondsAndNanos? "secs" "nanos" j
  ofParts? secs nanos

end Duration

namespace Timestamp

/-- A point in time as a record. -/
def toJson? (t : Timestamp) : Option Json := do
  let (secs, nanos) ← t.toParts?
  some (.record [("secs_since_epoch", .nat secs), ("nanos_since_epoch", .nat nanos)])

/-- Read a point in time. -/
def ofJson? (j : Json) : Option Timestamp := do
  let (secs, nanos) ← secondsAndNanos? "secs_since_epoch" "nanos_since_epoch" j
  ofParts? secs nanos

theorem toJson?_eq_none_iff (t : Timestamp) : t.toJson? = none ↔ t.secs < 0 := by
  simp only [toJson?, toParts?]
  split
  · next h => simp [Int.not_lt.2 h]
  · next h => simpa using h

end Timestamp

/-- Two numbers written under two different names are read back. -/
theorem secondsAndNanos?_record {secsName nanosName : String} (hne : secsName ≠ nanosName)
    {secs nanos : Nat} (hs : secs < Number.wordCount) (hn : nanos < 4294967296) :
    secondsAndNanos? secsName nanosName
      (.record [(secsName, .nat secs), (nanosName, .nat nanos)]) = some (secs, nanos) := by
  have hne' : nanosName ≠ secsName := Ne.symm hne
  simp [secondsAndNanos?, Json.readExactRecord?, Json.readRecord?, Json.Record.read?, Json.keyed?,
    Json.Record.complete?, Json.record, Json.occurrences, Json.lookup?, Json.word?_nat hs,
    hne, hne', hn, Json.natural?_nat]

namespace Duration

/-- A length of time is read back. -/
theorem ofJson?_toJson (d : Duration) : ofJson? d.toJson = some d := by
  have hs : d.secs.toNat < Number.wordCount := d.secs.toNat_lt
  have hn : d.nanos < 4294967296 := Nat.lt_trans d.nanos_lt (by decide)
  simp [ofJson?, toJson, secondsAndNanos?_record (by decide : "secs" ≠ "nanos") hs hn, ofParts?_self]

end Duration

end DiskUsage
