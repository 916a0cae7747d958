import DiskUsage.Error.Tool
import DiskUsage.Number.Numeral
import DiskUsage.Text.Blank

/-!
# Output in kilobytes

The output of a usage tool begins with a signed number of kilobytes.

* `parseKilobytes`: the number of bytes, or why there is none.
-/

namespace DiskUsage.Usage

/-- The name of the usage tool. -/
def duName : String := "du"

/-- The number is a signed 64-bit word. -/
def isSignedWord (n : Int) : Bool :=
  decide (-9223372036854775808 ≤ n) && decide (n ≤ 9223372036854775807)

/-- The signed number with which an output begins. -/
def leadingNumber? (output : String) : Option Int := do
  let field ← Text.firstField? output.toList
  let n ← Number.integer? field
  if isSignedWord n then some n else none

/-- The number of bytes that an output tells. -/
def parseKilobytes (output : String) : Except ToolError Nat :=
  match leadingNumber? output with
  | none => .error (.parse duName output)
  | some kilobytes =>
    if kilobytes ≤ 0 then .error (.invalidResult duName kilobytes)
    else .ok (min (kilobytes.toNat * 1024) Number.maxWord)

theorem parseKilobytes_parse_iff (output : String) :
    parseKilobytes output = .error (.parse duName output) ↔ leadingNumber? output = none := by
  unfold parseKilobytes
  split
  · next h => simp [h]
  · next n h => split <;> simp [h]

example : (parseKilobytes " 12\t/p\n").toOption = some 12288 := by decide +kernel

end DiskUsage.Usage
