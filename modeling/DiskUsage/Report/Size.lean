import DiskUsage.Number.Binary64

/-!
# Sizes to read

A size is shown in the largest binary unit in which it is at least one, as a whole number if nothing
is left after the point, and with two decimal places otherwise.

* `formatSize`: the text of a number of bytes.
-/

namespace DiskUsage.Report

open Number

/-- The unit of bytes, and the units that are each 1024 of the one before. -/
def sizeUnits : String × List String :=
  ("B", ["KiB", "MiB", "GiB", "TiB", "PiB", "EiB"])

/-- A number in a unit, divided by 1024 into the units that follow as long as it reaches 1024. -/
def inLargestUnit (x : Binary64) (unit : String) : List String → Binary64 × String
  | [] => (x, unit)
  | next :: larger =>
    if x.reaches 1024 then inLargestUnit (x.div (.ofNat 1024)) next larger else (x, unit)

/-- The text of a number of bytes. -/
def formatSize (bytes : Nat) : String :=
  let (x, unit) := inLargestUnit (.ofNat bytes) sizeUnits.1 sizeUnits.2
  x.toFixed (if x.isNearlyWhole then 0 else 2) ++ " " ++ unit

/-- A number below 1024 stays in its unit. -/
theorem inLargestUnit_of_not_reaches {x : Binary64} (h : x.reaches 1024 = false) (unit : String)
    (larger : List String) : inLargestUnit x unit larger = (x, unit) := by
  cases larger <;> simp [inLargestUnit, h]

example : formatSize 0 = "0 B" := by decide +kernel
example : formatSize 1536 = "1.50 KiB" := by decide +kernel
example : formatSize 18446744073709551615 = "16 EiB" := by decide +kernel

end DiskUsage.Report
