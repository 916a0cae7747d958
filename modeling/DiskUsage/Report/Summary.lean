import DiskUsage.Entry.Result
import DiskUsage.Report.Age
import DiskUsage.Report.Bar
import DiskUsage.Report.PathDisplay
import DiskUsage.Report.Size
import DiskUsage.Text.Layout

/-!
# The report of a scan

A heading between two rules, a line for each child with its share of the total as a bar, and the
large files.

* `summary`: the lines of the report.
-/

namespace DiskUsage.Report

open Number

/-- The line above and below the heading. -/
def rule : String :=
  String.ofList (List.replicate 70 '─')

/-- Width of the column of names. -/
def nameWidth : Nat := 40

/-- A child's share of the total. -/
def shareOf (size total : Nat) : Binary64 :=
  if 0 < total then (Binary64.ofNat size).div (.ofNat total) else .zero

/-- The name of a child; a directory that is no link ends in a slash. -/
def shownName (e : DirEntry) : String :=
  if e.isDir && !e.isLink then e.name ++ "/" else e.name

/-- The line of a child. -/
def entryLine (now : Timestamp) (total : Nat) (e : DirEntry) : String :=
  let share := shareOf e.size total
  " " ++ Text.padRight nameWidth (Text.truncate nameWidth (shownName e))
    ++ " " ++ Text.padLeft 10 (formatSize e.size)
    ++ " " ++ Text.padLeft 5 ((share.mul (.ofNat 100)).toFixed 1) ++ "% "
    ++ makeBar share 10
    ++ " " ++ Text.padLeft 6 (formatUnusedTime now e.lastAccess)

/-- The line of a large file. -/
def largeFileLine (home : Option RawPath) (f : LargeFile) : String :=
  "   " ++ Text.padLeft 10 (formatSize f.size) ++ "  " ++ displayPath home (.text f.path)

/-- The lines above the children. -/
def heading (home : Option RawPath) (r : ScanResult) : List String := [
  "", rule,
  " " ++ displayPath home (.text r.root) ++ " - " ++ formatSize r.totalSize,
  " " ++ toString r.filesScanned ++ " files, " ++ toString r.dirsScanned ++ " directories",
  " Scanned in " ++ r.duration.toSeconds.toFixed 2 ++ "s",
  rule, ""]

/-- The lines of the large files, if there are any. -/
def largeFileLines (home : Option RawPath) (files : List LargeFile) : List String :=
  if files.isEmpty then []
  else "" :: " Large files:" :: files.map (largeFileLine home)

/-- The lines of the report. -/
def summary (now : Timestamp) (home : Option RawPath) (r : ScanResult) : List String :=
  heading home r
    ++ if r.isEmpty then [" Nothing to report."]
       else r.entries.map (entryLine now r.totalSize) ++ largeFileLines home r.largeFiles ++ [""]

/-- The report of an empty result says so. -/
theorem summary_empty (now : Timestamp) (home : Option RawPath) (root : Path) :
    " Nothing to report." ∈ summary now home (.empty root) := by
  simp [summary]

end DiskUsage.Report
