import DiskUsage.Entry.Json

/-!
# The result of a scan

* `ScanResult.isEmpty`: the scan found nothing.
* `ScanResult.toJson?`, `ScanResult.ofJson?`: the result as a record.
-/

namespace DiskUsage

/-- What one scan found. -/
structure ScanResult where
  root : Path
  /-- The largest children, the largest first. -/
  entries : List DirEntry
  /-- The largest files, the largest first. -/
  largeFiles : List LargeFile
  /-- Bytes on disk of everything visited. -/
  totalSize : Nat
  filesScanned : Nat
  dirsScanned : Nat
  duration : Duration
  deriving DecidableEq, Repr

namespace ScanResult

/-- The result for a root with nothing in it. -/
def empty (root : Path) : ScanResult where
  root := root
  entries := []
  largeFiles := []
  totalSize := 0
  filesScanned := 0
  dirsScanned := 0
  duration := .zero

/-- The scan found nothing. -/
def isEmpty (r : ScanResult) : Bool :=
  r.entries.isEmpty && r.largeFiles.isEmpty && r.totalSize == 0

/-- The largest child. -/
def largestChild? (r : ScanResult) : Option DirEntry :=
  r.entries.head?

/-- The fields of a result. -/
def fieldNames : List String := [
  "root", "entries", "large_files", "total_size", "files_scanned", "dirs_scanned", "scan_duration"]

/-- A result as a record. -/
def toJson? (r : ScanResult) : Option Json := do
  let entries ← r.entries.mapM DirEntry.toJson?
  some (.record [
    ("root", .text r.root.text), ("entries", .array entries),
    ("large_files", .array (r.largeFiles.map LargeFile.toJson)),
    ("total_size", .nat r.totalSize), ("files_scanned", .nat r.filesScanned),
    ("dirs_scanned", .nat r.dirsScanned), ("scan_duration", r.duration.toJson)])

/-- Read a result. -/
def ofJson? (j : Json) : Option ScanResult := do
  match ← j.readRecord? fieldNames [] with
  | [root, entries, largeFiles, totalSize, files, dirs, duration] =>
    return {
      root := ⟨← root.text?⟩
      entries := ← (← entries.array?).mapM DirEntry.ofJson?
      largeFiles := ← (← largeFiles.array?).mapM LargeFile.ofJson?
      totalSize := ← totalSize.word?
      filesScanned := ← files.word?
      dirsScanned := ← dirs.word?
      duration := ← Duration.ofJson? duration }
  | _ => none

/-- Read a result from its text. -/
def ofText? (text : String) : Option ScanResult :=
  (Json.parse? text).bind ofJson?

@[simp] theorem isEmpty_empty (root : Path) : (empty root).isEmpty = true := rfl

end ScanResult

end DiskUsage
