import DiskUsage.Path.Basic
import DiskUsage.Progress.Counters
import DiskUsage.Report.Size
import DiskUsage.Time.Duration

/-!
# Progress

A snapshot of the counters of a running scan, and the rates that it shows.

* `Snapshot.line`: the line to show.
-/

namespace DiskUsage

/-- The counters at one moment of a scan. -/
structure Snapshot where
  counters : Counters
  /-- A path visited a moment ago. -/
  currentPath : Path
  /-- Time since the scan started. -/
  elapsed : Duration
  deriving DecidableEq, Repr

namespace Snapshot

open Number

/-- So many things a second; zero if no time has passed. -/
def perSecond (s : Snapshot) (count : UInt64) : Binary64 :=
  let seconds := s.elapsed.toSeconds
  if seconds.isPositive then (Binary64.ofNat count.toNat).div seconds else .zero

/-- Files a second. -/
def filesPerSecond (s : Snapshot) : Binary64 :=
  s.perSecond s.counters.files

/-- Bytes a second. -/
def bytesPerSecond (s : Snapshot) : Binary64 :=
  s.perSecond s.counters.bytes

/-- Files and directories together. -/
def totalItems (s : Snapshot) : Nat :=
  s.counters.files.toNat + s.counters.dirs.toNat

/-- The line to show. -/
def line (s : Snapshot) : String :=
  " " ++ toString s.totalItems ++ " items, " ++ s.filesPerSecond.toFixed 0 ++ " files/s, "
    ++ Report.formatSize s.bytesPerSecond.floorWord ++ "/s"

/-- Without any time there is no rate. -/
theorem perSecond_zero (s : Snapshot) (h : s.elapsed = .zero) (count : UInt64) :
    s.perSecond count = .zero := by
  simp [perSecond, h, show Duration.zero.toSeconds.isPositive = false by decide +kernel]

end Snapshot

end DiskUsage
