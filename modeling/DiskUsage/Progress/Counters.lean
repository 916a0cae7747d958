import DiskUsage.Number.Numeral

/-!
# Counters

Four counters of a scan, each a 64-bit word that starts again at zero after the largest one.

* `Counters.recordFiles`, `Counters.recordBytes`, `Counters.recordDir`, `Counters.recordError`:
  what is counted.
* `recordFile_eq`: one file is a batch of one.
-/

namespace DiskUsage

/-- The counters of a scan. -/
structure Counters where
  files : UInt64
  dirs : UInt64
  bytes : UInt64
  errors : UInt64
  deriving DecidableEq, Repr

namespace Counters

def zero : Counters := ⟨0, 0, 0, 0⟩

/-- Files of so many bytes on disk. -/
def recordFiles (c : Counters) (count bytes : Nat) : Counters :=
  { c with files := c.files + UInt64.ofNat count, bytes := c.bytes + UInt64.ofNat bytes }

/-- A file of so many bytes on disk. -/
def recordFile (c : Counters) (size : Nat) : Counters :=
  c.recordFiles 1 size

/-- Bytes that were measured without visiting files. -/
def recordBytes (c : Counters) (bytes : Nat) : Counters :=
  { c with bytes := c.bytes + UInt64.ofNat bytes }

/-- A directory. -/
def recordDir (c : Counters) : Counters :=
  { c with dirs := c.dirs + 1 }

/-- An entry that cannot be read. -/
def recordError (c : Counters) : Counters :=
  { c with errors := c.errors + 1 }

theorem recordFile_eq (c : Counters) (size : Nat) : c.recordFile size = c.recordFiles 1 size := rfl

@[simp] theorem files_recordBytes (c : Counters) (n : Nat) : (c.recordBytes n).files = c.files := rfl

@[simp] theorem files_recordDir (c : Counters) : c.recordDir.files = c.files := rfl

@[simp] theorem files_recordError (c : Counters) : c.recordError.files = c.files := rfl

end Counters

end DiskUsage
