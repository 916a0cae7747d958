import DiskUsage.Config.Basic
import DiskUsage.Entry.Result
import DiskUsage.Entry.TopN
import DiskUsage.Error.Scan
import DiskUsage.Scan.Child
import DiskUsage.Scan.LargeFiles

/-!
# Scanning a root

The children of a root are sized by workers, which are started before the first child is sized; a
scan fails if one of them cannot be started.  The result does not depend on who sizes which child, so
here all are sized one after the other.

* `scanChildren`: what sizing the children of a root gives.
* `ScanSetup.startFailure?`: why a worker cannot be started.
* `scan`: the result of a scan, with what happens during it.
* `scan_isOk_iff`: which scans have a result.
-/

namespace DiskUsage

/-- The children of a root that are sized; those on the deny list are left out. -/
def scanChildren (s : ChildSetup) (root : Path) (entries : List (String × Node)) :
    List SizedChild :=
  entries.filterMap fun (name, node) =>
    let path := root.child name
    match s.config.classify (s.config.contextOf root) name path node.kind with
    | .denylistedSubtree => none
    | kind => some (sizeChild s path name node kind)

/-- Bytes on disk of all children, added up in a word; one that cannot be read has none. -/
def totalSize (children : List SizedChild) : Nat :=
  ((children.filterMap SizedChild.listed?).map DirEntry.size).foldl
    (fun total size => Number.wrap (total + size)) 0

/-- What happens while the children are sized. -/
def childrenTrace (children : List SizedChild) : Trace :=
  children.flatMap SizedChild.trace

/-- The largest children. -/
def largestEntries (c : ScanConfig) (children : List SizedChild) : List DirEntry :=
  TopN.largest DirEntry.size c.maxEntries.toNat (children.filterMap SizedChild.listed?)

/-- The largest files that the walks came across. -/
def walkedLargeFiles (c : ScanConfig) (children : List SizedChild) : List LargeFile :=
  TopN.largest LargeFile.size c.maxLargeFiles.toNat (children.flatMap SizedChild.large)

/-- What a scan depends on besides its root. -/
structure ScanSetup extends ChildSetup where
  index : ContentIndex
  lstat : Path → Except SystemError Node
  /-- The entries of a directory. -/
  list : Path → Except SystemError (List (String × Node))
  /-- How long the scan takes. -/
  elapsed : Duration
  processors : UInt64
  /-- Why the worker of this number cannot be started. -/
  startError? : Nat → Option SystemError

/-- Why one of the workers for so many children cannot be started; the first such is told. -/
def ScanSetup.startFailure? (s : ScanSetup) (children : Nat) : Option SystemError :=
  (List.range (s.config.workerCount s.processors (.ofNat children))).findSome? s.startError?

/-- A worker cannot be started. -/
def ScanError.ofStart (e : SystemError) : ScanError :=
  .other ("cannot start scan worker: " ++ e.message)

/-- The result of a scan of children. -/
def scanResult (s : ScanSetup) (root : Path) (children : List SizedChild) : ScanResult :=
  let counters := Counters.zero.after (childrenTrace children)
  let indexed := findLargeFiles s.config s.lstat s.index
  { root
    entries := largestEntries s.config children
    largeFiles := if indexed.isEmpty then walkedLargeFiles s.config children else indexed
    totalSize := totalSize children
    filesScanned := counters.files.toNat
    dirsScanned := counters.dirs.toNat
    duration := s.elapsed }

/-- Scan a root: what happens, and the result.  The root may not be listed, or a worker not be
started; that a collector comes to grief is a third failure, which cannot occur, as collecting never
does. -/
def scan (s : ScanSetup) (root : Path) : Trace × Except ScanError ScanResult :=
  match s.list root with
  | .error e => ([], .error (.ofSystem root e))
  | .ok entries =>
    match s.startFailure? entries.length with
    | some e => ([], .error (.ofStart e))
    | none =>
      let children := scanChildren s.toChildSetup root entries
      (childrenTrace children, .ok (scanResult s root children))

theorem ScanSetup.startFailure?_eq_none_iff (s : ScanSetup) (children : Nat) :
    s.startFailure? children = none
      ↔ ∀ i < s.config.workerCount s.processors (.ofNat children), s.startError? i = none := by
  simp [startFailure?]

/-- A scan has a result iff its root is listed and all its workers are started. -/
theorem scan_isOk_iff (s : ScanSetup) (root : Path) :
    (∃ r, (scan s root).2 = .ok r)
      ↔ ∃ entries, s.list root = .ok entries ∧ s.startFailure? entries.length = none := by
  unfold scan
  cases s.list root with
  | error e => simp
  | ok entries => cases h : s.startFailure? entries.length <;> simp [h]

/-- What is listed and started is scanned. -/
theorem scan_eq_of_list {s : ScanSetup} {root : Path} {entries : List (String × Node)}
    (hlist : s.list root = .ok entries) (hstart : s.startFailure? entries.length = none) :
    scan s root
      = (childrenTrace (scanChildren s.toChildSetup root entries),
          .ok (scanResult s root (scanChildren s.toChildSetup root entries))) := by
  simp only [scan, hlist, hstart]

/-- A scan with a result sized the children that its root lists. -/
theorem exists_list_of_scan {s : ScanSetup} {root : Path} {r : ScanResult}
    (h : (scan s root).2 = .ok r) :
    ∃ entries, s.list root = .ok entries ∧ s.startFailure? entries.length = none
      ∧ r = scanResult s root (scanChildren s.toChildSetup root entries) := by
  obtain ⟨entries, hlist, hstart⟩ := (scan_isOk_iff s root).mp ⟨r, h⟩
  rw [scan_eq_of_list hlist hstart, Except.ok.injEq] at h
  exact ⟨entries, hlist, hstart, h.symm⟩

end DiskUsage
