import DiskUsage.Cache.Store
import DiskUsage.Progress.Feed
import DiskUsage.Scan.Overview
import DiskUsage.Scan.Run
import DiskUsage.Sharing.InFlight

/-!
# A scanner

A scanner keeps its cache, its counters and its subscriber from one question to the next.  Every scan
starts its counters at zero, also one that fails, and leaves the cache as it is; a measurement may
add to the cache and leaves the counters as they are.

* `Scanner.scan`: scan a root.
* `Scanner.overview`, `Scanner.overviewTogether`: the size of a path, for one caller or for several
  that ask together.
* `cache_scan`, `counters_overview`: what each of them leaves alone.
-/

namespace DiskUsage

/-- What a scanner meets when it is asked something. -/
structure Surroundings where
  fs : FileSystem
  /-- The working directory, by the names from the root on. -/
  cwd : List String
  tool : UsageTool
  index : ContentIndex
  now : Timestamp
  /-- How long a scan takes. -/
  elapsed : Duration
  /-- So many nanoseconds after its start a fast walk lists the directory at this path. -/
  listedAfter : Path → Nat
  processors : UInt64
  /-- Why the system does not start the worker of this number. -/
  startError? : Nat → Option SystemError

/-- What a scanner keeps between questions. -/
structure Scanner where
  config : ScanConfig
  cache : Cache
  counters : Counters
  feed : Feed

namespace Scanner

/-- A scanner that has done nothing. -/
def new (config : ScanConfig) (cache : Cache) : Scanner :=
  ⟨config, cache, .zero, .closed⟩

/-- A fast walk lists the directory at this path when its deadline has passed. -/
def isLate (config : ScanConfig) (w : Surroundings) (path : Path) : Bool :=
  decide (config.fastWalkDeadline.toNanos ≤ w.listedAfter path)

/-- The sizes that the scanner's cache knows at a time. -/
def known (s : Scanner) (now : Timestamp) : KnownSizes :=
  s.cache.known now.unixSeconds

/-- What a scan of a root depends on. -/
def scanSetup (s : Scanner) (w : Surroundings) (root : Path) : ScanSetup where
  config := s.config
  tool := w.tool
  reach := w.fs.isReadable w.cwd
  late := isLate s.config w
  known := s.known w.now
  readsChild := fun _ => w.fs.isSearchable w.cwd root
  leadsToDir := w.fs.isDir w.cwd
  index := w.index
  lstat := w.fs.lstat w.cwd
  list := w.fs.list w.cwd
  elapsed := w.elapsed
  processors := w.processors
  startError? := w.startError?

/-- What the measurement of a path depends on. -/
def overviewSetup (s : Scanner) (w : Surroundings) : OverviewSetup where
  config := s.config
  tool := w.tool
  known := s.known w.now
  lstat := w.fs.lstat w.cwd
  stat := w.fs.stat w.cwd

/-- A scan that ended: the scanner after it, what happened, and the result. -/
structure Scanned where
  scanner : Scanner
  trace : Trace
  answer : Except ScanError ScanResult

/-- Scan a root. -/
def scan (s : Scanner) (w : Surroundings) (root : Path) : Scanned :=
  let (trace, answer) := DiskUsage.scan (s.scanSetup w root) root
  { scanner :=
      { s with
        counters := Counters.zero.after trace
        feed := s.feed.observe s.config.progressEvery.toNat .zero trace }
    trace
    answer }

/-- A measurement that ended: the scanner and the file system after it, what was asked and stored,
and the answers to the callers. -/
structure Viewed where
  scanner : Scanner
  fs : FileSystem
  overview : Overview
  answers : List (Except ScanError Nat)

/-- Store what a measurement gives to store; whether that fails makes no difference to the answer. -/
def remember (s : Scanner) (w : Surroundings) (store? : Option (Path × Nat)) :
    Scanner × FileSystem :=
  match store? with
  | some (path, size) =>
    let (cache, fs, _) := s.cache.store w.fs w.cwd w.now path size
    ({ s with cache }, fs)
  | none => (s, w.fs)

/-- The path leads somewhere, so that measurements of it are shared. -/
def isShared (setup : OverviewSetup) (path : Path) : Bool :=
  !path.text.isEmpty && path.clean.isAbsolute
    && match setup.stat path.clean with
       | .ok _ => true
       | .error _ => false

/-- The answers to callers that share a measurement.  A caller that did not measure learns of a
failure only that the path could not be measured. -/
def sharedAnswers (n : Nat) (path : Path) (answer : Except ScanError Nat) :
    List (Except ScanError Nat) :=
  (InFlight.share n path answer).map (·.mapError fun e => e.getD (.measureFailed path))

/-- Measure a path for callers that ask together. -/
def overviewTogether (s : Scanner) (w : Surroundings) (n : Nat) (path : Path) : Viewed :=
  let setup := s.overviewSetup w
  let overview := measureOverview setup path
  let (scanner, fs) := s.remember w overview.store?
  { scanner
    fs
    overview
    answers :=
      if isShared setup path then sharedAnswers n path.clean overview.answer
      else List.replicate n overview.answer }

/-- Measure a path. -/
def overview (s : Scanner) (w : Surroundings) (path : Path) : Viewed :=
  let overview := measureOverview (s.overviewSetup w) path
  let (scanner, fs) := s.remember w overview.store?
  { scanner, fs, overview, answers := [overview.answer] }

/-- Start to listen to the progress. -/
def subscribe (s : Scanner) : Scanner :=
  { s with feed := .subscribed }

/-- Read the progress that waits. -/
def drain (s : Scanner) : List Snapshot × Nat × Scanner :=
  let (snapshots, lost, feed) := s.feed.drain
  (snapshots, lost, { s with feed })

@[simp] theorem cache_scan (s : Scanner) (w : Surroundings) (root : Path) :
    (s.scan w root).scanner.cache = s.cache := rfl

@[simp] theorem counters_remember (s : Scanner) (w : Surroundings) (store? : Option (Path × Nat)) :
    (s.remember w store?).1.counters = s.counters := by
  cases store? <;> rfl

@[simp] theorem counters_overview (s : Scanner) (w : Surroundings) (path : Path) :
    (s.overview w path).scanner.counters = s.counters :=
  counters_remember s w _

end Scanner

end DiskUsage
