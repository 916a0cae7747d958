import DiskUsage.Cache.File

/-!
# Caches of sizes

A cache remembers sizes not at all, as long as it lives, or in a file that outlives it; or it is
filled by hand with what it is to know.

* `Cache.known`: the sizes that a cache knows at a time.
* `Cache.store`: remember a size; if the file cannot be written, it is still remembered as long as
  the cache lives.
-/

namespace DiskUsage

/-- A cache of sizes; the times-to-live are in seconds. -/
inductive Cache where
  /-- It remembers nothing. -/
  | forgetful
  | memory (ttl : Option Nat) (sizes : SizeMap)
  | file (file : Path) (ttl : Option Nat) (sizes : SizeMap)
  /-- It is filled by hand: sizes that are fresh, with what is stored later, and sizes that were kept;
  it may refuse to store anything. -/
  | filled (fresh kept : List (Path × Nat)) (refuses : Bool)

namespace Cache

/-- The size of a path in a list, of which the last one counts. -/
def lastSize? (sizes : List (Path × Nat)) (path : Path) : Option Nat :=
  (sizes.reverse.find? fun e => e.1.sameAs path).map Prod.snd

/-- A week, in seconds. -/
def defaultTtl : Nat := 604800

/-- A cache that lives in memory. -/
def inMemory (ttl : Option Nat) : Cache := memory ttl []

/-- The cache that a file keeps. -/
def openFile (fs : FileSystem) (cwd : List String) (path : Path) (ttl : Option Nat) : Cache :=
  file path ttl (SizeMap.load fs cwd path)

/-- The fresh size of a path. -/
def load (c : Cache) (now : Nat) (path : Path) : Option Nat :=
  match c with
  | forgetful => none
  | memory ttl sizes => sizes.fresh? ttl now path
  | file _ ttl sizes => sizes.fresh? ttl now path
  | filled fresh _ _ => lastSize? fresh path

/-- The size of a path, however old. -/
def loadPersisted (c : Cache) (path : Path) : Option Nat :=
  match c with
  | forgetful => none
  | memory _ sizes => sizes.size? path
  | file _ _ sizes => sizes.size? path
  | filled _ kept _ => lastSize? kept path

/-- What a cache knows at a time. -/
def known (c : Cache) (now : Nat) : KnownSizes :=
  ⟨c.load now, c.loadPersisted⟩

/-- How many paths a cache in memory remembers. -/
def count? : Cache → Option Nat
  | memory _ sizes => some sizes.length
  | _ => none

/-- The file of a cache. -/
def file? : Cache → Option Path
  | file path _ _ => some path
  | _ => none

/-- Remember the size of a path. -/
def store (c : Cache) (fs : FileSystem) (cwd : List String) (now : Timestamp) (path : Path)
    (size : Nat) : Cache × FileSystem × Except ScanError Unit :=
  let measured : Measured := ⟨size, now.unixSeconds⟩
  match c with
  | forgetful => (forgetful, fs, .ok ())
  | memory ttl sizes => (memory ttl (sizes.insert path measured), fs, .ok ())
  | file backing ttl sizes =>
    let sizes := sizes.insert path measured
    let (fs, done) := sizes.persist fs cwd (some now) backing
    (file backing ttl sizes, fs, done)
  | filled fresh kept refuses =>
    if refuses then (filled fresh kept refuses, fs, .error (.other "cannot store"))
    else (filled (fresh ++ [(path, size)]) kept refuses, fs, .ok ())

/-- What was stored is known at once, even if the file could not be written. -/
theorem loadPersisted_store (ttl : Option Nat) (backing : Path) (sizes : SizeMap) (fs : FileSystem)
    (cwd : List String) (now : Timestamp) (path : Path) (size : Nat) :
    ((file backing ttl sizes).store fs cwd now path size).1.loadPersisted path = some size := by
  simp [store, loadPersisted, SizeMap.size?, SizeMap.find?_insert_self (Path.sameAs_refl path)]

end Cache

end DiskUsage
