import DiskUsage.Path.Raw
import DiskUsage.Time.Duration

/-!
# The configuration of a scan

What a scan reports, what it passes over and how hard it works.  The sets of names are lists in
which only membership counts.

* `ScanConfig.default`: the configuration in a given environment.
* `ScanConfig.workerCount`: how many workers size the children of a root.
* `workerCount_pos`, `workerCount_le`: at least one, and never more than there are children.
-/

namespace DiskUsage

/-- What the defaults take from outside: the home directory and the number of processors. -/
structure Environment where
  home : Option RawPath
  processors : UInt64

/-- The settings of a scan. -/
structure ScanConfig where
  /-- Children reported. -/
  maxEntries : UInt64
  /-- Large files reported. -/
  maxLargeFiles : UInt64
  /-- Least size on disk of a large file. -/
  minLargeFileSize : UInt64
  /-- Names of directories sized in bulk. -/
  foldDirs : List String
  /-- Extensions, in lower case, of files that are never large files. -/
  skipExtensions : List String
  /-- Names of directories left out below every root. -/
  skipDirs : List String
  /-- Names of directories left out below the file system's root. -/
  systemDirs : List String
  homeDir : Option RawPath
  /-- Name of the directory below home that is measured on its own. -/
  cachedSubtreeName : String
  /-- A fixed number of workers. -/
  workers : Option UInt64
  /-- Workers for each processor. -/
  cpuMultiplier : UInt64
  minWorkers : UInt64
  maxWorkers : UInt64
  /-- Threads of the fast walk. -/
  fastWalkThreads : UInt64
  /-- Time that the usage tool is given. -/
  duTimeout : Duration
  /-- Time that the content index is given. -/
  indexTimeout : Duration
  /-- Time after which the fast walk opens no more directories. -/
  fastWalkDeadline : Duration
  /-- Progress is published every so many files; zero is never. -/
  progressEvery : UInt64
  deriving Repr

namespace ScanConfig

/-- Directories that hold very many small files. -/
def defaultFoldDirs : List String := [
  ".git", "node_modules", ".Trash", ".npm", ".tnpm", ".yarn", ".pnpm-store", ".bun",
  "bower_components", "__pycache__", ".venv", "venv", ".tox", ".mypy_cache", ".pytest_cache",
  ".gradle", ".m2", ".ivy2", ".cargo", ".rustup", "Pods", "DerivedData", ".next", ".nuxt",
  ".angular", ".terraform"]

/-- Extensions of sources, texts and settings. -/
def defaultSkipExtensions : List String := [
  "go", "js", "mjs", "cjs", "ts", "tsx", "jsx", "py", "rs", "java", "kt", "c", "cc", "cpp", "h",
  "hpp", "m", "mm", "swift", "rb", "php", "sh", "md", "txt", "json", "yaml", "yml", "toml", "xml",
  "html", "css", "scss", "lock", "log"]

/-- Directories in which a volume keeps its own books. -/
def defaultSkipDirs : List String := [
  ".Spotlight-V100", ".fseventsd", ".DocumentRevisions-V100", ".TemporaryItems", ".Trashes"]

/-- Directories that belong to the system. -/
def defaultSystemDirs : List String := [
  "dev", "tmp", "private", "cores", "net", "home", "System", "sbin", "bin", "etc", "var", "opt",
  "usr", "Volumes", "Network", ".vol", "proc", "sys", "run", "boot", "lost+found", "mnt", "media",
  "snap"]

/-- Four threads for each processor, at most 64. -/
def defaultFastWalkThreads (processors : UInt64) : UInt64 :=
  UInt64.ofNat (min (processors.toNat * 4) 64)

/-- The configuration of which nothing was set.  An empty home directory is none. -/
def default (env : Environment) : ScanConfig where
  maxEntries := 30
  maxLargeFiles := 30
  minLargeFileSize := 104857600
  foldDirs := defaultFoldDirs
  skipExtensions := defaultSkipExtensions
  skipDirs := defaultSkipDirs
  systemDirs := defaultSystemDirs
  homeDir := env.home.filter fun home => !home.isEmpty
  cachedSubtreeName := "Library"
  workers := none
  cpuMultiplier := 4
  minWorkers := 16
  maxWorkers := 64
  fastWalkThreads := defaultFastWalkThreads env.processors
  duTimeout := .ofSecs 30
  indexTimeout := .ofSecs 5
  fastWalkDeadline := .ofSecs 300
  progressEvery := 100

/-- The home directory, if its path is a text; any other is the same as no path that is one. -/
def homePath? (c : ScanConfig) : Option Path :=
  c.homeDir.bind RawPath.text?

/-- Where the separately measured directory lies. -/
def cachedSubtreePath? (c : ScanConfig) : Option Path :=
  c.homePath?.map fun home => home.join ⟨c.cachedSubtreeName⟩

/-- The path is the home directory. -/
def isHome (c : ScanConfig) (p : Path) : Bool :=
  c.homePath?.any fun home => home.sameAs p

/-- The product of two words, or the largest word if it is none. -/
def saturatingMul (a b : UInt64) : Nat :=
  min (a.toNat * b.toNat) Number.maxWord

/-- The number of workers that the settings ask for. -/
def wantedWorkers (c : ScanConfig) (processors : UInt64) : Nat :=
  match c.workers with
  | some n => n.toNat
  | none =>
    min (max (saturatingMul processors c.cpuMultiplier) c.minWorkers.toNat) c.maxWorkers.toNat

/-- The number of workers for a root with so many children. -/
def workerCount (c : ScanConfig) (processors children : UInt64) : Nat :=
  max (min (c.wantedWorkers processors) children.toNat) 1

/-- There is at least one worker. -/
theorem workerCount_pos (c : ScanConfig) (processors children : UInt64) :
    1 ≤ c.workerCount processors children :=
  Nat.le_max_right _ _

/-- There are no more workers than children, unless there is none. -/
theorem workerCount_le (c : ScanConfig) (processors children : UInt64) :
    c.workerCount processors children ≤ max children.toNat 1 := by
  have h := Nat.min_le_right (c.wantedWorkers processors) children.toNat
  simp only [workerCount]
  omega

end ScanConfig

end DiskUsage
