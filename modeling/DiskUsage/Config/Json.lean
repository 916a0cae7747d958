import DiskUsage.Config.Setting
import DiskUsage.Json.Reader
import DiskUsage.Order.Lexicographic
import DiskUsage.Time.Json

/-!
# Configurations in JSON

A configuration is a record of eighteen fields.  Reading one sets the fields that are there, in an
object or as the first items of an array, and leaves the others as they are by default.  Writing one
writes all of them, the sets of names in order; that fails for a home directory whose path is no text.

* `ScanConfig.Field`: the fields, each with its name, its reader and its writer.
* `ScanConfig.ofJson?`, `ScanConfig.toJson?`: read and write a configuration.
* `ScanConfig.ofText?`: read one from its text.
-/

namespace DiskUsage.ScanConfig

/-- The fields of a configuration. -/
inductive Field where
  | maxEntries | maxLargeFiles | minLargeFileSize | foldDirs | skipExtensions | skipDirs
  | systemDirs | homeDir | cachedSubtreeName | workers | cpuMultiplier | minWorkers | maxWorkers
  | fastWalkThreads | duTimeout | indexTimeout | fastWalkDeadline | progressEvery
  deriving DecidableEq, Repr

namespace Field

/-- The fields in the order of the record. -/
def all : List Field := [
  maxEntries, maxLargeFiles, minLargeFileSize, foldDirs, skipExtensions, skipDirs, systemDirs,
  homeDir, cachedSubtreeName, workers, cpuMultiplier, minWorkers, maxWorkers, fastWalkThreads,
  duTimeout, indexTimeout, fastWalkDeadline, progressEvery]

/-- The name under which a field is written. -/
def name : Field → String
  | maxEntries => "max_entries"
  | maxLargeFiles => "max_large_files"
  | minLargeFileSize => "min_large_file_size"
  | foldDirs => "fold_dirs"
  | skipExtensions => "skip_extensions"
  | skipDirs => "skip_dirs"
  | systemDirs => "system_dirs"
  | homeDir => "home_dir"
  | cachedSubtreeName => "cached_subtree_name"
  | workers => "workers"
  | cpuMultiplier => "cpu_multiplier"
  | minWorkers => "min_workers"
  | maxWorkers => "max_workers"
  | fastWalkThreads => "fast_walk_threads"
  | duTimeout => "du_timeout"
  | indexTimeout => "index_timeout"
  | fastWalkDeadline => "fast_walk_deadline"
  | progressEvery => "progress_every"

/-- The field of a name. -/
def ofName? (name : String) : Option Field :=
  all.find? fun f => f.name == name

/-- A 64-bit word. -/
def word64? (j : Json) : Option UInt64 :=
  j.word?.map UInt64.ofNat

/-- The setting that a written value is for a field. -/
def setting? (j : Json) : Field → Option Setting
  | maxEntries => (word64? j).map .maxEntries
  | maxLargeFiles => (word64? j).map .maxLargeFiles
  | minLargeFileSize => (word64? j).map .minLargeFileSize
  | foldDirs => j.texts?.map .foldDirs
  | skipExtensions => j.texts?.map .skipExtensions
  | skipDirs => j.texts?.map .skipDirs
  | systemDirs => j.texts?.map .systemDirs
  | homeDir => (j.optional? fun j => j.text?.map fun text => .text ⟨text⟩).map .homeDir
  | cachedSubtreeName => j.text?.map .cachedSubtreeName
  | workers => (j.optional? word64?).map .workers
  | cpuMultiplier => (word64? j).map .cpuMultiplier
  | minWorkers => (word64? j).map .minWorkers
  | maxWorkers => (word64? j).map .maxWorkers
  | fastWalkThreads => (word64? j).map .fastWalkThreads
  | duTimeout => (Duration.ofJson? j).map .duTimeout
  | indexTimeout => (Duration.ofJson? j).map .indexTimeout
  | fastWalkDeadline => (Duration.ofJson? j).map .fastWalkDeadline
  | progressEvery => (word64? j).map .progressEvery

/-- A word as it is written. -/
def wordJson (n : UInt64) : Json :=
  .nat n.toNat

/-- A set of names as it is written. -/
def namesJson (names : List String) : Json :=
  .array ((Text.sortedSet names).map .text)

/-- A path as it is written; only a text can be. -/
def pathJson? : Option RawPath → Option Json
  | none => some .null
  | some path => path.text?.map fun path => .text path.text

/-- The value of a field, as it is written. -/
def toJson? (c : ScanConfig) : Field → Option Json
  | maxEntries => some (wordJson c.maxEntries)
  | maxLargeFiles => some (wordJson c.maxLargeFiles)
  | minLargeFileSize => some (wordJson c.minLargeFileSize)
  | foldDirs => some (namesJson c.foldDirs)
  | skipExtensions => some (namesJson c.skipExtensions)
  | skipDirs => some (namesJson c.skipDirs)
  | systemDirs => some (namesJson c.systemDirs)
  | homeDir => pathJson? c.homeDir
  | cachedSubtreeName => some (.text c.cachedSubtreeName)
  | workers => some ((c.workers.map wordJson).getD .null)
  | cpuMultiplier => some (wordJson c.cpuMultiplier)
  | minWorkers => some (wordJson c.minWorkers)
  | maxWorkers => some (wordJson c.maxWorkers)
  | fastWalkThreads => some (wordJson c.fastWalkThreads)
  | duTimeout => some (c.duTimeout.toJson)
  | indexTimeout => some (c.indexTimeout.toJson)
  | fastWalkDeadline => some (c.fastWalkDeadline.toJson)
  | progressEvery => some (wordJson c.progressEvery)

theorem mem_all (f : Field) : f ∈ all := by
  cases f <;> decide

@[simp] theorem ofName?_name (f : Field) : ofName? f.name = some f := by
  cases f <;> decide

theorem name_injective {f g : Field} (h : f.name = g.name) : f = g := by
  have hf := ofName?_name f
  rw [h, ofName?_name] at hf
  exact (Option.some.inj hf).symm

end Field

/-- The settings of the fields that have a value. -/
def readSettings : List Field → List (Option Json) → Option (List Setting)
  | f :: fs, some j :: values => do
    let setting ← f.setting? j
    let settings ← readSettings fs values
    return setting :: settings
  | _ :: fs, none :: values => readSettings fs values
  | _, _ => some []

/-- The settings that a record holds. -/
def settings? (j : Json) : Option (List Setting) := do
  match ← Json.Record.read? (Field.all.map Field.name) j with
  | .keyed values => readSettings Field.all values
  | .listed values => readSettings Field.all (values.map some)

/-- Read a configuration. -/
def ofJson? (env : Environment) (j : Json) : Option ScanConfig :=
  (settings? j).map (default env).set

/-- Some fields of a configuration, written as a record. -/
def fieldsToJson? (c : ScanConfig) (fields : List Field) : Option Json :=
  (fields.mapM fun f : Field => (f.toJson? c).map fun j => (f.name, j)).map .record

/-- A configuration, written as a record. -/
def toJson? (c : ScanConfig) : Option Json :=
  c.fieldsToJson? Field.all

/-- Read a configuration from its text. -/
def ofText? (env : Environment) (text : String) : Option ScanConfig :=
  (Json.parse? text).bind (ofJson? env)

end DiskUsage.ScanConfig
