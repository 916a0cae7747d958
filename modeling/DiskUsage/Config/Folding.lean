import DiskUsage.Config.Basic
import DiskUsage.Path.Basic

/-!
# What a scan passes over

Rules on names and paths: which directories are sized in bulk, which are left out, and which files
are never large files.

* `ScanConfig.shouldFold`: a directory is sized in bulk because of its name, or because it lies in
  the store of a package cache.
* `ScanConfig.isInFoldedDir`: a path leads through a directory sized in bulk because of its name.
* `shouldFold_of_mem`: a name that is set is always folded.
-/

namespace DiskUsage

/-- The text of a component is one of these. -/
def Path.Component.isAmong (c : Path.Component) (names : List String) : Bool :=
  names.contains c.text

namespace ScanConfig

/-- Names of the directories that hold a package cache. -/
def packageCaches : List String := [".npm", ".tnpm"]

/-- A directory below a package cache is sized in bulk if it lies in the cache itself, or in a
directory whose name starts with an underscore, or has a name of one character. -/
def isCacheStore (parent : Path) (name : String) : Bool :=
  parent.components.any (·.isAmong packageCaches)
    && (let parentName := parent.fileName?.getD ""
        packageCaches.contains parentName
          || parentName.toList.head? == some '_'
          || name.toList.length == 1)

/-- The directory of this name at this path is sized in bulk. -/
def shouldFold (c : ScanConfig) (name : String) (path : Path) : Bool :=
  c.foldDirs.contains name || path.parent?.any fun parent => isCacheStore parent name

/-- The path leads through a directory that is sized in bulk because of its name. -/
def isInFoldedDir (c : ScanConfig) (path : Path) : Bool :=
  path.components.any (·.isAmong c.foldDirs)

/-- A text with ASCII letters in lower case. -/
def asciiLower (s : String) : String :=
  String.ofList (s.toList.map Char.toLower)

/-- The file at this path is never a large file, because of its extension. -/
def shouldSkipLargeFile (c : ScanConfig) (path : Path) : Bool :=
  path.extension?.any fun ext => c.skipExtensions.contains (asciiLower ext)

/-- A child of this name is left out. -/
def isDenylisted (c : ScanConfig) (name : String) (atFileSystemRoot : Bool) : Bool :=
  c.skipDirs.contains name || (atFileSystemRoot && c.systemDirs.contains name)

theorem shouldFold_of_mem {c : ScanConfig} {name : String} (h : name ∈ c.foldDirs) (path : Path) :
    c.shouldFold name path = true := by
  simp [shouldFold, h]

theorem isDenylisted_mono {c : ScanConfig} {name : String} (h : c.isDenylisted name false = true)
    (atFileSystemRoot : Bool) : c.isDenylisted name atFileSystemRoot = true := by
  simp only [isDenylisted, Bool.false_and, Bool.or_false] at h
  rw [isDenylisted, h, Bool.true_or]

end ScanConfig

end DiskUsage
