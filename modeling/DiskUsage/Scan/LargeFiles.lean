import DiskUsage.Config.Folding
import DiskUsage.Entry.Basic
import DiskUsage.Error.Tool
import DiskUsage.FileSystem.Lookup

/-!
# Large files from an index

A content index may know the large files below a root without any walk.  Its hits are checked and
sized again.

* `largeFile?`: a hit as a large file; `largeFile?_eq_some`: what it is on disk.
* `largeFilesOf`: the large files among hits, the largest first.
* `length_largeFilesOf_le`: there are no more than the configuration asks for.
-/

namespace DiskUsage

/-- A content index. -/
inductive ContentIndex where
  /-- There is none. -/
  | absent
  /-- A search tool that is not installed here, with its time limit. -/
  | search (limit : Duration)
  /-- An index that gives these hits. -/
  | hits (paths : List Path)
  /-- An index that fails. -/
  | failing (e : ToolError)

/-- The index of this platform. -/
def ContentIndex.platform (_limit : Duration) : ContentIndex := absent

/-- What an index answers. -/
def ContentIndex.query : ContentIndex → Except ToolError (List Path)
  | absent => .error (.unavailable "index")
  | search _ => .error (.unavailable "mdfind")
  | hits paths => .ok paths
  | failing e => .error e

/-- A hit as a large file, sized on disk.  Directories, links and what is gone are dropped, and so
is what has no name. -/
def largeFile? (lstat : Path → Except SystemError Node) (path : Path) : Option LargeFile :=
  match lstat path with
  | .error _ => none
  | .ok node =>
    if node.isDir || node.isLink then none
    else path.fileName?.map fun name => ⟨name, path, node.actualSize⟩

/-- The larger file comes first; files of one size keep their order. -/
def largerFirst (a b : LargeFile) : Bool :=
  decide (b.size ≤ a.size)

/-- A hit that the configuration lets pass. -/
def ScanConfig.acceptsHit (c : ScanConfig) (path : Path) : Bool :=
  !c.shouldSkipLargeFile path && !c.isInFoldedDir path

/-- The hits that are files, sized on disk. -/
def resolveHits (c : ScanConfig) (lstat : Path → Except SystemError Node) (paths : List Path) :
    List LargeFile :=
  (paths.filter c.acceptsHit).filterMap (largeFile? lstat)

/-- The large files among hits, the largest first. -/
def largeFilesOf (c : ScanConfig) (lstat : Path → Except SystemError Node) (paths : List Path) :
    List LargeFile :=
  ((resolveHits c lstat paths).mergeSort largerFirst).take c.maxLargeFiles.toNat

/-- The large files that an index knows; none if it fails. -/
def findLargeFiles (c : ScanConfig) (lstat : Path → Except SystemError Node)
    (index : ContentIndex) : List LargeFile :=
  match index.query with
  | .ok paths => largeFilesOf c lstat paths
  | .error _ => []

theorem largeFile?_eq_some {lstat : Path → Except SystemError Node} {path : Path} {f : LargeFile}
    (h : largeFile? lstat path = some f) :
    f.path = path ∧ path.fileName? = some f.name ∧ ∃ node, lstat path = .ok node ∧
      node.isDir = false ∧ node.isLink = false ∧ f.size = node.actualSize := by
  unfold largeFile? at h
  split at h
  · cases h
  · next node hnode =>
    split at h
    · cases h
    · next hkind =>
      obtain ⟨name, hname, rfl⟩ := Option.map_eq_some_iff.1 h
      rw [Bool.or_eq_true, not_or, Bool.not_eq_true, Bool.not_eq_true] at hkind
      exact ⟨rfl, hname, node, hnode, hkind.1, hkind.2, rfl⟩

theorem length_largeFilesOf_le (c : ScanConfig) (lstat : Path → Except SystemError Node)
    (paths : List Path) : (largeFilesOf c lstat paths).length ≤ c.maxLargeFiles.toNat := by
  simp only [largeFilesOf, List.length_take]
  omega

end DiskUsage
