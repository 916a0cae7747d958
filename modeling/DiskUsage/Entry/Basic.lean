import DiskUsage.Path.Basic
import DiskUsage.Time.Timestamp

/-!
# Entries

What a scan lists: the children of its root, and large files.  The name of a link ends in a mark, and
that mark is what tells a link.

* `DirEntry.directory`, `DirEntry.file`, `DirEntry.link`: the three kinds of child.
* `DirEntry.isLink_link`: what is made as a link is one.
-/

namespace DiskUsage

/-- A child of the root of a scan. -/
structure DirEntry where
  /-- The name to show; that of a link is marked. -/
  name : String
  path : Path
  /-- Bytes on disk, those of a directory all together. -/
  size : Nat
  /-- The child is a directory or leads to one. -/
  isDir : Bool
  lastAccess : Option Timestamp
  deriving DecidableEq, Repr

/-- A file large enough to be listed on its own. -/
structure LargeFile where
  name : String
  path : Path
  /-- Bytes on disk. -/
  size : Nat
  deriving DecidableEq, Repr

namespace DirEntry

/-- The mark at the end of the name of a link. -/
def linkMarker : String := " →"

/-- A directory. -/
def directory (name : String) (path : Path) (size : Nat) : DirEntry :=
  { name, path, size, isDir := true, lastAccess := none }

/-- A file. -/
def file (name : String) (path : Path) (size : Nat) (lastAccess : Option Timestamp) : DirEntry :=
  { name, path, size, isDir := false, lastAccess }

/-- A link, of which only the link itself has a size. -/
def link (name : String) (path : Path) (size : Nat) (targetIsDir : Bool)
    (lastAccess : Option Timestamp) : DirEntry :=
  { name := name ++ linkMarker, path, size, isDir := targetIsDir, lastAccess }

/-- The entry with this time of its last access. -/
def withLastAccess (e : DirEntry) (lastAccess : Option Timestamp) : DirEntry :=
  { e with lastAccess }

/-- The name is marked as that of a link. -/
def isLink (e : DirEntry) : Bool :=
  linkMarker.toList.isSuffixOf e.name.toList

/-- What is made as a link is one. -/
@[simp] theorem isLink_link (name : String) (path : Path) (size : Nat) (targetIsDir : Bool)
    (lastAccess : Option Timestamp) :
    (link name path size targetIsDir lastAccess).isLink = true := by
  simp [isLink, link]

/-- The time of the last access does not make a link. -/
@[simp] theorem isLink_withLastAccess (e : DirEntry) (lastAccess : Option Timestamp) :
    (e.withLastAccess lastAccess).isLink = e.isLink := rfl

end DirEntry

end DiskUsage
