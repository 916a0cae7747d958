import DiskUsage.Scan.Classify
import DiskUsage.Scan.Walk

/-!
# Sizing a child

Each child of the root becomes an entry, unless it cannot be read, and may bring large files with it.
A child is asked about through the listing of the root, not by its path, so that a long path is no
obstacle; what lies below it is asked about by its path.

* `sizeChild`: what sizing one child gives.
-/

namespace DiskUsage

/-- The sizes that a cache knows. -/
structure KnownSizes where
  /-- Those that are fresh. -/
  fresh : Path → Option Nat
  /-- Those that were ever kept. -/
  persisted : Path → Option Nat

/-- A cache that knows nothing. -/
def KnownSizes.none : KnownSizes := ⟨fun _ => .none, fun _ => .none⟩

/-- The size that stands for a subtree: a fresh one that is not zero, or else any that was kept. -/
def KnownSizes.subtreeSize? (known : KnownSizes) (path : Path) : Option Nat :=
  ((known.fresh path).filter fun size => decide (0 < size)).or (known.persisted path)

/-- What sizing children depends on. -/
structure ChildSetup extends WalkSetup where
  known : KnownSizes
  /-- The child at this path can be asked about through the listing of the root. -/
  readsChild : Path → Bool
  /-- A link at this path leads to a directory. -/
  leadsToDir : Path → Bool

/-- What sizing one child gives. -/
structure SizedChild where
  trace : Trace
  /-- The entry, unless the child cannot be read. -/
  listed? : Option DirEntry
  large : List LargeFile

/-- When the child was last used, as far as that can be told. -/
def ChildSetup.lastAccess (s : ChildSetup) (path : Path) (node : Node) : Option Timestamp :=
  if s.readsChild path then node.accessed else none

namespace SizedChild

/-- A child that cannot be read. -/
def unreadable : SizedChild := ⟨[.error], none, []⟩

/-- A file or a link, with the entry that it becomes. -/
def ofFile (path : Path) (node : Node) (entry : DirEntry) (large : List LargeFile) : SizedChild :=
  ⟨[.file path node.actualSize false], some entry, large⟩

/-- A directory with its size. -/
def ofSize (name : String) (path : Path) (used : Option Timestamp) (s : Sized) : SizedChild :=
  ⟨s.trace ++ [.dir], some ((DirEntry.directory name path s.size).withLastAccess used), []⟩

/-- A directory that was walked. -/
def ofSubtree (name : String) (path : Path) (used : Option Timestamp) (s : SubtreeSized) :
    SizedChild :=
  match s.size? with
  | some size =>
    ⟨s.trace ++ [.dir], some ((DirEntry.directory name path size).withLastAccess used), s.large⟩
  | none => ⟨s.trace, none, s.large⟩

end SizedChild

/-- Size a child in the given way. -/
def sizeChild (s : ChildSetup) (path : Path) (name : String) (node : Node) :
    ChildKind → SizedChild
  | .link =>
    if s.readsChild path then
      .ofFile path node
        (.link name path node.actualSize (s.leadsToDir path) node.accessed) []
    else .unreadable
  | .plainFile =>
    if s.readsChild path then
      .ofFile path node (.file name path node.actualSize node.accessed)
        (if s.config.isLarge path node.actualSize then [⟨name, path, node.actualSize⟩] else [])
    else .unreadable
  | .cachedSubtree =>
    match s.known.subtreeSize? path with
    | some size => .ofSize name path (s.lastAccess path node) ⟨[], size⟩
    | none =>
      .ofSubtree name path (s.lastAccess path node) (dirSize s.toWalkSetup path name node)
  | .foldedSubtree =>
    .ofSize name path (s.lastAccess path node) (foldedSize s.toWalkSetup path node)
  | .ordinarySubtree =>
    .ofSubtree name path (s.lastAccess path node) (dirSize s.toWalkSetup path name node)
  | .denylistedSubtree => ⟨[], none, []⟩

end DiskUsage
