import DiskUsage.Config.Folding
import DiskUsage.Entry.Basic
import DiskUsage.FileSystem.Node
import DiskUsage.Number.Word
import DiskUsage.Scan.Trace
import DiskUsage.Usage.Tool

/-!
# Walking a subtree

A subtree is sized file by file.  Directories that are sized in bulk are not entered; they are
gathered on the way and measured afterwards, by the usage tool or, where it gives no size, by a fast
walk that only adds up sizes.  What is out of reach cannot be read: a path that is too long for a
system call, or one that leads through a directory that may not be searched.  Nor can a directory be
listed whose names may not be read.

The tree is gone through by a library that lists directories in parallel.  Of it this is assumed: the
listing of a directory tells which of its entries are directories and which are links, also where
nothing else can be told of them; it comes as a whole or not at all; links are not followed; the
listing of a directory that is decided against is not asked for, and nothing of it is found; and a
busy pool of threads does not make it give up.  In which order entries are found makes no difference
to sizes and counts.

* `walk`: what a walk over a node finds.
* `fastWalk`: the size of a subtree, without any folding, large files or errors.
* `foldedSize`: the size of a directory that is sized in bulk.
* `dirSize`: the size of a subtree, unless its root cannot be read.
-/

namespace DiskUsage

/-- What a walk depends on. -/
structure WalkSetup where
  config : ScanConfig
  tool : UsageTool
  /-- What lies at this path can be asked about. -/
  reach : Path → Bool
  /-- A fast walk lists the directory at this path only after its deadline. -/
  late : Path → Bool

/-- What a walk finds. -/
structure Walked where
  trace : Trace
  /-- Bytes on disk of the files that were visited. -/
  size : Nat
  large : List LargeFile
  /-- The directories to measure in bulk. -/
  folded : List (Path × Node)

namespace Walked

def empty : Walked := ⟨[], 0, [], []⟩

/-- What two walks find, one after the other. -/
def append (a b : Walked) : Walked where
  trace := a.trace ++ b.trace
  size := a.size + b.size
  large := a.large ++ b.large
  folded := a.folded ++ b.folded

/-- Something that cannot be read. -/
def unreadable : Walked := ⟨[.error], 0, [], []⟩

/-- A directory that is reached. -/
def reached : Walked := ⟨[.dir], 0, [], []⟩

/-- A directory that is reached and has to be measured in bulk. -/
def fold (path : Path) (node : Node) : Walked := ⟨[.dir], 0, [], [(path, node)]⟩

end Walked

/-- The directory at this path can be listed. -/
def canList (reach : Path → Bool) (path : Path) (mode : DirMode) : Bool :=
  mode.listable && reach path

/-- A file of this size at this path is large. -/
def ScanConfig.isLarge (c : ScanConfig) (path : Path) (size : Nat) : Bool :=
  decide (c.minLargeFileSize.toNat ≤ size) && !c.shouldSkipLargeFile path

/-- What a walk finds in a node that is no directory. -/
def walkFile (reach : Path → Bool) (c : ScanConfig) (path : Path) (name : String) (node : Node) :
    Walked :=
  if reach path then
    { trace := [.file path node.actualSize true]
      size := node.actualSize
      large :=
        if node.isRegular && c.isLarge path node.actualSize then [⟨name, path, node.actualSize⟩]
        else []
      folded := [] }
  else .unreadable

mutual
/-- What a walk finds in a node, which has this name and lies at this path. -/
def walk (reach : Path → Bool) (c : ScanConfig) (path : Path) (name : String) : Node → Walked
  | .dir mode accessed entries =>
    if c.shouldFold name path then .fold path (.dir mode accessed entries)
    else if canList reach path mode then .append .reached (walkEntries reach c path entries)
    else .append .unreadable .reached
  | .file data => walkFile reach c path name (.file data)
  | .link target data => walkFile reach c path name (.link target data)
  | .special accessed => walkFile reach c path name (.special accessed)

/-- What a walk finds in the entries of the directory at this path. -/
def walkEntries (reach : Path → Bool) (c : ScanConfig) (dir : Path) :
    List (String × Node) → Walked
  | [] => .empty
  | (name, node) :: rest =>
    .append (walk reach c (dir.child name) name node) (walkEntries reach c dir rest)
end

/-- What happens while a size is found. -/
structure Sized where
  trace : Trace
  size : Nat

namespace Sized

def empty : Sized := ⟨[], 0⟩

/-- Two sizes found one after the other. -/
def append (a b : Sized) : Sized :=
  ⟨a.trace ++ b.trace, a.size + b.size⟩

/-- What a word keeps of the size. -/
def word (s : Sized) : Sized :=
  ⟨s.trace, Number.wrap s.size⟩

/-- The events before a size is found. -/
def after (trace : Trace) (s : Sized) : Sized :=
  ⟨trace ++ s.trace, s.size⟩

end Sized

/-- What a fast walk makes of a node that is no directory. -/
def fastWalkFile (reach : Path → Bool) (path : Path) (node : Node) : Sized :=
  if reach path then ⟨[.file path node.actualSize true], node.actualSize⟩ else .empty

mutual
/-- The size that a fast walk finds in a node. -/
def fastWalk (reach late : Path → Bool) (path : Path) : Node → Sized
  | .dir mode _ entries =>
    .after [.dir]
      (if canList reach path mode && !late path then fastWalkEntries reach late path entries else .empty)
  | .file data => fastWalkFile reach path (.file data)
  | .link target data => fastWalkFile reach path (.link target data)
  | .special accessed => fastWalkFile reach path (.special accessed)

/-- The size that a fast walk finds in the entries of the directory at this path. -/
def fastWalkEntries (reach late : Path → Bool) (dir : Path) : List (String × Node) → Sized
  | [] => .empty
  | (name, node) :: rest =>
    .append (fastWalk reach late (dir.child name) node) (fastWalkEntries reach late dir rest)
end

/-- The size that a fast walk finds below a directory, which itself is not counted. -/
def fastDirSize (reach late : Path → Bool) (path : Path) : Node → Sized
  | .dir mode _ entries =>
    if canList reach path mode && !late path then .word (fastWalkEntries reach late path entries)
    else .empty
  | _ => .empty

/-- The size of a directory that is sized in bulk. -/
def foldedSize (s : WalkSetup) (path : Path) (node : Node) : Sized :=
  match positiveSize? (s.tool path) with
  | some size => ⟨[.asked path, .bulk size], size⟩
  | none => .after [.asked path] (fastDirSize s.reach s.late path node)

/-- The sizes of directories that are sized in bulk, one after the other. -/
def foldedSizes (s : WalkSetup) : List (Path × Node) → Sized
  | [] => .empty
  | (path, node) :: rest => .append (foldedSize s path node) (foldedSizes s rest)

/-- What sizing a subtree gives. -/
structure SubtreeSized where
  trace : Trace
  /-- The size, unless the root of the subtree cannot be read. -/
  size? : Option Nat
  large : List LargeFile

/-- Add the directories that are sized in bulk to what a walk found. -/
def Walked.finish (s : WalkSetup) (w : Walked) : SubtreeSized :=
  let bulk := foldedSizes s w.folded
  ⟨w.trace ++ bulk.trace, some (Number.wrap (w.size + bulk.size)), w.large⟩

/-- Size the subtree of a directory file by file.  A directory that would be sized in bulk is not
entered even here. -/
def dirSize (s : WalkSetup) (path : Path) (name : String) : Node → SubtreeSized
  | .dir mode _ entries =>
    if !s.reach path then ⟨[.error], none, []⟩
    else if s.config.shouldFold name path then ⟨[], some 0, []⟩
    else if !mode.listable then ⟨[.error], none, []⟩
    else (walkEntries s.reach s.config path entries).finish s
  | _ => ⟨[.error], none, []⟩

@[simp] theorem Walked.size_append (a b : Walked) : (a.append b).size = a.size + b.size := rfl

@[simp] theorem Sized.size_append (a b : Sized) : (a.append b).size = a.size + b.size := rfl

@[simp] theorem Sized.size_word (s : Sized) : s.word.size = Number.wrap s.size := rfl

@[simp] theorem Sized.trace_word (s : Sized) : s.word.trace = s.trace := rfl

@[simp] theorem Sized.size_after (trace : Trace) (s : Sized) : (s.after trace).size = s.size := rfl

/-- A directory that is not sized in bulk is walked if it can be listed. -/
theorem dirSize_of_not_folded (s : WalkSetup) {path : Path} {name : String}
    (h : s.config.shouldFold name path = false) (mode : DirMode) (accessed : Option Timestamp)
    (entries : List (String × Node)) :
    dirSize s path name (.dir mode accessed entries)
      = if canList s.reach path mode then (walkEntries s.reach s.config path entries).finish s
        else ⟨[.error], none, []⟩ := by
  unfold dirSize canList
  cases s.reach path <;> cases hlist : mode.listable <;> simp [h, hlist]

/-- A directory has a size iff it can be read, a folded one even if it cannot be listed. -/
theorem dirSize_eq_none_iff (s : WalkSetup) (path : Path) (name : String) (mode : DirMode)
    (accessed : Option Timestamp) (entries : List (String × Node)) :
    (dirSize s path name (.dir mode accessed entries)).size? = none
      ↔ s.reach path = false
        ∨ (s.config.shouldFold name path = false ∧ mode.listable = false) := by
  simp only [dirSize]
  cases s.reach path <;> cases s.config.shouldFold name path <;> cases mode.listable <;>
    simp [Walked.finish]

end DiskUsage
