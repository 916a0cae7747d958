import DiskUsage.Config.Folding
import DiskUsage.FileSystem.Node

/-!
# How a child is sized

The root of a scan has children, and each is sized in one of six ways.

* `ScanConfig.classify`: the way for a child.
* `classify_eq_link_iff`: exactly the links are sized as links.
* `classify_dir_cases`: the ways for a directory.
-/

namespace DiskUsage

/-- How a child of the root is sized. -/
inductive ChildKind where
  /-- By itself: a link is never followed. -/
  | link
  /-- From the cache, if it knows the size. -/
  | cachedSubtree
  /-- In bulk. -/
  | foldedSubtree
  /-- Not at all. -/
  | denylistedSubtree
  /-- File by file. -/
  | ordinarySubtree
  /-- By itself. -/
  | plainFile
  deriving DecidableEq, Repr

/-- What matters about the root. -/
structure RootContext where
  isFileSystemRoot : Bool
  isHome : Bool
  deriving DecidableEq, Repr

namespace ScanConfig

/-- What matters about a root. -/
def contextOf (c : ScanConfig) (root : Path) : RootContext where
  isFileSystemRoot := root.sameAs ⟨"/"⟩
  isHome := c.isHome root

/-- How a child of this name and this path is sized. -/
def classify (c : ScanConfig) (context : RootContext) (name : String) (path : Path) :
    NodeKind → ChildKind
  | .link => .link
  | .file => .plainFile
  | .dir =>
    if c.isDenylisted name context.isFileSystemRoot then .denylistedSubtree
    else if context.isHome && name == c.cachedSubtreeName then .cachedSubtree
    else if c.shouldFold name path then .foldedSubtree
    else .ordinarySubtree

theorem classify_eq_link_iff (c : ScanConfig) (context : RootContext) (name : String) (path : Path)
    (kind : NodeKind) : c.classify context name path kind = .link ↔ kind = .link := by
  cases kind with
  | link => simp [classify]
  | file => simp [classify]
  | dir =>
    simp only [classify]
    split
    · simp
    · split
      · simp
      · split <;> simp

/-- **A directory** is left out, looked up in the cache, or sized in bulk or file by file according to its
name and its path. -/
theorem classify_dir_cases (c : ScanConfig) (context : RootContext) (name : String) (path : Path) :
    c.classify context name path .dir = .denylistedSubtree ∨
      c.classify context name path .dir = .cachedSubtree ∨
      (c.classify context name path .dir = .foldedSubtree ∧ c.shouldFold name path = true) ∨
      (c.classify context name path .dir = .ordinarySubtree ∧ c.shouldFold name path = false) := by
  simp only [classify]
  split
  · exact .inl rfl
  · split
    · exact .inr (.inl rfl)
    · split
      · next hfold => exact .inr (.inr (.inl ⟨rfl, hfold⟩))
      · next hfold => exact .inr (.inr (.inr ⟨rfl, by simpa using hfold⟩))

end ScanConfig

end DiskUsage
