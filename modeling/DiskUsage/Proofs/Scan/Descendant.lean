import DiskUsage.Proofs.Scan.Summing
import Mathlib.Data.List.Infix

/-!
# Everything below a root, and what counts

Everything below the root of a scan is listed once, with the directories between the root and it.
What a scan counts is read off these: whether they can be listed, which of them is the first to be
sized in bulk, and whether the child of the root among them is left out or answered by the cache.

* `below`, `belowEntries`: everything in a node, and below a directory.
* `Descendant.isCounted`, `Descendant.bulk?`, `Descendant.answer?`: what counts by itself, by the
  usage tool, or by the cache; `Descendant.share`: what it counts for.
* `shares_eq`: shares add up to the sum of the three.
* `above_prefix_of_mem`: what lies below a directory has that directory above it.
-/

open scoped List

namespace DiskUsage

/-- A node, with the path and the name that it was found by. -/
structure Located where
  path : Path
  name : String
  node : Node

/-- Something below a root, with the directories between the root and it, the topmost first. -/
structure Descendant where
  above : List Located
  here : Located

/-- The child of the root that it is, or lies in. -/
def Descendant.child (d : Descendant) : Located :=
  d.above.head?.getD d.here

mutual
/-- A node and everything below it. -/
def below (above : List Located) (path : Path) (name : String) : Node → List Descendant
  | .dir mode accessed entries =>
    ⟨above, path, name, .dir mode accessed entries⟩ ::
      belowEntries (above ++ [⟨path, name, .dir mode accessed entries⟩]) path entries
  | .file data => [⟨above, path, name, .file data⟩]
  | .link target data => [⟨above, path, name, .link target data⟩]
  | .special accessed => [⟨above, path, name, .special accessed⟩]

/-- Everything below the directory at this path, from its entries. -/
def belowEntries (above : List Located) (dir : Path) : List (String × Node) → List Descendant
  | [] => []
  | (name, node) :: rest => below above (dir.child name) name node ++ belowEntries above dir rest
end

namespace Located

/-- A directory that can be listed. -/
def isOpen (reach : Path → Bool) (d : Located) : Bool :=
  match d.node with
  | .dir mode _ _ => canList reach d.path mode
  | _ => false

/-- A directory that is sized in bulk. -/
def isFolded (c : ScanConfig) (d : Located) : Bool :=
  d.node.isDir && c.shouldFold d.name d.path

/-- The size that the usage tool gives, unless it fails or gives zero. -/
def bulk? (s : WalkSetup) (d : Located) : Option Nat :=
  positiveSize? (s.tool d.path)

/-- A child of the root that is left out. -/
def isDenied (c : ScanConfig) (root : Path) (d : Located) : Bool :=
  d.node.isDir && c.isDenylisted d.name (c.contextOf root).isFileSystemRoot

/-- The size that the cache answers for a child of the root, if the child is the cached subtree of
the home directory. -/
def answer? (s : ChildSetup) (root : Path) (d : Located) : Option Nat :=
  if d.node.isDir && !d.isDenied s.config root && s.config.isHome root
      && d.name == s.config.cachedSubtreeName then
    s.known.subtreeSize? d.path
  else none

/-- A child of the root that is neither left out nor answered by the cache. -/
def isLookedInto (s : ChildSetup) (root : Path) (d : Located) : Bool :=
  !d.isDenied s.config root && (d.answer? s root).isNone

/-- A child of the root that gets an entry. -/
def isSized (s : ChildSetup) (root : Path) (d : Located) : Bool :=
  !d.isDenied s.config root
    && if d.node.isDir then (d.answer? s root).isSome || d.isFolded s.config || d.isOpen s.reach
      else s.readsChild d.path

end Located

namespace Descendant

variable (s : ChildSetup) (root : Path)

/-- Everything above it can be listed, and the child of the root is looked into. -/
def isReached (d : Descendant) : Bool :=
  d.above.all (Located.isOpen s.reach) && d.child.isLookedInto s root

/-- It can be read: a child of the root through the listing of the root, and anything further down by its
path. -/
def isReadable (d : Descendant) : Bool :=
  if d.above.isEmpty then s.readsChild d.here.path else s.reach d.here.path

/-- It counts by itself: it is no directory, can be read, and does not lie in a directory that is
sized by the usage tool. -/
def isCounted (d : Descendant) : Bool :=
  !d.here.node.isDir && d.isReached s root && d.isReadable s
    && !(d.above.find? (Located.isFolded s.config)).any fun f => (f.bulk? s.toWalkSetup).isSome

/-- The size that the usage tool gives for it, if it is the topmost directory that is sized in
bulk. -/
def bulk? (d : Descendant) : Option Nat :=
  if d.isReached s root && d.here.isFolded s.config && !d.above.any (Located.isFolded s.config) then
    d.here.bulk? s.toWalkSetup
  else none

/-- The size that the cache gives for it, if it is a child of the root. -/
def answer? (d : Descendant) : Option Nat :=
  if d.above.isEmpty then d.here.answer? s root else none

/-- What it counts for. -/
def share (d : Descendant) : Nat :=
  (if d.isCounted s root then d.here.node.actualSize else 0) + (d.bulk? s root).getD 0
    + (d.answer? s root).getD 0

end Descendant

/-- What all of them count for. -/
def shares (s : ChildSetup) (root : Path) (ds : List Descendant) : Nat :=
  (ds.map (Descendant.share s root)).sum

section Shares

variable (s : ChildSetup) (root : Path)

@[simp] theorem shares_nil : shares s root [] = 0 := rfl

@[simp] theorem shares_cons (d : Descendant) (ds : List Descendant) :
    shares s root (d :: ds) = d.share s root + shares s root ds := by
  simp [shares]

@[simp] theorem shares_append (ds es : List Descendant) :
    shares s root (ds ++ es) = shares s root ds + shares s root es := by
  simp [shares]

/-- Shares add up to what counts by itself, what the usage tool gives and what the cache gives. -/
theorem shares_eq (ds : List Descendant) :
    shares s root ds
      = ((ds.filter (Descendant.isCounted s root)).map fun d => d.here.node.actualSize).sum
        + (ds.filterMap (Descendant.bulk? s root)).sum
        + (ds.filterMap (Descendant.answer? s root)).sum := by
  induction ds with
  | nil => rfl
  | cons d ds ih =>
    rw [shares_cons, ih, Descendant.share, List.filter_cons, List.filterMap_cons,
      List.filterMap_cons]
    cases d.isCounted s root <;> cases d.bulk? s root <;> cases d.answer? s root <;>
      simp <;> omega

end Shares

mutual
/-- What lies in a node has above it what the node has. -/
theorem above_prefix_of_mem {above : List Located} {path : Path} {name : String} {d : Descendant} :
    ∀ {node : Node}, d ∈ below above path name node → above <+: d.above
  | .dir mode accessed entries, hd => by
    rw [below] at hd
    rcases List.mem_cons.1 hd with rfl | hd
    · exact List.prefix_refl above
    · exact (List.prefix_append _ _).trans (above_prefix_of_mem_entries hd)
  | .file data, hd => by
    rw [below] at hd
    cases List.mem_singleton.1 hd
    exact List.prefix_refl above
  | .link target data, hd => by
    rw [below] at hd
    cases List.mem_singleton.1 hd
    exact List.prefix_refl above
  | .special accessed, hd => by
    rw [below] at hd
    cases List.mem_singleton.1 hd
    exact List.prefix_refl above

theorem above_prefix_of_mem_entries {above : List Located} {dir : Path} {d : Descendant} :
    ∀ {entries : List (String × Node)}, d ∈ belowEntries above dir entries → above <+: d.above
  | [], hd => by cases hd
  | (name, node) :: rest, hd => by
    rw [belowEntries] at hd
    rcases List.mem_append.1 hd with hd | hd
    · exact above_prefix_of_mem hd
    · exact above_prefix_of_mem_entries hd
end

theorem below_of_isDir_eq_false {above : List Located} {path : Path} {name : String} {node : Node}
    (h : node.isDir = false) : below above path name node = [⟨above, path, name, node⟩] := by
  cases node <;> first | rfl | cases h

end DiskUsage
