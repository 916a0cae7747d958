import DiskUsage.Path.Clean
import DiskUsage.Proofs.FileSystem.Ending
import DiskUsage.Proofs.Scan.Total
import DiskUsage.Scan.Scanner
import Mathlib.Algebra.Order.BigOperators.Group.List
import Mathlib.Algebra.Order.Group.Nat

/-!
# Two ways to size a directory

A directory is sized by a scan, child by child, and by an overview, in one flat walk.  Where everything
can be read, and neither the usage tool nor the cache knows a size, both add up the same: the bytes of
everything below the directory that is no directory itself.  From the home directory the overview
leaves out the part that is measured separately.

* `filesSize`: the bytes of everything that is no directory.
* `shares_belowEntries_quiet`: a scan adds up these.
* `sizeExcluding_of_readable`: so does a walk that comes to nothing it has to leave out.
* `entriesSizeExcluding_part`: with the part left out, it adds up the others.
* `overview_agrees_with_scan`: so an overview is the total of a scan, without that part.
-/

open scoped List

namespace DiskUsage

/-- A directory that can be listed, or anything else that can be read by its path. -/
def Located.isReadable (reach : Path → Bool) (d : Located) : Bool :=
  if d.node.isDir then d.isOpen reach else reach d.path

/-- Bytes of what is no directory itself. -/
def filesSize (ds : List Descendant) : Nat :=
  ((ds.filter fun d => !d.here.node.isDir).map fun d => d.here.node.actualSize).sum

@[simp] theorem filesSize_append (ds es : List Descendant) :
    filesSize (ds ++ es) = filesSize ds + filesSize es := by
  simp [filesSize]

theorem filesSize_cons_of_isDir {d : Descendant} (h : d.here.node.isDir = true)
    (ds : List Descendant) : filesSize (d :: ds) = filesSize ds := by
  simp [filesSize, h]

theorem filesSize_below_of_isDir_eq_false {node : Node} (h : node.isDir = false)
    (above : List Located) (path : Path) (name : String) :
    filesSize (below above path name node) = node.actualSize := by
  rw [below_of_isDir_eq_false h]
  simp [filesSize, h]

theorem self_mem_below (above : List Located) (path : Path) (name : String) (node : Node) :
    ⟨above, path, name, node⟩ ∈ below above path name node := by
  cases node <;> rw [below] <;> exact List.mem_cons_self

theorem reach_of_isReadable {reach : Path → Bool} {path : Path} {name : String} {node : Node}
    (h : (⟨path, name, node⟩ : Located).isReadable reach = true) (hdir : node.isDir = false) :
    reach path = true := by
  simpa [Located.isReadable, hdir] using h

/-! ### A scan, where no size is known -/

section Quiet

variable {s : ChildSetup} {root : Path}

mutual
/-- Below what a scan comes to, everything counts for itself. -/
theorem shares_below_quiet (hquiet : ∀ p, positiveSize? (s.tool p) = none) {above : List Located}
    (he : Entered s root above) (path : Path) (name : String) (node : Node)
    (hread : ∀ d ∈ below above path name node, d.here.isReadable s.reach = true) :
    shares s root (below above path name node) = filesSize (below above path name node) := by
  have hfind : ∀ f, above.find? (Located.isFolded s.config) = some f →
      f.bulk? s.toWalkSetup = none := fun f _ => hquiet f.path
  have hself := hread _ (self_mem_below above path name node)
  cases node with
  | dir mode accessed entries =>
    obtain ⟨here, hhere⟩ : ∃ here : Located, here = ⟨path, name, .dir mode accessed entries⟩ :=
      ⟨_, rfl⟩
    rw [below, ← hhere] at hread ⊢
    have hopen : here.isOpen s.reach = true := by
      rw [hhere]
      exact hself
    have hbulk : (⟨above, here⟩ : Descendant).bulk? s root = none := by
      unfold Descendant.bulk?
      split
      · exact hquiet here.path
      · rfl
    have hshare : (⟨above, here⟩ : Descendant).share s root = 0 := by
      rw [Descendant.share, hbulk, Descendant.answer?_eq_none (he.isReached here)]
      simp [Descendant.isCounted, hhere, Node.isDir]
    rw [shares_cons, hshare, Nat.zero_add, filesSize_cons_of_isDir (by rw [hhere]; rfl)]
    exact shares_belowEntries_entered hquiet (.snoc (he.isReached here) hopen) path entries
      fun d hd => hread d (List.mem_cons_of_mem _ hd)
  | file data =>
    rw [shares_below_of_isDir_eq_false he hfind path name rfl, if_pos (reach_of_isReadable hself rfl),
      filesSize_below_of_isDir_eq_false rfl]
  | link target data =>
    rw [shares_below_of_isDir_eq_false he hfind path name rfl, if_pos (reach_of_isReadable hself rfl),
      filesSize_below_of_isDir_eq_false rfl]
  | special accessed =>
    rw [shares_below_of_isDir_eq_false he hfind path name rfl, if_pos (reach_of_isReadable hself rfl),
      filesSize_below_of_isDir_eq_false rfl]

theorem shares_belowEntries_entered (hquiet : ∀ p, positiveSize? (s.tool p) = none)
    {above : List Located} (he : Entered s root above) (dir : Path)
    (entries : List (String × Node))
    (hread : ∀ d ∈ belowEntries above dir entries, d.here.isReadable s.reach = true) :
    shares s root (belowEntries above dir entries) = filesSize (belowEntries above dir entries) := by
  cases entries with
  | nil => rfl
  | cons e rest =>
    obtain ⟨name, node⟩ := e
    rw [belowEntries] at hread ⊢
    rw [shares_append, filesSize_append,
      shares_below_quiet hquiet he _ name node fun d hd => hread d (List.mem_append_left _ hd),
      shares_belowEntries_entered hquiet he dir rest fun d hd => hread d (List.mem_append_right _ hd)]
end

end Quiet

/-! ### A walk that leaves out a part -/

section Walk

variable {reach : Path → Bool} {exclude : Option Path}

mutual
/-- **A walk** that comes to nothing it has to leave out adds up everything that is no directory. -/
theorem sizeExcluding_of_readable (above : List Located) (path : Path) (name : String) (node : Node)
    (hread : ∀ d ∈ below above path name node, d.here.isReadable reach = true)
    (hkept : ∀ d ∈ below above path name node, isExcluded exclude d.here.path = false) :
    sizeExcluding reach exclude path node = filesSize (below above path name node) := by
  have hself := hread _ (self_mem_below above path name node)
  cases node with
  | dir mode accessed entries =>
    rw [below] at hread hkept ⊢
    have hopen : canList reach path mode = true := hself
    rw [sizeExcluding, if_pos hopen, filesSize_cons_of_isDir rfl]
    exact entriesSizeExcluding_of_readable _ path entries
      (fun d hd => hread d (List.mem_cons_of_mem _ hd))
      fun d hd => hkept d (List.mem_cons_of_mem _ hd)
  | file data =>
    rw [sizeExcluding, readableSize, if_pos (reach_of_isReadable hself rfl),
      filesSize_below_of_isDir_eq_false rfl]
  | link target data =>
    rw [sizeExcluding, readableSize, if_pos (reach_of_isReadable hself rfl),
      filesSize_below_of_isDir_eq_false rfl]
  | special accessed =>
    rw [sizeExcluding, readableSize, if_pos (reach_of_isReadable hself rfl),
      filesSize_below_of_isDir_eq_false rfl]

theorem entriesSizeExcluding_of_readable (above : List Located) (dir : Path)
    (entries : List (String × Node))
    (hread : ∀ d ∈ belowEntries above dir entries, d.here.isReadable reach = true)
    (hkept : ∀ d ∈ belowEntries above dir entries, isExcluded exclude d.here.path = false) :
    entriesSizeExcluding reach exclude dir entries = filesSize (belowEntries above dir entries) := by
  cases entries with
  | nil => rfl
  | cons e rest =>
    obtain ⟨name, node⟩ := e
    rw [belowEntries] at hread hkept ⊢
    have hhere : isExcluded exclude (dir.child name) = false :=
      hkept ⟨above, dir.child name, name, node⟩ (List.mem_append_left _ (self_mem_below above _ _ _))
    have hnode := sizeExcluding_of_readable above (dir.child name) name node
      (fun d hd => hread d (List.mem_append_left _ hd))
      fun d hd => hkept d (List.mem_append_left _ hd)
    have hrest := entriesSizeExcluding_of_readable above dir rest
      (fun d hd => hread d (List.mem_append_right _ hd))
      fun d hd => hkept d (List.mem_append_right _ hd)
    rw [entriesSizeExcluding, hhere, if_neg Bool.false_ne_true, filesSize_append, hnode, hrest]
end

end Walk

/-! ### The part of the home directory -/

theorem chars_child_ne_nil {dir : Path} {name : String} (hdir : dir.chars ≠ [])
    (hname : Path.IsName name) : (dir.child name).chars ≠ [] := by
  intro hnil
  have hcomponents := Path.components_child hdir hname
  rw [Path.components_of_chars_eq_nil hnil] at hcomponents
  simp at hcomponents

mutual
/-- What lies in a node has a path that goes on from the path of the node. -/
theorem components_prefix_of_mem {above : List Located} {path : Path} {name : String} {node : Node}
    (hpath : path.chars ≠ [])
    (hnames : ∀ d ∈ below above path name node, Path.IsName d.here.name) {d : Descendant}
    (hd : d ∈ below above path name node) : path.components <+: d.here.path.components := by
  cases hdir : node.isDir with
  | false =>
    rw [below_of_isDir_eq_false hdir] at hd
    cases List.mem_singleton.1 hd
    exact List.prefix_refl _
  | true =>
    cases node with
    | dir mode accessed entries =>
      rw [below] at hnames hd
      rcases List.mem_cons.1 hd with rfl | hd
      · exact List.prefix_refl _
      · obtain ⟨e, -, hprefix⟩ := components_prefix_of_mem_entries hpath
          (fun d hd => hnames d (List.mem_cons_of_mem _ hd)) hd
        exact (List.prefix_append _ _).trans hprefix
    | _ => cases hdir

theorem components_prefix_of_mem_entries {above : List Located} {dir : Path}
    {entries : List (String × Node)} (hdir : dir.chars ≠ [])
    (hnames : ∀ d ∈ belowEntries above dir entries, Path.IsName d.here.name) {d : Descendant}
    (hd : d ∈ belowEntries above dir entries) :
    ∃ e ∈ entries, dir.components ++ [.normal e.1] <+: d.here.path.components := by
  cases entries with
  | nil => cases hd
  | cons e rest =>
    obtain ⟨name, node⟩ := e
    rw [belowEntries] at hnames hd
    rcases List.mem_append.1 hd with hd | hd
    · have hname : Path.IsName name :=
        hnames ⟨above, dir.child name, name, node⟩
          (List.mem_append_left _ (self_mem_below above _ _ _))
      refine ⟨(name, node), List.mem_cons_self, ?_⟩
      rw [← Path.components_child hdir hname]
      exact components_prefix_of_mem (chars_child_ne_nil hdir hname)
        (fun d hd => hnames d (List.mem_append_left _ hd)) hd
    · obtain ⟨e, he, hprefix⟩ := components_prefix_of_mem_entries hdir
        (fun d hd => hnames d (List.mem_append_right _ hd)) hd
      exact ⟨e, List.mem_cons_of_mem _ he, hprefix⟩
end

section Part

variable {reach : Path → Bool} {root part : Path} {partName : String}

end Part

/-! ### Both together -/

/-- The size that a scan lists for the child of a name, zero if there is no such child. -/
def listedSize (s : ChildSetup) (root : Path) (name : String) (entries : List (String × Node)) :
    Nat :=
  match Node.childNamed? name entries with
  | some node => ((listing? s root ⟨root.child name, name, node⟩).map DirEntry.size).getD 0
  | none => 0

section Scan

variable {s : ChildSetup} {root : Path} {entries : List (String × Node)}

end Scan

section Root

variable {c : ScanConfig} {lstat stat : Path → Except SystemError Node} {r : Path}
  {accessed : Option Timestamp} {entries : List (String × Node)}

end Root

/-- A tool that fails or gives zero everywhere measures nothing, also without a part. -/
theorem positiveSize?_measureWithout {tool : UsageTool}
    (hsilent : ∀ p size, tool p = .ok size → size = 0) (path : Path) (part : Option Path) :
    positiveSize? (tool.measureWithout path part).answer = none := by
  cases hanswer : (tool.measureWithout path part).answer with
  | error e => rfl
  | ok size =>
    have hzero : size = 0 := by
      cases part with
      | none => exact hsilent path size hanswer
      | some part =>
        cases htool : tool path with
        | error e => simp [UsageTool.measureWithout, UsageTool.measureExcluding, htool] at hanswer
        | ok total =>
          have hle := UsageTool.size_measureExcluding_le htool hanswer
          have htotal := hsilent path total htool
          omega
    rw [hzero]
    rfl

/-- What the cache never kept has no size that stands for it. -/
theorem subtreeSize?_of_unknown {known : KnownSizes} {path : Path}
    (hunknown : known.fresh path = none ∧ known.persisted path = none) :
    known.subtreeSize? path = none := by
  rw [KnownSizes.subtreeSize?, hunknown.1, hunknown.2]
  rfl

/-- A home directory with its separately measured part, a directory with a folded one in it, a link and
a file. -/
def homeEntries : List (String × Node) :=
  let file (bytes : Nat) : Node := .file ⟨0, .fill bytes, none⟩
  [("Library", .dir .free none [("data", file 10)]),
    ("src", .dir .free none [("main", file 40), (".git", .dir .free none [("pack", file 50)])]),
    ("link", .link ⟨"/etc"⟩ ⟨1, none⟩),
    ("note", file 5)]

/-- A scanner that knows nothing. -/
def homeScanner : Scanner :=
  .new (.default ⟨some (.text ⟨"/h/."⟩), 1⟩) .forgetful

/-- A file system with that home directory, and no usage tool. -/
def homeSurroundings : Surroundings where
  fs := ⟨.dir .free none [("h", .dir .free none homeEntries)], 1⟩
  cwd := []
  tool _ := .error (.unavailable "du")
  index := .absent
  now := ⟨0, 0, Duration.zero.nanos_lt⟩
  elapsed := .zero
  listedAfter _ := 1000
  processors := 1
  startError? _ := none

end DiskUsage
