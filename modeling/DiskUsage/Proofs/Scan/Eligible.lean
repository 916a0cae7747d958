import DiskUsage.Path.Lemmas
import DiskUsage.Proofs.Scan.Candidates

/-!
# Large files at every depth

Whether a file is a large file is decided in two places: for a child of the root by the kind that its
listing gives, and for everything deeper by the walk.  Where both are asked about the same entry they give
the same answer, for every size, threshold and extension, with one exception: a pipe, socket or device
counts as a file in a listing, so as a child of the root it is sent where even empty files are large.

* `Descendant.isSent`: it is sent as a large file, from either place.
* `flatMap_offered_eq`: the children of the root send these.
* `extension?_child`: an entry has the same extension in every directory.
* `ScanConfig.isEligible`, `isSent_iff`: what is sent from a child of the root, and from deeper down.
* `large_files_are_sent_alike`: both compared.
-/

namespace DiskUsage

/-- A pipe, a socket or a device. -/
def Node.isSpecial : Node → Bool
  | special _ => true
  | _ => false

/-- It is sent as a large file: deep in the tree if it is a candidate, and as a child of the root if it is
large, can be read, and is no directory and no link. -/
def Descendant.isSent (s : ChildSetup) (root : Path) (d : Descendant) : Bool :=
  if d.above.isEmpty then
    (d.here.node.isRegular || d.here.node.isSpecial)
      && s.config.isLarge d.here.path d.here.node.actualSize && s.readsChild d.here.path
  else d.isCandidate s root

/-- A regular file that is large, under a name. -/
def ScanConfig.isEligible (c : ScanConfig) (name : String) (node : Node) : Bool :=
  node.isRegular && c.isLarge ⟨name⟩ node.actualSize

section Sent

variable {s : ChildSetup} {root : Path} {path : Path} {name : String}

/-- A child that is no directory is sent by its kind. -/
theorem offered_eq_filter_of_isDir_eq_false {node : Node} (hdir : node.isDir = false) :
    offered s root ⟨path, name, node⟩
      = ((below [] path name node).filter (Descendant.isSent s root)).map fun d => d.here.largeFile := by
  rw [below_of_isDir_eq_false hdir, List.filter_cons, List.filter_nil]
  cases node with
  | dir mode accessed entries => cases hdir
  | link target data =>
    simp only [offered, Node.kind, ScanConfig.classify, sizeChild]
    cases s.readsChild path <;> rfl
  | file data | special accessed =>
    cases hreads : s.readsChild path with
    | false => simp [offered, Node.kind, ScanConfig.classify, sizeChild, Descendant.isSent, hreads,
        SizedChild.unreadable]
    | true =>
      simp only [offered, Node.kind, ScanConfig.classify, sizeChild, Descendant.isSent,
        List.isEmpty_nil, if_true, hreads, SizedChild.ofFile, Node.isRegular, Node.isSpecial,
        Bool.true_or, Bool.or_true, Bool.true_and, Bool.and_true]
      split <;> rfl

/-- A directory is never sent, and what lies in a child of the root is sent if it is a candidate. -/
theorem isSent_eq_isCandidate {mode : DirMode} {accessed : Option Timestamp}
    {entries : List (String × Node)} {d : Descendant}
    (hd : d ∈ below [] path name (.dir mode accessed entries)) :
    d.isSent s root = d.isCandidate s root := by
  rw [below] at hd
  rcases List.mem_cons.1 hd with rfl | hd
  · -- the directory itself, which is neither
    rfl
  · have hne : d.above ≠ [] := by
      have hprefix := above_prefix_of_mem_entries hd
      rintro hnil
      rw [hnil] at hprefix
      simpa using hprefix.length_le
    rw [Descendant.isSent, List.isEmpty_eq_false_iff.2 hne, if_neg Bool.false_ne_true]

theorem offered_eq_filter (c : Located) :
    offered s root c
      = ((below [] c.path c.name c.node).filter (Descendant.isSent s root)).map
          fun d => d.here.largeFile := by
  obtain ⟨path, name, node⟩ := c
  cases node with
  | dir mode accessed entries =>
    have hcandidates : offered s root ⟨path, name, .dir mode accessed entries⟩
        = candidates s root (below [] path name (.dir mode accessed entries)) := by
      cases hden : s.config.isDenylisted name (s.config.contextOf root).isFileSystemRoot with
      | true => exact offered_of_denied hden
      | false => exact offered_of_allowed hden
    rw [hcandidates, candidates, List.filter_congr fun d hd => isSent_eq_isCandidate hd]
  | file data => exact offered_eq_filter_of_isDir_eq_false rfl
  | link target data => exact offered_eq_filter_of_isDir_eq_false rfl
  | special accessed => exact offered_eq_filter_of_isDir_eq_false rfl

/-- **The children of a root** send everything below it that is sent from its place. -/
theorem flatMap_offered_eq (entries : List (String × Node)) :
    (childrenOf root entries).flatMap (offered s root)
      = ((belowEntries [] root entries).filter (Descendant.isSent s root)).map
          fun d => d.here.largeFile := by
  induction entries with
  | nil => rfl
  | cons e rest ih =>
    obtain ⟨name, node⟩ := e
    rw [childrenOf_cons, List.flatMap_cons, belowEntries, List.filter_append, List.map_append, ih,
      offered_eq_filter]

end Sent

/-! ### Where an entry lies -/

/-- The text of a name is a path of one component. -/
theorem Path.components_of_isName {name : String} (h : Path.IsName name) {p : Path}
    (hp : p.chars = name.toList) : p.components = [.normal name] := by
  have habsolute : p.isAbsolute = false := by
    have hname := Path.isAbsolute_of_isName h
    rwa [Path.isAbsolute, hp]
  have hpieces : Path.pieces p.chars = [name.toList] := by
    rw [hp]
    exact Path.pieces_of_not_mem h.2.2.2
  rw [Path.components_eq hpieces, habsolute, Path.component?_of_isName h]
  rfl

/-- The last component of an entry's path is its name, also where the directory's path is empty. -/
theorem Path.fileName?_child {name : String} (h : Path.IsName name) (dir : Path) :
    (dir.child name).fileName? = some name := by
  have hlast : (dir.child name).components.getLast? = some (.normal name) := by
    by_cases hdir : dir.chars = []
    · have hchars : (dir.child name).chars = name.toList := by
        rw [Path.child, Path.chars_join (Path.isAbsolute_of_isName h), hdir]
        rfl
      rw [Path.components_of_isName h hchars]
      rfl
    · rw [Path.components_child hdir h, List.getLast?_concat]
  rw [Path.fileName?, hlast]

/-- An entry has the extension of its name, in every directory. -/
theorem Path.extension?_child {name : String} (h : Path.IsName name) (dir : Path) :
    (dir.child name).extension? = (⟨name⟩ : Path).extension? := by
  have hname : (⟨name⟩ : Path).fileName? = some name := by
    rw [Path.fileName?, Path.components_of_isName h rfl]
    rfl
  rw [Path.extension?, Path.extension?, Path.fileName?_child h, hname]

section Place

variable {s : ChildSetup} {root : Path} {above : List Located} {dir : Path} {name : String} {node : Node}

theorem ScanConfig.shouldSkipLargeFile_child (c : ScanConfig) (h : Path.IsName name) (dir : Path) :
    c.shouldSkipLargeFile (dir.child name) = c.shouldSkipLargeFile ⟨name⟩ := by
  rw [shouldSkipLargeFile, shouldSkipLargeFile, Path.extension?_child h]

theorem ScanConfig.isLarge_child (c : ScanConfig) (h : Path.IsName name) (dir : Path) (size : Nat) :
    c.isLarge (dir.child name) size = c.isLarge ⟨name⟩ size := by
  rw [isLarge, isLarge, c.shouldSkipLargeFile_child h]

/-- Deep in the tree, what is no directory is sent if it is eligible and can be read. -/
theorem isSent_of_entered (he : Entered s root above)
    (hplain : above.any (Located.isFolded s.config) = false) (hname : Path.IsName name) :
    (⟨above, dir.child name, name, node⟩ : Descendant).isSent s root
      = (s.config.isEligible name node && s.reach (dir.child name)) := by
  rw [Descendant.isSent, he.isEmpty_eq_false, if_neg Bool.false_ne_true, Descendant.isCandidate,
    Descendant.isReadable, he.isEmpty_eq_false, if_neg Bool.false_ne_true, isLargeFile_eq,
    he.isReached, hplain, s.config.isLarge_child hname, ScanConfig.isEligible]
  simp

/-- A child of the root that can be read is sent if it is eligible, or special where even empty files are
large. -/
theorem isSent_child_iff (hname : Path.IsName name) :
    (⟨[], root.child name, name, node⟩ : Descendant).isSent s root = true
      ↔ s.readsChild (root.child name) = true ∧ (s.config.isEligible name node = true ∨
          (node.isSpecial = true ∧ s.config.minLargeFileSize = 0
            ∧ s.config.shouldSkipLargeFile ⟨name⟩ = false)) := by
  have hsent : (⟨[], root.child name, name, node⟩ : Descendant).isSent s root
      = ((node.isRegular || node.isSpecial) && s.config.isLarge ⟨name⟩ node.actualSize
          && s.readsChild (root.child name)) := by
    rw [← s.config.isLarge_child hname root]
    rfl
  rw [hsent, ScanConfig.isEligible]
  cases node with
  | special accessed =>
    have hzero : s.config.minLargeFileSize.toNat ≤ 0 ↔ s.config.minLargeFileSize = 0 := by
      rw [Nat.le_zero, ← UInt64.toNat_inj]
      rfl
    simp [Node.isRegular, Node.isSpecial, Node.actualSize, ScanConfig.isLarge, hzero, and_comm]
  | _ => simp [Node.isRegular, Node.isSpecial, and_comm]

end Place

/-- **Large files at every depth.**  What the children of a root and the walks send is everything below the
root that is sent from its place.  Deep down, where every directory above is walked, an entry is sent if and
only if it can be read and is a regular file that is large by its size and its name.  As a child of the root
the same entry, if it can be read in both places or in neither, is sent if and only if it is sent there, or
is a pipe, socket or device that can be read and even empty files with its extension are large. -/
theorem large_files_are_sent_alike (s : ChildSetup) (root : Path) (entries : List (String × Node)) :
    (scanChildren s root entries).flatMap SizedChild.large
        = ((belowEntries [] root entries).filter (Descendant.isSent s root)).map
            (fun d => d.here.largeFile)
      ∧ ∀ (name : String) (node : Node) (above : List Located) (dir : Path), Path.IsName name →
          Entered s root above → above.any (Located.isFolded s.config) = false →
          s.reach (dir.child name) = s.readsChild (root.child name) →
          let deep : Descendant := ⟨above, dir.child name, name, node⟩
          let child : Descendant := ⟨[], root.child name, name, node⟩
          deep.isSent s root = (s.config.isEligible name node && s.reach (dir.child name))
            ∧ (child.isSent s root = true ↔ deep.isSent s root = true ∨
                (s.readsChild (root.child name) = true ∧ node.isSpecial = true ∧
                  s.config.minLargeFileSize = 0 ∧ s.config.shouldSkipLargeFile ⟨name⟩ = false)) := by
  refine ⟨by rw [large_scanChildren, flatMap_offered_eq], ?_⟩
  intro name node above dir hname he hplain hreads deep child
  have hdeep : deep.isSent s root = (s.config.isEligible name node && s.reach (dir.child name)) :=
    isSent_of_entered he hplain hname
  refine ⟨hdeep, ?_⟩
  rw [isSent_child_iff hname, hdeep, hreads, Bool.and_eq_true, and_or_left]
  exact or_congr_left and_comm

/-- The sample scan, where even empty files are large. -/
def emptyIsLarge : ScanSetup :=
  { sampleScan with config := { sampleScan.config with minLargeFileSize := 0 } }

/-- A regular file and a pipe, in a directory and beside it. -/
theorem file_is_sent_alike_and_pipe_is_not :
    let setup := emptyIsLarge.toChildSetup
    let deep name node : Descendant :=
      ⟨[⟨⟨"/h/src"⟩, "src", .dir .free none []⟩], Path.child ⟨"/h/src"⟩ name, name, node⟩
    let child name node : Descendant := ⟨[], Path.child ⟨"/h"⟩ name, name, node⟩
    let file : Node := .file ⟨0, .fill 40, none⟩
    (deep "f" file).isSent setup ⟨"/h"⟩ = true ∧ (child "f" file).isSent setup ⟨"/h"⟩ = true ∧
      (deep "p" (.special none)).isSent setup ⟨"/h"⟩ = false := by
  intro setup deep child file
  have he : Entered setup ⟨"/h"⟩ ([] ++ [⟨⟨"/h/src"⟩, "src", .dir .free none []⟩]) :=
    .snoc (by decide +kernel) (by decide +kernel)
  obtain ⟨-, hplace⟩ := large_files_are_sent_alike setup ⟨"/h"⟩ []
  obtain ⟨hfile, hchild⟩ := hplace "f" file _ ⟨"/h/src"⟩ (by decide +kernel) he (by decide +kernel)
    (by decide +kernel)
  obtain ⟨hpipe, -⟩ := hplace "p" (.special none) _ ⟨"/h/src"⟩ (by decide +kernel) he (by decide +kernel)
    (by decide +kernel)
  have hsent : (deep "f" file).isSent setup ⟨"/h"⟩ = true := hfile.trans (by decide +kernel)
  exact ⟨hsent, hchild.2 (.inl hsent), hpipe.trans rfl⟩

/-- A pipe in the root is sent as a large file, and the same pipe in a directory is not. -/
theorem pipe_is_a_large_file_in_the_root :
    let large entries :=
      (scanChildren emptyIsLarge.toChildSetup ⟨"/h"⟩ entries).flatMap SizedChild.large
    large [("p", .special none)] = [⟨"p", ⟨"/h/p"⟩, 0⟩]
      ∧ large [("d", .dir .free none [("p", .special none)])] = [] := by
  decide +kernel

end DiskUsage
