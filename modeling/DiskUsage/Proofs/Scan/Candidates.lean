import DiskUsage.Proofs.Entry.Largest
import DiskUsage.Proofs.Scan.Total

/-!
# The large files of a scan

Large files are offered from two places: where a child of the root is a file itself, and where a walk
comes to a file.  Neither offers anything that lies in a directory which is left out, answered by the
cache or sized in bulk.  Together they offer exactly the files below the root that qualify, and the
largest of these are listed.

* `Descendant.isCandidate`: the files below a root that qualify; `candidates`: these, as large files.
* `Barren`, `candidates_of_barren`: nothing qualifies below such directories.
* `large_walk`, `flatMap_offered`: a walk, and the children of the root, offer what qualifies.
* `large_files_are_the_largest_candidates`: so the large files are the largest that qualify.
-/

namespace DiskUsage

/-- It is a large file: a regular one of the least size or more, whose extension, if it has one, is
not passed over. -/
def Located.isLargeFile (c : ScanConfig) (d : Located) : Bool :=
  d.node.isRegular && decide (c.minLargeFileSize.toNat ≤ d.node.actualSize)
    && !d.path.extension?.any fun ext => c.skipExtensions.contains (ScanConfig.asciiLower ext)

/-- The large file that it is. -/
def Located.largeFile (d : Located) : LargeFile :=
  ⟨d.name, d.path, d.node.actualSize⟩

/-- It qualifies as a large file of a scan: it is large, can be read, and does not lie in a directory
that is sized in bulk, however that one gets its size. -/
def Descendant.isCandidate (s : ChildSetup) (root : Path) (d : Descendant) : Bool :=
  d.here.isLargeFile s.config && d.isReached s root
    && d.isReadable s && !d.above.any (Located.isFolded s.config)

/-- The large files among these that qualify. -/
def candidates (s : ChildSetup) (root : Path) (ds : List Descendant) : List LargeFile :=
  (ds.filter (Descendant.isCandidate s root)).map fun d => d.here.largeFile

variable {s : ChildSetup} {root : Path} {above : List Located} {path : Path} {name : String}

@[simp] theorem candidates_nil : candidates s root [] = [] := rfl

@[simp] theorem candidates_append (ds es : List Descendant) :
    candidates s root (ds ++ es) = candidates s root ds ++ candidates s root es := by
  simp [candidates]

theorem candidates_cons_of_isDir {d : Descendant} (h : d.here.node.isDir = true)
    (ds : List Descendant) : candidates s root (d :: ds) = candidates s root ds := by
  have hnot : d.isCandidate s root = false := by
    cases hn : d.here.node <;> simp_all [Descendant.isCandidate, Located.isLargeFile, Node.isDir,
      Node.isRegular]
  rw [candidates, List.filter_cons_of_neg (by simp [hnot]), candidates]

/-! ### Where nothing qualifies -/

/-- Nothing below these directories qualifies: one cannot be listed, the child of the root is not
looked into, or one is sized in bulk. -/
def Barren (s : ChildSetup) (root : Path) (above : List Located) : Prop :=
  above.all (Located.isOpen s.reach) = false ∨
    (∃ top, above.head? = some top ∧ top.isLookedInto s root = false) ∨
    above.any (Located.isFolded s.config) = true

theorem isCandidate_of_barren {d : Descendant} (h : Barren s root above) (hd : above <+: d.above) :
    d.isCandidate s root = false := by
  rw [Barren, ← or_assoc] at h
  rcases h with h | h
  · have hreached := isReached_eq_false_of_prefix h hd
    simp [Descendant.isCandidate, hreached]
  · obtain ⟨more, hmore⟩ := hd
    have hany : d.above.any (Located.isFolded s.config) = true := by
      rw [← hmore, List.any_append, h, Bool.true_or]
    simp [Descendant.isCandidate, hany]

theorem candidates_of_barren (h : Barren s root above) (dir : Path)
    (entries : List (String × Node)) : candidates s root (belowEntries above dir entries) = [] := by
  unfold candidates
  rw [List.map_eq_nil_iff, List.filter_eq_nil_iff]
  intro d hd
  simp [isCandidate_of_barren h (above_prefix_of_mem_entries hd)]

/-! ### What a walk offers -/

theorem isLargeFile_eq (c : ScanConfig) (path : Path) (name : String) (node : Node) :
    (⟨path, name, node⟩ : Located).isLargeFile c = (node.isRegular && c.isLarge path node.actualSize) :=
  Bool.and_assoc ..

/-- What is no directory qualifies if it is large and can be read. -/
theorem candidates_below_of_isDir_eq_false (he : Entered s root above)
    (htop : above.any (Located.isFolded s.config) = false) {node : Node} (hdir : node.isDir = false) :
    candidates s root (below above path name node)
      = (walkFile s.reach s.config path name node).large := by
  rw [below_of_isDir_eq_false hdir]
  have hcandidate : (⟨above, path, name, node⟩ : Descendant).isCandidate s root
      = (node.isRegular && s.config.isLarge path node.actualSize && s.reach path) := by
    simp [Descendant.isCandidate, Descendant.isReadable, isLargeFile_eq, he.isReached,
      he.isEmpty_eq_false, htop]
  unfold candidates walkFile
  rw [List.filter_cons, List.filter_nil, hcandidate]
  cases s.reach path with
  | false => simp [Walked.unreadable]
  | true =>
    simp only [Bool.and_true, if_true]
    split <;> rfl

mutual
/-- **A walk** offers what qualifies below it, where no directory above is sized in bulk. -/
theorem large_walk {above : List Located} (he : Entered s root above)
    (htop : above.any (Located.isFolded s.config) = false) (path : Path) (name : String)
    (node : Node) :
    (walk s.reach s.config path name node).large = candidates s root (below above path name node) := by
  cases node with
  | dir mode accessed entries =>
    obtain ⟨here, hhere⟩ : ∃ here : Located, here = ⟨path, name, .dir mode accessed entries⟩ :=
      ⟨_, rfl⟩
    have hany : (above ++ [here]).any (Located.isFolded s.config) = s.config.shouldFold name path := by
      rw [List.any_append, htop, hhere]
      simp [Located.isFolded, Node.isDir]
    rw [walk, below, candidates_cons_of_isDir rfl, ← hhere]
    cases hfold : s.config.shouldFold name path with
    | true =>
      have hbarren : Barren s root (above ++ [here]) := .inr (.inr (by rw [hany, hfold]))
      rw [if_pos rfl, candidates_of_barren hbarren]
      rfl
    | false =>
      rw [if_neg Bool.false_ne_true]
      cases hopen : canList s.reach path mode with
      | true =>
        have he' : Entered s root (above ++ [here]) := .snoc (he.isReached here) (by rw [hhere]; exact hopen)
        rw [if_pos rfl, ← large_walkEntries he' (by rw [hany, hfold]) path entries]
        rfl
      | false =>
        have hbarren : Barren s root (above ++ [here]) := .inl (by
          rw [List.all_append, hhere]
          simp [Located.isOpen, hopen])
        rw [if_neg Bool.false_ne_true, candidates_of_barren hbarren]
        rfl
  | file data => rw [candidates_below_of_isDir_eq_false he htop rfl, walk]
  | link target data => rw [candidates_below_of_isDir_eq_false he htop rfl, walk]
  | special accessed => rw [candidates_below_of_isDir_eq_false he htop rfl, walk]

theorem large_walkEntries {above : List Located} (he : Entered s root above)
    (htop : above.any (Located.isFolded s.config) = false) (dir : Path)
    (entries : List (String × Node)) :
    (walkEntries s.reach s.config dir entries).large = candidates s root (belowEntries above dir entries) := by
  cases entries with
  | nil => rfl
  | cons e rest =>
    obtain ⟨name, node⟩ := e
    rw [belowEntries, candidates_append, ← large_walk he htop, ← large_walkEntries he htop, walkEntries]
    rfl
end

/-! ### What a child offers -/

/-- The large files that a child of the root brings with it. -/
def offered (s : ChildSetup) (root : Path) (c : Located) : List LargeFile :=
  (sizeChild s c.path c.name c.node
    (s.config.classify (s.config.contextOf root) c.name c.path c.node.kind)).large

theorem large_scanChildren (s : ChildSetup) (root : Path) (entries : List (String × Node)) :
    (scanChildren s root entries).flatMap SizedChild.large
      = (childrenOf root entries).flatMap (offered s root) := by
  induction entries with
  | nil => rfl
  | cons e rest ih =>
    obtain ⟨name, node⟩ := e
    unfold scanChildren at ih ⊢
    rw [childrenOf_cons, List.flatMap_cons, ← ih, List.filterMap_cons, offered]
    dsimp only
    cases s.config.classify (s.config.contextOf root) name (root.child name) node.kind <;> rfl

/-- A child that is a link or a regular file offers itself if it is a large file that can be read. -/
theorem offered_of_isDir_eq_false {node : Node} (hdir : node.isDir = false)
    (hnode : node.isLink = true ∨ node.isRegular = true) :
    offered s root ⟨path, name, node⟩ = candidates s root (below [] path name node) := by
  have hreached : (⟨[], path, name, node⟩ : Descendant).isReached s root = true := by
    simp [Descendant.isReached, Descendant.child, Located.isLookedInto, Located.isDenied,
      Located.answer?, hdir]
  have hcandidate : (⟨[], path, name, node⟩ : Descendant).isCandidate s root
      = (node.isRegular && s.config.isLarge path node.actualSize && s.readsChild path) := by
    simp [Descendant.isCandidate, Descendant.isReadable, isLargeFile_eq, hreached]
  rw [below_of_isDir_eq_false hdir, candidates, List.filter_cons, List.filter_nil, hcandidate]
  cases node with
  | dir mode accessed entries => cases hdir
  | link target data =>
    simp only [offered, Node.kind, ScanConfig.classify, sizeChild]
    cases s.readsChild path <;> rfl
  | special accessed => rcases hnode with h | h <;> cases h
  | file data =>
    simp only [offered, Node.kind, ScanConfig.classify, sizeChild, Node.isRegular, Bool.true_and]
    cases s.readsChild path with
    | false => simp [SizedChild.unreadable]
    | true =>
      simp only [Bool.and_true, if_true, SizedChild.ofFile]
      split <;> rfl

section Directory

variable {mode : DirMode} {accessed : Option Timestamp} {entries : List (String × Node)}

theorem candidates_of_barren_dir
    (h : Barren s root ([] ++ [⟨path, name, .dir mode accessed entries⟩])) :
    candidates s root (below [] path name (.dir mode accessed entries)) = [] := by
  rw [below, candidates_cons_of_isDir rfl, candidates_of_barren h]

theorem barren_of_not_lookedInto {here : Located} (h : here.isLookedInto s root = false) :
    Barren s root ([] ++ [here]) :=
  .inr (.inl ⟨here, rfl, h⟩)

/-- A directory that is walked offers what qualifies below it; one that would be sized in bulk is not
entered even then, and nothing qualifies there. -/
theorem large_ofSubtree (used : Option Timestamp)
    (hlook : (⟨path, name, .dir mode accessed entries⟩ : Located).isLookedInto s root = true) :
    (SizedChild.ofSubtree name path used
        (dirSize s.toWalkSetup path name (.dir mode accessed entries))).large
      = candidates s root (below [] path name (.dir mode accessed entries)) := by
  have hlarge : (SizedChild.ofSubtree name path used
      (dirSize s.toWalkSetup path name (.dir mode accessed entries))).large
        = (dirSize s.toWalkSetup path name (.dir mode accessed entries)).large := by
    unfold SizedChild.ofSubtree
    split <;> rfl
  have hany : ([] ++ [(⟨path, name, .dir mode accessed entries⟩ : Located)]).any
      (Located.isFolded s.config) = s.config.shouldFold name path := by
    simp [Located.isFolded, Node.isDir]
  rw [hlarge]
  cases hfold : s.config.shouldFold name path with
  | true =>
    rw [candidates_of_barren_dir (.inr (.inr (hany.trans hfold))), dirSize, hfold]
    split <;> rfl
  | false =>
    cases hopen : canList s.reach path mode with
    | true =>
      have he : Entered s root ([] ++ [⟨path, name, .dir mode accessed entries⟩]) :=
        .snoc hlook hopen
      rw [below, candidates_cons_of_isDir rfl, ← large_walkEntries he (hany.trans hfold),
        dirSize_of_not_folded s.toWalkSetup hfold, if_pos hopen]
      rfl
    | false =>
      rw [candidates_of_barren_dir (.inl (by simp [Located.isOpen, hopen])),
        dirSize_of_not_folded s.toWalkSetup hfold, hopen]
      rfl

/-- A child on the deny list offers nothing, and nothing in it qualifies. -/
theorem offered_of_denied
    (hden : s.config.isDenylisted name (s.config.contextOf root).isFileSystemRoot = true) :
    offered s root ⟨path, name, .dir mode accessed entries⟩
      = candidates s root (below [] path name (.dir mode accessed entries)) := by
  have hnot : (⟨path, name, .dir mode accessed entries⟩ : Located).isLookedInto s root = false := by
    simp [Located.isLookedInto, Located.isDenied, Node.isDir, hden]
  rw [candidates_of_barren_dir (barren_of_not_lookedInto hnot)]
  simp [offered, Node.kind, ScanConfig.classify, hden, sizeChild]

/-- A child that is not on the deny list, in each of the ways it can be sized. -/
theorem offered_of_allowed
    (hden : s.config.isDenylisted name (s.config.contextOf root).isFileSystemRoot = false) :
    offered s root ⟨path, name, .dir mode accessed entries⟩
      = candidates s root (below [] path name (.dir mode accessed entries)) := by
  have hlook : (⟨path, name, .dir mode accessed entries⟩ : Located).isLookedInto s root
      = ((⟨path, name, .dir mode accessed entries⟩ : Located).answer? s root).isNone := by
    simp [Located.isLookedInto, Located.isDenied, Node.isDir, hden]
  rw [answer?_of_allowed hden] at hlook
  have hoffered : offered s root ⟨path, name, .dir mode accessed entries⟩
      = (sizeChild s path name (.dir mode accessed entries)
          (if s.config.isHome root && name == s.config.cachedSubtreeName then .cachedSubtree
          else if s.config.shouldFold name path then .foldedSubtree
          else .ordinarySubtree)).large := by
    simp only [offered, Node.kind, ScanConfig.classify, hden, Bool.false_eq_true, if_false]
    rfl
  rw [hoffered]
  cases hsub : s.config.isHome root && name == s.config.cachedSubtreeName with
  | true =>
    rw [hsub, if_pos rfl] at hlook
    rw [if_pos rfl, sizeChild]
    cases hknown : s.known.subtreeSize? path with
    | some size =>
      rw [hknown] at hlook
      rw [candidates_of_barren_dir (barren_of_not_lookedInto hlook)]
      rfl
    | none =>
      rw [hknown] at hlook
      exact large_ofSubtree _ hlook
  | false =>
    rw [hsub, if_neg Bool.false_ne_true] at hlook
    rw [if_neg Bool.false_ne_true]
    cases hfold : s.config.shouldFold name path with
    | true =>
      rw [candidates_of_barren_dir (.inr (.inr (by simp [Located.isFolded, Node.isDir, hfold])))]
      rfl
    | false => exact large_ofSubtree _ hlook

end Directory

/-! ### All children -/

/-- The children of a root offer what qualifies below it, if none of them is a special file. -/
theorem flatMap_offered {entries : List (String × Node)}
    (hregular : ∀ e ∈ entries, e.2.isDir = true ∨ e.2.isLink = true ∨ e.2.isRegular = true) :
    (childrenOf root entries).flatMap (offered s root)
      = candidates s root (belowEntries [] root entries) := by
  induction entries with
  | nil => rfl
  | cons e rest ih =>
    obtain ⟨name, node⟩ := e
    have hrest := ih fun e he => hregular e (List.mem_cons_of_mem _ he)
    have hnode := hregular (name, node) List.mem_cons_self
    rw [childrenOf_cons, List.flatMap_cons, belowEntries, candidates_append, hrest]
    congr 1
    cases node with
    | dir mode accessed entries =>
      cases hden : s.config.isDenylisted name (s.config.contextOf root).isFileSystemRoot with
      | true => exact offered_of_denied hden
      | false => exact offered_of_allowed hden
    | file data => exact offered_of_isDir_eq_false rfl (.inr rfl)
    | link target data => exact offered_of_isDir_eq_false rfl (.inl rfl)
    | special accessed => exact offered_of_isDir_eq_false rfl (hnode.resolve_left nofun)

/-- **The large files of a scan.**  Where no child of the root is a special file and the index knows
nothing, what the children of the root and the walks offer are the files below the root that qualify,
each of them once, and the large files of the scan are the largest of these in descending order. -/
theorem large_files_are_the_largest_candidates (s : ScanSetup) (root : Path)
    (hindex : findLargeFiles s.config s.lstat s.index = []) {entries : List (String × Node)}
    (hlist : s.list root = .ok entries)
    (hregular : ∀ e ∈ entries, e.2.isDir = true ∨ e.2.isLink = true ∨ e.2.isRegular = true)
    {r : ScanResult} (hr : (scan s root).2 = .ok r) :
    let qualified := (belowEntries [] root entries).filter
      (Descendant.isCandidate s.toChildSetup root)
    (scanChildren s.toChildSetup root entries).flatMap SizedChild.large
        = qualified.map (fun d => d.here.largeFile) ∧
      ∃ cutOff, TopN.Cut LargeFile.size s.config.maxLargeFiles.toNat
        (qualified.map fun d => d.here.largeFile) r.largeFiles cutOff := by
  obtain ⟨listed, hlisted, -, rfl⟩ := exists_list_of_scan hr
  cases hlist.symm.trans hlisted
  have hoffered : (scanChildren s.toChildSetup root entries).flatMap SizedChild.large
      = candidates s.toChildSetup root (belowEntries [] root entries) := by
    rw [large_scanChildren, flatMap_offered hregular]
  refine ⟨hoffered, ?_⟩
  have hlarge : (scanResult s root (scanChildren s.toChildSetup root entries)).largeFiles
      = TopN.largest LargeFile.size s.config.maxLargeFiles.toNat
          (candidates s.toChildSetup root (belowEntries [] root entries)) := by
    rw [← hoffered]
    simp [scanResult, hindex, walkedLargeFiles]
  rw [hlarge]
  exact TopN.cut_largest LargeFile.size _ _

/-- The sample scan, where five bytes make a large file and one of them is listed. -/
def sampleLargeScan : ScanSetup :=
  { sampleScan with
    config := { sampleScan.config with minLargeFileSize := 5, maxLargeFiles := 1 } }

theorem sample_scan_lists_one_of_two_candidates :
    findLargeFiles sampleLargeScan.config sampleLargeScan.lstat sampleLargeScan.index = [] ∧
      sampleLargeScan.list ⟨"/h"⟩ = .ok sampleEntries ∧
      (∀ e ∈ sampleEntries, e.2.isDir = true ∨ e.2.isLink = true ∨ e.2.isRegular = true) ∧
      ∃ r, (scan sampleLargeScan ⟨"/h"⟩).2 = .ok r ∧
        r.largeFiles = [⟨"main", ⟨"/h/src/main"⟩, 40⟩] ∧
        (let qualified := (belowEntries [] ⟨"/h"⟩ sampleEntries).filter
          (Descendant.isCandidate sampleLargeScan.toChildSetup ⟨"/h"⟩)
        qualified.map (fun d => d.here.largeFile)
          = [⟨"main", ⟨"/h/src/main"⟩, 40⟩, ⟨"note", ⟨"/h/note"⟩, 5⟩] ∧
        (scanChildren sampleLargeScan.toChildSetup ⟨"/h"⟩ sampleEntries).flatMap SizedChild.large
          = qualified.map (fun d => d.here.largeFile) ∧
        ∃ cutOff, TopN.Cut LargeFile.size sampleLargeScan.config.maxLargeFiles.toNat
          (qualified.map fun d => d.here.largeFile) r.largeFiles cutOff) := by
  have hindex : findLargeFiles sampleLargeScan.config sampleLargeScan.lstat sampleLargeScan.index = [] :=
    rfl
  have hregular : ∀ e ∈ sampleEntries, e.2.isDir = true ∨ e.2.isLink = true ∨ e.2.isRegular = true := by
    decide +kernel
  obtain ⟨hoffered, hcut⟩ :=
    large_files_are_the_largest_candidates sampleLargeScan ⟨"/h"⟩ hindex rfl hregular rfl
  exact ⟨hindex, rfl, hregular, _, rfl, by decide +kernel, by decide +kernel, hoffered, hcut⟩

end DiskUsage
