import DiskUsage.Proofs.Scan.Candidates

/-!
# Which files are large

A file that a walk comes across, or that is a child of the root, is checked by its extension and by its
size on disk.  A hit of the index is checked by its extension, and then sized on disk, but its size is not
checked: the index itself was asked for long files, and a file can be long and hold little.

* `isLarge_of_mem_walk`, `isLarge_of_mem_offered`: what the walks and the children offer is large;
  `isLarge_of_mem_walkedLargeFiles`: so is what a scan takes from them.
* `hit_of_mem_findLargeFiles`: what the index gives is a hit sized on disk.
* `large_files_pass`: what holds of all large files of a scan.
* `sparse_hit_is_a_large_file`: a hit that holds nothing.
-/

namespace DiskUsage

variable {reach : Path → Bool} {c : ScanConfig} {path : Path} {name : String} {f : LargeFile}

theorem shouldSkip_of_isLarge {size : Nat} (h : c.isLarge path size = true) :
    c.minLargeFileSize.toNat ≤ size ∧ c.shouldSkipLargeFile path = false := by
  obtain ⟨hsize, hskip⟩ := Bool.and_eq_true_iff.1 h
  exact ⟨of_decide_eq_true hsize, by simpa using hskip⟩

/-! ### What is walked -/

theorem isLarge_of_mem_walkFile {node : Node} (h : f ∈ (walkFile reach c path name node).large) :
    c.isLarge f.path f.size = true := by
  unfold walkFile at h
  split at h
  · dsimp only at h
    split at h
    · next hlarge =>
      cases List.mem_singleton.1 h
      exact (Bool.and_eq_true_iff.1 hlarge).2
    · cases h
  · cases h

mutual
/-- **A walk** offers only large files. -/
theorem isLarge_of_mem_walk (path : Path) (name : String) (node : Node)
    (h : f ∈ (walk reach c path name node).large) : c.isLarge f.path f.size = true := by
  cases node with
  | dir mode accessed entries =>
    rw [walk] at h
    split at h
    · cases h
    · split at h
      · exact isLarge_of_mem_walkEntries path entries h
      · cases h
  | file data =>
    rw [walk] at h
    exact isLarge_of_mem_walkFile h
  | link target data =>
    rw [walk] at h
    exact isLarge_of_mem_walkFile h
  | special accessed =>
    rw [walk] at h
    exact isLarge_of_mem_walkFile h

theorem isLarge_of_mem_walkEntries (dir : Path) (entries : List (String × Node))
    (h : f ∈ (walkEntries reach c dir entries).large) : c.isLarge f.path f.size = true := by
  cases entries with
  | nil =>
    rw [walkEntries] at h
    cases h
  | cons e rest =>
    obtain ⟨name, node⟩ := e
    rw [walkEntries] at h
    rcases List.mem_append.1 h with h | h
    · exact isLarge_of_mem_walk (dir.child name) name node h
    · exact isLarge_of_mem_walkEntries dir rest h
end

theorem isLarge_of_mem_dirSize {w : WalkSetup} {node : Node}
    (h : f ∈ (dirSize w path name node).large) : w.config.isLarge f.path f.size = true := by
  cases node with
  | dir mode accessed entries =>
    rw [dirSize] at h
    split at h
    · cases h
    · split at h
      · cases h
      · split at h
        · cases h
        · exact isLarge_of_mem_walkEntries path entries h
  | _ => cases h

/-- **A child of the root** offers only large files, however it is sized. -/
theorem isLarge_of_mem_offered {s : ChildSetup} {root : Path} {d : Located}
    (h : f ∈ offered s root d) : s.config.isLarge f.path f.size = true := by
  have hsubtree (h : f ∈ (SizedChild.ofSubtree d.name d.path (s.lastAccess d.path d.node)
      (dirSize s.toWalkSetup d.path d.name d.node)).large) : s.config.isLarge f.path f.size = true := by
    unfold SizedChild.ofSubtree at h
    split at h
    · exact isLarge_of_mem_dirSize h
    · exact isLarge_of_mem_dirSize h
  unfold offered at h
  generalize s.config.classify (s.config.contextOf root) d.name d.path d.node.kind = kind at h
  cases kind with
  | link =>
    rw [sizeChild] at h
    split at h <;> cases h
  | foldedSubtree => cases h
  | denylistedSubtree => cases h
  | ordinarySubtree => exact hsubtree h
  | plainFile =>
    rw [sizeChild] at h
    split at h
    · change f ∈ (if _ then _ else _) at h
      split at h
      · next hlarge =>
        cases List.mem_singleton.1 h
        exact hlarge
      · cases h
    · cases h
  | cachedSubtree =>
    rw [sizeChild] at h
    split at h
    · cases h
    · exact hsubtree h

/-- **The children of the root** together offer only large files. -/
theorem isLarge_of_mem_walkedLargeFiles {s : ChildSetup} {root : Path} {entries : List (String × Node)}
    (h : f ∈ walkedLargeFiles s.config (scanChildren s root entries)) :
    s.config.isLarge f.path f.size = true := by
  obtain ⟨cutOff, hcut⟩ := TopN.cut_largest LargeFile.size s.config.maxLargeFiles.toNat
    ((scanChildren s root entries).flatMap SizedChild.large)
  have hmem := hcut.perm.mem_iff.1 (List.mem_append_left _ h)
  rw [large_scanChildren, List.mem_flatMap] at hmem
  obtain ⟨d, -, hd⟩ := hmem
  exact isLarge_of_mem_offered hd

/-! ### What the index gives -/

/-- **A large file from the index** is a hit that is let pass, with the size that it has on disk. -/
theorem hit_of_mem_findLargeFiles {lstat : Path → Except SystemError Node} {index : ContentIndex}
    (h : f ∈ findLargeFiles c lstat index) :
    ∃ hits node, index.query = .ok hits ∧ f.path ∈ hits ∧ c.acceptsHit f.path = true ∧
      lstat f.path = .ok node ∧ node.isDir = false ∧ node.isLink = false ∧ f.size = node.actualSize := by
  unfold findLargeFiles at h
  cases hquery : index.query with
  | error e =>
    rw [hquery] at h
    cases h
  | ok hits =>
    rw [hquery] at h
    have hmem := List.mem_of_mem_take h
    rw [List.mem_mergeSort, resolveHits, List.mem_filterMap] at hmem
    obtain ⟨hit, haccepted, hfile⟩ := hmem
    obtain ⟨hhit, haccepts⟩ := List.mem_filter.1 haccepted
    obtain ⟨rfl, -, node, hnode, hdir, hlink, hsize⟩ := largeFile?_eq_some hfile
    exact ⟨hits, node, rfl, hhit, haccepts, hnode, hdir, hlink, hsize⟩

/-! ### The large files of a scan -/

/-- The extension of the file, if it has one, is not passed over. -/
def LargeFile.isAllowed (c : ScanConfig) (f : LargeFile) : Prop :=
  ∀ ext, f.path.extension? = some ext → ScanConfig.asciiLower ext ∉ c.skipExtensions

theorem isAllowed_of_shouldSkip (h : c.shouldSkipLargeFile f.path = false) : f.isAllowed c := by
  intro ext hext hmem
  simp [ScanConfig.shouldSkipLargeFile, hext, hmem] at h

/-- **The large files of a scan** have extensions that are not passed over, wherever they come from.
Those that are walked hold as many bytes on disk as a large file has to.  Those that the index gives are
its hits, and hold what they hold. -/
theorem large_files_pass (s : ScanSetup) (root : Path) {r : ScanResult}
    (hr : (scan s root).2 = .ok r) :
    (∀ f ∈ r.largeFiles, f.isAllowed s.config) ∧
      (findLargeFiles s.config s.lstat s.index = [] →
        ∀ f ∈ r.largeFiles, s.config.minLargeFileSize.toNat ≤ f.size) ∧
      (findLargeFiles s.config s.lstat s.index ≠ [] →
        r.largeFiles = findLargeFiles s.config s.lstat s.index ∧
          ∀ f ∈ r.largeFiles, ∃ hits node, s.index.query = .ok hits ∧ f.path ∈ hits ∧
            s.lstat f.path = .ok node ∧ f.size = node.actualSize) := by
  obtain ⟨entries, -, -, rfl⟩ := exists_list_of_scan hr
  have hlarge : (scanResult s root (scanChildren s.toChildSetup root entries)).largeFiles
      = if (findLargeFiles s.config s.lstat s.index).isEmpty then
          walkedLargeFiles s.config (scanChildren s.toChildSetup root entries)
        else findLargeFiles s.config s.lstat s.index := rfl
  by_cases hempty : findLargeFiles s.config s.lstat s.index = []
  · rw [if_pos (List.isEmpty_iff.2 hempty)] at hlarge
    rw [hlarge]
    refine ⟨fun f hf => ?_, fun _ f hf => ?_, fun hne => absurd hempty hne⟩
    · exact isAllowed_of_shouldSkip (shouldSkip_of_isLarge (isLarge_of_mem_walkedLargeFiles hf)).2
    · exact (shouldSkip_of_isLarge (isLarge_of_mem_walkedLargeFiles hf)).1
  · rw [if_neg (by simpa using hempty)] at hlarge
    rw [hlarge]
    refine ⟨fun f hf => ?_, fun h => absurd h hempty, fun _ => ⟨rfl, fun f hf => ?_⟩⟩
    · obtain ⟨hits, node, -, -, haccepts, -⟩ := hit_of_mem_findLargeFiles hf
      exact isAllowed_of_shouldSkip (by simpa using (Bool.and_eq_true_iff.1 haccepts).1)
    · obtain ⟨hits, node, hquery, hhit, -, hnode, -, -, hsize⟩ := hit_of_mem_findLargeFiles hf
      exact ⟨hits, node, hquery, hhit, hnode, hsize⟩

/-- A directory with a long file that holds nothing, and one that holds enough; the index was asked for
long files. -/
def sparseScan : ScanSetup where
  config := { ScanConfig.default ⟨none, 1⟩ with minLargeFileSize := 4096 }
  tool _ := .error (.unavailable "du")
  reach _ := true
  late _ := false
  known := .none
  readsChild _ := true
  leadsToDir _ := false
  index := .hits [⟨"/r/full"⟩, ⟨"/r/hole"⟩]
  lstat path :=
    if path.text = "/r/hole" then .ok (.file ⟨0, .hole 1000000, none⟩)
    else if path.text = "/r/full" then .ok (.file ⟨1, .fill 5000, none⟩)
    else .error (.code 2)
  list path :=
    if path.text = "/r" then
      .ok [("hole", .file ⟨0, .hole 1000000, none⟩), ("full", .file ⟨1, .fill 5000, none⟩)]
    else .error (.code 2)
  elapsed := .zero
  processors := 1
  startError? _ := none

theorem findLargeFiles_sparseScan :
    findLargeFiles sparseScan.config sparseScan.lstat sparseScan.index
      = [⟨"full", ⟨"/r/full"⟩, 5000⟩, ⟨"hole", ⟨"/r/hole"⟩, 0⟩] := by
  have hresolved : resolveHits sparseScan.config sparseScan.lstat [⟨"/r/full"⟩, ⟨"/r/hole"⟩]
      = [⟨"full", ⟨"/r/full"⟩, 5000⟩, ⟨"hole", ⟨"/r/hole"⟩, 0⟩] := by decide +kernel
  show largeFilesOf sparseScan.config sparseScan.lstat [⟨"/r/full"⟩, ⟨"/r/hole"⟩] = _
  rw [largeFilesOf, hresolved, List.mergeSort_of_pairwise (by decide)]
  rfl

theorem sparse_scan_lists_its_hits :
    ∃ r, (scan sparseScan ⟨"/r"⟩).2 = .ok r ∧
      (∀ f ∈ r.largeFiles, f.isAllowed sparseScan.config) ∧
      findLargeFiles sparseScan.config sparseScan.lstat sparseScan.index ≠ [] ∧
      ∀ f ∈ r.largeFiles, ∃ hits node, sparseScan.index.query = .ok hits ∧ f.path ∈ hits ∧
        sparseScan.lstat f.path = .ok node ∧ f.size = node.actualSize := by
  have hindex : findLargeFiles sparseScan.config sparseScan.lstat sparseScan.index ≠ [] := by
    simp [findLargeFiles_sparseScan]
  obtain ⟨r, hr⟩ := (scan_isOk_iff sparseScan ⟨"/r"⟩).2 ⟨_, rfl, by decide +kernel⟩
  obtain ⟨hallowed, -, hindexed⟩ := large_files_pass sparseScan ⟨"/r"⟩ hr
  exact ⟨r, hr, hallowed, hindex, (hindexed hindex).2⟩

/-- **A hit that holds nothing** is a large file of the scan, although a large file has to hold 4096
bytes; without the index it is none. -/
theorem sparse_hit_is_a_large_file :
    sparseScan.config.minLargeFileSize.toNat = 4096 ∧
      (∃ r, (scan sparseScan ⟨"/r"⟩).2 = .ok r ∧
        r.largeFiles = [⟨"full", ⟨"/r/full"⟩, 5000⟩, ⟨"hole", ⟨"/r/hole"⟩, 0⟩]) ∧
      ∃ r, (scan { sparseScan with index := .absent } ⟨"/r"⟩).2 = .ok r ∧
        r.largeFiles = [⟨"full", ⟨"/r/full"⟩, 5000⟩] := by
  refine ⟨by decide +kernel, ⟨_, rfl, ?_⟩, _, rfl, by decide +kernel⟩
  show (if (findLargeFiles sparseScan.config sparseScan.lstat sparseScan.index).isEmpty then _
    else findLargeFiles sparseScan.config sparseScan.lstat sparseScan.index) = _
  rw [findLargeFiles_sparseScan]
  rfl

end DiskUsage
