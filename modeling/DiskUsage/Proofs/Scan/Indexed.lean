import DiskUsage.Proofs.Entry.Largest
import DiskUsage.Proofs.Scan.Total

/-!
# Large files from an index, and from a walk

An index answers with all its hits at once.  Those that survive a check are sized on disk, put in order and
cut off.  A walk offers its files to a tracker instead, one by one.  Both select alike, so a scan may take the
files of the index in place of the walked ones; it never takes some of both.

* `ScanConfig.survives`: a hit survives the checks; `LargeFile.IsOnDisk`: a file has the name and the size
  that stand on disk.
* `map_path_resolveHits`, `isOnDisk_of_mem_resolveHits`: what becomes of the hits that survive.
* `index_selects_as_a_tracker`: what the index gives, and what a scan takes of it.
-/

open scoped List

namespace DiskUsage

/-! ### The hits that survive -/

section Hits

variable {c : ScanConfig} {lstat : Path → Except SystemError Node} {hit : Path} {f : LargeFile}

/-- The path leads to something that is neither a directory nor a link. -/
def leadsToFile (lstat : Path → Except SystemError Node) (path : Path) : Bool :=
  match lstat path with
  | .ok node => !node.isDir && !node.isLink
  | .error _ => false

/-- A hit survives if it leads to a file, has a file name, no extension that is passed over, and no
component that is folded. -/
def ScanConfig.survives (c : ScanConfig) (lstat : Path → Except SystemError Node) (hit : Path) : Bool :=
  leadsToFile lstat hit && hit.fileName?.isSome
    && (hit.extension?.all fun ext => !c.skipExtensions.contains (asciiLower ext))
    && hit.components.all fun k => !c.foldDirs.contains k.text

/-- The file has the name that its path ends in, and the size of what the path leads to. -/
def LargeFile.IsOnDisk (lstat : Path → Except SystemError Node) (f : LargeFile) : Prop :=
  f.path.fileName? = some f.name ∧ ∃ node, lstat f.path = .ok node ∧ f.size = node.actualSize

theorem acceptsHit_eq (c : ScanConfig) (hit : Path) :
    c.acceptsHit hit
      = ((hit.extension?.all fun ext => !c.skipExtensions.contains (ScanConfig.asciiLower ext))
        && hit.components.all fun k => !c.foldDirs.contains k.text) := by
  rw [ScanConfig.acceptsHit, ScanConfig.shouldSkipLargeFile, ScanConfig.isInFoldedDir]
  congr 1
  · cases hit.extension? <;> rfl
  · rw [List.not_any_eq_all_not]
    rfl

theorem isSome_largeFile? (lstat : Path → Except SystemError Node) (hit : Path) :
    (largeFile? lstat hit).isSome = (leadsToFile lstat hit && hit.fileName?.isSome) := by
  unfold largeFile? leadsToFile
  cases lstat hit with
  | error e => rfl
  | ok node => cases hdir : node.isDir <;> cases hlink : node.isLink <;> simp [hdir, hlink]

theorem survives_eq (c : ScanConfig) (lstat : Path → Except SystemError Node) (hit : Path) :
    c.survives lstat hit = ((largeFile? lstat hit).isSome && c.acceptsHit hit) := by
  rw [ScanConfig.survives, isSome_largeFile?, acceptsHit_eq, Bool.and_assoc]

theorem isOnDisk_of_largeFile? (h : largeFile? lstat hit = some f) : f.IsOnDisk lstat := by
  obtain ⟨rfl, hname, node, hnode, -, -, hsize⟩ := largeFile?_eq_some h
  exact ⟨hname, node, hnode, hsize⟩

/-- **The hits that survive** become files, in their order and as often as they were given. -/
theorem map_path_resolveHits (c : ScanConfig) (lstat : Path → Except SystemError Node)
    (hits : List Path) : (resolveHits c lstat hits).map LargeFile.path = hits.filter (c.survives lstat) := by
  unfold resolveHits
  induction hits with
  | nil => rfl
  | cons hit rest ih =>
    rw [List.filter_cons, List.filter_cons, survives_eq]
    cases haccepts : c.acceptsHit hit with
    | false =>
      rw [Bool.and_false, if_neg Bool.false_ne_true, if_neg Bool.false_ne_true]
      exact ih
    | true =>
      rw [Bool.and_true, if_pos rfl, List.filterMap_cons]
      cases hfile : largeFile? lstat hit with
      | none => exact ih
      | some f =>
        obtain ⟨hpath, -⟩ := largeFile?_eq_some hfile
        rw [Option.isSome_some, if_pos rfl, List.map_cons, hpath, ih]

theorem isOnDisk_of_mem_resolveHits {hits : List Path} (h : f ∈ resolveHits c lstat hits) :
    f.IsOnDisk lstat := by
  obtain ⟨hit, -, hfile⟩ := List.mem_filterMap.1 h
  exact isOnDisk_of_largeFile? hfile

/-- What the index gives is cut from the hits that survive. -/
theorem cut_largeFilesOf (c : ScanConfig) (lstat : Path → Except SystemError Node) (hits : List Path) :
    TopN.Cut LargeFile.size c.maxLargeFiles.toNat (resolveHits c lstat hits) (largeFilesOf c lstat hits)
      (((resolveHits c lstat hits).mergeSort largerFirst).drop c.maxLargeFiles.toNat) :=
  TopN.cut_take _ (TopN.pairwise_mergeSort LargeFile.size _) (List.mergeSort_perm _ _)

end Hits

/-! ### What a scan takes -/

section Scan

variable {s : ScanSetup} {root : Path} {r : ScanResult}

/-- **A scan** takes all that the index gives, or all that was walked; apart from that the index changes
nothing. -/
theorem scan_of_index (hr : (scan s root).2 = .ok r) :
    ∃ walked, (scan { s with index := .absent } root).2 = .ok walked ∧
      r = { walked with
        largeFiles := if findLargeFiles s.config s.lstat s.index = [] then walked.largeFiles
          else findLargeFiles s.config s.lstat s.index } := by
  obtain ⟨entries, hlist, hstart, rfl⟩ := exists_list_of_scan hr
  have hwalked : { s with index := .absent }.list root = .ok entries := hlist
  refine ⟨_, congrArg Prod.snd (scan_eq_of_list hwalked hstart), ?_⟩
  by_cases hfound : findLargeFiles s.config s.lstat s.index = []
  · rw [if_pos hfound, scanResult, if_pos (List.isEmpty_iff.2 hfound)]
    rfl
  · rw [if_neg hfound, scanResult, if_neg (by simpa using hfound)]
    rfl

end Scan

/-- **An index selects as a tracker does.**  Of the hits that an index gives, those survive that lead to
something on disk other than a directory or a link, have a file name, no extension that is passed over, and
no component that is folded.  What is found is cut from them, sized on disk: the largest ones up to the
count that is set, in descending order, each as often as it was given.  A tracker of that capacity, to which
the same files are offered in any order, ends with the same sizes.  An index that fails finds nothing.  A
scan lists what was found in place of what it walked, if anything was, and else what it lists without an
index. -/
theorem index_selects_as_a_tracker (s : ScanSetup) :
    let found := findLargeFiles s.config s.lstat s.index
    (∀ e, s.index.query = .error e → found = []) ∧
    (∀ hits, s.index.query = .ok hits → ∃ survivors : List LargeFile,
      survivors.map LargeFile.path = hits.filter (s.config.survives s.lstat) ∧
      (∀ f ∈ survivors, f.IsOnDisk s.lstat) ∧
      (∃ rest, TopN.Cut LargeFile.size s.config.maxLargeFiles.toNat survivors found rest) ∧
      ∀ offered, offered ~ survivors →
        (TopN.largest LargeFile.size s.config.maxLargeFiles.toNat offered).map LargeFile.size
          = found.map LargeFile.size) ∧
    ∀ root r, (scan s root).2 = .ok r →
      ∃ walked, (scan { s with index := .absent } root).2 = .ok walked ∧
        r = { walked with largeFiles := if found = [] then walked.largeFiles else found } := by
  intro found
  refine ⟨fun e he => ?_, fun hits hhits => ?_, fun root r hr => scan_of_index hr⟩
  · show findLargeFiles s.config s.lstat s.index = []
    rw [findLargeFiles, he]
  · have hfound : found = largeFilesOf s.config s.lstat hits := by
      show findLargeFiles s.config s.lstat s.index = _
      rw [findLargeFiles, hhits]
    have hcut := cut_largeFilesOf s.config s.lstat hits
    rw [← hfound] at hcut
    refine ⟨resolveHits s.config s.lstat hits, map_path_resolveHits _ _ _,
      fun f hf => isOnDisk_of_mem_resolveHits hf, ⟨_, hcut⟩, fun offered hperm => ?_⟩
    rw [TopN.map_size_largest_of_perm _ hperm, TopN.map_size_largest, hcut.map_size]

/-- An index that gives a file twice, a directory, a text and what is gone, for two large files at most. -/
def twiceScan : ScanSetup where
  config := { ScanConfig.default ⟨none, 1⟩ with maxLargeFiles := 2 }
  tool _ := .error (.unavailable "du")
  reach _ := true
  late _ := false
  known := .none
  readsChild _ := true
  leadsToDir _ := false
  index := .hits [⟨"/r/film"⟩, ⟨"/r"⟩, ⟨"/r/song"⟩, ⟨"/r/notes.TXT"⟩, ⟨"/r/film"⟩, ⟨"/r/gone"⟩]
  lstat path :=
    if path.text = "/r" then .ok (.dir .free none [])
    else if path.text = "/r/film" then .ok (.file ⟨0, .fill 5000, none⟩)
    else if path.text = "/r/song" then .ok (.file ⟨1, .fill 40, none⟩)
    else if path.text = "/r/notes.TXT" then .ok (.file ⟨2, .fill 9000, none⟩)
    else .error (.code 2)
  list path := if path.text = "/r" then .ok [] else .error (.code 2)
  elapsed := .zero
  processors := 1
  startError? _ := none

/-- A file that is given twice is found twice. -/
theorem file_given_twice_is_found_twice :
    let found := findLargeFiles twiceScan.config twiceScan.lstat twiceScan.index
    (∃ survivors : List LargeFile, survivors.map LargeFile.path = [⟨"/r/film"⟩, ⟨"/r/song"⟩, ⟨"/r/film"⟩] ∧
      (∃ rest, TopN.Cut LargeFile.size 2 survivors found rest) ∧
      (TopN.largest LargeFile.size 2 survivors).map LargeFile.size = found.map LargeFile.size) ∧
    (∃ r, (scan twiceScan ⟨"/r"⟩).2 = .ok r ∧ found ≠ [] ∧ r.largeFiles = found) ∧
    findLargeFiles twiceScan.config twiceScan.lstat (.failing (.unavailable "index")) = [] := by
  intro found
  obtain ⟨-, hselects, hscan⟩ := index_selects_as_a_tracker twiceScan
  obtain ⟨survivors, hpaths, -, ⟨rest, hcut⟩, hsizes⟩ := hselects _ rfl
  have hgiven : survivors.map LargeFile.path = [⟨"/r/film"⟩, ⟨"/r/song"⟩, ⟨"/r/film"⟩] := by
    rw [hpaths]
    decide +kernel
  have hcount : found.length = 2 := by
    have hthree : survivors.length = 3 := by simpa using congrArg List.length hgiven
    exact hcut.length_kept.trans (hthree ▸ rfl)
  have hfound : found ≠ [] := List.ne_nil_of_length_pos (by omega)
  obtain ⟨r, hr⟩ := (scan_isOk_iff twiceScan ⟨"/r"⟩).2 ⟨[], rfl, by decide +kernel⟩
  obtain ⟨walked, -, hsame⟩ := hscan _ r hr
  have hfails := (index_selects_as_a_tracker
    { twiceScan with index := .failing (.unavailable "index") }).1 _ rfl
  refine ⟨⟨survivors, hgiven, ⟨rest, hcut⟩, hsizes survivors (List.Perm.refl _)⟩, ⟨r, hr, hfound, ?_⟩, hfails⟩
  rw [hsame]
  exact if_neg hfound

end DiskUsage
