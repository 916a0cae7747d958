import DiskUsage.Proofs.Scan.Candidates
import DiskUsage.Proofs.Scan.Recorded

/-!
# Children that cannot be listed

A directory in the root may be one that cannot be listed, and of which neither the cache nor the usage
tool knows the size.  It never adds to the total.  Where it would be walked it gets no entry, and the scan
goes on as if it were not there.  Where it is sized in bulk it is taken for an empty directory: it gets an
entry of size zero, and is counted.

* `Located.IsUnsized`: such a child; `Located.isTakenForEmpty`: the ways in which it is taken for empty.
* `sizeChild_of_unsized`: what comes of it, for each way in which a child is sized.
* `listing?_of_unsized`, `offered_of_unsized`, `count_of_unsized`: its entry, its files and its counts.
* `unlistable_child_adds_nothing`: a scan with it, against one without.
* `unlistable_folded_child_is_listed`: the entry of a directory that is taken for empty.
-/

namespace DiskUsage

/-- A directory that cannot be listed, and whose size is known neither to the cache nor to the usage
tool. -/
structure Located.IsUnsized (s : ChildSetup) (c : Located) : Prop where
  isDir : c.node.isDir = true
  shut : c.isOpen s.reach = false
  unknown : s.known.subtreeSize? c.path = none
  untold : c.bulk? s.toWalkSetup = none

/-- A directory in the root that cannot be listed is taken for an empty one: it is sized in bulk, or it is
the cached subtree, has a name that is sized in bulk, and can be reached. -/
def Located.isTakenForEmpty (s : ChildSetup) (root : Path) (d : Located) : Bool :=
  match s.config.classify (s.config.contextOf root) d.name d.path d.node.kind with
  | .foldedSubtree => true
  | .cachedSubtree => s.config.shouldFold d.name d.path && s.reach d.path
  | _ => false

/-- The entry of an empty directory. -/
def emptyEntry (s : ChildSetup) (d : Located) : DirEntry :=
  (DirEntry.directory d.name d.path 0).withLastAccess (s.lastAccess d.path d.node)

variable {s : ChildSetup} {root : Path} {c : Located}

/-! ### One child -/

theorem kind_of_isDir {node : Node} (h : node.isDir = true) : node.kind = .dir := by
  cases node <;> first | rfl | cases h

/-- Nothing is found below a directory that cannot be listed. -/
theorem fastDirSize_of_shut {late : Path → Bool} (h : c.isOpen s.reach = false) :
    fastDirSize s.reach late c.path c.node = .empty := by
  obtain ⟨path, name, node⟩ := c
  cases node with
  | dir mode accessed entries =>
    have hshut : canList s.reach path mode = false := h
    rw [fastDirSize, hshut, Bool.false_and, if_neg Bool.false_ne_true]
  | _ => rfl

/-- A directory that cannot be listed has no size, unless it is one that no walk goes into. -/
theorem dirSize_of_shut {w : WalkSetup} (hdir : c.node.isDir = true) (h : c.isOpen w.reach = false) :
    dirSize w c.path c.name c.node
      = if w.config.shouldFold c.name c.path && w.reach c.path then ⟨[], some 0, []⟩
        else ⟨[.error], none, []⟩ := by
  obtain ⟨path, name, node⟩ := c
  cases node with
  | dir mode accessed entries =>
    have hshut : canList w.reach path mode = false := h
    cases hfold : w.config.shouldFold name path with
    | true =>
      rw [dirSize, hfold]
      cases w.reach path <;> rfl
    | false =>
      rw [dirSize_of_not_folded w hfold, hshut]
      rfl
  | _ => cases hdir

/-- **What comes of such a child**, in each of the ways it may be sized: it is listed as an empty directory,
or nothing but an error is recorded for it. -/
theorem sizeChild_of_unsized (h : c.IsUnsized s) (root : Path) :
    let sized := sizeChild s c.path c.name c.node
      (s.config.classify (s.config.contextOf root) c.name c.path c.node.kind)
    (c.isTakenForEmpty s root = true ∧
      ∃ calls, (calls = [] ∨ calls = [.asked c.path]) ∧
        sized = ⟨calls ++ [.dir], some (emptyEntry s c), []⟩) ∨
    (c.isTakenForEmpty s root = false ∧
      ∃ errors, (errors = [] ∨ errors = [.error]) ∧ sized = ⟨errors, none, []⟩) := by
  intro sized
  have hdir : c.node.kind = .dir := kind_of_isDir h.isDir
  have hwalked : dirSize s.toWalkSetup c.path c.name c.node = _ := dirSize_of_shut h.isDir h.shut
  unfold Located.isTakenForEmpty
  rcases s.config.classify_dir_cases (s.config.contextOf root) c.name c.path with
    hkind | hkind | ⟨hkind, hfold⟩ | ⟨hkind, hfold⟩
  · rw [hdir, hkind]
    exact .inr ⟨rfl, [], .inl rfl, by simp only [sized, hdir, hkind, sizeChild]⟩
  · have hsized : sized = .ofSubtree c.name c.path (s.lastAccess c.path c.node)
        (dirSize s.toWalkSetup c.path c.name c.node) := by
      simp only [sized, hdir, hkind, sizeChild, h.unknown]
    rw [hdir, hkind, hsized, hwalked]
    cases s.config.shouldFold c.name c.path && s.reach c.path with
    | true => exact .inl ⟨rfl, [], .inl rfl, rfl⟩
    | false => exact .inr ⟨rfl, [.error], .inr rfl, rfl⟩
  · have hsized : sized
        = .ofSize c.name c.path (s.lastAccess c.path c.node) ⟨[.asked c.path], 0⟩ := by
      have htool : positiveSize? (s.tool c.path) = none := h.untold
      simp only [sized, hdir, hkind, sizeChild, foldedSize, htool, fastDirSize_of_shut h.shut]
      rfl
    rw [hdir, hkind, hsized]
    exact .inl ⟨rfl, [.asked c.path], .inr rfl, rfl⟩
  · have hsized : sized = .ofSubtree c.name c.path (s.lastAccess c.path c.node)
        (dirSize s.toWalkSetup c.path c.name c.node) := by
      simp only [sized, hdir, hkind, sizeChild]
    rw [hdir, hkind, hsized, hwalked, hfold]
    exact .inr ⟨rfl, [.error], .inr rfl, rfl⟩

theorem listing?_of_unsized (h : c.IsUnsized s) (root : Path) :
    listing? s root c
      = if c.isTakenForEmpty s root then some (emptyEntry s c)
        else none := by
  unfold listing?
  rcases sizeChild_of_unsized h root with ⟨htaken, _, -, hsized⟩ | ⟨htaken, _, -, hsized⟩
  · rw [hsized, htaken]
    rfl
  · rw [hsized, htaken]
    rfl

theorem offered_of_unsized (h : c.IsUnsized s) (root : Path) : offered s root c = [] := by
  unfold offered
  rcases sizeChild_of_unsized h root with ⟨-, _, -, hsized⟩ | ⟨-, _, -, hsized⟩
  · rw [hsized]
  · rw [hsized]

theorem count_of_unsized (h : c.IsUnsized s) (root : Path) (isDir : Bool) :
    (happening s root c).count isDir
      = if isDir && c.isTakenForEmpty s root then 1 else 0 := by
  unfold happening
  rcases sizeChild_of_unsized h root with ⟨htaken, calls, hcalls, hsized⟩ | ⟨htaken, errors, herrors, hsized⟩
  · rw [hsized, htaken]
    rcases hcalls with rfl | rfl
    · cases isDir <;> rfl
    · cases isDir <;> rfl
  · rw [hsized, htaken]
    rcases herrors with rfl | rfl
    · cases isDir <;> rfl
    · cases isDir <;> rfl

/-! ### The scan -/

/-- A result tells what was counted while its children were sized. -/
theorem scanned_scanResult (s : ScanSetup) (root : Path) (children : List SizedChild) :
    (scanResult s root children).filesScanned
        = (UInt64.ofNat ((childrenTrace children).count false)).toNat ∧
      (scanResult s root children).dirsScanned
        = (UInt64.ofNat ((childrenTrace children).count true)).toNat := by
  obtain ⟨hfiles, hdirs, -⟩ := Counters.after_eq .zero (childrenTrace children)
  have hzero : Counters.zero.files = 0 ∧ Counters.zero.dirs = 0 := ⟨rfl, rfl⟩
  rw [hzero.1, UInt64.zero_add] at hfiles
  rw [hzero.2, UInt64.zero_add] at hdirs
  exact ⟨congrArg UInt64.toNat hfiles, congrArg UInt64.toNat hdirs⟩

/-- A root that cannot be listed has no result, and else only one for which a worker cannot be started. -/
theorem scan_fails_iff (s : ScanSetup) (root : Path) :
    (∃ e, (scan s root).2 = .error e)
      ↔ (∃ e, s.list root = .error e)
        ∨ ∃ entries e, s.list root = .ok entries ∧ s.startFailure? entries.length = some e := by
  unfold scan
  cases s.list root with
  | error e => simp
  | ok entries => cases hstart : s.startFailure? entries.length <;> simp [hstart]

section Insert

variable {before after : List (String × Node)} {name : String} {node : Node}

theorem childrenOf_append (root : Path) (xs ys : List (String × Node)) :
    childrenOf root (xs ++ ys) = childrenOf root xs ++ childrenOf root ys :=
  List.map_append

theorem scanChildren_append (s : ChildSetup) (root : Path) (xs ys : List (String × Node)) :
    scanChildren s root (xs ++ ys) = scanChildren s root xs ++ scanChildren s root ys :=
  List.filterMap_append

/-- The entries are those of the others, with an empty directory if the child is taken for one. -/
theorem listed_insert_unsized (h : (⟨root.child name, name, node⟩ : Located).IsUnsized s) :
    (scanChildren s root (before ++ (name, node) :: after)).filterMap SizedChild.listed?
      = (scanChildren s root before).filterMap SizedChild.listed?
        ++ ((if (⟨root.child name, name, node⟩ : Located).isTakenForEmpty s root then
              [emptyEntry s ⟨root.child name, name, node⟩] else [])
          ++ (scanChildren s root after).filterMap SizedChild.listed?) := by
  simp only [listed_scanChildren]
  rw [childrenOf_append, childrenOf_cons, List.filterMap_append, List.filterMap_cons,
    listing?_of_unsized h root]
  cases (⟨root.child name, name, node⟩ : Located).isTakenForEmpty s root with
  | true => rfl
  | false => rfl

/-- **The total** is that of the others. -/
theorem totalSize_insert_unsized (h : (⟨root.child name, name, node⟩ : Located).IsUnsized s) :
    totalSize (scanChildren s root (before ++ (name, node) :: after))
      = totalSize (scanChildren s root (before ++ after)) := by
  have hzero : (emptyEntry s ⟨root.child name, name, node⟩).size = 0 := rfl
  rw [totalSize_eq, totalSize_eq, listed_insert_unsized h, scanChildren_append, List.filterMap_append]
  split <;> simp [hzero]

theorem large_insert_unsized (h : (⟨root.child name, name, node⟩ : Located).IsUnsized s) :
    (scanChildren s root (before ++ (name, node) :: after)).flatMap SizedChild.large
      = (scanChildren s root (before ++ after)).flatMap SizedChild.large := by
  rw [large_scanChildren, large_scanChildren, childrenOf_append, childrenOf_append, childrenOf_cons,
    List.flatMap_append, List.flatMap_append, List.flatMap_cons, offered_of_unsized h root,
    List.nil_append]

/-- What is counted is that of the others, with one directory if the child is taken for an empty one. -/
theorem count_insert_unsized (h : (⟨root.child name, name, node⟩ : Located).IsUnsized s)
    (isDir : Bool) :
    (childrenTrace (scanChildren s root (before ++ (name, node) :: after))).count isDir
      = (childrenTrace (scanChildren s root (before ++ after))).count isDir
        + if isDir && (⟨root.child name, name, node⟩ : Located).isTakenForEmpty s root then 1
          else 0 := by
  rw [childrenTrace_scanChildren, childrenTrace_scanChildren, childrenOf_append, childrenOf_append,
    childrenOf_cons, List.flatMap_append, List.flatMap_append, List.flatMap_cons, Trace.count_append,
    Trace.count_append, Trace.count_append, count_of_unsized h root isDir]
  omega

/-- **A child that cannot be listed**, and whose size is known neither to the cache nor to the usage tool,
adds nothing to the total, whichever way it is sized, and offers no large files.  Where it is not sized in
bulk the scan is as one without it.  Where it is, it has an entry of size zero, which may be cut off, and
is one more directory.  A scan fails if its root cannot be listed, and else only if one of its workers
cannot be started. -/
theorem unlistable_child_adds_nothing (s : ScanSetup) (root : Path)
    (hlist : s.list root = .ok (before ++ (name, node) :: after))
    (h : (⟨root.child name, name, node⟩ : Located).IsUnsized s.toChildSetup)
    (hstart : s.startFailure? (before ++ (name, node) :: after).length = none)
    (hstart' : s.startFailure? (before ++ after).length = none) :
    (∀ path, (∃ e, (scan s path).2 = .error e)
      ↔ (∃ e, s.list path = .error e)
        ∨ ∃ entries e, s.list path = .ok entries ∧ s.startFailure? entries.length = some e) ∧
      let child : Located := ⟨root.child name, name, node⟩
      let without : ScanSetup := { s with list := fun _ => .ok (before ++ after) }
      ∃ r others, (scan s root).2 = .ok r ∧ (scan without root).2 = .ok others ∧
        r.totalSize = others.totalSize ∧ r.largeFiles = others.largeFiles ∧
        r.filesScanned = others.filesScanned ∧
        (child.isTakenForEmpty s.toChildSetup root = false →
          r.entries = others.entries ∧ r.dirsScanned = others.dirsScanned) ∧
        (child.isTakenForEmpty s.toChildSetup root = true →
          (∃ cutOff, TopN.Cut DirEntry.size s.config.maxEntries.toNat
              ((scanChildren s.toChildSetup root (before ++ (name, node) :: after)).filterMap
                SizedChild.listed?) r.entries cutOff ∧
            emptyEntry s.toChildSetup child ∈ r.entries ++ cutOff) ∧
          r.dirsScanned = (others.dirsScanned + 1) % UInt64.size) := by
  refine ⟨scan_fails_iff s, ?_⟩
  intro child without
  have hchild : child.IsUnsized s.toChildSetup := h
  obtain ⟨hfiles, hdirs⟩ := scanned_scanResult s root
    (scanChildren s.toChildSetup root (before ++ (name, node) :: after))
  obtain ⟨hfiles', hdirs'⟩ := scanned_scanResult without root
    (scanChildren s.toChildSetup root (before ++ after))
  rw [count_insert_unsized h] at hfiles hdirs
  refine ⟨_, _, congrArg Prod.snd (scan_eq_of_list hlist hstart),
    congrArg Prod.snd (scan_eq_of_list (s := without) rfl hstart'), totalSize_insert_unsized h,
    ?_, ?_, ?_, ?_⟩
  · show (if _ then TopN.largest LargeFile.size _ _ else _) = _
    rw [large_insert_unsized h]
    rfl
  · rw [hfiles]
    exact hfiles'.symm
  · intro hnot
    rw [hnot] at hdirs
    refine ⟨?_, hdirs.trans hdirs'.symm⟩
    show TopN.largest DirEntry.size _ _ = TopN.largest DirEntry.size _ _
    rw [listed_insert_unsized h, hnot, scanChildren_append, List.filterMap_append]
    rfl
  · intro htaken
    rw [htaken] at hdirs
    obtain ⟨cutOff, hcut⟩ := TopN.cut_largest DirEntry.size s.config.maxEntries.toNat
      ((scanChildren s.toChildSetup root (before ++ (name, node) :: after)).filterMap
        SizedChild.listed?)
    refine ⟨⟨cutOff, hcut, hcut.perm.mem_iff.2 ?_⟩, ?_⟩
    · rw [listed_insert_unsized h, htaken, if_pos rfl]
      exact List.mem_append_right _ (List.mem_append_left _ (List.mem_singleton.2 rfl))
    · rw [hdirs, hdirs']
      simp

end Insert

/-- A directory with a file in it that cannot be listed. -/
def lockedDir : Node :=
  .dir ⟨false, true⟩ none [("a", .file ⟨0, .fill 40, none⟩)]

/-- A directory with two that cannot be listed, one of which is sized in bulk, and a file. -/
def lockedEntries : List (String × Node) :=
  [("src", lockedDir), ("node_modules", lockedDir), ("note", .file ⟨1, .fill 5, none⟩)]

/-- A scan of that directory, where no size is known. -/
def lockedScan : ScanSetup where
  config := .default ⟨none, 1⟩
  tool _ := .error (.unavailable "du")
  reach _ := true
  late _ := false
  known := .none
  readsChild _ := true
  leadsToDir _ := false
  index := .absent
  lstat _ := .error (.code 2)
  list path := if path.text = "/r" then .ok lockedEntries else .error (.code 2)
  elapsed := .zero
  processors := 1
  startError? _ := none

theorem locked_source_is_left_out :
    lockedScan.list ⟨"/r"⟩ = .ok (("src", lockedDir) :: lockedEntries.tail) ∧
      (⟨Path.child ⟨"/r"⟩ "src", "src", lockedDir⟩ : Located).IsUnsized lockedScan.toChildSetup ∧
      ∃ r others, (scan lockedScan ⟨"/r"⟩).2 = .ok r ∧
        (scan { lockedScan with list := fun _ => .ok lockedEntries.tail } ⟨"/r"⟩).2 = .ok others ∧
        r.totalSize = others.totalSize ∧ r.entries = others.entries ∧
        r.dirsScanned = others.dirsScanned := by
  have hlist : lockedScan.list ⟨"/r"⟩ = .ok ([] ++ ("src", lockedDir) :: lockedEntries.tail) := rfl
  have hunsized : (⟨Path.child ⟨"/r"⟩ "src", "src", lockedDir⟩ : Located).IsUnsized
      lockedScan.toChildSetup := ⟨rfl, rfl, rfl, rfl⟩
  have hstart : lockedScan.startFailure? lockedEntries.length = none := by decide +kernel
  have hstart' : lockedScan.startFailure? lockedEntries.tail.length = none := by decide +kernel
  obtain ⟨-, r, others, hr, hothers, htotal, -, -, hout, -⟩ :=
    unlistable_child_adds_nothing lockedScan ⟨"/r"⟩ hlist hunsized hstart hstart'
  obtain ⟨hentries, hdirs⟩ := hout (by decide +kernel)
  exact ⟨hlist, hunsized, r, others, hr, hothers, htotal, hentries, hdirs⟩

/-- **A directory that is sized in bulk** has an entry and is counted, although it cannot be listed and
nothing tells its size; the other directory that cannot be listed has no entry.  And where no worker can be
started, the scan fails although its root can be listed. -/
theorem unlistable_folded_child_is_listed :
    (⟨⟨"/r/node_modules"⟩, "node_modules", lockedDir⟩ : Located).IsUnsized lockedScan.toChildSetup ∧
      ∃ r, (scan lockedScan ⟨"/r"⟩).2 = .ok r ∧
        r.entries = [.file "note" ⟨"/r/note"⟩ 5 none, .directory "node_modules" ⟨"/r/node_modules"⟩ 0] ∧
        r.dirsScanned = 1 ∧
        ∃ e, (scan { lockedScan with startError? := fun _ => some (.code 11) } ⟨"/r"⟩).2 = .error e :=
  ⟨⟨rfl, rfl, rfl, rfl⟩, _, rfl, by decide +kernel, by decide +kernel, _, rfl⟩

end DiskUsage
