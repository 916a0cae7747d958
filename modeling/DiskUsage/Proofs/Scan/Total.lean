import DiskUsage.Proofs.Entry.Largest
import DiskUsage.Proofs.Scan.Walked
import Mathlib.Algebra.BigOperators.Group.List.Basic

/-!
# The total of a scan

A scan finds for each child of its root what everything in that child counts for, and the total is the
sum over all children, as far as a 64-bit word can tell.

* `ListsShares`, `listsShares`: a child, however it is sized, is listed with what it counts for.
* `scan_counts_everything_once`: the total is the sum over everything below the root of what counts by
  itself, by the usage tool and by the cache, and the entries are the largest children.
* `overflowing_total_is_not_the_sum`: two sizes whose sum is too large for a word.
-/

open scoped List

namespace DiskUsage

variable {s : ChildSetup} {root : Path} {path : Path} {name : String}

/-- The children of a root. -/
def childrenOf (root : Path) (entries : List (String × Node)) : List Located :=
  entries.map fun e => ⟨root.child e.1, e.1, e.2⟩

@[simp] theorem childrenOf_cons (root : Path) (name : String) (node : Node)
    (entries : List (String × Node)) :
    childrenOf root ((name, node) :: entries)
      = ⟨root.child name, name, node⟩ :: childrenOf root entries := rfl

/-- The entry that a child of the root gets. -/
def listing? (s : ChildSetup) (root : Path) (c : Located) : Option DirEntry :=
  (sizeChild s c.path c.name c.node
    (s.config.classify (s.config.contextOf root) c.name c.path c.node.kind)).listed?

theorem listed_scanChildren (s : ChildSetup) (root : Path) (entries : List (String × Node)) :
    (scanChildren s root entries).filterMap SizedChild.listed?
      = (childrenOf root entries).filterMap (listing? s root) := by
  rw [scanChildren, childrenOf, List.filterMap_filterMap, List.filterMap_map]
  refine List.filterMap_congr fun e _ => ?_
  simp only [Function.comp_apply, listing?]
  split
  · next hkind => rw [hkind]; rfl
  · rfl

/-! ### What a child counts for -/

/-- A child that is no directory counts for itself, if it can be read. -/
theorem shares_child_of_isDir_eq_false {node : Node} (hdir : node.isDir = false) :
    shares s root (below [] path name node) = if s.readsChild path then node.actualSize else 0 := by
  rw [below_of_isDir_eq_false hdir]
  simp [Descendant.share, Descendant.isCounted, Descendant.isReadable, Descendant.bulk?,
    Descendant.answer?, Descendant.isReached, Descendant.child, Located.isLookedInto, Located.isDenied,
    Located.answer?, Located.isFolded, hdir]

/-- A directory that is not looked into counts for what the cache answers. -/
theorem shares_child_of_not_lookedInto {c : Located} (hdir : c.node.isDir = true)
    (hnot : c.isLookedInto s root = false) :
    shares s root (below [] c.path c.name c.node) = (c.answer? s root).getD 0 := by
  obtain ⟨path, name, node⟩ := c
  cases node with
  | dir mode accessed entries =>
    have hshut : Shut s root ([] ++ [⟨path, name, .dir mode accessed entries⟩]) :=
      .inr (.inl ⟨_, rfl, hnot⟩)
    rw [below, shares_cons, shares_eq_zero_of_shut hshut]
    simp [Descendant.share, Descendant.isCounted, Descendant.bulk?, Descendant.answer?,
      Descendant.isReached, Descendant.child, hnot]
  | _ => cases hdir

/-- A child that is walked counts for what the walk finds, if it can be listed. -/
theorem shares_child_of_walked (hlate : ∀ p, s.late p = false) {mode : DirMode}
    {accessed : Option Timestamp} {entries : List (String × Node)}
    (hlook : (⟨path, name, .dir mode accessed entries⟩ : Located).isLookedInto s root = true)
    (hfold : s.config.shouldFold name path = false) :
    if canList s.reach path mode then
      Number.wrap (shares s root (below [] path name (.dir mode accessed entries)))
        = Number.wrap ((walkEntries s.reach s.config path entries).whole s.toWalkSetup)
    else shares s root (below [] path name (.dir mode accessed entries)) = 0 := by
  have hnot : (⟨path, name, .dir mode accessed entries⟩ : Located).isFolded s.config = false :=
    hfold
  have hreached : (⟨[], path, name, .dir mode accessed entries⟩ : Descendant).isReached s root
      = true := hlook
  rw [below, shares_cons, share_of_isReached rfl hreached rfl, hnot, if_neg Bool.false_ne_true,
    Nat.zero_add]
  rcases entered_or_shut hreached with ⟨hcan, he⟩ | ⟨hcan, hzero⟩
  · rw [hcan, if_pos rfl]
    exact shares_belowEntries_plain hlate he (by simp [hnot]) path entries
  · rw [hcan, if_neg Bool.false_ne_true]
    exact hzero

theorem size?_dirSize {w : WalkSetup} {mode : DirMode} {accessed : Option Timestamp}
    {entries : List (String × Node)} (hfold : w.config.shouldFold name path = false) :
    (dirSize w path name (.dir mode accessed entries)).size?
      = if canList w.reach path mode then
          some (Number.wrap ((walkEntries w.reach w.config path entries).whole w))
        else none := by
  rw [dirSize_of_not_folded w hfold]
  split <;> rfl

/-! ### How a child is listed -/

/-- The path of an entry, and what a word keeps of its size. -/
def DirEntry.pathAndSize (e : DirEntry) : Path × Nat :=
  (e.path, Number.wrap e.size)

theorem pathAndSize_ofSubtree (name : String) (path : Path) (used : Option Timestamp)
    (x : SubtreeSized) :
    (SizedChild.ofSubtree name path used x).listed?.map DirEntry.pathAndSize
      = x.size?.map fun size => (path, Number.wrap size) := by
  unfold SizedChild.ofSubtree
  cases x.size? <;> rfl

/-- A child is listed with what everything in it counts for, or else nothing in it counts. -/
structure ListsShares (s : ChildSetup) (root : Path) (c : Located) : Prop where
  listed : c.isSized s root = true →
    (listing? s root c).map DirEntry.pathAndSize
      = some (c.path, Number.wrap (shares s root (below [] c.path c.name c.node)))
  unlisted : c.isSized s root = false →
    listing? s root c = none ∧ shares s root (below [] c.path c.name c.node) = 0

theorem ListsShares.of_isSized {c : Located} (h : c.isSized s root = true)
    (hlisted : (listing? s root c).map DirEntry.pathAndSize
      = some (c.path, Number.wrap (shares s root (below [] c.path c.name c.node)))) : ListsShares s root c :=
  ⟨fun _ => hlisted, fun hnot => absurd (h.symm.trans hnot) nofun⟩

/-- A child that is no directory is listed iff it can be read. -/
theorem listsShares_of_isDir_eq_false (path : Path) (name : String) {node : Node}
    (hdir : node.isDir = false) : ListsShares s root ⟨path, name, node⟩ := by
  have hsized : (⟨path, name, node⟩ : Located).isSized s root = s.readsChild path := by
    simp [Located.isSized, Located.isDenied, hdir]
  have hshares : shares s root (below [] path name node) = _ := shares_child_of_isDir_eq_false hdir
  cases hreads : s.readsChild path with
  | true =>
    rw [hreads, if_pos rfl] at hshares
    refine .of_isSized (hsized.trans hreads) ?_
    rw [hshares]
    cases node with
    | dir mode accessed entries => cases hdir
    | file data => simp [listing?, Node.kind, ScanConfig.classify, sizeChild, hreads, SizedChild.ofFile,
        DirEntry.pathAndSize, DirEntry.file]
    | link target data => simp [listing?, Node.kind, ScanConfig.classify, sizeChild, hreads,
        SizedChild.ofFile, DirEntry.pathAndSize, DirEntry.link]
    | special accessed => simp [listing?, Node.kind, ScanConfig.classify, sizeChild, hreads,
        SizedChild.ofFile, DirEntry.pathAndSize, DirEntry.file]
  | false =>
    rw [hreads, if_neg Bool.false_ne_true] at hshares
    refine ⟨fun h => absurd (hsized.symm.trans h) (by simp [hreads]), fun _ => ⟨?_, hshares⟩⟩
    cases node with
    | dir mode accessed entries => cases hdir
    | file data | link target data | special accessed =>
      simp [listing?, Node.kind, ScanConfig.classify, sizeChild, hreads, SizedChild.unreadable]

section Directory

variable {mode : DirMode} {accessed : Option Timestamp} {entries : List (String × Node)}

/-- A directory that is walked is listed iff it can be listed itself. -/
theorem listsShares_of_walked (hlate : ∀ p, s.late p = false)
    (hlook : (⟨path, name, .dir mode accessed entries⟩ : Located).isLookedInto s root = true)
    (hfold : s.config.shouldFold name path = false)
    (hlisting : listing? s root ⟨path, name, .dir mode accessed entries⟩
      = (SizedChild.ofSubtree name path (s.lastAccess path (.dir mode accessed entries))
          (dirSize s.toWalkSetup path name (.dir mode accessed entries))).listed?) :
    ListsShares s root ⟨path, name, .dir mode accessed entries⟩ := by
  obtain ⟨hdenied, hanswer⟩ := Bool.and_eq_true_iff.1 hlook
  have hsized : (⟨path, name, .dir mode accessed entries⟩ : Located).isSized s root
      = canList s.reach path mode := by
    rw [Located.isSized, hdenied, Option.isNone_iff_eq_none.1 hanswer]
    simp [Located.isFolded, Node.isDir, hfold, Located.isOpen]
  have hlisted := pathAndSize_ofSubtree name path (s.lastAccess path (.dir mode accessed entries))
    (dirSize s.toWalkSetup path name (.dir mode accessed entries))
  rw [← hlisting, size?_dirSize hfold] at hlisted
  have hshares := shares_child_of_walked hlate hlook hfold
  constructor
  · intro h
    rw [hsized] at h
    rw [h, if_pos rfl] at hlisted hshares
    rw [hlisted, hshares, Option.map_some, Number.wrap_wrap]
  · intro h
    rw [hsized] at h
    rw [h, if_neg Bool.false_ne_true] at hlisted hshares
    exact ⟨Option.map_eq_none_iff.1 hlisted, hshares⟩

/-- A child on the deny list is not listed. -/
theorem listsShares_of_denied
    (hden : s.config.isDenylisted name (s.config.contextOf root).isFileSystemRoot = true) :
    ListsShares s root ⟨path, name, .dir mode accessed entries⟩ := by
  have hdenied : (⟨path, name, .dir mode accessed entries⟩ : Located).isDenied s.config root
      = true := hden
  have hnot : (⟨path, name, .dir mode accessed entries⟩ : Located).isLookedInto s root
      = false := by simp [Located.isLookedInto, hdenied]
  have hsized : (⟨path, name, .dir mode accessed entries⟩ : Located).isSized s root = false := by
    simp [Located.isSized, hdenied]
  refine ⟨fun h => absurd (hsized.symm.trans h) nofun, fun _ => ⟨?_, ?_⟩⟩
  · simp [listing?, Node.kind, ScanConfig.classify, hden, sizeChild]
  · rw [shares_child_of_not_lookedInto rfl hnot]
    simp [Located.answer?, hdenied]

/-- What the cache answers for a child that is not on the deny list. -/
theorem answer?_of_allowed
    (hden : s.config.isDenylisted name (s.config.contextOf root).isFileSystemRoot = false) :
    (⟨path, name, .dir mode accessed entries⟩ : Located).answer? s root
      = if s.config.isHome root && name == s.config.cachedSubtreeName then
          s.known.subtreeSize? path
        else none := by
  have hdenied : (⟨path, name, .dir mode accessed entries⟩ : Located).isDenied s.config root
      = false := hden
  rw [Located.answer?, hdenied]
  rfl

/-- How a child that is not on the deny list is listed. -/
theorem listing?_of_allowed
    (hden : s.config.isDenylisted name (s.config.contextOf root).isFileSystemRoot = false) :
    listing? s root ⟨path, name, .dir mode accessed entries⟩
      = (sizeChild s path name (.dir mode accessed entries)
          (if s.config.isHome root && name == s.config.cachedSubtreeName then .cachedSubtree
          else if s.config.shouldFold name path then .foldedSubtree
          else .ordinarySubtree)).listed? := by
  simp only [listing?, Node.kind, ScanConfig.classify, hden, Bool.false_eq_true, if_false]
  rfl

/-- The cached subtree is listed with the size that the cache answers. -/
theorem listsShares_of_answered {size : Nat}
    (hden : s.config.isDenylisted name (s.config.contextOf root).isFileSystemRoot = false)
    (hsub : (s.config.isHome root && name == s.config.cachedSubtreeName) = true)
    (hknown : s.known.subtreeSize? path = some size) :
    ListsShares s root ⟨path, name, .dir mode accessed entries⟩ := by
  have hdenied : (⟨path, name, .dir mode accessed entries⟩ : Located).isDenied s.config root
      = false := hden
  have hanswer : (⟨path, name, .dir mode accessed entries⟩ : Located).answer? s root
      = some size := by rw [answer?_of_allowed hden, hsub, if_pos rfl, hknown]
  have hnot : (⟨path, name, .dir mode accessed entries⟩ : Located).isLookedInto s root
      = false := by simp [Located.isLookedInto, hanswer]
  refine .of_isSized (by simp [Located.isSized, Node.isDir, hdenied, hanswer]) ?_
  rw [shares_child_of_not_lookedInto rfl hnot, hanswer, listing?_of_allowed hden, hsub, if_pos rfl,
    sizeChild, hknown]
  rfl

/-- A child that is sized in bulk is listed with the size that this gives. -/
theorem listsShares_of_folded (hlate : ∀ p, s.late p = false)
    (hden : s.config.isDenylisted name (s.config.contextOf root).isFileSystemRoot = false)
    (hsub : (s.config.isHome root && name == s.config.cachedSubtreeName) = false)
    (hfold : s.config.shouldFold name path = true) :
    ListsShares s root ⟨path, name, .dir mode accessed entries⟩ := by
  have hdenied : (⟨path, name, .dir mode accessed entries⟩ : Located).isDenied s.config root
      = false := hden
  have hfolded : (⟨path, name, .dir mode accessed entries⟩ : Located).isFolded s.config
      = true := hfold
  have hanswer : (⟨path, name, .dir mode accessed entries⟩ : Located).answer? s root = none := by
    rw [answer?_of_allowed hden, hsub, if_neg Bool.false_ne_true]
  have hreached : (⟨[], path, name, .dir mode accessed entries⟩ : Descendant).isReached s root
      = true := by
    simp [Descendant.isReached, Descendant.child, Located.isLookedInto, hdenied, hanswer]
  refine .of_isSized (by simp [Located.isSized, Node.isDir, hdenied, hfolded]) ?_
  rw [listing?_of_allowed hden, hsub, if_neg Bool.false_ne_true, hfold, if_pos rfl, sizeChild,
    shares_below_folded hlate hreached rfl hfold]
  rfl

/-- **A child that is a directory**, in each of the ways it can be sized. -/
theorem listsShares_dir (hlate : ∀ p, s.late p = false)
    (hcached : s.config.isHome root = true → name = s.config.cachedSubtreeName →
      s.config.shouldFold name path = false) :
    ListsShares s root ⟨path, name, .dir mode accessed entries⟩ := by
  cases hden : s.config.isDenylisted name (s.config.contextOf root).isFileSystemRoot with
  | true => exact listsShares_of_denied hden
  | false =>
    have hdenied : (⟨path, name, .dir mode accessed entries⟩ : Located).isDenied s.config root
        = false := hden
    have hanswer : (⟨path, name, .dir mode accessed entries⟩ : Located).answer? s root = _ :=
      answer?_of_allowed hden
    have hlisting : listing? s root ⟨path, name, .dir mode accessed entries⟩ = _ :=
      listing?_of_allowed hden
    cases hsub : s.config.isHome root && name == s.config.cachedSubtreeName with
    | true =>
      obtain ⟨hhome, hname⟩ := Bool.and_eq_true_iff.1 hsub
      cases hknown : s.known.subtreeSize? path with
      | some size => exact listsShares_of_answered hden hsub hknown
      | none =>
        rw [hsub, if_pos rfl, hknown] at hanswer
        rw [hsub, if_pos rfl, sizeChild, hknown] at hlisting
        exact listsShares_of_walked hlate (by simp [Located.isLookedInto, hdenied, hanswer])
          (hcached hhome (eq_of_beq hname)) hlisting
    | false =>
      cases hfold : s.config.shouldFold name path with
      | true => exact listsShares_of_folded hlate hden hsub hfold
      | false =>
        rw [hsub, if_neg Bool.false_ne_true] at hanswer
        rw [hsub, if_neg Bool.false_ne_true, hfold, if_neg Bool.false_ne_true, sizeChild] at hlisting
        exact listsShares_of_walked hlate (by simp [Located.isLookedInto, hdenied, hanswer]) hfold
          hlisting

end Directory

/-! ### All children -/

theorem listsShares (hlate : ∀ p, s.late p = false)
    (hcached : s.config.isHome root = true →
      s.config.shouldFold s.config.cachedSubtreeName (root.child s.config.cachedSubtreeName) = false)
    (name : String) (node : Node) : ListsShares s root ⟨root.child name, name, node⟩ := by
  cases node with
  | dir mode accessed entries =>
    refine listsShares_dir hlate fun hhome hname => ?_
    rw [hname]
    exact hcached hhome
  | file data => exact listsShares_of_isDir_eq_false _ _ rfl
  | link target data => exact listsShares_of_isDir_eq_false _ _ rfl
  | special accessed => exact listsShares_of_isDir_eq_false _ _ rfl

/-- The entries are those of the children that are sized, each with what everything in it counts
for. -/
theorem map_pathAndSize_listing? {cs : List Located} (h : ∀ c ∈ cs, ListsShares s root c) :
    (cs.filterMap (listing? s root)).map DirEntry.pathAndSize
      = (cs.filter (Located.isSized s root)).map
          fun c => (c.path, Number.wrap (shares s root (below [] c.path c.name c.node))) := by
  induction cs with
  | nil => rfl
  | cons c cs ih =>
    have hc := h c (List.mem_cons_self ..)
    have hrest := ih fun d hd => h d (List.mem_cons_of_mem _ hd)
    cases hsized : c.isSized s root with
    | true =>
      obtain ⟨e, he, hpair⟩ := Option.map_eq_some_iff.1 (hc.listed hsized)
      rw [List.filterMap_cons_some he, List.filter_cons_of_pos hsized, List.map_cons, List.map_cons,
        hpair, hrest]
    | false =>
      rw [List.filterMap_cons_none (hc.unlisted hsized).1, List.filter_cons_of_neg (by simp [hsized]),
        hrest]

/-- What a scan is told is given in words: the sizes of the usage tool, those of the cache, and those of the
files in its root. -/
structure GivenInWords (s : ChildSetup) (entries : List (String × Node)) : Prop where
  tool : ∀ p size, s.tool p = .ok size → size < Number.wordCount
  known : ∀ p size, s.known.subtreeSize? p = some size → size < Number.wordCount
  files : ∀ e ∈ entries, e.2.isDir = false → e.2.actualSize < Number.wordCount

theorem size_dirSize_lt {w : WalkSetup} {node : Node} {size : Nat}
    (h : (dirSize w path name node).size? = some size) : size < Number.wordCount := by
  cases node with
  | dir mode accessed entries =>
    rw [dirSize] at h
    split at h
    · cases h
    · split at h
      · cases h
        decide
      · split at h
        · cases h
        · cases h
          exact Number.wrap_lt _
  | file data | link target data | special accessed => cases h

theorem size_foldedSize_lt {w : WalkSetup}
    (htool : ∀ p size, w.tool p = .ok size → size < Number.wordCount) (path : Path) (node : Node) :
    (foldedSize w path node).size < Number.wordCount := by
  unfold foldedSize
  cases hsize : positiveSize? (w.tool path) with
  | some size =>
    cases hanswer : w.tool path with
    | error e => simp [hanswer, positiveSize?] at hsize
    | ok told =>
      have htold : size = told := by
        simp [hanswer, positiveSize?] at hsize
        exact hsize.2.symm
      exact htold ▸ htool path told hanswer
  | none =>
    show (fastDirSize w.reach w.late path node).size < _
    unfold fastDirSize
    split
    · split
      · exact Number.wrap_lt _
      · decide
    · decide

/-- What is given in words is listed in words. -/
theorem GivenInWords.size_lt {entries : List (String × Node)} (h : GivenInWords s entries)
    {c : Located} (hc : c ∈ childrenOf root entries) {e : DirEntry} (he : listing? s root c = some e) :
    e.size < Number.wordCount := by
  obtain ⟨⟨name, node⟩, hmem, rfl⟩ := List.mem_map.1 hc
  cases node with
  | file data | link target data | special accessed =>
    have hword := h.files _ hmem rfl
    cases hreads : s.readsChild (root.child name) <;>
      simp [listing?, Node.kind, ScanConfig.classify, sizeChild, hreads, SizedChild.ofFile,
        SizedChild.unreadable] at he
    exact he ▸ hword
  | dir mode accessed inside =>
    have hsubtree : ∀ used, (SizedChild.ofSubtree name (root.child name) used
        (dirSize s.toWalkSetup (root.child name) name (.dir mode accessed inside))).listed? = some e →
          e.size < Number.wordCount := by
      intro used hlisted
      unfold SizedChild.ofSubtree at hlisted
      split at hlisted
      · next size hsize =>
        cases hlisted
        exact size_dirSize_lt hsize
      · cases hlisted
    simp only [listing?, Node.kind] at he
    rcases s.config.classify_dir_cases (s.config.contextOf root) name (root.child name)
      with hkind | hkind | ⟨hkind, -⟩ | ⟨hkind, -⟩ <;> rw [hkind, sizeChild] at he
    · cases he
    · cases hknown : s.known.subtreeSize? (root.child name) with
      | some size =>
        rw [hknown] at he
        cases he
        exact h.known _ size hknown
      | none =>
        rw [hknown] at he
        exact hsubtree _ he
    · cases he
      exact size_foldedSize_lt h.tool _ _
    · exact hsubtree _ he

/-- The children that are sized count for everything below the root. -/
theorem shares_belowEntries_nil (entries : List (String × Node))
    (h : ∀ c ∈ childrenOf root entries, ListsShares s root c) :
    shares s root (belowEntries [] root entries)
      = (((childrenOf root entries).filter (Located.isSized s root)).map
          fun c => shares s root (below [] c.path c.name c.node)).sum := by
  induction entries with
  | nil => rfl
  | cons e rest ih =>
    obtain ⟨name, node⟩ := e
    have hc := h ⟨root.child name, name, node⟩ (List.mem_cons_self ..)
    have hrest := ih fun d hd => h d (List.mem_cons_of_mem _ hd)
    rw [belowEntries, shares_append, hrest, childrenOf_cons]
    cases hsized : (⟨root.child name, name, node⟩ : Located).isSized s root with
    | true =>
      rw [List.filter_cons_of_pos hsized, List.map_cons, List.sum_cons]
    | false =>
      rw [List.filter_cons_of_neg (by simp [hsized]), (hc.unlisted hsized).2, Nat.zero_add]

/-- The total of the children is what everything below the root counts for, in a word. -/
theorem totalSize_scanChildren {entries : List (String × Node)}
    (h : ∀ c ∈ childrenOf root entries, ListsShares s root c) :
    totalSize (scanChildren s root entries)
      = Number.wrap (shares s root (belowEntries [] root entries)) := by
  have hsizes := congrArg (fun l => Number.wrap (l.map Prod.snd).sum) (map_pathAndSize_listing? h)
  rw [totalSize_eq, listed_scanChildren, shares_belowEntries_nil entries h, ← Number.wrap_sum_map_wrap,
    ← Number.wrap_sum_map_wrap (List.map (fun c => shares s root _) _)]
  simp only [List.map_map] at hsizes ⊢
  exact hsizes

/-- The entries of a result are the largest of the children that are listed. -/
theorem exists_cut_entries (s : ScanSetup) (root : Path) (entries : List (String × Node)) :
    ∃ cutOff, TopN.Cut DirEntry.size s.config.maxEntries.toNat
      ((childrenOf root entries).filterMap (listing? s.toChildSetup root))
      (scanResult s root (scanChildren s.toChildSetup root entries)).entries cutOff := by
  have hentries : (scanResult s root (scanChildren s.toChildSetup root entries)).entries
      = TopN.largest DirEntry.size s.config.maxEntries.toNat
          ((childrenOf root entries).filterMap (listing? s.toChildSetup root)) := by
    rw [← listed_scanChildren]
    rfl
  rw [hentries]
  exact TopN.cut_largest DirEntry.size _ _

/-- **A scan counts everything once.**  While no fast walk meets its deadline, and the cached subtree
is not one that is sized in bulk, the total is the sum, over everything below the root, of what counts
by itself, what the usage tool gives and what the cache answers.  The entries are the largest of the
children that are sized, each with its part of the sum, and the total is that of all of them, also of
those that are cut off.  All sums are kept in 64-bit words; an entry's size is one if the scan is given
words. -/
theorem scan_counts_everything_once (s : ScanSetup) (root : Path)
    (hlate : ∀ p, s.late p = false)
    (hcached : s.config.isHome root = true →
      s.config.shouldFold s.config.cachedSubtreeName (root.child s.config.cachedSubtreeName) = false)
    {r : ScanResult} (hr : (scan s root).2 = .ok r) :
    ∃ entries, s.list root = .ok entries ∧
      (let everything := belowEntries [] root entries
       r.totalSize = Number.wrap
        (((everything.filter (Descendant.isCounted s.toChildSetup root)).map
            fun d => d.here.node.actualSize).sum
          + (everything.filterMap (Descendant.bulk? s.toChildSetup root)).sum
          + (everything.filterMap (Descendant.answer? s.toChildSetup root)).sum)) ∧
      ∃ sized cutOff : List DirEntry,
        sized.map DirEntry.pathAndSize
          = ((childrenOf root entries).filter (Located.isSized s.toChildSetup root)).map
              (fun c => (c.path,
                Number.wrap (shares s.toChildSetup root (below [] c.path c.name c.node)))) ∧
        (GivenInWords s.toChildSetup entries → ∀ e ∈ sized, e.size < Number.wordCount) ∧
        TopN.Cut DirEntry.size s.config.maxEntries.toNat sized r.entries cutOff ∧
        r.totalSize = Number.wrap ((r.entries ++ cutOff).map DirEntry.size).sum := by
  obtain ⟨entries, hlist, -, rfl⟩ := exists_list_of_scan hr
  have hchildren : ∀ c ∈ childrenOf root entries, ListsShares s.toChildSetup root c := by
    intro c hc
    obtain ⟨e, -, rfl⟩ := List.mem_map.1 hc
    exact listsShares hlate hcached e.1 e.2
  have hmap := map_pathAndSize_listing? hchildren
  obtain ⟨cutOff, hcut⟩ := exists_cut_entries s root entries
  refine ⟨entries, hlist, ?_, _, cutOff, hmap, ?_, hcut, ?_⟩
  · intro everything
    exact (totalSize_scanChildren hchildren).trans
      (congrArg Number.wrap (shares_eq s.toChildSetup root everything))
  · intro hwords e he
    obtain ⟨c, hc, hlisting⟩ := List.mem_filterMap.1 he
    exact hwords.size_lt hc hlisting
  · have hperm := (hcut.perm.map DirEntry.size).sum_eq
    show totalSize _ = _
    rw [totalSize_eq, listed_scanChildren, hperm]

/-- A home directory with its cached subtree, a directory that the usage tool sizes and another one
that it does not, one that is left out, one that cannot be listed, and a link. -/
def sampleEntries : List (String × Node) :=
  let file (bytes : Nat) : Node := .file ⟨0, .fill bytes, none⟩
  [("Library", .dir .free none [("data", file 10)]),
    (".Trashes", .dir .free none [("old", file 20)]),
    ("node_modules", .dir .free none [("a", file 30)]),
    ("src", .dir .free none [
      ("main", file 40),
      (".git", .dir .free none [("pack", file 50), ("node_modules", .dir .free none [("b", file 60)])]),
      ("locked", .dir ⟨false, true⟩ none [("secret", file 70)])]),
    ("link", .link ⟨"/etc"⟩ ⟨0, none⟩),
    ("note", file 5)]

/-- A scan of that directory which keeps two entries. -/
def sampleScan : ScanSetup where
  config := { ScanConfig.default ⟨some (.text ⟨"/h"⟩), 1⟩ with maxEntries := 2 }
  tool path := if path.text = "/h/node_modules" then .ok 300 else .error (.unavailable "du")
  reach _ := true
  late _ := false
  known := ⟨fun _ => none, fun path => if path.text = "/h/Library" then some 1000 else none⟩
  readsChild _ := true
  leadsToDir _ := false
  index := .absent
  lstat _ := .error (.code 2)
  list path := if path.text = "/h" then .ok sampleEntries else .error (.code 2)
  elapsed := .zero
  processors := 1
  startError? _ := none

theorem sample_scan_counts_everything_once :
    (∀ p, sampleScan.late p = false) ∧
      (sampleScan.config.isHome ⟨"/h"⟩ = true ∧
        sampleScan.config.shouldFold "Library" (Path.child ⟨"/h"⟩ "Library") = false) ∧
      ∃ r, (scan sampleScan ⟨"/h"⟩).2 = .ok r ∧ r.entries.map DirEntry.size = [1000, 300] ∧
        r.totalSize = 1455 ∧
        ∃ entries, sampleScan.list ⟨"/h"⟩ = .ok entries ∧
          (let everything := belowEntries [] ⟨"/h"⟩ entries
           r.totalSize = Number.wrap
            (((everything.filter (Descendant.isCounted sampleScan.toChildSetup ⟨"/h"⟩)).map
                fun d => d.here.node.actualSize).sum
              + (everything.filterMap (Descendant.bulk? sampleScan.toChildSetup ⟨"/h"⟩)).sum
              + (everything.filterMap (Descendant.answer? sampleScan.toChildSetup ⟨"/h"⟩)).sum)) := by
  have hfold : sampleScan.config.shouldFold "Library" (Path.child ⟨"/h"⟩ "Library") = false := by
    decide +kernel
  refine ⟨fun _ => rfl, ⟨by decide +kernel, hfold⟩, _, rfl, by decide +kernel, by decide +kernel, ?_⟩
  obtain ⟨entries, hlist, htotal, -⟩ :=
    scan_counts_everything_once sampleScan ⟨"/h"⟩ (fun _ => rfl) (fun _ => hfold) rfl
  exact ⟨entries, hlist, htotal⟩

/-- Two directories that are sized in bulk. -/
def hugeEntries : List (String × Node) :=
  [("node_modules", .dir .free none []), (".venv", .dir .free none [])]

/-- A scan in which the usage tool gives them the largest size that there is. -/
def hugeScan : ScanSetup :=
  { sampleScan with
    tool := fun _ => .ok Number.maxWord
    list := fun _ => .ok hugeEntries }

/-- **A sum that is too large**: both directories are listed with their size, and the total is not the sum
of what counts. -/
theorem overflowing_total_is_not_the_sum :
    (∀ p, hugeScan.late p = false) ∧ hugeScan.config.isHome ⟨"/p"⟩ = false ∧
      hugeScan.list ⟨"/p"⟩ = .ok hugeEntries ∧
      ∃ r, (scan hugeScan ⟨"/p"⟩).2 = .ok r ∧
        r.entries.map DirEntry.size = [18446744073709551615, 18446744073709551615] ∧
        r.totalSize = 18446744073709551614 ∧
        let everything := belowEntries [] ⟨"/p"⟩ hugeEntries
        everything.filterMap (Descendant.bulk? hugeScan.toChildSetup ⟨"/p"⟩)
          = [18446744073709551615, 18446744073709551615] ∧
        r.totalSize
          ≠ ((everything.filter (Descendant.isCounted hugeScan.toChildSetup ⟨"/p"⟩)).map
              fun d => d.here.node.actualSize).sum
            + (everything.filterMap (Descendant.bulk? hugeScan.toChildSetup ⟨"/p"⟩)).sum
            + (everything.filterMap (Descendant.answer? hugeScan.toChildSetup ⟨"/p"⟩)).sum := by
  refine ⟨fun _ => rfl, by decide +kernel, rfl, _, rfl, by decide +kernel, by decide +kernel, ?_⟩
  intro everything
  exact ⟨by decide +kernel, by decide +kernel⟩

end DiskUsage
