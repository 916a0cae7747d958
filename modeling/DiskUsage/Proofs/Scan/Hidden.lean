import DiskUsage.Proofs.Scan.Alike
import DiskUsage.Proofs.Scan.Candidates

/-!
# What a scan does not see

Two scans with one configuration and one cache look at trees that differ only where a scan does not look:
below a child that is left out, below the cached subtree that the cache answers for, below a directory
that the usage tool sizes, and behind links.  They end with the same result, up to which of several
things of one size is kept.

* `AlikeChild`: children that a scan does not tell apart; `AlikeChild.same`: they are sized alike.
* `Counters.after_perm`: the counters do not depend on the order in which things happen.
* `scan_does_not_see_what_is_hidden`: so both scans end alike.
* `nested_directory_is_seen`: below a directory that the usage tool does not size everything counts, and so
  does the text of a link.
-/

open scoped List

namespace DiskUsage

/-- Two choices of the largest of the same items, which differ at most in which of several items of one
size they keep. -/
def TopN.Alternatives {α : Type} (size : α → Nat) (k : Nat) (a b : List α) : Prop :=
  ∃ items restA restB, TopN.Cut size k items a restA ∧ TopN.Cut size k items b restB

/-- Children of this name that a scan does not tell apart. -/
inductive AlikeChild (s s' : ChildSetup) (root : Path) (name : String) : Node → Node → Prop
  /-- It does not matter where a link leads, but whether it leads to a directory. -/
  | leaf {node node' : Node} (h : Leaf node node') (haccessed : node.accessed = node'.accessed)
      (hleads : node.isLink = true → s.leadsToDir (root.child name) = s'.leadsToDir (root.child name)) :
      AlikeChild s s' root name node node'
  | denied {mode mode' : DirMode} {accessed accessed' : Option Timestamp}
      {entries entries' : List (String × Node)}
      (hden : s.config.isDenylisted name (s.config.contextOf root).isFileSystemRoot = true) :
      AlikeChild s s' root name (.dir mode accessed entries) (.dir mode' accessed' entries')
  /-- The cached subtree, if the cache answers for it, or if it would be sized in bulk elsewhere. -/
  | cached {mode mode' : DirMode} {accessed : Option Timestamp} {entries entries' : List (String × Node)}
      (hreach : s.reach (root.child name) = s'.reach (root.child name))
      (hsub : (s.config.isHome root && name == s.config.cachedSubtreeName) = true)
      (h : (s.known.subtreeSize? (root.child name)).isSome = true
        ∨ s.config.shouldFold name (root.child name) = true) :
      AlikeChild s s' root name (.dir mode accessed entries) (.dir mode' accessed entries')
  | dir {mode mode' : DirMode} {accessed : Option Timestamp} {entries entries' : List (String × Node)}
      (h : Alike s.toWalkSetup s'.toWalkSetup (root.child name) name
        (.dir mode accessed entries) (.dir mode' accessed entries')) :
      AlikeChild s s' root name (.dir mode accessed entries) (.dir mode' accessed entries')

/-- Entries of a root with the same names and children under them that a scan does not tell apart, in any
order. -/
def AlikeChildren (s s' : ChildSetup) (root : Path) (entries entries' : List (String × Node)) : Prop :=
  ∃ listed, listed ~ entries' ∧
    List.Forall₂ (fun e e' => e.1 = e'.1 ∧ AlikeChild s s' root e.1 e.2 e'.2) entries listed

/-! ### Sizing a child -/

/-- The same entry or none, and the same large files. -/
structure SizedChild.Same (a b : SizedChild) : Prop where
  trace : a.trace ~ b.trace
  listed? : a.listed? = b.listed?
  large : a.large ~ b.large

variable {s s' : ChildSetup} {root path : Path} {name : String}

theorem SizedChild.Same.refl (a : SizedChild) : SizedChild.Same a a :=
  ⟨.refl _, rfl, .refl _⟩

theorem Sized.Same.ofSize {a b : Sized} (h : Sized.Same a b) (name : String) (path : Path)
    (used : Option Timestamp) :
    SizedChild.Same (.ofSize name path used a) (.ofSize name path used b) where
  trace := h.trace.append_right [Event.dir]
  listed? := by rw [SizedChild.ofSize, SizedChild.ofSize, h.size]
  large := .refl _

theorem SubtreeSized.Same.ofSubtree {a b : SubtreeSized} (h : SubtreeSized.Same a b) (name : String)
    (path : Path) (used : Option Timestamp) :
    SizedChild.Same (.ofSubtree name path used a) (.ofSubtree name path used b) := by
  unfold SizedChild.ofSubtree
  rw [← h.size?]
  cases a.size? with
  | none => exact ⟨h.trace, rfl, h.large⟩
  | some size => exact ⟨h.trace.append_right [Event.dir], rfl, h.large⟩

/-- What sizing a child of the root gives. -/
def sizedChild (s : ChildSetup) (root : Path) (c : Located) : SizedChild :=
  sizeChild s c.path c.name c.node
    (s.config.classify (s.config.contextOf root) c.name c.path c.node.kind)

theorem sizeChild_plainFile_congr {node node' : Node} (hconfig : s'.config = s.config)
    (hreads : s'.readsChild = s.readsChild) (hsize : node.actualSize = node'.actualSize)
    (haccessed : node.accessed = node'.accessed) :
    sizeChild s path name node .plainFile = sizeChild s' path name node' .plainFile := by
  rw [sizeChild, sizeChild, SizedChild.ofFile, SizedChild.ofFile, hsize, haccessed, hconfig, hreads]

theorem sizeChild_link_congr {node node' : Node} (hreads : s'.readsChild = s.readsChild)
    (hsize : node.actualSize = node'.actualSize) (haccessed : node.accessed = node'.accessed)
    (hleads : s.leadsToDir path = s'.leadsToDir path) :
    sizeChild s path name node .link = sizeChild s' path name node' .link := by
  rw [sizeChild, sizeChild, SizedChild.ofFile, SizedChild.ofFile, hsize, haccessed, hleads, hreads]

/-- **Directories** are sized alike if they are in the way in which a scan sizes them. -/
theorem sizedChild_dir_same (hconfig : s'.config = s.config) (hknown : s'.known = s.known)
    (hreads : s'.readsChild = s.readsChild) {mode mode' : DirMode} {accessed accessed' : Option Timestamp}
    {entries entries' : List (String × Node)}
    (haccessed : s.config.isDenylisted name (s.config.contextOf root).isFileSystemRoot = false →
      accessed = accessed')
    (hcached : (s.config.isHome root && name == s.config.cachedSubtreeName) = true →
      s.known.subtreeSize? path = none →
      SubtreeSized.Same (dirSize s.toWalkSetup path name (.dir mode accessed entries))
        (dirSize s'.toWalkSetup path name (.dir mode' accessed' entries')))
    (hfolded : (s.config.isHome root && name == s.config.cachedSubtreeName) = false →
      s.config.shouldFold name path = true →
      Sized.Same (foldedSize s.toWalkSetup path (.dir mode accessed entries))
        (foldedSize s'.toWalkSetup path (.dir mode' accessed' entries')))
    (hordinary : (s.config.isHome root && name == s.config.cachedSubtreeName) = false →
      s.config.shouldFold name path = false →
      SubtreeSized.Same (dirSize s.toWalkSetup path name (.dir mode accessed entries))
        (dirSize s'.toWalkSetup path name (.dir mode' accessed' entries'))) :
    SizedChild.Same (sizedChild s root ⟨path, name, .dir mode accessed entries⟩)
      (sizedChild s' root ⟨path, name, .dir mode' accessed' entries'⟩) := by
  simp only [sizedChild, Node.kind, ScanConfig.classify, hconfig]
  cases hden : s.config.isDenylisted name (s.config.contextOf root).isFileSystemRoot with
  | true => exact .refl _
  | false =>
    have hused : s'.lastAccess path (.dir mode' accessed' entries')
        = s.lastAccess path (.dir mode accessed entries) := by
      rw [ChildSetup.lastAccess, ChildSetup.lastAccess, hreads, haccessed hden]
      rfl
    have hhome : (s.config.contextOf root).isHome = s.config.isHome root := rfl
    rw [if_neg Bool.false_ne_true, hhome]
    cases hsub : s.config.isHome root && name == s.config.cachedSubtreeName with
    | true =>
      rw [if_pos rfl, sizeChild, sizeChild, hknown, hused]
      cases hanswer : s.known.subtreeSize? path with
      | some size => exact .refl _
      | none => exact (hcached hsub hanswer).ofSubtree name path _
    | false =>
      rw [if_neg Bool.false_ne_true]
      cases hfold : s.config.shouldFold name path with
      | true =>
        rw [if_pos rfl, sizeChild, sizeChild, hused]
        exact (hfolded hsub hfold).ofSize name path _
      | false =>
        rw [if_neg Bool.false_ne_true, sizeChild, sizeChild, hused]
        exact (hordinary hsub hfold).ofSubtree name path _

/-- **Children that a scan does not tell apart** are sized alike. -/
theorem AlikeChild.same (hconfig : s'.config = s.config) (hlate : s'.late = s.late)
    (hknown : s'.known = s.known) (hreads : s'.readsChild = s.readsChild) {node node' : Node}
    (h : AlikeChild s s' root name node node') :
    SizedChild.Same (sizedChild s root ⟨root.child name, name, node⟩)
      (sizedChild s' root ⟨root.child name, name, node'⟩) := by
  cases h with
  | leaf h haccessed hleads =>
    have heq : sizedChild s root ⟨root.child name, name, node⟩
        = sizedChild s' root ⟨root.child name, name, node'⟩ := by
      cases h with
      | file h => exact sizeChild_plainFile_congr hconfig hreads (congrArg Content.actualSize h) haccessed
      | link h => exact sizeChild_link_congr hreads h haccessed (hleads rfl)
      | special => exact sizeChild_plainFile_congr hconfig hreads rfl haccessed
    rw [heq]
    exact .refl _
  | denied hden =>
    simp only [sizedChild, Node.kind, ScanConfig.classify, hconfig, hden]
    exact .refl _
  | cached hreach hsub h =>
    refine sizedChild_dir_same hconfig hknown hreads (fun _ => rfl) (fun _ hanswer => ?_)
      (fun hnot => absurd (hnot.symm.trans hsub) Bool.false_ne_true)
      (fun hnot => absurd (hnot.symm.trans hsub) Bool.false_ne_true)
    have hfold : s.config.shouldFold name (root.child name) = true := by
      rcases h with h | h
      · rw [hanswer] at h
        cases h
      · exact h
    rw [dirSize_of_shouldFold hfold, dirSize_of_shouldFold (hconfig ▸ hfold), hreach]
    exact .refl _
  | dir h =>
    exact sizedChild_dir_same hconfig hknown hreads (fun _ => rfl) (fun _ _ => h.dirSize hconfig hlate rfl)
      (fun _ hfold => h.foldedSize hlate rfl hfold) (fun _ _ => h.dirSize hconfig hlate rfl)

/-! ### All children -/

/-- **All children** together are sized alike. -/
theorem AlikeChildren.same (hconfig : s'.config = s.config) (hlate : s'.late = s.late)
    (hknown : s'.known = s.known) (hreads : s'.readsChild = s.readsChild)
    {entries entries' : List (String × Node)} (h : AlikeChildren s s' root entries entries') :
    childrenTrace (scanChildren s root entries) ~ childrenTrace (scanChildren s' root entries') ∧
      (scanChildren s root entries).filterMap SizedChild.listed?
        ~ (scanChildren s' root entries').filterMap SizedChild.listed? ∧
      (scanChildren s root entries).flatMap SizedChild.large
        ~ (scanChildren s' root entries').flatMap SizedChild.large := by
  obtain ⟨listed, hperm, hsame⟩ := h
  have hchildren : childrenOf root listed ~ childrenOf root entries' := hperm.map _
  rw [childrenTrace_scanChildren, childrenTrace_scanChildren, listed_scanChildren, listed_scanChildren,
    large_scanChildren, large_scanChildren]
  suffices hlisted : (childrenOf root entries).flatMap (happening s root)
        ~ (childrenOf root listed).flatMap (happening s' root) ∧
      (childrenOf root entries).filterMap (listing? s root)
        = (childrenOf root listed).filterMap (listing? s' root) ∧
      (childrenOf root entries).flatMap (offered s root)
        ~ (childrenOf root listed).flatMap (offered s' root) by
    obtain ⟨htrace, hlisting, hlarge⟩ := hlisted
    refine ⟨htrace.trans (hchildren.flatMap_right _), ?_, hlarge.trans (hchildren.flatMap_right _)⟩
    rw [hlisting]
    exact hchildren.filterMap _
  clear hperm hchildren
  induction hsame with
  | nil => exact ⟨.refl _, rfl, .refl _⟩
  | @cons e e' rest rest' hboth _ ih =>
    obtain ⟨name, node⟩ := e
    obtain ⟨_, node'⟩ := e'
    obtain ⟨rfl, halike⟩ := hboth
    have hchild := halike.same hconfig hlate hknown hreads
    have hlisting : listing? s root ⟨root.child name, name, node⟩
        = listing? s' root ⟨root.child name, name, node'⟩ := hchild.listed?
    refine ⟨hchild.trace.append ih.1, ?_, hchild.large.append ih.2.2⟩
    rw [childrenOf_cons, childrenOf_cons, List.filterMap_cons, List.filterMap_cons, hlisting, ih.2.1]

/-- The largest items of a list in another order. -/
theorem TopN.alternatives_of_perm {α : Type} (size : α → Nat) (k : Nat) {xs ys : List α} (h : xs ~ ys) :
    TopN.Alternatives size k (TopN.largest size k xs) (TopN.largest size k ys) := by
  obtain ⟨restA, hA⟩ := TopN.cut_largest size k xs
  obtain ⟨restB, hB⟩ := TopN.cut_largest size k ys
  exact ⟨xs, restA, restB, hA, hB.perm.trans h.symm, h.length_eq ▸ hB.length_kept, hB.le_of_mem,
    hB.sorted⟩

/-- **A scan does not see what is hidden.**  Two scans whose trees differ only below children that are left
out, below the cached subtree that the cache answers for, below directories that the usage tool sizes
equally and that are not inside other ones sized in bulk, and in where links lead, end alike: with the
same total and the same counts, and with the same entries and large files, up to which of several of one
size are kept.  The same was recorded in the counters, in whatever order.  What both come to is within
reach of both or of neither, the links themselves take the same space, and all workers can be started. -/
theorem scan_does_not_see_what_is_hidden (s s' : ScanSetup) (root : Path)
    (hconfig : s'.config = s.config) (hlate : s'.late = s.late) (hknown : s'.known = s.known)
    (hreads : s'.readsChild = s.readsChild) (hindex : s.index = .absent) (hindex' : s'.index = .absent)
    {entries entries' : List (String × Node)} (hlist : s.list root = .ok entries)
    (hlist' : s'.list root = .ok entries') (hstart : s.startFailure? entries.length = none)
    (hstart' : s'.startFailure? entries'.length = none)
    (h : AlikeChildren s.toChildSetup s'.toChildSetup root entries entries') :
    ∃ r r', (scan s root).2 = .ok r ∧ (scan s' root).2 = .ok r' ∧
      TopN.Alternatives DirEntry.size s.config.maxEntries.toNat r.entries r'.entries ∧
      TopN.Alternatives LargeFile.size s.config.maxLargeFiles.toNat r.largeFiles r'.largeFiles ∧
      r.totalSize = r'.totalSize ∧ r.filesScanned = r'.filesScanned ∧ r.dirsScanned = r'.dirsScanned ∧
      ∀ happened happened', happened ~ (scan s root).1 → happened' ~ (scan s' root).1 →
        Counters.zero.after happened = Counters.zero.after happened' := by
  obtain ⟨htrace, hlisted, hlarge⟩ := h.same hconfig hlate hknown hreads
  have hcounters := Counters.after_perm htrace .zero
  have hscan := scan_eq_of_list hlist hstart
  have hscan' := scan_eq_of_list hlist' hstart'
  have hlargeFiles : (scanResult s root (scanChildren s.toChildSetup root entries)).largeFiles
      = walkedLargeFiles s.config (scanChildren s.toChildSetup root entries) := by
    rw [scanResult, hindex]
    rfl
  have hlargeFiles' : (scanResult s' root (scanChildren s'.toChildSetup root entries')).largeFiles
      = walkedLargeFiles s'.config (scanChildren s'.toChildSetup root entries') := by
    rw [scanResult, hindex']
    rfl
  refine ⟨_, _, congrArg Prod.snd hscan, congrArg Prod.snd hscan', ?_, ?_, ?_, ?_, ?_, ?_⟩
  · rw [scanResult, scanResult, largestEntries, largestEntries, hconfig]
    exact TopN.alternatives_of_perm _ _ hlisted
  · rw [hlargeFiles, hlargeFiles', walkedLargeFiles, walkedLargeFiles, hconfig]
    exact TopN.alternatives_of_perm _ _ hlarge
  · show totalSize _ = totalSize _
    rw [totalSize_eq, totalSize_eq, (hlisted.map DirEntry.size).sum_eq]
  · exact congrArg (fun c => c.files.toNat) hcounters
  · exact congrArg (fun c => c.dirs.toNat) hcounters
  · intro happened happened' hperm hperm'
    rw [hscan] at hperm
    rw [hscan'] at hperm'
    exact (Counters.after_perm hperm _).trans (hcounters.trans (Counters.after_perm hperm' _).symm)

/-- The sample directory, listed in another order, with other things in what a scan does not look into and
another target of the link. -/
def otherEntries : List (String × Node) :=
  let file (bytes : Nat) : Node := .file ⟨0, .fill bytes, none⟩
  [("note", file 5),
    ("Library", .dir .free none []),
    (".Trashes", .dir ⟨false, true⟩ none [("older", file 21)]),
    ("node_modules", .dir ⟨false, true⟩ none [("c", file 31), ("d", file 32)]),
    ("src", .dir .free none [
      ("main", file 40),
      (".git", .dir .free none [("pack", file 50), ("node_modules", .dir .free none [("b", file 60)])]),
      ("locked", .dir ⟨false, true⟩ none [("secret", file 70)])]),
    ("link", .link ⟨"/var/log"⟩ ⟨0, none⟩)]

/-- A scan of that directory, where the usage tool fails for another reason. -/
def otherScan : ScanSetup :=
  { sampleScan with
    tool := fun path => if path.text = "/h/node_modules" then .ok 300 else .error (.notFound path)
    list := fun path => if path.text = "/h" then .ok otherEntries else .error (.code 2) }

theorem sample_and_other_scan_end_alike :
    AlikeChildren sampleScan.toChildSetup otherScan.toChildSetup ⟨"/h"⟩ sampleEntries otherEntries ∧
      ∃ r r', (scan sampleScan ⟨"/h"⟩).2 = .ok r ∧ (scan otherScan ⟨"/h"⟩).2 = .ok r' ∧
        r.totalSize = 1455 ∧ TopN.Alternatives DirEntry.size 2 r.entries r'.entries ∧
        r.totalSize = r'.totalSize ∧ r.filesScanned = r'.filesScanned ∧
        r.dirsScanned = r'.dirsScanned := by
  have htool : ∀ path, positiveSize? (sampleScan.tool path) = positiveSize? (otherScan.tool path) := by
    intro path
    show positiveSize? (if _ then _ else _) = positiveSize? (if _ then _ else _)
    split <;> rfl
  have hsize : positiveSize? (sampleScan.tool (Path.child ⟨"/h"⟩ "node_modules")) = some 300 := by
    decide +kernel
  have hsize' : positiveSize? (otherScan.tool (Path.child ⟨"/h"⟩ "node_modules")) = some 300 := by
    decide +kernel
  have hlist : sampleScan.list ⟨"/h"⟩ = .ok sampleEntries := rfl
  have hlist' : otherScan.list ⟨"/h"⟩ = .ok otherEntries := rfl
  have hreach : otherScan.reach = sampleScan.reach := rfl
  have hstart : sampleScan.startFailure? sampleEntries.length = none := by decide +kernel
  have hstart' : otherScan.startFailure? otherEntries.length = none := by decide +kernel
  have halike : AlikeChildren sampleScan.toChildSetup otherScan.toChildSetup ⟨"/h"⟩ sampleEntries
      otherEntries := by
    refine ⟨otherEntries.drop 1 ++ otherEntries.take 1, ?_, ?_⟩
    · exact List.perm_append_comm.trans (by rw [List.take_append_drop])
    · refine .cons ⟨rfl, .cached rfl (by decide +kernel) (.inl (by decide +kernel))⟩ ?_
      refine .cons ⟨rfl, .denied (by decide +kernel)⟩ ?_
      refine .cons ⟨rfl, .dir (.sized rfl (by decide +kernel) hsize hsize')⟩ ?_
      refine .cons ⟨rfl, .dir (.refl hreach htool _ _ _)⟩ ?_
      refine .cons ⟨rfl, .leaf (.link (by decide +kernel)) rfl fun _ => rfl⟩ ?_
      exact .cons ⟨rfl, .leaf (.refl rfl) rfl nofun⟩ .nil
  obtain ⟨r, r', hr, hr', hentries, -, htotal, hfiles, hdirs, -⟩ :=
    scan_does_not_see_what_is_hidden sampleScan otherScan ⟨"/h"⟩ rfl rfl rfl rfl rfl rfl hlist hlist'
      hstart hstart' halike
  refine ⟨halike, r, r', hr, hr', ?_, hentries, htotal, hfiles, hdirs⟩
  obtain ⟨r'', hr'', hsize⟩ : ∃ r'', (scan sampleScan ⟨"/h"⟩).2 = .ok r'' ∧ r''.totalSize = 1455 :=
    ⟨_, rfl, by decide +kernel⟩
  rwa [Except.ok.inj (hr.symm.trans hr'')]

/-- A scan of a directory with a file of so many bytes in a directory sized in bulk that lies in another
one.  The usage tool knows only the size of the inner one. -/
def nestedScan (bytes : Nat) : ScanSetup :=
  { sampleScan with
    tool := fun path =>
      if path.text = "/d/node_modules/lib/node_modules" then .ok 300 else .error (.unavailable "du")
    list := fun _ => .ok [("node_modules", .dir .free none [
      ("lib", .dir .free none [("node_modules", .dir .free none [("a", .file ⟨0, .fill bytes, none⟩)])])])] }

/-- A scan of a directory with a link, whose text has so many letters and takes a unit of disk. -/
def linkScan (letters : Nat) : ScanSetup :=
  { sampleScan with
    list := fun _ => .ok [("link", .link ⟨String.ofList (List.replicate letters 'x')⟩ ⟨1, none⟩)] }

/-- **Below a directory that the usage tool does not size** everything counts, also what is in a directory
that it would size: nobody asks it.  And a link counts as itself, so with the space that its text takes. -/
theorem nested_directory_is_seen :
    (sampleScan.config.shouldFold "node_modules" ⟨"/d/node_modules/lib/node_modules"⟩ = true ∧
      ∀ bytes, (nestedScan bytes).tool ⟨"/d/node_modules/lib/node_modules"⟩ = .ok 300) ∧
    (∃ r r', (scan (nestedScan 10) ⟨"/d"⟩).2 = .ok r ∧ (scan (nestedScan 20) ⟨"/d"⟩).2 = .ok r' ∧
      (r.totalSize, r'.totalSize) = (10, 20)) ∧
    ∃ r r', (scan (linkScan 60) ⟨"/d"⟩).2 = .ok r ∧ (scan (linkScan 150) ⟨"/d"⟩).2 = .ok r' ∧
      (r.totalSize, r'.totalSize) = (60, 150) := by
  refine ⟨⟨by decide +kernel, fun _ => rfl⟩, ⟨_, _, rfl, rfl, by decide +kernel⟩, ?_⟩
  exact ⟨_, _, rfl, rfl, by decide +kernel⟩

end DiskUsage
