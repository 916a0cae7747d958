import DiskUsage.Proofs.Scan.Alike
import DiskUsage.Proofs.Scan.DrillDown
import DiskUsage.Proofs.Scan.Overview

/-!
# Three routes to the size of a directory

A child of a root that is a directory is sized in bulk, file by file, or, if it is the cached subtree that
the cache does not know, file by file as well.  In bulk without a usage tool means the fast walk; file by
file means a walk that leaves further directories to be sized in bulk.  Where everything can be read, and
neither the tool nor the cache knows a size, all of them add up the same bytes, with one exception: a walk
does not look into a directory that it would leave to be sized in bulk, not even where it starts.

* `size_fastWalk_of_readable`: the fast walk adds up everything that is no directory.
* `sizeInWalk_of_readable`: so does a walk, with the directories that it leaves to be sized in bulk.
* `routeSize?_folded`, `routeSize?_walked`: what each route gives.
* `routes_agree_on_the_size`: the entry of a child has the size of a walk that leaves out nothing, whichever
  way the child is sized, unless it is a cached subtree that would be sized in bulk elsewhere.
-/

open scoped List

namespace DiskUsage

variable {path root : Path} {name : String} {node : Node} {mode : DirMode} {accessed : Option Timestamp}
  {entries inside : List (String × Node)}

theorem canList_of_isReadable {reach : Path → Bool} {above : List Located}
    (hread : ∀ d ∈ below above path name (.dir mode accessed entries), d.here.isReadable reach = true) :
    canList reach path mode = true :=
  hread _ (self_mem_below above path name _)

/-! ### The fast walk -/

section FastWalk

variable {reach late : Path → Bool}

mutual
/-- **The fast walk** adds up everything that is no directory. -/
theorem size_fastWalk_of_readable (hlate : ∀ p, late p = false) (above : List Located) (path : Path)
    (name : String) (node : Node) (hread : ∀ d ∈ below above path name node, d.here.isReadable reach = true) :
    (fastWalk reach late path node).size = filesSize (below above path name node) := by
  cases hdir : node.isDir with
  | false =>
    have hreach := reach_of_isReadable (hread _ (self_mem_below above path name node)) hdir
    rw [fastWalk_of_isDir_eq_false hdir, size_fastWalkFile, if_pos hreach,
      filesSize_below_of_isDir_eq_false hdir]
  | true =>
    cases node with
    | dir mode accessed entries =>
      have hopen := canList_of_isReadable hread
      rw [below] at hread ⊢
      rw [fastWalk, Sized.size_after, hopen, hlate, Bool.not_false, Bool.and_true, if_pos rfl,
        filesSize_cons_of_isDir rfl]
      exact size_fastWalkEntries_of_readable hlate _ path entries
        fun d hd => hread d (List.mem_cons_of_mem _ hd)
    | _ => cases hdir

theorem size_fastWalkEntries_of_readable (hlate : ∀ p, late p = false) (above : List Located) (dir : Path)
    (entries : List (String × Node))
    (hread : ∀ d ∈ belowEntries above dir entries, d.here.isReadable reach = true) :
    (fastWalkEntries reach late dir entries).size = filesSize (belowEntries above dir entries) := by
  cases entries with
  | nil => rfl
  | cons e rest =>
    obtain ⟨name, node⟩ := e
    rw [belowEntries] at hread ⊢
    rw [fastWalkEntries, Sized.size_append, filesSize_append,
      size_fastWalk_of_readable hlate above _ name node fun d hd => hread d (List.mem_append_left _ hd),
      size_fastWalkEntries_of_readable hlate above dir rest
        fun d hd => hread d (List.mem_append_right _ hd)]
end

end FastWalk

/-- A directory that the usage tool gives no size has that of the fast walk, a word. -/
theorem size_foldedSize_of_readable {w : WalkSetup} (hlate : ∀ p, w.late p = false)
    (hquiet : positiveSize? (w.tool path) = none) {above : List Located}
    (hread : ∀ d ∈ below above path name (.dir mode accessed entries), d.here.isReadable w.reach = true) :
    (foldedSize w path (.dir mode accessed entries)).size
      = Number.wrap (filesSize (below above path name (.dir mode accessed entries))) := by
  have hopen := canList_of_isReadable hread
  rw [below] at hread ⊢
  rw [foldedSize, hquiet, filesSize_cons_of_isDir rfl]
  dsimp only
  rw [Sized.size_after, fastDirSize, hopen, hlate, Bool.not_false, Bool.and_true, if_pos rfl,
    Sized.size_word]
  exact congrArg Number.wrap (size_fastWalkEntries_of_readable hlate _ path entries
    fun d hd => hread d (List.mem_cons_of_mem _ hd))

/-! ### The walk -/

mutual
/-- **A walk** adds up everything that is no directory, with the directories that it leaves to be sized in
bulk, wherever it comes across them, as far as a word can tell. -/
theorem sizeInWalk_of_readable {w : WalkSetup} (hlate : ∀ p, w.late p = false)
    (hquiet : ∀ p, positiveSize? (w.tool p) = none) (above : List Located) (path : Path) (name : String)
    (node : Node) (hread : ∀ d ∈ below above path name node, d.here.isReadable w.reach = true) :
    Number.wrap (sizeInWalk w ⟨path, name, node⟩)
      = Number.wrap (filesSize (below above path name node)) := by
  cases hdir : node.isDir with
  | false =>
    have hreach := reach_of_isReadable (hread _ (self_mem_below above path name node)) hdir
    rw [sizeInWalk, walk_of_isDir_eq_false hdir, whole_walkFile, if_pos hreach,
      filesSize_below_of_isDir_eq_false hdir]
  | true =>
    cases node with
    | dir mode accessed entries =>
      cases hfold : w.config.shouldFold name path with
      | true =>
        rw [sizeInWalk_of_folded hfold, size_foldedSize_of_readable hlate (hquiet path) hread,
          Number.wrap_wrap]
      | false =>
        have hopen := canList_of_isReadable hread
        rw [below] at hread ⊢
        rw [sizeInWalk_of_not_folded hfold, size?_dirSize hfold, hopen, if_pos rfl, Option.getD_some,
          filesSize_cons_of_isDir rfl]
        exact whole_walkEntries_of_readable hlate hquiet _ path entries
          fun d hd => hread d (List.mem_cons_of_mem _ hd)
    | _ => cases hdir

theorem whole_walkEntries_of_readable {w : WalkSetup} (hlate : ∀ p, w.late p = false)
    (hquiet : ∀ p, positiveSize? (w.tool p) = none) (above : List Located) (dir : Path)
    (entries : List (String × Node))
    (hread : ∀ d ∈ belowEntries above dir entries, d.here.isReadable w.reach = true) :
    Number.wrap ((walkEntries w.reach w.config dir entries).whole w)
      = Number.wrap (filesSize (belowEntries above dir entries)) := by
  cases entries with
  | nil => rfl
  | cons e rest =>
    obtain ⟨name, node⟩ := e
    rw [belowEntries] at hread ⊢
    have hnode := sizeInWalk_of_readable hlate hquiet above (dir.child name) name node
      fun d hd => hread d (List.mem_append_left _ hd)
    have hrest := whole_walkEntries_of_readable hlate hquiet above dir rest
      fun d hd => hread d (List.mem_append_right _ hd)
    rw [walkEntries, Walked.whole_append, filesSize_append]
    exact Number.wrap_add_congr hnode hrest
end

/-! ### The routes -/

section Route

variable {s : ChildSetup}

/-- The size that a child is listed with when it is sized in a given way. -/
def routeSize? (s : ChildSetup) (path : Path) (name : String) (node : Node) (kind : ChildKind) :
    Option Nat :=
  (sizeChild s path name node kind).listed?.map DirEntry.size

theorem size_ofSubtree (name : String) (path : Path) (used : Option Timestamp) (x : SubtreeSized) :
    (SizedChild.ofSubtree name path used x).listed?.map DirEntry.size = x.size? := by
  unfold SizedChild.ofSubtree
  cases x.size? <;> rfl

/-- In bulk a directory has the size of everything in it, in a word, whether it would be folded or not. -/
theorem routeSize?_folded (hlate : ∀ p, s.late p = false)
    (hquiet : ∀ p, positiveSize? (s.tool p) = none)
    (hread : ∀ d ∈ below [] path name (.dir mode accessed inside), d.here.isReadable s.reach = true) :
    routeSize? s path name (.dir mode accessed inside) .foldedSubtree
      = some (Number.wrap (filesSize (below [] path name (.dir mode accessed inside)))) := by
  rw [← size_foldedSize_of_readable (w := s.toWalkSetup) hlate (hquiet path) hread]
  rfl

/-- File by file it has that size, too, unless it would be folded: then it is not looked into. -/
theorem size_dirSize_of_readable {w : WalkSetup} (hlate : ∀ p, w.late p = false)
    (hquiet : ∀ p, positiveSize? (w.tool p) = none)
    (hread : ∀ d ∈ below [] path name (.dir mode accessed inside), d.here.isReadable w.reach = true) :
    (dirSize w path name (.dir mode accessed inside)).size?
      = some (if w.config.shouldFold name path then 0
          else Number.wrap (filesSize (below [] path name (.dir mode accessed inside)))) := by
  have hopen := canList_of_isReadable hread
  cases hfold : w.config.shouldFold name path with
  | true =>
    rw [dirSize_of_shouldFold hfold, if_pos (Bool.and_eq_true_iff.1 hopen).2]
    rfl
  | false =>
    have hwalk := sizeInWalk_of_readable hlate hquiet [] path name _ hread
    rw [← hwalk, sizeInWalk_of_not_folded hfold, size?_dirSize hfold, hopen]
    rfl

theorem routeSize?_walked (hlate : ∀ p, s.late p = false)
    (hquiet : ∀ p, positiveSize? (s.tool p) = none) (hunknown : s.known.subtreeSize? path = none)
    (hread : ∀ d ∈ below [] path name (.dir mode accessed inside), d.here.isReadable s.reach = true)
    {kind : ChildKind} (hkind : kind = .ordinarySubtree ∨ kind = .cachedSubtree) :
    routeSize? s path name (.dir mode accessed inside) kind
      = some (if s.config.shouldFold name path then 0
          else Number.wrap (filesSize (below [] path name (.dir mode accessed inside)))) := by
  rw [← size_dirSize_of_readable (w := s.toWalkSetup) hlate hquiet hread, routeSize?]
  rcases hkind with rfl | rfl
  · rw [sizeChild, size_ofSubtree]
  · rw [sizeChild, hunknown]
    exact size_ofSubtree ..

end Route

/-! ### In a scan -/

/-- Where everything can be read, a walk that leaves out nothing adds up everything that is no
directory. -/
theorem walkSizeExcluding_of_child {fs : FileSystem} {cwd : List String}
    (hlist : fs.list cwd root = .ok entries) (hsearch : fs.isSearchable cwd root = true)
    (hname : FileSystem.IsEntryName name)
    (hentry : Node.childNamed? name entries = some (.dir mode accessed inside))
    (hread : ∀ d ∈ below [] (root.child name) name (.dir mode accessed inside),
      d.here.isReadable (fs.isReadable cwd) = true) :
    walkSizeExcluding (fs.lstat cwd) (fs.stat cwd) (root.child name) none
      = Number.wrap (filesSize (below [] (root.child name) name (.dir mode accessed inside))) := by
  have hfits := FileSystem.fits_of_isReadable (Bool.and_eq_true_iff.1 (canList_of_isReadable hread)).2
  have hlstat := FileSystem.lstat_child hlist hsearch hname hfits hentry
  have hkept : isExcluded none (root.child name) = false := rfl
  rw [walkSizeExcluding, rootSizeExcluding, hkept, if_neg Bool.false_ne_true, hlstat]
  exact congrArg Number.wrap
    (sizeExcluding_of_readable [] (root.child name) name _ hread fun _ _ => rfl)

/-- **All routes to a size agree.**  For a child of the root that is a directory below which everything can
be read, where neither the tool nor the cache knows a size, no fast walk meets its deadline and the workers
can be started: a walk that leaves out nothing adds up everything below it that is no directory, in a word.
The child has that size in a scan, whichever way it is sized, if it is not left out; its entry may be cut
off.  Only a cached subtree that would be sized in bulk elsewhere is taken for empty, because a walk does
not look into it. -/
theorem routes_agree_on_the_size (s : Scanner) (w : Surroundings)
    (hlate : ∀ p, Scanner.isLate s.config w p = false) (hlist : w.fs.list w.cwd root = .ok entries)
    (hsearch : w.fs.isSearchable w.cwd root = true)
    (hstart : (s.scanSetup w root).startFailure? entries.length = none)
    (hnames : ∀ e ∈ entries, FileSystem.IsEntryName e.1) (hdistinct : (entries.map Prod.fst).Nodup)
    (hchild : (name, .dir mode accessed inside) ∈ entries)
    (hread : ∀ d ∈ below [] (root.child name) name (.dir mode accessed inside),
      d.here.isReadable (w.fs.isReadable w.cwd) = true)
    (hsilent : ∀ p size, w.tool p = .ok size → size = 0)
    (hunknown : ∀ p, (s.known w.now).fresh p = none ∧ (s.known w.now).persisted p = none) :
    let kind := s.config.classify (s.config.contextOf root) name (root.child name) .dir
    let size := Number.wrap (filesSize (below [] (root.child name) name (.dir mode accessed inside)))
    walkSizeExcluding (w.fs.lstat w.cwd) (w.fs.stat w.cwd) (root.child name) none = size ∧
    (kind ≠ .denylistedSubtree →
      ∃ r, (s.scan w root).answer = .ok r ∧ ∃ cutOff,
        TopN.Cut DirEntry.size s.config.maxEntries.toNat
          ((childrenOf root entries).filterMap (listing? (s.scanSetup w root).toChildSetup root))
          r.entries cutOff ∧
        (∃ e ∈ r.entries ++ cutOff, e.path = root.child name) ∧
        ∀ e ∈ r.entries ++ cutOff, e.path = root.child name →
          (kind = .foldedSubtree → e.size = size) ∧
          (kind = .ordinarySubtree → e.size = size) ∧
          (kind = .cachedSubtree →
            e.size = if s.config.shouldFold name (root.child name) then 0 else size)) := by
  intro kind size
  let setup := s.scanSetup w root
  refine ⟨walkSizeExcluding_of_child hlist hsearch (hnames _ hchild)
    (Node.childNamed?_of_mem hdistinct hchild) hread, fun hallowed => ?_⟩
  have hquiet : ∀ p, positiveSize? (setup.tool p) = none :=
    fun p => positiveSize?_measureWithout hsilent p none
  have hsubtree : setup.known.subtreeSize? (root.child name) = none :=
    subtreeSize?_of_unknown (hunknown (root.child name))
  -- the size that the child has on the route that is taken
  have hroute : ∃ found, routeSize? setup.toChildSetup (root.child name) name
        (.dir mode accessed inside) kind = some found ∧
      (kind = .foldedSubtree → found = size) ∧ (kind = .ordinarySubtree → found = size) ∧
      (kind = .cachedSubtree →
        found = if s.config.shouldFold name (root.child name) then 0 else size) := by
    have hwalked : ∀ {way}, way = .ordinarySubtree ∨ way = .cachedSubtree →
        routeSize? setup.toChildSetup (root.child name) name (.dir mode accessed inside) way = _ :=
      routeSize?_walked (s := setup.toChildSetup) hlate hquiet hsubtree hread
    rcases s.config.classify_dir_cases (s.config.contextOf root) name (root.child name) with
      hkind | hkind | ⟨hkind, -⟩ | ⟨hkind, hfold⟩
    · exact absurd hkind hallowed
    · refine ⟨_, (congrArg _ hkind).trans (hwalked (.inr rfl)), ?_, ?_, fun _ => rfl⟩ <;>
        exact fun h => absurd (hkind.symm.trans h) nofun
    · refine ⟨_, (congrArg _ hkind).trans
        (routeSize?_folded (s := setup.toChildSetup) hlate hquiet hread), fun _ => rfl, ?_, ?_⟩ <;>
        exact fun h => absurd (hkind.symm.trans h) nofun
    · have hsize := hwalked (.inl rfl)
      have hplain : setup.config.shouldFold name (root.child name) = false := hfold
      rw [hplain] at hsize
      refine ⟨_, (congrArg _ hkind).trans hsize, ?_, fun _ => rfl, ?_⟩ <;>
        exact fun h => absurd (hkind.symm.trans h) nofun
  obtain ⟨found, hfound, hsizes⟩ := hroute
  obtain ⟨entry, hentry, hsize⟩ := Option.map_eq_some_iff.1 hfound
  obtain ⟨r, hr, cutOff, hcut, hin, hunique⟩ :=
    scan_of_listed_child setup hlist hstart hnames hdistinct hchild hentry
  refine ⟨r, hr, cutOff, hcut, hin, fun e he hpath => ?_⟩
  rw [hunique e he hpath, hsize]
  exact hsizes

/-- A home directory with its cached subtree, a directory that is sized in bulk, and one that is walked. -/
def routesEntries : List (String × Node) :=
  let file (bytes : Nat) : Node := .file ⟨0, .fill bytes, none⟩
  [("Library", .dir .free none [("data", file 10)]),
    ("node_modules", .dir .free none [("a", file 30), ("lib", .dir .free none [("b", file 5)])]),
    ("src", .dir .free none [
      ("main", file 40), ("link", .link ⟨"/etc"⟩ ⟨1, none⟩), (".git", .dir .free none [("pack", file 50)])])]

/-- A file system with that home directory, and no usage tool. -/
def routesSurroundings : Surroundings :=
  { homeSurroundings with fs := ⟨.dir .free none [("h", .dir .free none routesEntries)], 1⟩ }

theorem three_routes_in_one_scan :
    let walkOf (name : String) := walkSizeExcluding (routesSurroundings.fs.lstat [])
      (routesSurroundings.fs.stat []) (Path.child ⟨"/h"⟩ name) none
    let kindOf (name : String) := homeScanner.config.classify (homeScanner.config.contextOf ⟨"/h"⟩) name
      (Path.child ⟨"/h"⟩ name) .dir
    ∃ r, (homeScanner.scan routesSurroundings ⟨"/h"⟩).answer = .ok r ∧
      r.entries.map (fun e => (e.name, e.size)) = [("src", 94), ("node_modules", 35), ("Library", 10)] ∧
      (kindOf "Library" = .cachedSubtree ∧ walkOf "Library" = 10) ∧
      (kindOf "node_modules" = .foldedSubtree ∧ walkOf "node_modules" = 35) ∧
      kindOf "src" = .ordinarySubtree ∧ walkOf "src" = 94 := by
  intro walkOf kindOf
  have hlate : ∀ p, Scanner.isLate homeScanner.config routesSurroundings p = false := by
    intro p
    show decide (homeScanner.config.fastWalkDeadline.toNanos ≤ 1000) = false
    decide +kernel
  have hlist : routesSurroundings.fs.list [] ⟨"/h"⟩ = .ok routesEntries := by rfl
  have hnames : ∀ e ∈ routesEntries, FileSystem.IsEntryName e.1 := by
    intro e he
    simp only [routesEntries, List.mem_cons, List.not_mem_nil, or_false] at he
    rcases he with rfl | rfl | rfl <;> exact ⟨by decide +kernel, by decide +kernel, by decide +kernel⟩
  have hdistinct : (routesEntries.map Prod.fst).Nodup := by decide +kernel
  have hagree (name : String) {inside : List (String × Node)}
      (hchild : (name, .dir .free none inside) ∈ routesEntries)
      (hread : ∀ d ∈ below [] (Path.child ⟨"/h"⟩ name) name (.dir .free none inside),
        d.here.isReadable (routesSurroundings.fs.isReadable []) = true) :=
    routes_agree_on_the_size homeScanner routesSurroundings hlate hlist (by decide +kernel)
      (by decide +kernel) hnames hdistinct hchild hread (fun _ _ h => by cases h) fun _ => ⟨rfl, rfl⟩
  have hlibrary := (hagree "Library" (.head _) (by decide +kernel)).1
  have hmodules := (hagree "node_modules" (.tail _ (.head _)) (by decide +kernel)).1
  obtain ⟨hsource, hscan⟩ := hagree "src" (.tail _ (.tail _ (.head _))) (by decide +kernel)
  obtain ⟨r, hr, -⟩ := hscan (by decide +kernel)
  refine ⟨r, hr, ?_, ⟨by decide +kernel, hlibrary.trans (by decide +kernel)⟩,
    ⟨by decide +kernel, hmodules.trans (by decide +kernel)⟩, by decide +kernel,
    hsource.trans (by decide +kernel)⟩
  cases hr
  decide +kernel

/-- The same home directory where the cached subtree would be sized in bulk elsewhere: it is listed as
empty, although it can be read and holds a file. -/
theorem folded_cached_subtree_is_listed_as_empty :
    let scanner : Scanner :=
      .new { ScanConfig.default ⟨some (.text ⟨"/h"⟩), 1⟩ with foldDirs := ["Library"] } .forgetful
    scanner.config.classify (scanner.config.contextOf ⟨"/h"⟩) "Library" (Path.child ⟨"/h"⟩ "Library") .dir
        = .cachedSubtree ∧
      (∀ d ∈ belowEntries [] ⟨"/h"⟩ routesEntries,
        d.here.isReadable (routesSurroundings.fs.isReadable []) = true) ∧
      (∃ r, (scanner.scan routesSurroundings ⟨"/h"⟩).answer = .ok r ∧
        r.entries.map (fun e => (e.name, e.size))
          = [("src", 94), ("node_modules", 35), ("Library", 0)]) ∧
      walkSizeExcluding (routesSurroundings.fs.lstat []) (routesSurroundings.fs.stat [])
        (Path.child ⟨"/h"⟩ "Library") none = 10 := by
  refine ⟨by decide +kernel, by decide +kernel, ⟨_, rfl, by decide +kernel⟩, by decide +kernel⟩

end DiskUsage
