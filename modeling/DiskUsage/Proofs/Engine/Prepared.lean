import DiskUsage.Proofs.FileSystem.Children
import DiskUsage.Proofs.Scan.Hidden
import DiskUsage.Proofs.Scan.Overview

/-!
# Children before their bulk sizes are known

A child of a root is sized in two parts: it is walked, and then the directories that the walk came across
are measured in bulk.  The second part is a list of measurements, which may be made in any order.

* `prepareChildren`: what is known of the children before, with the directories to measure.
* `happened_prepareChildren`, `listed_prepareChildren`, `large_prepareChildren`: the sizes of those
  directories complete it to what a scan finds.
* `Node.isProper`: every directory has its entries under different names.
* `Gathered`, `Scattered`: directories at different paths, below one path or below entries of a directory.
* `folded_prepareChildren`: in a proper tree the directories to measure have different paths.
-/

open scoped List

namespace DiskUsage

/-- A child while the directories in it that are sized in bulk have no size yet. -/
structure PreparedChild where
  trace : Trace
  /-- The directories to measure in bulk. -/
  folded : List (Path × Node)
  /-- The entry, by what those directories measure together. -/
  listed? : Nat → Option DirEntry
  large : List LargeFile

namespace PreparedChild

/-- A child with nothing to measure in bulk. -/
def ofSized (c : SizedChild) : PreparedChild :=
  ⟨c.trace, [], fun _ => c.listed?, c.large⟩

/-- A directory that was walked. -/
def ofWalked (name : String) (path : Path) (used : Option Timestamp) (w : Walked) : PreparedChild where
  trace := w.trace ++ [.dir]
  folded := w.folded
  listed? bulk :=
    some ((DirEntry.directory name path (Number.wrap (w.size + bulk))).withLastAccess used)
  large := w.large

/-- A directory that is sized in bulk itself. -/
def ofFolded (name : String) (path : Path) (used : Option Timestamp) (node : Node) : PreparedChild where
  trace := [.dir]
  folded := [(path, node)]
  listed? bulk := some ((DirEntry.directory name path bulk).withLastAccess used)
  large := []

/-- The child with the sizes of its directories. -/
def settle (w : WalkSetup) (p : PreparedChild) : SizedChild :=
  ⟨p.trace ++ (foldedSizes w p.folded).trace, p.listed? (foldedSizes w p.folded).size, p.large⟩

end PreparedChild

/-- Walk a directory; one that would be sized in bulk elsewhere, or cannot be read, is not entered. -/
def prepareSubtree (w : WalkSetup) (path : Path) (name : String) (used : Option Timestamp)
    (node : Node) : PreparedChild :=
  match node with
  | .dir mode _ entries =>
    if canList w.reach path mode && !w.config.shouldFold name path then
      .ofWalked name path used (walkEntries w.reach w.config path entries)
    else .ofSized (.ofSubtree name path used (dirSize w path name node))
  | _ => .ofSized (.ofSubtree name path used (dirSize w path name node))

/-- Size a child in the given way, but for what is sized in bulk. -/
def prepareChild (s : ChildSetup) (path : Path) (name : String) (node : Node) : ChildKind → PreparedChild
  | .foldedSubtree => .ofFolded name path (s.lastAccess path node) node
  | .ordinarySubtree => prepareSubtree s.toWalkSetup path name (s.lastAccess path node) node
  | .cachedSubtree =>
    match s.known.subtreeSize? path with
    | some size => .ofSized (.ofSize name path (s.lastAccess path node) ⟨[], size⟩)
    | none => prepareSubtree s.toWalkSetup path name (s.lastAccess path node) node
  | kind => .ofSized (sizeChild s path name node kind)

/-- The children of a root, but for what is sized in bulk; those on the deny list are left out. -/
def prepareChildren (s : ChildSetup) (root : Path) (entries : List (String × Node)) :
    List PreparedChild :=
  entries.filterMap fun (name, node) =>
    let path := root.child name
    match s.config.classify (s.config.contextOf root) name path node.kind with
    | .denylistedSubtree => none
    | kind => some (prepareChild s path name node kind)

/-- The directories to measure in bulk. -/
def foldedOf (children : List PreparedChild) : List (Path × Node) :=
  children.flatMap PreparedChild.folded

/-- The entries of the children, by the sizes of all directories that were measured, in order. -/
def listings : List PreparedChild → List Nat → List DirEntry
  | [], _ => []
  | p :: rest, sizes =>
    (p.listed? (sizes.take p.folded.length).sum).toList ++ listings rest (sizes.drop p.folded.length)

variable {s : ChildSetup} {w : WalkSetup} {root path : Path} {name : String} {node : Node}
  {entries : List (String × Node)}

/-! ### Sizes in bulk -/

/-- What happens while a directory is measured in bulk. -/
def bulkTrace (w : WalkSetup) (d : Path × Node) : Trace :=
  (foldedSize w d.1 d.2).trace

/-- The size of a directory that is measured in bulk. -/
def bulkSize (w : WalkSetup) (d : Path × Node) : Nat :=
  (foldedSize w d.1 d.2).size

theorem trace_foldedSizes (w : WalkSetup) (ds : List (Path × Node)) :
    (foldedSizes w ds).trace = ds.flatMap (bulkTrace w) := by
  induction ds with
  | nil => rfl
  | cons d ds ih =>
    rw [List.flatMap_cons, ← ih]
    rfl

theorem size_foldedSizes (w : WalkSetup) (ds : List (Path × Node)) :
    (foldedSizes w ds).size = (ds.map (bulkSize w)).sum := by
  induction ds with
  | nil => rfl
  | cons d ds ih =>
    rw [List.map_cons, List.sum_cons, ← ih]
    rfl

/-- With the sizes of all directories, each child takes its own. -/
theorem listings_eq (w : WalkSetup) (children : List PreparedChild) :
    listings children ((foldedOf children).map (bulkSize w))
      = (children.map (PreparedChild.settle w)).filterMap SizedChild.listed? := by
  induction children with
  | nil => rfl
  | cons p rest ih =>
    have hsplit : (foldedOf (p :: rest)).map (bulkSize w)
        = p.folded.map (bulkSize w) ++ (foldedOf rest).map (bulkSize w) := by
      rw [foldedOf, List.flatMap_cons, List.map_append]
      rfl
    have hlength : (p.folded.map (bulkSize w)).length = p.folded.length := List.length_map _
    rw [hsplit, listings, ← hlength, List.take_left, List.drop_left, ih, ← size_foldedSizes,
      List.map_cons, List.filterMap_cons, PreparedChild.settle]
    cases p.listed? (foldedSizes w p.folded).size <;> rfl

/-! ### Completing the children -/

theorem settle_ofSized (w : WalkSetup) (c : SizedChild) :
    SizedChild.Same ((PreparedChild.ofSized c).settle w) c where
  trace := .of_eq (List.append_nil _)
  listed? := rfl
  large := .refl _

theorem settle_ofFolded (w : WalkSetup) (name : String) (path : Path) (used : Option Timestamp)
    (node : Node) :
    SizedChild.Same ((PreparedChild.ofFolded name path used node).settle w)
      (.ofSize name path used (foldedSize w path node)) where
  trace := by
    show [Event.dir] ++ (foldedSizes w [(path, node)]).trace ~ (foldedSize w path node).trace ++ [.dir]
    rw [trace_foldedSizes, List.flatMap_singleton]
    exact List.perm_append_comm
  listed? := by
    show some ((DirEntry.directory name path (foldedSizes w [(path, node)]).size).withLastAccess used) = _
    rw [size_foldedSizes, List.map_singleton, List.sum_singleton]
    rfl
  large := .refl _

theorem settle_ofWalked (w : WalkSetup) (name : String) (path : Path) (used : Option Timestamp)
    (walked : Walked) :
    SizedChild.Same ((PreparedChild.ofWalked name path used walked).settle w)
      (.ofSubtree name path used (walked.finish w)) where
  trace := by
    show walked.trace ++ [Event.dir] ++ (foldedSizes w walked.folded).trace
      ~ walked.trace ++ (foldedSizes w walked.folded).trace ++ [.dir]
    rw [List.append_assoc, List.append_assoc]
    exact List.perm_append_comm.append_left _
  listed? := rfl
  large := .refl _

theorem settle_prepareSubtree (w : WalkSetup) (path : Path) (name : String) (used : Option Timestamp)
    (node : Node) :
    SizedChild.Same ((prepareSubtree w path name used node).settle w)
      (.ofSubtree name path used (dirSize w path name node)) := by
  cases node with
  | dir mode accessed entries =>
    rw [prepareSubtree]
    split
    · next hentered =>
      obtain ⟨hopen, hfold⟩ := Bool.and_eq_true_iff.1 hentered
      rw [dirSize_of_not_folded w (by simpa using hfold), if_pos hopen]
      exact settle_ofWalked w name path _ _
    · exact settle_ofSized w _
  | file data => exact settle_ofSized w _
  | link target data => exact settle_ofSized w _
  | special accessed => exact settle_ofSized w _

/-- **A child** is completed to what a scan finds. -/
theorem settle_prepareChild (s : ChildSetup) (path : Path) (name : String) (node : Node)
    (kind : ChildKind) :
    SizedChild.Same ((prepareChild s path name node kind).settle s.toWalkSetup)
      (sizeChild s path name node kind) := by
  cases kind with
  | link => exact settle_ofSized _ _
  | plainFile => exact settle_ofSized _ _
  | denylistedSubtree => exact settle_ofSized _ _
  | foldedSubtree => exact settle_ofFolded _ _ _ _ _
  | ordinarySubtree => exact settle_prepareSubtree _ _ _ _ _
  | cachedSubtree =>
    rw [prepareChild, sizeChild]
    cases s.known.subtreeSize? path with
    | some size => exact settle_ofSized _ _
    | none => exact settle_prepareSubtree _ _ _ _ _

theorem settle_prepareChildren (s : ChildSetup) (root : Path) (entries : List (String × Node)) :
    List.Forall₂ SizedChild.Same
      ((prepareChildren s root entries).map (PreparedChild.settle s.toWalkSetup))
      (scanChildren s root entries) := by
  induction entries with
  | nil => exact .nil
  | cons e rest ih =>
    obtain ⟨name, node⟩ := e
    unfold prepareChildren scanChildren at ih ⊢
    rw [List.filterMap_cons, List.filterMap_cons]
    dsimp only
    have hchild := settle_prepareChild s (root.child name) name node
    cases s.config.classify (s.config.contextOf root) name (root.child name) node.kind with
    | denylistedSubtree => exact ih
    | link => exact .cons (hchild .link) ih
    | plainFile => exact .cons (hchild .plainFile) ih
    | cachedSubtree => exact .cons (hchild .cachedSubtree) ih
    | foldedSubtree => exact .cons (hchild .foldedSubtree) ih
    | ordinarySubtree => exact .cons (hchild .ordinarySubtree) ih

/-- Children that are sized alike, one by one, are so together. -/
theorem SizedChild.Same.all {as bs : List SizedChild} (h : List.Forall₂ SizedChild.Same as bs) :
    childrenTrace as ~ childrenTrace bs ∧
      as.filterMap SizedChild.listed? = bs.filterMap SizedChild.listed? ∧
      as.flatMap SizedChild.large ~ bs.flatMap SizedChild.large := by
  induction h with
  | nil => exact ⟨.refl _, rfl, .refl _⟩
  | cons hchild _ ih =>
    refine ⟨hchild.trace.append ih.1, ?_, hchild.large.append ih.2.2⟩
    rw [List.filterMap_cons, List.filterMap_cons, hchild.listed?, ih.2.1]

/-- **What happens** in a scan is what happens before, and then for each directory that is measured in
bulk. -/
theorem happened_prepareChildren (s : ChildSetup) (root : Path) (entries : List (String × Node)) :
    (prepareChildren s root entries).flatMap PreparedChild.trace
        ++ (foldedOf (prepareChildren s root entries)).flatMap (bulkTrace s.toWalkSetup)
      ~ childrenTrace (scanChildren s root entries) := by
  refine .trans ?_ (SizedChild.Same.all (settle_prepareChildren s root entries)).1
  rw [childrenTrace, List.flatMap_map, foldedOf, List.flatMap_assoc]
  refine (List.flatMap_append_perm _ _ _).trans (.of_eq (List.flatMap_congr fun p _ => ?_))
  rw [PreparedChild.settle, trace_foldedSizes]

theorem listed_prepareChildren (s : ChildSetup) (root : Path) (entries : List (String × Node)) :
    listings (prepareChildren s root entries)
        ((foldedOf (prepareChildren s root entries)).map (bulkSize s.toWalkSetup))
      = (scanChildren s root entries).filterMap SizedChild.listed? := by
  rw [listings_eq]
  exact (SizedChild.Same.all (settle_prepareChildren s root entries)).2.1

theorem large_prepareChildren (s : ChildSetup) (root : Path) (entries : List (String × Node)) :
    (prepareChildren s root entries).flatMap PreparedChild.large
      ~ (scanChildren s root entries).flatMap SizedChild.large := by
  refine .trans (.of_eq ?_) (SizedChild.Same.all (settle_prepareChildren s root entries)).2.2
  rw [List.flatMap_map]
  rfl

/-! ### Trees with different names -/

mutual
/-- In every directory of the tree the entries have different names. -/
def Node.isProper : Node → Bool
  | .dir _ _ entries => areProper entries
  | _ => true

/-- These entries have different names, and so have those of every directory below them. -/
def areProper : List (String × Node) → Bool
  | [] => true
  | (name, node) :: rest =>
    decide (Path.IsName name) && !(rest.map Prod.fst).contains name && node.isProper && areProper rest
end

theorem areProper_cons (h : areProper ((name, node) :: entries) = true) :
    Path.IsName name ∧ name ∉ entries.map Prod.fst ∧ node.isProper = true ∧ areProper entries = true := by
  rw [areProper] at h
  simpa [and_assoc] using h

/-- An entry of a proper directory is proper. -/
theorem isProper_of_childNamed? (h : areProper entries = true)
    (hnode : Node.childNamed? name entries = some node) : node.isProper = true := by
  induction entries with
  | nil => cases hnode
  | cons e rest ih =>
    obtain ⟨other, found⟩ := e
    obtain ⟨-, -, hfound, hrest⟩ := areProper_cons h
    rw [Node.childNamed?] at hnode
    split at hnode
    · cases hnode
      exact hfound
    · exact ih hrest hnode

theorem isProper_of_descend? {names : List String} {top : Node} (h : top.isProper = true)
    (hnode : Node.descend? names top = some node) : node.isProper = true := by
  induction names generalizing top with
  | nil =>
    cases hnode
    exact h
  | cons first names ih =>
    cases top with
    | dir mode accessed entries =>
      obtain ⟨child, hchild, hrest⟩ := Option.bind_eq_some_iff.1 hnode
      exact ih (isProper_of_childNamed? h hchild) hrest
    | file data => cases hnode
    | link target data => cases hnode
    | special accessed => cases hnode

/-! ### Directories with different paths -/

/-- Directories at and below a path, all with different paths. -/
structure Gathered (path : Path) (ds : List (Path × Node)) : Prop where
  below : ∀ d ∈ ds, path.components <+: d.1.components
  apart : ds.Pairwise fun d e => d.1.components ≠ e.1.components

theorem Gathered.nil (path : Path) : Gathered path [] :=
  ⟨fun _ hd => absurd hd List.not_mem_nil, .nil⟩

theorem Gathered.self (path : Path) (node : Node) : Gathered path [(path, node)] :=
  ⟨fun _ hd => List.mem_singleton.1 hd ▸ List.prefix_refl _, List.pairwise_singleton _ _⟩

/-- Directories below the entries of these names in a directory, all with different paths. -/
structure Scattered (dir : Path) (names : List String) (ds : List (Path × Node)) : Prop where
  below : ∀ d ∈ ds, ∃ name ∈ names, dir.components ++ [.normal name] <+: d.1.components
  apart : ds.Pairwise fun d e => d.1.components ≠ e.1.components

theorem Scattered.nil (dir : Path) (names : List String) : Scattered dir names [] :=
  ⟨fun _ hd => absurd hd List.not_mem_nil, .nil⟩

theorem Scattered.gathered {dir : Path} {names : List String} {ds : List (Path × Node)}
    (h : Scattered dir names ds) : Gathered dir ds := by
  refine ⟨fun d hd => ?_, h.apart⟩
  obtain ⟨_, -, hprefix⟩ := h.below d hd
  exact (List.prefix_append _ _).trans hprefix

/-- Directories below entries of different names are different. -/
theorem Scattered.cons {dir : Path} {names : List String} {ds es : List (Path × Node)}
    (hdir : dir.chars ≠ []) (hname : Path.IsName name) (hds : Gathered (dir.child name) ds)
    (hnew : name ∉ names) (h : Scattered dir names es) :
    Scattered dir (name :: names) (ds ++ es) := by
  have hbelow := hds.below
  rw [Path.components_child hdir hname] at hbelow
  constructor
  · intro d hd
    rcases List.mem_append.1 hd with hd | hd
    · exact ⟨name, List.mem_cons_self, hbelow d hd⟩
    · obtain ⟨other, hother, hprefix⟩ := h.below d hd
      exact ⟨other, List.mem_cons_of_mem _ hother, hprefix⟩
  · refine List.pairwise_append.2 ⟨hds.apart, h.apart, fun d hd e he heq => ?_⟩
    obtain ⟨other, hother, hprefix⟩ := h.below e he
    have hsame := hbelow d hd
    rw [heq] at hsame
    -- two names at one place in a path
    have hlast := List.prefix_of_prefix_length_le hsame hprefix (by simp)
    have hequal : name = other := by simpa using hlast.eq_of_length (by simp)
    exact hnew (hequal ▸ hother)

mutual
/-- What a walk leaves to be measured in bulk lies at and below its start, at different paths. -/
theorem folded_walk (reach : Path → Bool) (c : ScanConfig) {path : Path} (name : String) {node : Node}
    (hpath : path.chars ≠ []) (h : node.isProper = true) :
    Gathered path (walk reach c path name node).folded := by
  cases hdir : node.isDir with
  | false =>
    rw [walk_of_isDir_eq_false hdir, folded_walkFile]
    exact .nil path
  | true =>
    cases node with
    | dir mode accessed entries =>
      rw [walk]
      split
      · exact .self path _
      · split
        · exact (folded_walkEntries reach c hpath h).gathered
        · exact .nil path
    | _ => cases hdir

/-- **What a walk of a directory leaves** to be measured in bulk is scattered below its entries. -/
theorem folded_walkEntries (reach : Path → Bool) (c : ScanConfig) {dir : Path}
    {entries : List (String × Node)} (hdir : dir.chars ≠ []) (h : areProper entries = true) :
    Scattered dir (entries.map Prod.fst) (walkEntries reach c dir entries).folded := by
  cases entries with
  | nil => exact .nil _ _
  | cons e rest =>
    obtain ⟨name, node⟩ := e
    obtain ⟨hname, hnew, hnode, hrest⟩ := areProper_cons h
    have hchild := folded_walk reach c name (chars_child_ne_nil hdir hname) hnode
    exact .cons hdir hname hchild hnew (folded_walkEntries reach c hdir hrest)
end

theorem folded_prepareSubtree (w : WalkSetup) (name : String) (used : Option Timestamp)
    (hpath : path.chars ≠ []) (h : node.isProper = true) :
    Gathered path (prepareSubtree w path name used node).folded := by
  cases node with
  | dir mode accessed entries =>
    rw [prepareSubtree]
    split
    · exact (folded_walkEntries w.reach w.config hpath h).gathered
    · exact .nil path
  | file data => exact .nil path
  | link target data => exact .nil path
  | special accessed => exact .nil path

theorem folded_prepareChild (s : ChildSetup) (name : String) (hpath : path.chars ≠ [])
    (h : node.isProper = true) (kind : ChildKind) :
    Gathered path (prepareChild s path name node kind).folded := by
  cases kind with
  | link => exact .nil path
  | plainFile => exact .nil path
  | denylistedSubtree => exact .nil path
  | foldedSubtree => exact .self path node
  | ordinarySubtree => exact folded_prepareSubtree _ _ _ hpath h
  | cachedSubtree =>
    rw [prepareChild]
    split
    · exact .nil path
    · exact folded_prepareSubtree _ _ _ hpath h

/-- **The directories to measure in bulk** have different paths. -/
theorem folded_prepareChildren (s : ChildSetup) (hroot : root.chars ≠ [])
    (h : areProper entries = true) :
    Scattered root (entries.map Prod.fst) (foldedOf (prepareChildren s root entries)) := by
  induction entries with
  | nil => exact .nil _ _
  | cons e rest ih =>
    obtain ⟨name, node⟩ := e
    obtain ⟨hname, hnew, hnode, hrest⟩ := areProper_cons h
    have hchild (kind : ChildKind) :
        Scattered root (name :: rest.map Prod.fst)
          ((prepareChild s (root.child name) name node kind).folded
            ++ foldedOf (prepareChildren s root rest)) :=
      .cons hroot hname (folded_prepareChild s name (chars_child_ne_nil hroot hname) hnode kind) hnew
        (ih hrest)
    unfold foldedOf prepareChildren at hchild ⊢
    rw [List.filterMap_cons]
    dsimp only
    cases s.config.classify (s.config.contextOf root) name (root.child name) node.kind with
    | denylistedSubtree => exact hchild .denylistedSubtree
    | link => exact hchild .link
    | plainFile => exact hchild .plainFile
    | cachedSubtree => exact hchild .cachedSubtree
    | foldedSubtree => exact hchild .foldedSubtree
    | ordinarySubtree => exact hchild .ordinarySubtree

end DiskUsage
