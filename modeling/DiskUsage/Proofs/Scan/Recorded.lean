import DiskUsage.Proofs.Scan.Total

/-!
# What is recorded while sizes are found

The events of a scan are recorded in counters as they happen, while the sizes come back from the walks.
Both are told apart here only where the cache answers: everywhere else the bytes that are recorded are
the size that is found, as far as a word can tell.

* `Event.bytes`, `Event.tells`: what one event adds to the counters.
* `Counters.after_eq`: the counters after a trace; `Counters.after_perm`: they do not depend on the order of
  its events.
* `bytes_walk`, `bytes_fastWalk`, `bytes_dirSize`: each walk records the bytes that it adds up.
* `bytes_scanChildren`: so do all children together, what the cache answers aside.
-/

open scoped List

namespace DiskUsage

/-- The bytes that an event adds to those that were scanned. -/
def Event.bytes : Event → Nat
  | .file _ size _ => size
  | .bulk bytes => bytes
  | _ => 0

/-- An event tells of a directory, or else of a file. -/
def Event.tells (isDir : Bool) : Event → Bool
  | .file .. => !isDir
  | .dir => isDir
  | _ => false

/-- The bytes that a trace adds to those that were scanned. -/
def Trace.bytes (trace : Trace) : Nat :=
  (trace.map Event.bytes).sum

/-- How many directories, or else files, a trace tells of. -/
def Trace.count (isDir : Bool) (trace : Trace) : Nat :=
  trace.countP (Event.tells isDir)

section Trace

variable (isDir : Bool) (a b : Trace)

@[simp] theorem Trace.bytes_nil : Trace.bytes [] = 0 := rfl

@[simp] theorem Trace.bytes_cons (e : Event) : Trace.bytes (e :: b) = e.bytes + b.bytes := by
  simp [Trace.bytes]

@[simp] theorem Trace.bytes_append : Trace.bytes (a ++ b) = a.bytes + b.bytes := by
  simp [Trace.bytes]

@[simp] theorem Trace.count_nil : Trace.count isDir [] = 0 := rfl

theorem Trace.count_cons (e : Event) :
    Trace.count isDir (e :: b) = (if e.tells isDir then 1 else 0) + b.count isDir := by
  rw [Trace.count, List.countP_cons, Nat.add_comm]
  rfl

@[simp] theorem Trace.count_append : Trace.count isDir (a ++ b) = a.count isDir + b.count isDir :=
  List.countP_append

end Trace

/-- **The counters after a trace**: each has grown by what the events add to it, as a 64-bit word. -/
theorem Counters.after_eq (c : Counters) (trace : Trace) :
    (c.after trace).files = c.files + UInt64.ofNat (trace.count false) ∧
      (c.after trace).dirs = c.dirs + UInt64.ofNat (trace.count true) ∧
      (c.after trace).bytes = c.bytes + UInt64.ofNat trace.bytes := by
  induction trace generalizing c with
  | nil => simp
  | cons e rest ih =>
    obtain ⟨hfiles, hdirs, hbytes⟩ := ih (c.record e)
    rw [show c.after (e :: rest) = (c.record e).after rest from rfl, hfiles, hdirs, hbytes,
      Trace.count_cons, Trace.count_cons, Trace.bytes_cons, UInt64.ofNat_add, UInt64.ofNat_add,
      UInt64.ofNat_add, ← UInt64.add_assoc, ← UInt64.add_assoc, ← UInt64.add_assoc]
    cases e <;>
      simp [Counters.record, Counters.recordFile, Counters.recordFiles, Counters.recordBytes,
        Counters.recordDir, Counters.recordError, Event.tells, Event.bytes]

theorem Counters.record_right_comm (c : Counters) (d e : Event) :
    (c.record d).record e = (c.record e).record d := by
  have hcomm : ∀ n a b : UInt64, n + a + b = n + b + a := by
    intro n a b
    rw [UInt64.add_assoc, UInt64.add_comm a b, ← UInt64.add_assoc]
  cases d <;> cases e <;>
    simp [record, recordFile, recordFiles, recordBytes, recordDir, recordError, hcomm]

/-- The order in which things happen makes no difference to the counters. -/
theorem Counters.after_perm {a b : Trace} (h : a ~ b) (c : Counters) : c.after a = c.after b :=
  h.foldl_eq' (fun d _ e _ c => c.record_right_comm d e) c

/-! ### The bytes that a walk records -/

theorem bytes_fastWalkFile (reach : Path → Bool) (path : Path) (node : Node) :
    (fastWalkFile reach path node).trace.bytes = (fastWalkFile reach path node).size := by
  unfold fastWalkFile
  split <;> rfl

mutual
/-- A fast walk records the bytes that it adds up, also where its deadline cuts it short. -/
theorem bytes_fastWalk (reach late : Path → Bool) (path : Path) (node : Node) :
    (fastWalk reach late path node).trace.bytes = (fastWalk reach late path node).size := by
  cases node with
  | dir mode accessed entries =>
    rw [fastWalk, Sized.after, Trace.bytes_append]
    split
    · rw [bytes_fastWalkEntries]
      exact Nat.zero_add _
    · rfl
  | file data => exact bytes_fastWalkFile reach path _
  | link target data => exact bytes_fastWalkFile reach path _
  | special accessed => exact bytes_fastWalkFile reach path _

theorem bytes_fastWalkEntries (reach late : Path → Bool) (dir : Path) (entries : List (String × Node)) :
    (fastWalkEntries reach late dir entries).trace.bytes = (fastWalkEntries reach late dir entries).size := by
  cases entries with
  | nil => rfl
  | cons e rest =>
    obtain ⟨name, node⟩ := e
    rw [fastWalkEntries, Sized.append, Trace.bytes_append, bytes_fastWalk, bytes_fastWalkEntries]
end

theorem bytes_fastDirSize (reach late : Path → Bool) (path : Path) (node : Node) :
    (fastDirSize reach late path node).size
      = Number.wrap (fastDirSize reach late path node).trace.bytes := by
  unfold fastDirSize
  split
  · split
    · rw [Sized.trace_word, Sized.size_word, bytes_fastWalkEntries]
    · rfl
  · rfl

/-- A directory that is sized in bulk is recorded with the size that is found for it. -/
theorem bytes_foldedSize (w : WalkSetup) (path : Path) (node : Node) :
    Number.wrap (foldedSize w path node).trace.bytes = Number.wrap (foldedSize w path node).size := by
  unfold foldedSize
  split
  · simp [Event.bytes]
  · rw [Sized.size_after, bytes_fastDirSize, Number.wrap_wrap, Sized.after, Trace.bytes_append]
    exact congrArg Number.wrap (Nat.zero_add _)

theorem bytes_foldedSizes (w : WalkSetup) (folded : List (Path × Node)) :
    Number.wrap (foldedSizes w folded).trace.bytes = Number.wrap (foldedSizes w folded).size := by
  induction folded with
  | nil => rfl
  | cons e rest ih =>
    obtain ⟨path, node⟩ := e
    rw [foldedSizes, Sized.append, Trace.bytes_append]
    exact Number.wrap_add_congr (bytes_foldedSize w path node) ih

theorem foldedSizes_append (w : WalkSetup) (xs ys : List (Path × Node)) :
    foldedSizes w (xs ++ ys) = (foldedSizes w xs).append (foldedSizes w ys) := by
  induction xs with
  | nil => simp [foldedSizes, Sized.empty, Sized.append]
  | cons x xs ih =>
    obtain ⟨path, node⟩ := x
    rw [List.cons_append, foldedSizes, ih, foldedSizes]
    simp only [Sized.append, List.append_assoc, Nat.add_assoc]

theorem bytes_walkFile (reach : Path → Bool) (c : ScanConfig) (path : Path) (name : String) (node : Node) :
    (walkFile reach c path name node).trace.bytes = (walkFile reach c path name node).size := by
  unfold walkFile
  split <;> rfl

mutual
/-- A walk records the bytes that it adds up. -/
theorem bytes_walk (reach : Path → Bool) (c : ScanConfig) (path : Path) (name : String) (node : Node) :
    (walk reach c path name node).trace.bytes = (walk reach c path name node).size := by
  cases node with
  | dir mode accessed entries =>
    rw [walk]
    split
    · rfl
    · split
      · rw [Walked.append, Trace.bytes_append, bytes_walkEntries]
        exact congrArg (0 + ·) rfl
      · rfl
  | file data => exact bytes_walkFile reach c path name _
  | link target data => exact bytes_walkFile reach c path name _
  | special accessed => exact bytes_walkFile reach c path name _

theorem bytes_walkEntries (reach : Path → Bool) (c : ScanConfig) (dir : Path)
    (entries : List (String × Node)) :
    (walkEntries reach c dir entries).trace.bytes = (walkEntries reach c dir entries).size := by
  cases entries with
  | nil => rfl
  | cons e rest =>
    obtain ⟨name, node⟩ := e
    rw [walkEntries, Walked.append, Trace.bytes_append, bytes_walk, bytes_walkEntries]
end

/-- A subtree is recorded with the size that is found for it, and with nothing if it cannot be read. -/
theorem bytes_dirSize (w : WalkSetup) (path : Path) (name : String) (node : Node) :
    Number.wrap (dirSize w path name node).trace.bytes
      = Number.wrap ((dirSize w path name node).size?.getD 0) := by
  unfold dirSize
  split
  · split
    · rfl
    · split
      · rfl
      · split
        · rfl
        · rw [Walked.finish, Trace.bytes_append, bytes_walkEntries, Option.getD_some, Number.wrap_wrap]
          exact Number.wrap_add_congr rfl (bytes_foldedSizes w _)
  · rfl

/-! ### The bytes that a child records -/

variable {s : ChildSetup} {root : Path}

/-- What happens while a child of the root is sized. -/
def happening (s : ChildSetup) (root : Path) (c : Located) : Trace :=
  (sizeChild s c.path c.name c.node
    (s.config.classify (s.config.contextOf root) c.name c.path c.node.kind)).trace

/-- What happens for a directory that is not on the deny list. -/
theorem happening_of_allowed {path : Path} {name : String} {mode : DirMode}
    {accessed : Option Timestamp} {entries : List (String × Node)}
    (hden : s.config.isDenylisted name (s.config.contextOf root).isFileSystemRoot = false) :
    happening s root ⟨path, name, .dir mode accessed entries⟩
      = (sizeChild s path name (.dir mode accessed entries)
          (if s.config.isHome root && name == s.config.cachedSubtreeName then .cachedSubtree
          else if s.config.shouldFold name path then .foldedSubtree
          else .ordinarySubtree)).trace := by
  simp only [happening, Node.kind, ScanConfig.classify, hden, Bool.false_eq_true, if_false]
  rfl

theorem childrenTrace_scanChildren (s : ChildSetup) (root : Path) (entries : List (String × Node)) :
    childrenTrace (scanChildren s root entries)
      = (childrenOf root entries).flatMap (happening s root) := by
  induction entries with
  | nil => rfl
  | cons e rest ih =>
    obtain ⟨name, node⟩ := e
    unfold scanChildren childrenTrace at ih ⊢
    rw [childrenOf_cons, List.flatMap_cons, ← ih, List.filterMap_cons, happening]
    dsimp only
    cases s.config.classify (s.config.contextOf root) name (root.child name) node.kind <;> rfl

/-- The size that a child is listed with. -/
def SizedChild.listedSize (c : SizedChild) : Nat :=
  (c.listed?.map DirEntry.size).getD 0

theorem bytes_ofSize {name : String} {path : Path} {used : Option Timestamp} {x : Sized}
    (h : Number.wrap x.trace.bytes = Number.wrap x.size) :
    Number.wrap (SizedChild.ofSize name path used x).trace.bytes
      = Number.wrap (SizedChild.ofSize name path used x).listedSize := by
  rw [SizedChild.ofSize, Trace.bytes_append]
  exact h

theorem bytes_ofSubtree {name : String} {path : Path} {used : Option Timestamp} {x : SubtreeSized}
    (h : Number.wrap x.trace.bytes = Number.wrap (x.size?.getD 0)) :
    Number.wrap (SizedChild.ofSubtree name path used x).trace.bytes
      = Number.wrap (SizedChild.ofSubtree name path used x).listedSize := by
  unfold SizedChild.ofSubtree
  cases hsize : x.size? with
  | none =>
    rw [hsize] at h
    exact h
  | some size =>
    rw [hsize] at h
    show Number.wrap (Trace.bytes (x.trace ++ [.dir])) = Number.wrap size
    rw [Trace.bytes_append]
    exact h

/-- A child that is no directory is listed with the bytes that were recorded for it, if it can be read. -/
theorem bytes_happening_of_isDir_eq_false (s : ChildSetup) (root path : Path) (name : String) {node : Node}
    (hdir : node.isDir = false) :
    (happening s root ⟨path, name, node⟩).bytes + ((⟨path, name, node⟩ : Located).answer? s root).getD 0
      = ((listing? s root ⟨path, name, node⟩).map DirEntry.size).getD 0 := by
  cases node with
  | dir mode accessed entries => cases hdir
  | file data | link target data | special accessed =>
    cases hreads : s.readsChild path <;>
      simp [happening, listing?, Node.kind, ScanConfig.classify, sizeChild, hreads, SizedChild.ofFile,
        SizedChild.unreadable, Event.bytes, Located.answer?, Node.isDir, DirEntry.file, DirEntry.link]

/-- **A child** is listed with the bytes that were recorded for it, or with what the cache answers. -/
theorem bytes_happening (s : ChildSetup) (root : Path) (c : Located) :
    Number.wrap ((happening s root c).bytes + (c.answer? s root).getD 0)
      = Number.wrap (((listing? s root c).map DirEntry.size).getD 0) := by
  obtain ⟨path, name, node⟩ := c
  cases node with
  | file data | link target data | special accessed =>
    exact congrArg Number.wrap (bytes_happening_of_isDir_eq_false s root path name rfl)
  | dir mode accessed entries =>
    cases hden : s.config.isDenylisted name (s.config.contextOf root).isFileSystemRoot with
    | true => simp [happening, listing?, Node.kind, ScanConfig.classify, hden, sizeChild,
        Located.answer?, Located.isDenied, Node.isDir]
    | false =>
      rw [happening_of_allowed hden, answer?_of_allowed hden, listing?_of_allowed hden]
      cases hsub : s.config.isHome root && name == s.config.cachedSubtreeName with
      | true =>
        rw [if_pos rfl, if_pos rfl, sizeChild]
        cases hknown : s.known.subtreeSize? path with
        | some size => exact congrArg Number.wrap (Nat.zero_add size)
        | none => exact bytes_ofSubtree (bytes_dirSize _ _ _ _)
      | false =>
        rw [if_neg Bool.false_ne_true, if_neg Bool.false_ne_true]
        cases s.config.shouldFold name path with
        | true => exact bytes_ofSize (bytes_foldedSize _ _ _)
        | false => exact bytes_ofSubtree (bytes_dirSize _ _ _ _)

/-- What the cache answers for children of the root. -/
def answered (s : ChildSetup) (root : Path) (entries : List (String × Node)) : Nat :=
  ((childrenOf root entries).filterMap (Located.answer? s root)).sum

/-- **All children** together are recorded with their total, but for what the cache answers. -/
theorem bytes_scanChildren (s : ChildSetup) (root : Path) (entries : List (String × Node)) :
    Number.wrap ((childrenTrace (scanChildren s root entries)).bytes + answered s root entries)
      = totalSize (scanChildren s root entries) := by
  rw [childrenTrace_scanChildren, totalSize_eq, listed_scanChildren, answered]
  induction childrenOf root entries with
  | nil => rfl
  | cons c cs ih =>
    have hsum := Number.wrap_add_congr (bytes_happening s root c) ih
    rw [List.flatMap_cons, Trace.bytes_append, List.filterMap_cons, List.filterMap_cons]
    cases hanswer : c.answer? s root <;> cases hlisting : listing? s root c <;>
      simp only [hanswer, hlisting, Option.map_none, Option.map_some, Option.getD_none,
        Option.getD_some, List.map_cons, List.sum_cons] at hsum ⊢ <;>
      refine (congrArg Number.wrap ?_).trans (hsum.trans (congrArg Number.wrap ?_)) <;> omega

end DiskUsage
