import DiskUsage.Proofs.Scan.Recorded
import Mathlib.Data.List.TakeWhile

/-!
# What a scan counts

A scan counts everything that it comes to once: what is no directory where it is sized by itself, and a
directory where it is reached.  It comes to what lies in a directory that can be listed, unless that one
is left out, answered by the cache or sized by the usage tool; where a fast walk has to list the
directory, it has to be in time for that.

* `isVisited`: a scan comes to what is in these directories; `Descendant.isRecorded`: what it counts.
* `isVisited_snoc`: when it comes to what is one level further down.
* `count_fastWalk`, `count_walk`, `count_happening`: each walk, and each child of the root, counts this.
* `counters_account_for_the_scan`: so the counters of a scan agree with its total and with what was
  reached.
-/

open scoped List

namespace DiskUsage

/-- The cached subtree of the home directory, if it is also one that is sized in bulk.  Where the cache
does not answer for it, it is walked like any other subtree, and no walk goes into such a directory. -/
def Located.isSealed (c : ScanConfig) (root : Path) (d : Located) : Bool :=
  d.isFolded c && c.isHome root && d.name == c.cachedSubtreeName

/-- A child of the root that gets an entry. -/
def Located.isListed (s : ChildSetup) (root : Path) (d : Located) : Bool :=
  d.isSized s root
    && (!d.isSealed s.config root || (d.answer? s root).isSome || s.reach d.path)

/-- Those of the directories that a fast walk lists: from the topmost one on that is sized in bulk. -/
def hurried (c : ScanConfig) (above : List Located) : List Located :=
  above.dropWhile fun d => !d.isFolded c

/-- A scan comes to what is in these directories, of which the first is a child of the root and each
other lies in the one before: all of them can be listed, the first is looked into, the topmost one that
is sized in bulk got no size from the usage tool, and the fast walk of it was in time for all further
down. -/
def isVisited (s : ChildSetup) (root : Path) (above : List Located) : Bool :=
  above.all (Located.isOpen s.reach)
    && above.head?.all (fun top => top.isLookedInto s root && !top.isSealed s.config root)
    && (above.find? (Located.isFolded s.config)).all (fun f => (f.bulk? s.toWalkSetup).isNone)
    && (hurried s.config above).all fun d => !s.late d.path

/-- A scan counts it: it is a child of the root that gets an entry, or a scan comes to what is in the
directories above it, and it is a directory or can be read. -/
def Descendant.isRecorded (s : ChildSetup) (root : Path) (d : Descendant) : Bool :=
  if d.above.isEmpty then d.here.isListed s root
  else isVisited s root d.above && (d.here.node.isDir || s.reach d.here.path)

/-- How many directories among these a scan counts, or else how many of the others. -/
def recorded (s : ChildSetup) (root : Path) (isDir : Bool) (ds : List Descendant) : Nat :=
  ds.countP fun d => d.here.node.isDir == isDir && d.isRecorded s root

variable {s : ChildSetup} {root : Path} {isDir : Bool} {above : List Located} {path : Path}
  {name : String}

@[simp] theorem recorded_nil : recorded s root isDir [] = 0 := rfl

@[simp] theorem recorded_append (ds es : List Descendant) :
    recorded s root isDir (ds ++ es) = recorded s root isDir ds + recorded s root isDir es :=
  List.countP_append

theorem recorded_cons (d : Descendant) (ds : List Descendant) :
    recorded s root isDir (d :: ds)
      = (if d.here.node.isDir == isDir && d.isRecorded s root then 1 else 0)
        + recorded s root isDir ds := by
  rw [recorded, List.countP_cons, Nat.add_comm]
  rfl

/-! ### One level further down -/

/-- A scan that comes to what is around this directory comes to what is in it; `inBulk` tells that a
directory above is sized in bulk. -/
def Located.letsIn (s : WalkSetup) (inBulk : Bool) (d : Located) : Bool :=
  d.isOpen s.reach && (inBulk || !d.isFolded s.config || (d.bulk? s).isNone)
    && (!(inBulk || d.isFolded s.config) || !s.late d.path)

theorem hurried_eq_nil {c : ScanConfig} (h : above.any (Located.isFolded c) = false) :
    hurried c above = [] := by
  refine List.dropWhile_eq_nil_iff.2 fun d hd => ?_
  simpa using List.any_eq_false.1 h d hd

theorem hurried_ne_nil {c : ScanConfig} (h : above.any (Located.isFolded c) = true) :
    hurried c above ≠ [] := by
  obtain ⟨d, hd, hfold⟩ := List.any_eq_true.1 h
  intro hnil
  have hnot := List.dropWhile_eq_nil_iff.1 hnil d hd
  simp [hfold] at hnot

/-- The topmost directory that is sized in bulk gets no size from the usage tool, and the fast walk of
it is in time, also for one level further down. -/
theorem hurried_snoc (s : WalkSetup) (above : List Located) (here : Located) :
    (((above ++ [here]).find? (Located.isFolded s.config)).all (fun f => (f.bulk? s).isNone)
        && (hurried s.config (above ++ [here])).all fun d => !s.late d.path)
      = ((above.find? (Located.isFolded s.config)).all (fun f => (f.bulk? s).isNone)
        && (hurried s.config above).all (fun d => !s.late d.path)
        && ((above.any (Located.isFolded s.config) || !here.isFolded s.config
            || (here.bulk? s).isNone)
          && (!(above.any (Located.isFolded s.config) || here.isFolded s.config)
            || !s.late here.path))) := by
  cases hany : above.any (Located.isFolded s.config) with
  | true =>
    obtain ⟨f, hf⟩ := Option.isSome_iff_exists.1
      (List.find?_isSome.2 (List.any_eq_true.1 hany))
    have hne := hurried_ne_nil hany
    have hdrop : hurried s.config (above ++ [here]) = hurried s.config above ++ [here] := by
      unfold hurried at *
      rw [List.dropWhile_append, if_neg]
      rwa [List.isEmpty_iff]
    rw [hdrop, List.find?_append, hf, Option.some_or, List.all_append]
    simp [Bool.and_assoc]
  | false =>
    have hnone : above.find? (Located.isFolded s.config) = none :=
      List.find?_eq_none.2 fun d hd => by simp [List.any_eq_false.1 hany d hd]
    have hdrop : hurried s.config (above ++ [here]) = hurried s.config [here] := by
      have hnil := hurried_eq_nil hany
      unfold hurried at *
      rw [List.dropWhile_append, hnil]
      rfl
    rw [hdrop, hurried_eq_nil hany, List.find?_append, hnone, Option.none_or]
    cases hfold : here.isFolded s.config <;> simp [hurried, hfold]

/-- **One level further down**, below a child of the root. -/
theorem isVisited_snoc (hne : above ≠ []) (here : Located) :
    isVisited s root (above ++ [here])
      = (isVisited s root above
        && here.letsIn s.toWalkSetup (above.any (Located.isFolded s.config))) := by
  obtain ⟨top, more, rfl⟩ := List.exists_cons_of_ne_nil hne
  have hsnoc := hurried_snoc s.toWalkSetup (top :: more) here
  unfold isVisited Located.letsIn
  rw [Bool.and_assoc, hsnoc, List.all_append]
  simp only [List.cons_append, List.head?_cons, Option.all_some, List.all_cons, List.all_nil,
    Bool.and_true]
  cases here.isOpen s.reach <;> simp [Bool.and_assoc, Bool.and_comm, Bool.and_left_comm]

/-- What is in a child of the root. -/
theorem isVisited_singleton (here : Located) :
    isVisited s root [here]
      = (here.isLookedInto s root && !here.isSealed s.config root
        && here.letsIn s.toWalkSetup false) := by
  have hsnoc := hurried_snoc s.toWalkSetup [] here
  unfold isVisited Located.letsIn
  rw [Bool.and_assoc, ← List.nil_append [here], hsnoc]
  simp only [List.nil_append, List.head?_cons, Option.all_some, List.all_cons, List.all_nil,
    List.find?_nil, Option.all_none, List.any_nil, hurried, List.dropWhile_nil, Bool.true_and,
    Bool.and_true]
  cases here.isOpen s.reach <;> simp [Bool.and_assoc]

/-- Where a scan does not come to what is in some directories, it comes to nothing further down. -/
theorem isVisited_eq_false_of_prefix {below : List Located} (h : isVisited s root above = false)
    (hpre : above <+: below) : isVisited s root below = false := by
  obtain ⟨more, rfl⟩ := hpre
  induction more using List.reverseRecOn with
  | nil => rwa [List.append_nil]
  | append_singleton more last ih =>
    have hne : above ++ more ≠ [] := by
      intro hnil
      rw [hnil] at ih
      cases ih
    rw [← List.append_assoc, isVisited_snoc hne, ih, Bool.false_and]

/-- Nothing is counted there. -/
theorem recorded_eq_zero (hne : above ≠ []) (h : isVisited s root above = false) (dir : Path)
    (entries : List (String × Node)) : recorded s root isDir (belowEntries above dir entries) = 0 := by
  refine List.countP_eq_zero.2 fun d hd => ?_
  have hpre := above_prefix_of_mem_entries hd
  have hnot : d.above.isEmpty = false := by
    rw [List.isEmpty_eq_false_iff]
    intro hnil
    exact hne (List.prefix_nil.1 (hnil ▸ hpre))
  simp [Descendant.isRecorded, hnot, isVisited_eq_false_of_prefix h hpre]

/-- Below a directory something is counted only if a scan comes to it. -/
theorem recorded_inside {here : Located} {total : Nat} (dir : Path) (entries : List (String × Node))
    (h : isVisited s root (above ++ [here]) = true →
      recorded s root isDir (belowEntries (above ++ [here]) dir entries) = total) :
    recorded s root isDir (belowEntries (above ++ [here]) dir entries)
      = if isVisited s root (above ++ [here]) then total else 0 := by
  cases hvisited : isVisited s root (above ++ [here]) with
  | true => exact h hvisited
  | false => exact recorded_eq_zero (by simp) hvisited dir entries

/-! ### What a walk counts -/

section Walks

variable (hne : above ≠ []) (hvisited : isVisited s root above = true)

include hne hvisited

theorem isRecorded_of_isVisited (here : Located) :
    (⟨above, here⟩ : Descendant).isRecorded s root
      = (here.node.isDir || s.reach here.path) := by
  have hempty := List.isEmpty_eq_false_iff.2 hne
  simp [Descendant.isRecorded, hempty, hvisited]

/-- A directory that a scan comes to is counted. -/
theorem recorded_dir {here : Located} (hdir : here.node.isDir = true) (ds : List Descendant) :
    recorded s root isDir (⟨above, here⟩ :: ds)
      = (if isDir then 1 else 0) + recorded s root isDir ds := by
  rw [recorded_cons, isRecorded_of_isVisited hne hvisited, hdir]
  cases isDir <;> rfl

/-- Anything else is counted if it can be read. -/
theorem recorded_below_of_isDir_eq_false {node : Node} (hdir : node.isDir = false) (path : Path)
    (name : String) :
    recorded s root isDir (below above path name node)
      = if s.reach path && !isDir then 1 else 0 := by
  rw [below_of_isDir_eq_false hdir, recorded_cons, isRecorded_of_isVisited hne hvisited, hdir,
    recorded_nil]
  cases isDir <;> cases s.reach path <;> rfl

end Walks

theorem count_fastWalkFile (reach : Path → Bool) (isDir : Bool) (path : Path) (node : Node) :
    (fastWalkFile reach path node).trace.count isDir = if reach path && !isDir then 1 else 0 := by
  unfold fastWalkFile
  cases reach path <;> cases isDir <;> rfl

theorem count_walkFile (reach : Path → Bool) (c : ScanConfig) (isDir : Bool) (path : Path)
    (name : String) (node : Node) :
    (walkFile reach c path name node).trace.count isDir
      = if reach path && !isDir then 1 else 0 := by
  unfold walkFile
  cases reach path <;> cases isDir <;> rfl

theorem count_dir (isDir : Bool) : Trace.count isDir [.dir] = if isDir then 1 else 0 := by
  cases isDir <;> rfl

mutual
/-- **The fast walk** counts what a scan comes to below a directory that is sized in bulk. -/
theorem count_fastWalk {above : List Located} (hne : above ≠ [])
    (hvisited : isVisited s root above = true)
    (hbulk : above.any (Located.isFolded s.config) = true) (path : Path) (name : String) (node : Node) :
    (fastWalk s.reach s.late path node).trace.count isDir
      = recorded s root isDir (below above path name node) := by
  cases node with
  | dir mode accessed entries =>
    obtain ⟨here, hhere⟩ : ∃ here : Located, here = ⟨path, name, .dir mode accessed entries⟩ :=
      ⟨_, rfl⟩
    have hlets : isVisited s root (above ++ [here]) = (canList s.reach path mode && !s.late path) := by
      rw [isVisited_snoc hne, hvisited, hbulk, hhere]
      simp [Located.letsIn, Located.isOpen]
    rw [below, ← hhere, recorded_dir hne hvisited (by rw [hhere]; rfl),
      recorded_inside path entries fun h =>
        (count_fastWalkEntries (by simp) h (by rw [List.any_append, hbulk, Bool.true_or]) path
          entries).symm,
      hlets, fastWalk, Sized.after, Trace.count_append, count_dir]
    congr 1
    split <;> rfl
  | file data =>
    rw [recorded_below_of_isDir_eq_false hne hvisited rfl, fastWalk, count_fastWalkFile]
  | link target data =>
    rw [recorded_below_of_isDir_eq_false hne hvisited rfl, fastWalk, count_fastWalkFile]
  | special accessed =>
    rw [recorded_below_of_isDir_eq_false hne hvisited rfl, fastWalk, count_fastWalkFile]

theorem count_fastWalkEntries {above : List Located} (hne : above ≠ [])
    (hvisited : isVisited s root above = true)
    (hbulk : above.any (Located.isFolded s.config) = true) (dir : Path)
    (entries : List (String × Node)) :
    (fastWalkEntries s.reach s.late dir entries).trace.count isDir
      = recorded s root isDir (belowEntries above dir entries) := by
  cases entries with
  | nil => rfl
  | cons e rest =>
    obtain ⟨name, node⟩ := e
    rw [belowEntries, recorded_append, fastWalkEntries, Sized.append, Trace.count_append,
      count_fastWalk hne hvisited hbulk (dir.child name) name node,
      count_fastWalkEntries hne hvisited hbulk dir rest]
end

/-- **A directory sized in bulk** counts what a scan comes to in it: nothing if the usage tool gave its
size, or else what the fast walk comes to. -/
theorem count_foldedSize (isDir : Bool) {here : Located} {mode : DirMode} {accessed : Option Timestamp}
    {entries : List (String × Node)} (hhere : here = ⟨path, name, .dir mode accessed entries⟩)
    (hfold : here.isFolded s.config = true)
    (hvisited : isVisited s root (above ++ [here])
      = (canList s.reach path mode && (here.bulk? s.toWalkSetup).isNone && !s.late path)) :
    (foldedSize s.toWalkSetup path (.dir mode accessed entries)).trace.count isDir
      = recorded s root isDir (belowEntries (above ++ [here]) path entries) := by
  have hbulk : here.bulk? s.toWalkSetup = positiveSize? (s.tool path) := by
    rw [hhere]
    rfl
  have hany : (above ++ [here]).any (Located.isFolded s.config) = true := by
    simp [hfold]
  rw [recorded_inside path entries fun h =>
    (count_fastWalkEntries (by simp) h hany path entries).symm, hvisited, hbulk]
  unfold foldedSize
  cases positiveSize? (s.tool path) with
  | some size => simp [Trace.count, Event.tells]
  | none =>
    rw [Sized.after, Trace.count_append, fastDirSize, Option.isNone_none, Bool.and_true]
    have hasked : Trace.count isDir [.asked path] = 0 := rfl
    rw [hasked, Nat.zero_add]
    split <;> rfl

/-- What a walk counts, with what is counted in the directories that it leaves to be measured. -/
def Walked.tally (s : WalkSetup) (isDir : Bool) (w : Walked) : Nat :=
  w.trace.count isDir + (foldedSizes s w.folded).trace.count isDir

theorem Walked.tally_append (w : WalkSetup) (isDir : Bool) (a b : Walked) :
    (a.append b).tally w isDir = a.tally w isDir + b.tally w isDir := by
  simp only [tally, append, foldedSizes_append, Sized.append, Trace.count_append]
  omega

theorem Walked.tally_of_folded_eq_nil {w : WalkSetup} {x : Walked} (h : x.folded = []) (isDir : Bool) :
    x.tally w isDir = x.trace.count isDir := by
  rw [tally, h]
  rfl

theorem tally_walkFile (w : WalkSetup) (isDir : Bool) (path : Path) (name : String) (node : Node) :
    (walkFile w.reach w.config path name node).tally w isDir
      = if w.reach path && !isDir then 1 else 0 := by
  have hfolded : (walkFile w.reach w.config path name node).folded = [] := by
    unfold walkFile
    split <;> rfl
  rw [Walked.tally_of_folded_eq_nil hfolded, count_walkFile]

mutual
/-- **The walk** counts what a scan comes to where no directory above is sized in bulk. -/
theorem count_walk {above : List Located} (hne : above ≠ [])
    (hvisited : isVisited s root above = true)
    (htop : above.any (Located.isFolded s.config) = false) (path : Path) (name : String)
    (node : Node) :
    (walk s.reach s.config path name node).tally s.toWalkSetup isDir
      = recorded s root isDir (below above path name node) := by
  cases node with
  | dir mode accessed entries =>
    obtain ⟨here, hhere⟩ : ∃ here : Located, here = ⟨path, name, .dir mode accessed entries⟩ :=
      ⟨_, rfl⟩
    have hdir : here.node.isDir = true := by rw [hhere]; rfl
    have hfolded : here.isFolded s.config = s.config.shouldFold name path := by
      rw [hhere]
      rfl
    have hopen : here.isOpen s.reach = canList s.reach path mode := by rw [hhere]; rfl
    have hlets : isVisited s root (above ++ [here])
        = here.letsIn s.toWalkSetup false := by rw [isVisited_snoc hne, hvisited, htop, Bool.true_and]
    rw [below, ← hhere, recorded_dir hne hvisited hdir, walk]
    unfold Located.letsIn at hlets
    rw [hfolded, hopen] at hlets
    cases hfold : s.config.shouldFold name path with
    | true =>
      rw [hfold] at hfolded hlets
      have hinto : isVisited s root (above ++ [here])
          = (canList s.reach path mode && (here.bulk? s.toWalkSetup).isNone && !s.late path) := by
        rw [hlets, hhere]
        simp
      have hinside := count_foldedSize isDir hhere hfolded hinto
      rw [if_pos rfl, ← hinside, Walked.tally, Walked.fold, count_dir, foldedSizes, foldedSizes,
        Sized.append, Trace.count_append]
      rfl
    | false =>
      rw [hfold] at hfolded hlets
      have hany : (above ++ [here]).any (Located.isFolded s.config) = false := by
        simp [htop, hfolded]
      rw [if_neg Bool.false_ne_true,
        recorded_inside path entries fun h => (count_walkEntries (by simp) h hany path entries).symm,
        hlets]
      cases canList s.reach path mode with
      | true =>
        rw [if_pos rfl, Walked.tally_append, Walked.tally_of_folded_eq_nil (x := Walked.reached) rfl]
        exact congrArg (· + _) (count_dir isDir)
      | false =>
        rw [if_neg Bool.false_ne_true, Walked.tally_of_folded_eq_nil rfl]
        cases isDir <;> rfl
  | file data => rw [recorded_below_of_isDir_eq_false hne hvisited rfl, walk, tally_walkFile]
  | link target data => rw [recorded_below_of_isDir_eq_false hne hvisited rfl, walk, tally_walkFile]
  | special accessed => rw [recorded_below_of_isDir_eq_false hne hvisited rfl, walk, tally_walkFile]

theorem count_walkEntries {above : List Located} (hne : above ≠ [])
    (hvisited : isVisited s root above = true)
    (htop : above.any (Located.isFolded s.config) = false) (dir : Path)
    (entries : List (String × Node)) :
    (walkEntries s.reach s.config dir entries).tally s.toWalkSetup isDir
      = recorded s root isDir (belowEntries above dir entries) := by
  cases entries with
  | nil => rfl
  | cons e rest =>
    obtain ⟨name, node⟩ := e
    rw [belowEntries, recorded_append, walkEntries, Walked.tally_append,
      count_walk hne hvisited htop (dir.child name) name node,
      count_walkEntries hne hvisited htop dir rest]
end

/-! ### What a child counts -/

/-- A child that is no directory is counted if it can be read. -/
theorem count_child_of_isDir_eq_false {node : Node} (hdir : node.isDir = false) (path : Path)
    (name : String) :
    (happening s root ⟨path, name, node⟩).count isDir
      = recorded s root isDir (below [] path name node) := by
  have hlisted : (⟨path, name, node⟩ : Located).isListed s root = s.readsChild path := by
    simp [Located.isListed, Located.isSized, Located.isSealed, Located.isFolded, Located.isDenied, hdir]
  have hcount : (happening s root ⟨path, name, node⟩).count isDir
      = if s.readsChild path && !isDir then 1 else 0 := by
    cases node with
    | dir mode accessed entries => cases hdir
    | file data | link target data | special accessed =>
      simp only [happening, Node.kind, ScanConfig.classify, sizeChild]
      cases s.readsChild path <;> cases isDir <;> rfl
  rw [hcount, below_of_isDir_eq_false hdir, recorded_cons, recorded_nil]
  cases isDir <;> cases hreads : s.readsChild path <;>
    simp [Descendant.isRecorded, hlisted, hdir, hreads]

section Directory

variable {here : Located} {mode : DirMode} {accessed : Option Timestamp}
  {entries : List (String × Node)}

/-- A child that is a directory is counted if it is listed, and then what is counted in it. -/
theorem recorded_child (hhere : here = ⟨path, name, .dir mode accessed entries⟩) :
    recorded s root isDir (below [] path name (.dir mode accessed entries))
      = (if isDir && here.isListed s root then 1 else 0)
        + recorded s root isDir (belowEntries [here] path entries) := by
  have hdir : here.node.isDir = true := by
    rw [hhere]
    rfl
  rw [below, ← hhere, recorded_cons, List.nil_append, hdir]
  cases isDir <;> rfl

/-- Where a scan does not come to what is in a child, it counts at most the child. -/
theorem recorded_child_of_not_visited
    (hhere : here = ⟨path, name, .dir mode accessed entries⟩)
    (hnot : (here.isLookedInto s root && !here.isSealed s.config root) = false) :
    recorded s root isDir (below [] path name (.dir mode accessed entries))
      = if isDir && here.isListed s root then 1 else 0 := by
  have hvisited : isVisited s root [here] = false := by
    rw [isVisited_singleton, hnot, Bool.false_and]
  rw [recorded_child hhere, recorded_eq_zero (List.cons_ne_nil _ _) hvisited, Nat.add_zero]

/-- A child that is walked. -/
theorem count_walked_child (hhere : here = ⟨path, name, .dir mode accessed entries⟩)
    (hlook : here.isLookedInto s root = true) (hfold : s.config.shouldFold name path = false) :
    (SizedChild.ofSubtree name path (s.lastAccess path (.dir mode accessed entries))
        (dirSize s.toWalkSetup path name (.dir mode accessed entries))).trace.count isDir
      = recorded s root isDir (below [] path name (.dir mode accessed entries)) := by
  have hfolded : here.isFolded s.config = false := by
    rw [hhere]
    exact hfold
  have hopen : here.isOpen s.reach = canList s.reach path mode := by
    rw [hhere]
    rfl
  have hsealed : here.isSealed s.config root = false := by
    rw [Located.isSealed, hfolded, Bool.false_and, Bool.false_and]
  have hvisited : isVisited s root [here] = canList s.reach path mode := by
    rw [isVisited_singleton, hlook, hsealed, ← hopen, Located.letsIn, hfolded]
    simp
  have hlisted : here.isListed s root = canList s.reach path mode := by
    obtain ⟨hallowed, hanswer⟩ := Bool.and_eq_true_iff.1 hlook
    have hdir : here.node.isDir = true := by
      rw [hhere]
      rfl
    rw [Located.isListed, Located.isSized, hsealed, hallowed, hdir, hfolded, hopen,
      Option.isNone_iff_eq_none.1 hanswer]
    simp
  have hany : ([] ++ [here]).any (Located.isFolded s.config) = false := by
    simp [hfolded]
  have hinside : recorded s root isDir (belowEntries ([] ++ [here]) path entries)
      = if isVisited s root ([] ++ [here]) then
          (walkEntries s.reach s.config path entries).tally s.toWalkSetup isDir
        else 0 :=
    recorded_inside path entries fun h =>
      (count_walkEntries (List.cons_ne_nil here []) h hany path entries).symm
  rw [List.nil_append] at hinside
  rw [recorded_child hhere, hinside, hvisited, hlisted]
  rw [dirSize_of_not_folded s.toWalkSetup hfold]
  cases canList s.reach path mode with
  | true =>
    show Trace.count isDir (_ ++ _ ++ [Event.dir]) = _
    rw [Trace.count_append, Trace.count_append, count_dir, Bool.and_true, Nat.add_comm]
    rfl
  | false =>
    rw [Bool.and_false]
    cases isDir <;> rfl

/-- A child that is sized in bulk. -/
theorem count_folded_child (hhere : here = ⟨path, name, .dir mode accessed entries⟩)
    (hlook : here.isLookedInto s root = true) (hsealed : here.isSealed s.config root = false)
    (hfold : s.config.shouldFold name path = true) :
    (SizedChild.ofSize name path (s.lastAccess path (.dir mode accessed entries))
        (foldedSize s.toWalkSetup path (.dir mode accessed entries))).trace.count isDir
      = recorded s root isDir (below [] path name (.dir mode accessed entries)) := by
  have hfolded : here.isFolded s.config = true := by
    rw [hhere]
    exact hfold
  have hlisted : here.isListed s root = true := by
    obtain ⟨hallowed, -⟩ := Bool.and_eq_true_iff.1 hlook
    have hdir : here.node.isDir = true := by
      rw [hhere]
      rfl
    simp [Located.isListed, Located.isSized, hsealed, hallowed, hdir, hfolded]
  have hvisited : isVisited s root ([] ++ [here])
      = (canList s.reach path mode && (here.bulk? s.toWalkSetup).isNone && !s.late path) := by
    rw [List.nil_append, isVisited_singleton, hlook, hsealed, Located.letsIn, hfolded, hhere]
    simp [Located.isOpen]
  have hinside := count_foldedSize isDir hhere hfolded hvisited
  rw [recorded_child hhere, hlisted, Bool.and_true, ← List.nil_append [here], ← hinside,
    SizedChild.ofSize, Trace.count_append, count_dir, Nat.add_comm]

/-- The cached subtree, if it is also one that is sized in bulk and the cache does not answer for it. -/
theorem count_sealed_child (hhere : here = ⟨path, name, .dir mode accessed entries⟩)
    (hlook : here.isLookedInto s root = true)
    (hsub : (s.config.isHome root && here.name == s.config.cachedSubtreeName) = true)
    (hfold : s.config.shouldFold name path = true) :
    (SizedChild.ofSubtree name path (s.lastAccess path (.dir mode accessed entries))
        (dirSize s.toWalkSetup path name (.dir mode accessed entries))).trace.count isDir
      = recorded s root isDir (below [] path name (.dir mode accessed entries)) := by
  have hfolded : here.isFolded s.config = true := by
    rw [hhere]
    exact hfold
  have hsealed : here.isSealed s.config root = true := by
    rw [Located.isSealed, Bool.and_assoc, hfolded, hsub, Bool.and_true]
  have hlisted : here.isListed s root = s.reach path := by
    obtain ⟨hallowed, hanswer⟩ := Bool.and_eq_true_iff.1 hlook
    rw [Located.isListed, Located.isSized, hsealed, hallowed, hfolded,
      Option.isNone_iff_eq_none.1 hanswer, hhere]
    simp [Node.isDir]
  rw [recorded_child_of_not_visited hhere (by rw [hsealed, Bool.not_true, Bool.and_false]), hlisted,
    dirSize, hfold]
  cases s.reach path with
  | true => exact (count_dir isDir).trans (by rw [Bool.and_true])
  | false =>
    rw [Bool.and_false]
    rfl

end Directory

/-- **A child of the root** counts what a scan comes to in it. -/
theorem count_happening (s : ChildSetup) (root : Path) (isDir : Bool) (c : Located) :
    (happening s root c).count isDir = recorded s root isDir (below [] c.path c.name c.node) := by
  obtain ⟨path, name, node⟩ := c
  cases node with
  | file data | link target data | special accessed =>
    exact count_child_of_isDir_eq_false rfl path name
  | dir mode accessed entries =>
    obtain ⟨here, hhere⟩ : ∃ here : Located, here = ⟨path, name, .dir mode accessed entries⟩ :=
      ⟨_, rfl⟩
    have hdir : here.node.isDir = true := by
      rw [hhere]
      rfl
    have hdenied : here.isDenied s.config root
        = s.config.isDenylisted name (s.config.contextOf root).isFileSystemRoot := by
      rw [hhere]
      rfl
    have hfolded : here.isFolded s.config = s.config.shouldFold name path := by
      rw [hhere]
      rfl
    have hname : here.name = name := by rw [hhere]
    cases hden : s.config.isDenylisted name (s.config.contextOf root).isFileSystemRoot with
    | true =>
      rw [hden] at hdenied
      have hnot : (here.isLookedInto s root && !here.isSealed s.config root) = false := by
        simp [Located.isLookedInto, hdenied]
      rw [recorded_child_of_not_visited hhere hnot]
      simp [happening, Node.kind, ScanConfig.classify, hden, sizeChild, Located.isListed,
        Located.isSized, hdenied]
    | false =>
      rw [hden] at hdenied
      have hanswer : here.answer? s root
          = if s.config.isHome root && name == s.config.cachedSubtreeName then
              s.known.subtreeSize? path
            else none := by
        rw [hhere]
        exact answer?_of_allowed hden
      rw [happening_of_allowed hden]
      cases hsub : s.config.isHome root && name == s.config.cachedSubtreeName with
      | true =>
        rw [if_pos rfl, sizeChild]
        rw [hsub, if_pos rfl] at hanswer
        cases hknown : s.known.subtreeSize? path with
        | some size =>
          rw [hknown] at hanswer
          have hnot : (here.isLookedInto s root && !here.isSealed s.config root) = false := by
            simp [Located.isLookedInto, hanswer]
          have hlisted : here.isListed s root = true := by
            simp [Located.isListed, Located.isSized, hdir, hdenied, hanswer]
          rw [recorded_child_of_not_visited hhere hnot, hlisted, Bool.and_true]
          exact count_dir isDir
        | none =>
          rw [hknown] at hanswer
          have hlook : here.isLookedInto s root = true := by
            simp [Located.isLookedInto, hdenied, hanswer]
          cases hfold : s.config.shouldFold name path with
          | true => exact count_sealed_child hhere hlook (by rw [hname]; exact hsub) hfold
          | false => exact count_walked_child hhere hlook hfold
      | false =>
        rw [hsub, if_neg Bool.false_ne_true] at hanswer
        have hsealed : here.isSealed s.config root = false := by
          rw [Located.isSealed, Bool.and_assoc, hname, hsub, Bool.and_false]
        have hlook : here.isLookedInto s root = true := by
          simp [Located.isLookedInto, hdenied, hanswer]
        rw [if_neg Bool.false_ne_true]
        cases hfold : s.config.shouldFold name path with
        | true => exact count_folded_child hhere hlook hsealed hfold
        | false => exact count_walked_child hhere hlook hfold

/-- All children together count what a scan comes to below the root. -/
theorem count_scanChildren (s : ChildSetup) (root : Path) (isDir : Bool)
    (entries : List (String × Node)) :
    (childrenTrace (scanChildren s root entries)).count isDir
      = recorded s root isDir (belowEntries [] root entries) := by
  rw [childrenTrace_scanChildren]
  induction entries with
  | nil => rfl
  | cons e rest ih =>
    obtain ⟨name, node⟩ := e
    rw [childrenOf_cons, List.flatMap_cons, Trace.count_append, ih, belowEntries, recorded_append,
      count_happening]

/-- What the cache answers for a child is the size that the child is listed with. -/
theorem size_of_answer? {c : Located} {size : Nat} (h : c.answer? s root = some size) :
    (listing? s root c).map DirEntry.size = some size := by
  obtain ⟨path, name, node⟩ := c
  cases node with
  | file data | link target data | special accessed => simp [Located.answer?, Node.isDir] at h
  | dir mode accessed entries =>
    cases hden : s.config.isDenylisted name (s.config.contextOf root).isFileSystemRoot with
    | true => simp [Located.answer?, Located.isDenied, Node.isDir, hden] at h
    | false =>
      rw [answer?_of_allowed hden] at h
      rw [listing?_of_allowed hden]
      cases hsub : s.config.isHome root && name == s.config.cachedSubtreeName with
      | true =>
        rw [hsub, if_pos rfl] at h
        rw [if_pos rfl, sizeChild, h]
        rfl
      | false =>
        rw [hsub] at h
        cases h

/-- What the cache answers is a part of what is listed. -/
theorem answered_le_listed (s : ChildSetup) (root : Path) (entries : List (String × Node)) :
    answered s root entries
      ≤ (((childrenOf root entries).filterMap (listing? s root)).map DirEntry.size).sum := by
  unfold answered
  induction childrenOf root entries with
  | nil => exact Nat.le_refl 0
  | cons c cs ih =>
    rw [List.filterMap_cons, List.filterMap_cons]
    cases hanswer : c.answer? s root with
    | none => cases listing? s root c <;> simp <;> omega
    | some size =>
      obtain ⟨e, he, hsize⟩ := Option.map_eq_some_iff.1 (size_of_answer? hanswer)
      simp only [he, List.map_cons, List.sum_cons, hsize]
      omega

/-- **The counters account for the scan**, in whatever order its workers record what happens.  The
bytes that were scanned are the total without what the cache answers, both as 64-bit words; where all
children that are listed fit into a word, nothing is lost by that.  The files are those that were
sized one by one, and the directories those that were reached, each counted once; a result tells the
same of them as the counters. -/
theorem counters_account_for_the_scan (s : ScanSetup) (root : Path) {r : ScanResult}
    (hr : (scan s root).2 = .ok r) :
    ∃ entries, s.list root = .ok entries ∧
      (let everything := belowEntries [] root entries
       let kept := answered s.toChildSetup root entries
       let listed := (childrenOf root entries).filterMap (listing? s.toChildSetup root)
       ∀ inAnyOrder, inAnyOrder ~ (scan s root).1 →
        let counters := Counters.zero.after inAnyOrder
        counters.bytes = .ofNat r.totalSize - .ofNat kept ∧
        ((listed.map DirEntry.size).sum < Number.wordCount →
          kept ≤ r.totalSize ∧ counters.bytes.toNat = r.totalSize - kept) ∧
        counters.files = .ofNat (recorded s.toChildSetup root false everything) ∧
        counters.dirs = .ofNat (recorded s.toChildSetup root true everything) ∧
        r.filesScanned = counters.files.toNat ∧ r.dirsScanned = counters.dirs.toNat) := by
  obtain ⟨entries, hlist, hstart, rfl⟩ := exists_list_of_scan hr
  refine ⟨entries, hlist, ?_⟩
  intro everything kept listed inAnyOrder hperm counters
  rw [scan_eq_of_list hlist hstart] at hperm
  have hinOrder : counters
      = Counters.zero.after (childrenTrace (scanChildren s.toChildSetup root entries)) :=
    Counters.after_perm hperm .zero
  obtain ⟨hfiles, hdirs, htotal⟩ :=
    Counters.after_eq .zero (childrenTrace (scanChildren s.toChildSetup root entries))
  have hzero : Counters.zero.files = 0 ∧ Counters.zero.dirs = 0 ∧ Counters.zero.bytes = 0 :=
    ⟨rfl, rfl, rfl⟩
  have hbytes : counters.bytes
      = .ofNat (totalSize (scanChildren s.toChildSetup root entries)) - .ofNat kept := by
    rw [hinOrder, htotal, hzero.2.2, UInt64.zero_add, ← bytes_scanChildren, Number.ofNat_wrap,
      UInt64.ofNat_add, UInt64.add_sub_cancel]
  have htold : (scanResult s root (scanChildren s.toChildSetup root entries)).filesScanned
        = counters.files.toNat
      ∧ (scanResult s root (scanChildren s.toChildSetup root entries)).dirsScanned
        = counters.dirs.toNat := by
    rw [hinOrder]
    exact ⟨rfl, rfl⟩
  refine ⟨hbytes, ?_, ?_, ?_, htold⟩
  · intro hfits
    have hwhole : totalSize (scanChildren s.toChildSetup root entries)
        = (listed.map DirEntry.size).sum := by
      rw [totalSize_eq, listed_scanChildren, Number.wrap_of_lt hfits]
    have hkept : kept ≤ totalSize (scanChildren s.toChildSetup root entries) :=
      hwhole ▸ answered_le_listed s.toChildSetup root entries
    have hword : totalSize (scanChildren s.toChildSetup root entries) < Number.wordCount :=
      totalSize_lt _
    refine ⟨hkept, ?_⟩
    rw [hbytes, ← UInt64.ofNat_sub hkept]
    exact UInt64.toNat_ofNat_of_lt' (Nat.lt_of_le_of_lt (Nat.sub_le ..) hword)
  · rw [hinOrder, hfiles, hzero.1, UInt64.zero_add, count_scanChildren]
  · rw [hinOrder, hdirs, hzero.2.1, UInt64.zero_add, count_scanChildren]

/-- A scan of the sample directory in which one fast walk has no time left. -/
def hurriedScan : ScanSetup :=
  { sampleScan with late := fun path => path.text == "/h/src/.git/node_modules" }

/-- `main`, `pack`, `link` and `note` are sized one by one.  The fast walk of `.git` reaches the directory
in it without a look inside, as does the walk of `src` with `locked`. -/
theorem hurried_scan_is_accounted_for :
    ∃ r, (scan hurriedScan ⟨"/h"⟩).2 = .ok r ∧
      (r.totalSize, answered hurriedScan.toChildSetup ⟨"/h"⟩ sampleEntries) = (1395, 1000) ∧
      (r.filesScanned, r.dirsScanned) = (4, 6) ∧
      (let counters := Counters.zero.after (scan hurriedScan ⟨"/h"⟩).1.reverse
       counters.bytes.toNat = r.totalSize - 1000 ∧
        counters.files = .ofNat (recorded hurriedScan.toChildSetup ⟨"/h"⟩ false
          (belowEntries [] ⟨"/h"⟩ sampleEntries)) ∧
        counters.dirs = .ofNat (recorded hurriedScan.toChildSetup ⟨"/h"⟩ true
          (belowEntries [] ⟨"/h"⟩ sampleEntries)) ∧
        r.filesScanned = counters.files.toNat ∧ r.dirsScanned = counters.dirs.toNat) := by
  refine ⟨_, rfl, by decide +kernel, by decide +kernel, ?_⟩
  obtain ⟨entries, hlist, hcounters⟩ := counters_account_for_the_scan hurriedScan ⟨"/h"⟩ rfl
  have hentries : sampleEntries = entries := by
    have hsample : hurriedScan.list ⟨"/h"⟩ = .ok sampleEntries := by rfl
    exact Except.ok.inj (hsample.symm.trans hlist)
  rw [← hentries] at hcounters
  have hanswered : answered hurriedScan.toChildSetup ⟨"/h"⟩ sampleEntries = 1000 := by decide +kernel
  obtain ⟨-, hbytes, hfiles, hdirs, hresult⟩ := hcounters _ (List.reverse_perm _)
  rw [hanswered] at hbytes
  exact ⟨(hbytes (by decide +kernel)).2, hfiles, hdirs, hresult⟩

/-- A scan of a home directory with a file of two bytes, for whose cached subtree the largest size that
there is was kept. -/
def hugeAnswerScan : ScanSetup :=
  { sampleScan with
    known := ⟨fun path => if path.text = "/h/Library" then some Number.maxWord else none, fun _ => none⟩
    list := fun _ => .ok [("Library", .dir .free none []), ("f", .file ⟨0, .fill 2, none⟩)] }

/-- **An answer that is too large** for the rest: the bytes that were scanned are not the difference of the
total and the answer. -/
theorem overflowing_answer_is_not_taken_off :
    ∃ r, (scan hugeAnswerScan ⟨"/h"⟩).2 = .ok r ∧ r.totalSize = 1 ∧
      hugeAnswerScan.known.subtreeSize? ⟨"/h/Library"⟩ = some 18446744073709551615 ∧
      (let counters := Counters.zero.after (scan hugeAnswerScan ⟨"/h"⟩).1
       counters.bytes = 2 ∧
        (counters.bytes.toNat : Int) ≠ r.totalSize - 18446744073709551615) :=
  ⟨_, rfl, by decide +kernel, by decide +kernel, by decide +kernel, by decide +kernel⟩

end DiskUsage
