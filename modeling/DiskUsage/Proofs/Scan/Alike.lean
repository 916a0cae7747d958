import DiskUsage.Proofs.Scan.Recorded

/-!
# Trees that a walk does not tell apart

A walk does not follow links, and it does not look into a directory that the usage tool sizes.  So trees
that differ only there are alike to it: it finds the same sizes and large files, and the same happens,
perhaps in another order.  A fast walk looks into every directory, also into one that would be sized in
bulk if it were met elsewhere.  What a walk comes to has to be within reach in both trees or in neither.

* `Leaf`, `Twin`, `Alike`: nodes that are the same by themselves, to the fast walk and to the walk.
* `Twin.fastWalk`, `Alike.walk`: both walks find the same in them.
* `Alike.foldedSize`, `Alike.dirSize`: so they have the same size, in bulk or file by file.
-/

open scoped List

namespace DiskUsage

/-! ### Nodes that are alike -/

/-- Nodes that are no directories, and the same but for where a link leads and when they were used. -/
inductive Leaf : Node → Node → Prop
  | file {data data' : FileData} (h : data.content = data'.content) : Leaf (.file data) (.file data')
  /-- The text of the link may be another one, as long as it takes the same space. -/
  | link {target target' : Path} {data data' : LinkData}
      (h : (Node.link target data).actualSize = (Node.link target' data').actualSize) :
      Leaf (.link target data) (.link target' data')
  | special {accessed accessed' : Option Timestamp} : Leaf (.special accessed) (.special accessed')

mutual
/-- Trees at this path that a fast walk does not tell apart. -/
inductive Twin (reach reach' : Path → Bool) : Path → Node → Node → Prop
  | leaf {path : Path} {node node' : Node} (h : Leaf node node') (hreach : reach path = reach' path) :
      Twin reach reach' path node node'
  | dir {path : Path} {mode : DirMode} {accessed accessed' : Option Timestamp}
      {entries entries' : List (String × Node)} (hreach : reach path = reach' path)
      (h : Twins reach reach' path entries entries') :
      Twin reach reach' path (.dir mode accessed entries) (.dir mode accessed' entries')

/-- Entries of the directory at this path, with the same names and twins under them, in any order. -/
inductive Twins (reach reach' : Path → Bool) : Path → List (String × Node) → List (String × Node) → Prop
  | nil {dir : Path} : Twins reach reach' dir [] []
  | cons {dir : Path} {name : String} {node node' : Node} {rest rest' : List (String × Node)}
      (h : Twin reach reach' (dir.child name) node node') (hrest : Twins reach reach' dir rest rest') :
      Twins reach reach' dir ((name, node) :: rest) ((name, node') :: rest')
  | reorder {dir : Path} {entries entries' listed : List (String × Node)}
      (h : Twins reach reach' dir entries entries') (hperm : entries' ~ listed) :
      Twins reach reach' dir entries listed
end

mutual
/-- Trees that a walk does not tell apart, each with its answers of the usage tool.  Anything may be in a
directory that is sized in bulk if both tools give it the same size. -/
inductive Alike (s s' : WalkSetup) : Path → String → Node → Node → Prop
  | leaf {path : Path} {name : String} {node node' : Node} (h : Leaf node node')
      (hreach : s.reach path = s'.reach path) : Alike s s' path name node node'
  | sized {path : Path} {name : String} {mode mode' : DirMode} {accessed accessed' : Option Timestamp}
      {entries entries' : List (String × Node)} {size : Nat} (hreach : s.reach path = s'.reach path)
      (hfold : s.config.shouldFold name path = true) (hsize : positiveSize? (s.tool path) = some size)
      (hsize' : positiveSize? (s'.tool path) = some size) :
      Alike s s' path name (.dir mode accessed entries) (.dir mode' accessed' entries')
  | unsized {path : Path} {name : String} {mode : DirMode} {accessed accessed' : Option Timestamp}
      {entries entries' : List (String × Node)} (hreach : s.reach path = s'.reach path)
      (hfold : s.config.shouldFold name path = true) (hsize : positiveSize? (s.tool path) = none)
      (hsize' : positiveSize? (s'.tool path) = none) (h : Twins s.reach s'.reach path entries entries') :
      Alike s s' path name (.dir mode accessed entries) (.dir mode accessed' entries')
  | dir {path : Path} {name : String} {mode : DirMode} {accessed accessed' : Option Timestamp}
      {entries entries' : List (String × Node)} (hreach : s.reach path = s'.reach path)
      (hfold : s.config.shouldFold name path = false) (h : AlikeEntries s s' path entries entries') :
      Alike s s' path name (.dir mode accessed entries) (.dir mode accessed' entries')

/-- Entries of the directory at this path, with the same names and trees that are alike under them, in any
order. -/
inductive AlikeEntries (s s' : WalkSetup) : Path → List (String × Node) → List (String × Node) → Prop
  | nil {dir : Path} : AlikeEntries s s' dir [] []
  | cons {dir : Path} {name : String} {node node' : Node} {rest rest' : List (String × Node)}
      (h : Alike s s' (dir.child name) name node node') (hrest : AlikeEntries s s' dir rest rest') :
      AlikeEntries s s' dir ((name, node) :: rest) ((name, node') :: rest')
  | reorder {dir : Path} {entries entries' listed : List (String × Node)}
      (h : AlikeEntries s s' dir entries entries') (hperm : entries' ~ listed) :
      AlikeEntries s s' dir entries listed
end

theorem Leaf.refl {node : Node} (h : node.isDir = false) : Leaf node node := by
  cases node with
  | file data => exact .file rfl
  | link target data => exact .link rfl
  | special accessed => exact .special
  | dir mode accessed entries => cases h

mutual
theorem Twin.refl (reach : Path → Bool) (path : Path) (node : Node) : Twin reach reach path node node := by
  cases node with
  | dir mode accessed entries => exact .dir rfl (Twins.refl reach path entries)
  | file data | link target data | special accessed => exact .leaf (.refl rfl) rfl

theorem Twins.refl (reach : Path → Bool) (dir : Path) (entries : List (String × Node)) :
    Twins reach reach dir entries entries := by
  cases entries with
  | nil => exact .nil
  | cons e rest =>
    obtain ⟨name, node⟩ := e
    exact .cons (Twin.refl reach _ node) (Twins.refl reach dir rest)
end

mutual
/-- A tree is alike to itself, as long as the usage tool gives the same sizes. -/
theorem Alike.refl {s s' : WalkSetup} (hreach : s'.reach = s.reach)
    (htool : ∀ path, positiveSize? (s.tool path) = positiveSize? (s'.tool path)) (path : Path)
    (name : String) (node : Node) : Alike s s' path name node node := by
  cases node with
  | dir mode accessed entries =>
    cases hfold : s.config.shouldFold name path with
    | true =>
      cases hsize : positiveSize? (s.tool path) with
      | some size => exact .sized (by rw [hreach]) hfold hsize ((htool path).symm.trans hsize)
      | none =>
        exact .unsized (by rw [hreach]) hfold hsize ((htool path).symm.trans hsize)
          (hreach ▸ .refl s.reach path entries)
    | false => exact .dir (by rw [hreach]) hfold (AlikeEntries.refl hreach htool path entries)
  | file data | link target data | special accessed => exact .leaf (.refl rfl) (by rw [hreach])

theorem AlikeEntries.refl {s s' : WalkSetup} (hreach : s'.reach = s.reach)
    (htool : ∀ path, positiveSize? (s.tool path) = positiveSize? (s'.tool path)) (dir : Path)
    (entries : List (String × Node)) : AlikeEntries s s' dir entries entries := by
  cases entries with
  | nil => exact .nil
  | cons e rest =>
    obtain ⟨name, node⟩ := e
    exact .cons (Alike.refl hreach htool _ name node) (AlikeEntries.refl hreach htool dir rest)
end

namespace Leaf

variable {node node' : Node}

theorem isDir_eq_false (h : Leaf node node') : node.isDir = false ∧ node'.isDir = false := by
  cases h <;> exact ⟨rfl, rfl⟩

theorem actualSize_eq (h : Leaf node node') : node.actualSize = node'.actualSize := by
  cases h with
  | file h => exact congrArg Content.actualSize h
  | link h => exact h
  | special => rfl

theorem isRegular_eq (h : Leaf node node') : node.isRegular = node'.isRegular := by
  cases h <;> rfl

end Leaf

theorem canList_congr {reach reach' : Path → Bool} {path : Path} (mode : DirMode)
    (hreach : reach path = reach' path) : canList reach path mode = canList reach' path mode := by
  rw [canList, canList, hreach]

theorem fastWalk_of_isDir_eq_false {node : Node} (h : node.isDir = false) (reach late : Path → Bool)
    (path : Path) : fastWalk reach late path node = fastWalkFile reach path node := by
  cases node with
  | dir mode accessed entries => cases h
  | _ => rfl

theorem walk_of_isDir_eq_false {node : Node} (h : node.isDir = false) (reach : Path → Bool)
    (c : ScanConfig) (path : Path) (name : String) :
    walk reach c path name node = walkFile reach c path name node := by
  cases node with
  | dir mode accessed entries => cases h
  | _ => rfl

/-! ### What a fast walk finds -/

/-- The same size is found, and the same happens, perhaps in another order. -/
structure Sized.Same (a b : Sized) : Prop where
  trace : a.trace ~ b.trace
  size : a.size = b.size

namespace Sized.Same

variable {a b c d : Sized}

theorem refl (a : Sized) : Sized.Same a a :=
  ⟨.refl _, rfl⟩

theorem trans (h : Sized.Same a b) (k : Sized.Same b c) : Sized.Same a c :=
  ⟨h.trace.trans k.trace, h.size.trans k.size⟩

theorem append (h : Sized.Same a b) (k : Sized.Same c d) : Sized.Same (a.append c) (b.append d) :=
  ⟨h.trace.append k.trace, congrArg₂ (· + ·) h.size k.size⟩

theorem after (h : Sized.Same a b) (trace : Trace) : Sized.Same (a.after trace) (b.after trace) :=
  ⟨h.trace.append_left trace, h.size⟩

theorem word (h : Sized.Same a b) : Sized.Same a.word b.word :=
  ⟨h.trace, congrArg Number.wrap h.size⟩

theorem left_comm (a b c : Sized) : Sized.Same (a.append (b.append c)) (b.append (a.append c)) where
  trace := by
    simp only [Sized.append, ← List.append_assoc]
    exact List.perm_append_comm.append_right c.trace
  size := Nat.add_left_comm a.size b.size c.size

end Sized.Same

theorem fastWalkFile_same {reach reach' : Path → Bool} {path : Path} {node node' : Node}
    (h : Leaf node node') (hreach : reach path = reach' path) :
    fastWalkFile reach path node = fastWalkFile reach' path node' := by
  rw [fastWalkFile, fastWalkFile, h.actualSize_eq, hreach]

/-- The order of the entries makes no difference to a fast walk. -/
theorem fastWalkEntries_perm (reach late : Path → Bool) (dir : Path)
    {entries listed : List (String × Node)} (h : entries ~ listed) :
    Sized.Same (fastWalkEntries reach late dir entries) (fastWalkEntries reach late dir listed) := by
  induction h with
  | nil => exact .refl _
  | cons e h ih => exact (Sized.Same.refl _).append ih
  | swap e e' rest => exact .left_comm _ _ _
  | trans h k ih ih' => exact ih.trans ih'

section Twin

variable {reach reach' : Path → Bool}

mutual
/-- **A fast walk** finds the same in twins. -/
theorem Twin.fastWalk (late : Path → Bool) :
    ∀ {path : Path} {node node' : Node}, Twin reach reach' path node node' →
      Sized.Same (fastWalk reach late path node) (fastWalk reach' late path node')
  | _, _, _, .leaf h hreach => by
    rw [fastWalk_of_isDir_eq_false h.isDir_eq_false.1, fastWalk_of_isDir_eq_false h.isDir_eq_false.2,
      fastWalkFile_same h hreach]
    exact .refl _
  | path, .dir mode accessed entries, .dir _ accessed' entries', .dir hreach h => by
    have hinside := h.fastWalkEntries late
    rw [DiskUsage.fastWalk, DiskUsage.fastWalk, canList_congr mode hreach]
    refine Sized.Same.after ?_ [.dir]
    split
    · exact hinside
    · exact .refl _

theorem Twins.fastWalkEntries (late : Path → Bool) :
    ∀ {dir : Path} {entries entries' : List (String × Node)}, Twins reach reach' dir entries entries' →
      Sized.Same (fastWalkEntries reach late dir entries) (fastWalkEntries reach' late dir entries')
  | _, _, _, .nil => .refl _
  | _, _, _, .cons h hrest => (h.fastWalk late).append (hrest.fastWalkEntries late)
  | dir, _, _, .reorder h hperm =>
    (h.fastWalkEntries late).trans (fastWalkEntries_perm reach' late dir hperm)
end

end Twin

/-! ### What a walk finds -/

variable {s s' : WalkSetup}

/-- The same is found, the directories to measure in bulk having the same sizes. -/
structure Walked.Same (s s' : WalkSetup) (a b : Walked) : Prop where
  trace : a.trace ~ b.trace
  size : a.size = b.size
  large : a.large ~ b.large
  folded : Sized.Same (foldedSizes s a.folded) (foldedSizes s' b.folded)

namespace Walked.Same

variable {a b c d : Walked}

/-- Where nothing is left to be measured in bulk. -/
theorem of_eq (h : a = b) (hfolded : a.folded = []) : Walked.Same s s' a b := by
  subst h
  refine ⟨.refl _, rfl, .refl _, ?_⟩
  rw [hfolded]
  exact .refl _

theorem trans {s'' : WalkSetup} (h : Walked.Same s s' a b) (k : Walked.Same s' s'' b c) :
    Walked.Same s s'' a c :=
  ⟨h.trace.trans k.trace, h.size.trans k.size, h.large.trans k.large, h.folded.trans k.folded⟩

theorem append (h : Walked.Same s s' a b) (k : Walked.Same s s' c d) :
    Walked.Same s s' (a.append c) (b.append d) where
  trace := h.trace.append k.trace
  size := congrArg₂ (· + ·) h.size k.size
  large := h.large.append k.large
  folded := by
    simp only [Walked.append, foldedSizes_append]
    exact h.folded.append k.folded

theorem refl (s : WalkSetup) (a : Walked) : Walked.Same s s a a :=
  ⟨.refl _, rfl, .refl _, .refl _⟩

theorem left_comm (s : WalkSetup) (a b c : Walked) :
    Walked.Same s s (a.append (b.append c)) (b.append (a.append c)) where
  trace := by
    simp only [Walked.append, ← List.append_assoc]
    exact List.perm_append_comm.append_right c.trace
  size := Nat.add_left_comm a.size b.size c.size
  large := by
    simp only [Walked.append, ← List.append_assoc]
    exact List.perm_append_comm.append_right c.large
  folded := by
    simp only [Walked.append, foldedSizes_append]
    exact .left_comm _ _ _

end Walked.Same

theorem walkFile_same {reach reach' : Path → Bool} (c : ScanConfig) {path : Path} (name : String)
    {node node' : Node} (h : Leaf node node') (hreach : reach path = reach' path) :
    walkFile reach c path name node = walkFile reach' c path name node' := by
  rw [walkFile, walkFile, h.actualSize_eq, h.isRegular_eq, hreach]

theorem folded_walkFile (reach : Path → Bool) (c : ScanConfig) (path : Path) (name : String)
    (node : Node) : (walkFile reach c path name node).folded = [] := by
  unfold walkFile
  split <;> rfl

/-- The order of the entries makes no difference to a walk. -/
theorem walkEntries_perm (s : WalkSetup) (dir : Path) {entries listed : List (String × Node)}
    (h : entries ~ listed) :
    Walked.Same s s (walkEntries s.reach s.config dir entries) (walkEntries s.reach s.config dir listed) := by
  induction h with
  | nil => exact .refl _ _
  | cons e h ih => exact (Walked.Same.refl _ _).append ih
  | swap e e' rest => exact .left_comm _ _ _ _
  | trans h k ih ih' => exact ih.trans ih'

/-- **A directory that is sized in bulk** has the same size, from the usage tool or from the fast walk. -/
theorem Alike.foldedSize (hlate : s'.late = s.late) {path : Path} {name : String} {node node' : Node}
    (h : Alike s s' path name node node') (hdir : node.isDir = true)
    (hfold : s.config.shouldFold name path = true) :
    Sized.Same (foldedSize s path node) (foldedSize s' path node') := by
  cases h with
  | leaf h _ => exact absurd (hdir.symm.trans h.isDir_eq_false.1) nofun
  | sized _ _ hsize hsize' =>
    rw [DiskUsage.foldedSize, DiskUsage.foldedSize, hsize, hsize']
    exact .refl _
  | @unsized _ _ mode _ _ _ _ hreach _ hsize hsize' h =>
    have hinside := h.fastWalkEntries s.late
    rw [DiskUsage.foldedSize, DiskUsage.foldedSize, hsize, hsize', hlate]
    refine Sized.Same.after ?_ [.asked path]
    rw [fastDirSize, fastDirSize, canList_congr mode hreach]
    split
    · exact hinside.word
    · exact .refl _
  | dir _ hnot h => exact absurd (hfold.symm.trans hnot) nofun

/-- A directory to measure in bulk. -/
theorem fold_same {path : Path} {node node' : Node}
    (h : Sized.Same (foldedSize s path node) (foldedSize s' path node')) :
    Walked.Same s s' (.fold path node) (.fold path node') :=
  ⟨.refl _, rfl, .refl _, h.append (.refl .empty)⟩

mutual
/-- **A walk** finds the same in trees that are alike. -/
theorem Alike.walk (hconfig : s'.config = s.config) (hlate : s'.late = s.late) :
    ∀ {path : Path} {name : String} {node node' : Node}, Alike s s' path name node node' →
      Walked.Same s s' (walk s.reach s.config path name node) (walk s'.reach s'.config path name node')
  | path, name, _, _, .leaf h hreach => by
    rw [walk_of_isDir_eq_false h.isDir_eq_false.1, walk_of_isDir_eq_false h.isDir_eq_false.2, hconfig]
    exact .of_eq (walkFile_same s.config name h hreach) (folded_walkFile ..)
  | path, name, .dir mode accessed entries, .dir mode' accessed' entries',
      .sized hreach hfold hsize hsize' => by
    rw [DiskUsage.walk, DiskUsage.walk, hconfig, hfold]
    exact fold_same ((Alike.sized hreach hfold hsize hsize').foldedSize hlate rfl hfold)
  | path, name, .dir mode accessed entries, .dir _ accessed' entries',
      .unsized hreach hfold hsize hsize' h => by
    rw [DiskUsage.walk, DiskUsage.walk, hconfig, hfold]
    exact fold_same ((Alike.unsized hreach hfold hsize hsize' h).foldedSize hlate rfl hfold)
  | path, name, .dir mode accessed entries, .dir _ accessed' entries', .dir hreach hfold h => by
    have hinside := h.walkEntries hconfig hlate
    rw [hconfig] at hinside
    rw [DiskUsage.walk, DiskUsage.walk, hconfig, hfold, if_neg Bool.false_ne_true,
      if_neg Bool.false_ne_true, canList_congr mode hreach]
    split
    · exact (Walked.Same.of_eq rfl rfl).append hinside
    · exact .of_eq rfl rfl

theorem AlikeEntries.walkEntries (hconfig : s'.config = s.config) (hlate : s'.late = s.late) :
    ∀ {dir : Path} {entries entries' : List (String × Node)}, AlikeEntries s s' dir entries entries' →
      Walked.Same s s' (walkEntries s.reach s.config dir entries)
        (walkEntries s'.reach s'.config dir entries')
  | _, _, _, .nil => .of_eq rfl rfl
  | _, _, _, .cons h hrest => (h.walk hconfig hlate).append (hrest.walkEntries hconfig hlate)
  | dir, _, _, .reorder h hperm =>
    (h.walkEntries hconfig hlate).trans (walkEntries_perm s' dir hperm)
end

/-! ### The size of a subtree -/

/-- The same size or none, and the same large files. -/
structure SubtreeSized.Same (a b : SubtreeSized) : Prop where
  trace : a.trace ~ b.trace
  size? : a.size? = b.size?
  large : a.large ~ b.large

theorem SubtreeSized.Same.refl (a : SubtreeSized) : SubtreeSized.Same a a :=
  ⟨.refl _, rfl, .refl _⟩

theorem Walked.Same.finish {a b : Walked} (h : Walked.Same s s' a b) :
    SubtreeSized.Same (a.finish s) (b.finish s') where
  trace := h.trace.append h.folded.trace
  size? := congrArg (some ∘ Number.wrap) (congrArg₂ (· + ·) h.size h.folded.size)
  large := h.large

/-- A subtree that would be sized in bulk is not looked into: it has no size of its own. -/
theorem dirSize_of_shouldFold {path : Path} {name : String}
    (hfold : s.config.shouldFold name path = true) (mode : DirMode) (accessed : Option Timestamp)
    (entries : List (String × Node)) :
    dirSize s path name (.dir mode accessed entries)
      = if s.reach path then ⟨[], some 0, []⟩ else ⟨[.error], none, []⟩ := by
  rw [dirSize, hfold]
  cases s.reach path <;> rfl

/-- **Directories that are alike** have the same size when they are walked. -/
theorem Alike.dirSize (hconfig : s'.config = s.config) (hlate : s'.late = s.late) {path : Path}
    {name : String} {node node' : Node} (h : Alike s s' path name node node') (hdir : node.isDir = true) :
    SubtreeSized.Same (dirSize s path name node) (dirSize s' path name node') := by
  cases h with
  | leaf h _ => exact absurd (hdir.symm.trans h.isDir_eq_false.1) nofun
  | sized hreach hfold _ _ | unsized hreach hfold _ _ _ =>
    rw [dirSize_of_shouldFold hfold, dirSize_of_shouldFold (hconfig ▸ hfold), hreach]
    exact .refl _
  | dir hreach hfold h =>
    have hinside := (h.walkEntries hconfig hlate).finish
    rw [dirSize_of_not_folded s hfold, dirSize_of_not_folded s' (hconfig ▸ hfold), canList_congr _ hreach]
    split
    · exact hinside
    · exact .refl _

end DiskUsage
