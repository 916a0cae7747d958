import DiskUsage.Proofs.Scan.Descendant

/-!
# What the walks add up

The walk over a subtree and the fast walk add up the shares of what lies below, each where it is used, as
far as words can tell.  The walk runs where no directory above is sized in bulk, and the fast walk where one
is but the usage tool gave it no size.  Below a directory that cannot be listed, or that was counted as a
whole, nothing has a share.

* `Entered`: a scan comes to what is below these directories.
* `shares_eq_zero_of_shut`: nothing counts below what is shut.
* `shares_below_unsized`: the fast walk; `shares_below_folded`: a directory sized in bulk;
  `shares_below_plain`: the walk.
-/

open scoped List

namespace DiskUsage

variable {s : ChildSetup} {root : Path} {above : List Located} {path : Path} {name : String}

/-- A scan looks into the child of the root that comes first, and can list all of these. -/
structure Entered (s : ChildSetup) (root : Path) (above : List Located) : Prop where
  ne_nil : above ≠ []
  listed : above.all (Located.isOpen s.reach) = true
  lookedInto : ∀ top, above.head? = some top → top.isLookedInto s root = true

/-- Nothing below these directories counts: one cannot be listed, the child of the root is not looked
into, or the topmost one that is sized in bulk got a size. -/
def Shut (s : ChildSetup) (root : Path) (above : List Located) : Prop :=
  above.all (Located.isOpen s.reach) = false ∨
    (∃ top, above.head? = some top ∧ top.isLookedInto s root = false) ∨
    ∃ f, above.find? (Located.isFolded s.config) = some f ∧ (f.bulk? s.toWalkSetup).isSome = true

/-- Where a directory is reached that can be listed, a scan comes to what is below it. -/
theorem Entered.snoc {here : Located} (h : (⟨above, here⟩ : Descendant).isReached s root = true)
    (hopen : here.isOpen s.reach = true) : Entered s root (above ++ [here]) := by
  obtain ⟨hall, hchild⟩ := Bool.and_eq_true_iff.1 h
  refine ⟨by simp, by simp [hall, hopen], ?_⟩
  intro top htop
  have hhead : (⟨above, here⟩ : Descendant).child = top := by
    cases above <;> simpa [Descendant.child] using htop
  rw [← hhead]
  exact hchild

theorem Entered.isReached (h : Entered s root above) (here : Located) :
    (⟨above, here⟩ : Descendant).isReached s root = true := by
  obtain ⟨top, more, rfl⟩ := List.exists_cons_of_ne_nil h.ne_nil
  have htop := h.lookedInto top rfl
  have hall := h.listed
  rw [Descendant.isReached, hall]
  exact htop

theorem Entered.isEmpty_eq_false (h : Entered s root above) : above.isEmpty = false :=
  List.isEmpty_eq_false_iff.2 h.ne_nil

theorem shut_of_not_open {here : Located} (h : here.isOpen s.reach = false) :
    Shut s root (above ++ [here]) :=
  .inl (by simp [h])

/-! ### Nothing below what is shut -/

/-- A scan comes to nothing below these directories if one of them cannot be listed, or if the child of
the root is not looked into. -/
theorem isReached_eq_false_of_prefix {d : Descendant}
    (h : above.all (Located.isOpen s.reach) = false ∨
      ∃ top, above.head? = some top ∧ top.isLookedInto s root = false)
    (hd : above <+: d.above) : d.isReached s root = false := by
  obtain ⟨more, hmore⟩ := hd
  rcases h with h | ⟨top, htop, hnot⟩
  · rw [Descendant.isReached, ← hmore, List.all_append, h, Bool.false_and, Bool.false_and]
  · obtain ⟨rest, rfl⟩ := List.head?_eq_some_iff.1 htop
    simp [Descendant.isReached, Descendant.child, ← hmore, hnot]

theorem share_eq_zero_of_shut {d : Descendant} (h : Shut s root above) (hd : above <+: d.above) :
    d.share s root = 0 := by
  have hne : above ≠ [] := by
    rintro rfl
    rcases h with h | ⟨_, h, _⟩ | ⟨_, h, _⟩ <;> cases h
  have hcounted : d.isCounted s root = false ∧ d.bulk? s root = none := by
    rw [Shut, ← or_assoc] at h
    rcases h with h | ⟨f, hf, hsized⟩
    · have hreached := isReached_eq_false_of_prefix h hd
      simp [Descendant.isCounted, Descendant.bulk?, hreached]
    · obtain ⟨more, hmore⟩ := hd
      have hfind : d.above.find? (Located.isFolded s.config) = some f := by
        rw [← hmore, List.find?_append, hf]
        rfl
      have hany : d.above.any (Located.isFolded s.config) = true :=
        List.any_eq_true.2 ⟨f, List.mem_of_find?_eq_some hfind, List.find?_some hfind⟩
      simp [Descendant.isCounted, Descendant.bulk?, hfind, hany, hsized]
  have hanswer : d.answer? s root = none := by
    obtain ⟨more, hmore⟩ := hd
    simp [Descendant.answer?, ← hmore, hne]
  simp [Descendant.share, hcounted, hanswer]

theorem shares_eq_zero_of_shut (h : Shut s root above) (dir : Path)
    (entries : List (String × Node)) : shares s root (belowEntries above dir entries) = 0 := by
  refine List.sum_eq_zero_iff_forall_eq_nat.2 fun n hn => ?_
  obtain ⟨d, hd, rfl⟩ := List.mem_map.1 hn
  exact share_eq_zero_of_shut h (above_prefix_of_mem_entries hd)

/-- A scan comes to what is below a directory that is reached, or the directory cannot be listed and
nothing below it counts. -/
theorem entered_or_shut {mode : DirMode} {accessed : Option Timestamp} {entries : List (String × Node)}
    (hreached : (⟨above, path, name, .dir mode accessed entries⟩ : Descendant).isReached s root = true) :
    canList s.reach path mode = true ∧
        Entered s root (above ++ [⟨path, name, .dir mode accessed entries⟩]) ∨
      canList s.reach path mode = false ∧
        shares s root
          (belowEntries (above ++ [⟨path, name, .dir mode accessed entries⟩]) path entries) = 0 := by
  have hopen : (⟨path, name, .dir mode accessed entries⟩ : Located).isOpen s.reach
      = canList s.reach path mode := rfl
  cases hcan : canList s.reach path mode with
  | true => exact .inl ⟨rfl, .snoc hreached (hopen.trans hcan)⟩
  | false => exact .inr ⟨rfl, shares_eq_zero_of_shut (shut_of_not_open (hopen.trans hcan)) path entries⟩

/-! ### Below a directory that the usage tool gave no size -/

/-- What is no directory counts for itself, if it can be read and lies in nothing that was counted as
a whole. -/
theorem shares_below_of_isDir_eq_false (he : Entered s root above)
    (hfind : ∀ f, above.find? (Located.isFolded s.config) = some f →
      f.bulk? s.toWalkSetup = none) (path : Path) (name : String) {node : Node}
    (hdir : node.isDir = false) :
    shares s root (below above path name node)
      = if s.reach path then node.actualSize else 0 := by
  have hbulk : (⟨above, path, name, node⟩ : Descendant).bulk? s root = none := by
    simp [Descendant.bulk?, Located.isFolded, hdir]
  have hanswer : (⟨above, path, name, node⟩ : Descendant).answer? s root = none := by
    simp [Descendant.answer?, he.ne_nil]
  have hsized : ((above.find? (Located.isFolded s.config)).any
      fun f => (f.bulk? s.toWalkSetup).isSome) = false := by
    cases hf : above.find? (Located.isFolded s.config) with
    | none => rfl
    | some f => simp [hfind f hf]
  rw [below_of_isDir_eq_false hdir]
  simp [Descendant.share, hbulk, hanswer, Descendant.isCounted, Descendant.isReadable, hdir,
    he.isReached, he.isEmpty_eq_false, hsized]

/-- A directory below one that is sized in bulk does not count for anything itself. -/
theorem share_of_isDir {here : Located} (hdir : here.node.isDir = true)
    (hany : above.any (Located.isFolded s.config) = true) :
    (⟨above, here⟩ : Descendant).share s root = 0 := by
  have hne : above ≠ [] := by
    rintro rfl
    cases hany
  simp [Descendant.share, Descendant.isCounted, Descendant.bulk?, Descendant.answer?, hdir, hany, hne]

theorem size_fastWalkFile (reach : Path → Bool) (path : Path) (node : Node) :
    (fastWalkFile reach path node).size = if reach path then node.actualSize else 0 := by
  unfold fastWalkFile
  split <;> rfl

mutual
/-- **The fast walk** adds up the shares below a directory that the usage tool gave no size. -/
theorem shares_below_unsized (hlate : ∀ p, s.late p = false) {f : Located} {above : List Located}
    (he : Entered s root above) (hf : above.find? (Located.isFolded s.config) = some f)
    (hnone : f.bulk? s.toWalkSetup = none) (path : Path) (name : String) (node : Node) :
    shares s root (below above path name node) = (fastWalk s.reach s.late path node).size := by
  have hfind : ∀ g, above.find? (Located.isFolded s.config) = some g →
      g.bulk? s.toWalkSetup = none := by
    intro g hg
    rwa [← Option.some.inj (hf.symm.trans hg)]
  cases node with
  | dir mode accessed entries =>
    have hany : above.any (Located.isFolded s.config) = true :=
      List.any_eq_true.2 ⟨f, List.mem_of_find?_eq_some hf, List.find?_some hf⟩
    rw [below, shares_cons, share_of_isDir rfl hany, Nat.zero_add, fastWalk, Sized.size_after, hlate,
      Bool.not_false, Bool.and_true]
    rcases entered_or_shut (he.isReached _) with ⟨hcan, he'⟩ | ⟨hcan, hzero⟩
    · rw [hcan, if_pos rfl]
      exact shares_belowEntries_unsized hlate he' (by rw [List.find?_append, hf, Option.some_or]) hnone
        path entries
    · rw [hcan, if_neg Bool.false_ne_true, hzero]
      rfl
  | file data => rw [shares_below_of_isDir_eq_false he hfind path name rfl, fastWalk, size_fastWalkFile]
  | link target data =>
    rw [shares_below_of_isDir_eq_false he hfind path name rfl, fastWalk, size_fastWalkFile]
  | special accessed =>
    rw [shares_below_of_isDir_eq_false he hfind path name rfl, fastWalk, size_fastWalkFile]

theorem shares_belowEntries_unsized (hlate : ∀ p, s.late p = false) {f : Located}
    {above : List Located} (he : Entered s root above)
    (hf : above.find? (Located.isFolded s.config) = some f) (hnone : f.bulk? s.toWalkSetup = none)
    (dir : Path) (entries : List (String × Node)) :
    shares s root (belowEntries above dir entries) = (fastWalkEntries s.reach s.late dir entries).size := by
  cases entries with
  | nil => rfl
  | cons e rest =>
    obtain ⟨name, node⟩ := e
    rw [belowEntries, shares_append, fastWalkEntries, Sized.size_append,
      shares_below_unsized hlate he hf hnone (dir.child name) name node,
      shares_belowEntries_unsized hlate he hf hnone dir rest]
end

/-! ### A directory that is sized in bulk -/

/-- What a scan comes to was not answered by the cache. -/
theorem Descendant.answer?_eq_none {d : Descendant} (h : d.isReached s root = true) :
    d.answer? s root = none := by
  obtain ⟨above, here⟩ := d
  cases above with
  | nil =>
    obtain ⟨-, hchild⟩ := Bool.and_eq_true_iff.1 h
    obtain ⟨-, hnone⟩ := Bool.and_eq_true_iff.1 hchild
    exact Option.isNone_iff_eq_none.1 hnone
  | cons top more => rfl

/-- A directory that is reached counts at most for what the usage tool gives. -/
theorem share_of_isReached {here : Located} (hdir : here.node.isDir = true)
    (hreached : (⟨above, here⟩ : Descendant).isReached s root = true)
    (htop : above.any (Located.isFolded s.config) = false) :
    (⟨above, here⟩ : Descendant).share s root
      = if here.isFolded s.config then (here.bulk? s.toWalkSetup).getD 0 else 0 := by
  have hanswer := Descendant.answer?_eq_none hreached
  have hcounted : (⟨above, here⟩ : Descendant).isCounted s root = false := by
    simp [Descendant.isCounted, hdir]
  cases hfold : here.isFolded s.config <;>
    simp [Descendant.share, hanswer, hcounted, Descendant.bulk?, hreached, htop, hfold]

theorem find?_snoc {c : ScanConfig} {here : Located} (htop : above.any (Located.isFolded c) = false)
    (hfold : here.isFolded c = true) :
    (above ++ [here]).find? (Located.isFolded c) = some here := by
  have hnone : above.find? (Located.isFolded c) = none :=
    List.find?_eq_none.2 fun d hd => by simp [List.any_eq_false.1 htop d hd]
  rw [List.find?_append, hnone, Option.none_or]
  simp [hfold]

/-- **A directory sized in bulk**, where it is the topmost one, counts for what the usage tool gives,
or else for what the fast walk finds below it, as far as a word can tell. -/
theorem shares_below_folded (hlate : ∀ p, s.late p = false) {mode : DirMode}
    {accessed : Option Timestamp} {entries : List (String × Node)}
    (hreached : (⟨above, path, name, .dir mode accessed entries⟩ : Descendant).isReached s root
      = true)
    (htop : above.any (Located.isFolded s.config) = false)
    (hfold : s.config.shouldFold name path = true) :
    Number.wrap (shares s root (below above path name (.dir mode accessed entries)))
      = Number.wrap (foldedSize s.toWalkSetup path (.dir mode accessed entries)).size := by
  obtain ⟨here, hhere⟩ : ∃ here : Located, here = ⟨path, name, .dir mode accessed entries⟩ :=
    ⟨_, rfl⟩
  have hfolded : here.isFolded s.config = true := by
    rw [hhere]
    exact hfold
  have hbulk : here.bulk? s.toWalkSetup = positiveSize? (s.tool path) := by
    rw [hhere]
    rfl
  have hfind := find?_snoc htop hfolded
  rw [below, shares_cons, ← hhere, share_of_isReached (by rw [hhere]; rfl) (hhere ▸ hreached) htop,
    if_pos hfolded]
  unfold foldedSize
  rw [hbulk]
  cases hsize : positiveSize? (s.tool path) with
  | some size =>
    have hshut : Shut s root (above ++ [here]) :=
      .inr (.inr ⟨here, hfind, by rw [hbulk, hsize]; rfl⟩)
    rw [shares_eq_zero_of_shut hshut, Nat.add_zero]
    rfl
  | none =>
    rw [hhere] at hfind ⊢
    simp only [Sized.size_after, fastDirSize, hlate, Bool.not_false, Bool.and_true, Option.getD_none,
      Nat.zero_add]
    rcases entered_or_shut hreached with ⟨hcan, he⟩ | ⟨hcan, hzero⟩
    · rw [hcan, if_pos rfl, Sized.size_word, Number.wrap_wrap]
      exact congrArg Number.wrap
        (shares_belowEntries_unsized hlate he hfind (hhere ▸ hbulk.trans hsize) path entries)
    · rw [hcan, if_neg Bool.false_ne_true, hzero]
      rfl

/-! ### Where nothing is sized in bulk -/

theorem size_foldedSizes_append (w : WalkSetup) (xs ys : List (Path × Node)) :
    (foldedSizes w (xs ++ ys)).size = (foldedSizes w xs).size + (foldedSizes w ys).size := by
  induction xs with
  | nil => simp [foldedSizes, Sized.empty]
  | cons x xs ih =>
    obtain ⟨p, node⟩ := x
    rw [List.cons_append, foldedSizes, Sized.size_append, ih, foldedSizes, Sized.size_append]
    omega

/-- The size that a walk found, with those of the directories to measure in bulk. -/
def Walked.whole (s : WalkSetup) (w : Walked) : Nat :=
  w.size + (foldedSizes s w.folded).size

theorem Walked.whole_append (s : WalkSetup) (a b : Walked) :
    (a.append b).whole s = a.whole s + b.whole s := by
  have hfolded := size_foldedSizes_append s a.folded b.folded
  simp only [whole, append]
  omega

theorem whole_walkFile (w : WalkSetup) (path : Path) (name : String) (node : Node) :
    (walkFile w.reach w.config path name node).whole w
      = if w.reach path then node.actualSize else 0 := by
  unfold walkFile
  split <;> rfl

mutual
/-- **The walk** adds up the shares where no directory above is sized in bulk, with those of the
directories that it leaves to be measured, as far as a word can tell. -/
theorem shares_below_plain (hlate : ∀ p, s.late p = false) {above : List Located}
    (he : Entered s root above) (htop : above.any (Located.isFolded s.config) = false) (path : Path)
    (name : String) (node : Node) :
    Number.wrap (shares s root (below above path name node))
      = Number.wrap ((walk s.reach s.config path name node).whole s.toWalkSetup) := by
  have hfind : ∀ g, above.find? (Located.isFolded s.config) = some g →
      g.bulk? s.toWalkSetup = none := by
    intro g hg
    exact absurd (List.find?_some hg) (List.any_eq_false.1 htop g (List.mem_of_find?_eq_some hg))
  cases node with
  | dir mode accessed entries =>
    rw [walk]
    cases hfold : s.config.shouldFold name path with
    | true =>
      rw [if_pos rfl, shares_below_folded hlate (he.isReached _) htop hfold]
      simp [Walked.whole, Walked.fold, foldedSizes, Sized.empty]
    | false =>
      have hnot : (⟨path, name, .dir mode accessed entries⟩ : Located).isFolded s.config
          = false := hfold
      have htop' : (above ++ [(⟨path, name, .dir mode accessed entries⟩ : Located)]).any
          (Located.isFolded s.config) = false := by simp [htop, hnot]
      rw [if_neg Bool.false_ne_true, below, shares_cons,
        share_of_isReached rfl (he.isReached _) htop, hnot, if_neg Bool.false_ne_true, Nat.zero_add]
      rcases entered_or_shut (he.isReached _) with ⟨hcan, he'⟩ | ⟨hcan, hzero⟩
      · have hreached : Walked.reached.whole s.toWalkSetup = 0 := rfl
        rw [hcan, if_pos rfl, Walked.whole_append, hreached, Nat.zero_add]
        exact shares_belowEntries_plain hlate he' htop' path entries
      · rw [hcan, if_neg Bool.false_ne_true, hzero]
        rfl
  | file data => rw [shares_below_of_isDir_eq_false he hfind path name rfl, walk, whole_walkFile]
  | link target data =>
    rw [shares_below_of_isDir_eq_false he hfind path name rfl, walk, whole_walkFile]
  | special accessed =>
    rw [shares_below_of_isDir_eq_false he hfind path name rfl, walk, whole_walkFile]

theorem shares_belowEntries_plain (hlate : ∀ p, s.late p = false) {above : List Located}
    (he : Entered s root above) (htop : above.any (Located.isFolded s.config) = false) (dir : Path)
    (entries : List (String × Node)) :
    Number.wrap (shares s root (belowEntries above dir entries))
      = Number.wrap ((walkEntries s.reach s.config dir entries).whole s.toWalkSetup) := by
  cases entries with
  | nil => rfl
  | cons e rest =>
    obtain ⟨name, node⟩ := e
    rw [belowEntries, shares_append, walkEntries, Walked.whole_append]
    exact Number.wrap_add_congr (shares_below_plain hlate he htop (dir.child name) name node)
      (shares_belowEntries_plain hlate he htop dir rest)
end

end DiskUsage
