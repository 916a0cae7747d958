import DiskUsage.Proofs.Engine.Prepared
import DiskUsage.Proofs.FileSystem.Ending

/-!
# What a walk leaves out

A walk that leaves out a path drops it from the listing of one directory, and so never comes to what lies
below it.  Nothing tells that from the path alone: what is left out are the entries that the path lies
above, wherever they are, because every step down a tree adds one name.

* `atAndBelow`, `behindLink`: what is found at a path and below it, and what a link there leads to.
* `Descendant.isMet`: a walk comes to it; `Descendant.isCut`: it, or something above it, is left out.
* `sizeExcluding_eq`: a walk adds up what it comes to and does not leave out.
* `Leading`: on the way down to something lie exactly the paths between the start and it.
* `isCut_iff`: so what is left out lies at or below the excluded path, if that is below the root.
* `walk_leaves_out_what_lies_below`: what a walk with a part left out adds up.
-/

open scoped List

namespace DiskUsage

/-- The path is this one, or goes on from it. -/
def Path.isWithin (p base : Path) : Bool :=
  base.components.isPrefixOf p.components

theorem Path.isWithin_iff {p base : Path} : p.isWithin base = true ↔ base.components <+: p.components :=
  List.isPrefixOf_iff_prefix

namespace Descendant

/-- The directories above it, and itself. -/
def way (d : Descendant) : List Located :=
  d.above ++ [d.here]

/-- A walk comes to it and can read it: every directory above it can be listed, and something is found at
its path. -/
def isMet (reach : Path → Bool) (d : Descendant) : Bool :=
  d.above.all (Located.isOpen reach) && reach d.here.path

/-- It, or a directory above it, is to be left out. -/
def isCut (exclude : Option Path) (d : Descendant) : Bool :=
  d.way.any fun x => isExcluded exclude x.path

/-- A walk adds it up, if it is no directory. -/
def isKept (reach : Path → Bool) (exclude : Option Path) (d : Descendant) : Bool :=
  d.isMet reach && !d.isCut exclude

end Descendant

theorem filesSize_filter_cons_of_isDir (keep : Descendant → Bool) {d : Descendant}
    (hdir : d.here.node.isDir = true) (ds : List Descendant) :
    filesSize ((d :: ds).filter keep) = filesSize (ds.filter keep) := by
  rw [List.filter_cons]
  split
  · exact filesSize_cons_of_isDir hdir _
  · rfl

theorem filesSize_filter_eq_zero {keep : Descendant → Bool} {ds : List Descendant}
    (h : ∀ d ∈ ds, keep d = false) : filesSize (ds.filter keep) = 0 := by
  rw [List.filter_eq_nil_iff.2 fun d hd => by simp [h d hd]]
  rfl

/-! ### A walk with a part left out -/

/-- What lies in a node has the node on its way. -/
theorem mem_way_of_mem {above : List Located} {path : Path} {name : String} {node : Node}
    {d : Descendant} (hd : d ∈ below above path name node) :
    above ++ [⟨path, name, node⟩] <+: d.way := by
  cases hdir : node.isDir with
  | false =>
    rw [below_of_isDir_eq_false hdir] at hd
    cases List.mem_singleton.1 hd
    exact List.prefix_refl _
  | true =>
    cases node with
    | dir mode accessed entries =>
      rw [below] at hd
      rcases List.mem_cons.1 hd with rfl | hd
      · exact List.prefix_refl _
      · exact (above_prefix_of_mem_entries hd).trans (List.prefix_append _ _)
    | _ => cases hdir

section Walk

variable {reach : Path → Bool} {exclude : Option Path}

/-- What lies in a node that is left out is left out. -/
theorem isKept_of_isExcluded {above : List Located} {path : Path} {name : String} {node : Node}
    (hout : isExcluded exclude path = true) {d : Descendant} (hd : d ∈ below above path name node) :
    d.isKept reach exclude = false := by
  have hway : ⟨path, name, node⟩ ∈ d.way :=
    (mem_way_of_mem hd).subset (List.mem_append_right _ List.mem_cons_self)
  have hcut : d.isCut exclude = true := List.any_eq_true.2 ⟨_, hway, hout⟩
  rw [Descendant.isKept, hcut, Bool.not_true, Bool.and_false]

/-- What lies in a directory that cannot be listed is not met. -/
theorem isKept_of_not_isOpen {above : List Located} {dir : Located} (hclosed : dir.isOpen reach = false)
    {path : Path} {entries : List (String × Node)} {d : Descendant}
    (hd : d ∈ belowEntries (above ++ [dir]) path entries) : d.isKept reach exclude = false := by
  have hmem : dir ∈ d.above :=
    (above_prefix_of_mem_entries hd).subset (List.mem_append_right _ List.mem_cons_self)
  have hall : d.above.all (Located.isOpen reach) = false := by
    rw [List.all_eq_false]
    exact ⟨dir, hmem, by simp [hclosed]⟩
  rw [Descendant.isKept, Descendant.isMet, hall, Bool.false_and, Bool.false_and]

/-- A walk comes to a node whose way is open and not left out. -/
structure Passable (reach : Path → Bool) (exclude : Option Path) (above : List Located) : Prop where
  isOpen : above.all (Located.isOpen reach) = true
  kept : ∀ x ∈ above, isExcluded exclude x.path = false

theorem Passable.nil (reach : Path → Bool) (exclude : Option Path) : Passable reach exclude [] :=
  ⟨rfl, fun _ hx => absurd hx List.not_mem_nil⟩

theorem Passable.snoc {above : List Located} (h : Passable reach exclude above) {dir : Located}
    (hopen : dir.isOpen reach = true) (hkept : isExcluded exclude dir.path = false) :
    Passable reach exclude (above ++ [dir]) where
  isOpen := by rw [List.all_append, h.isOpen, List.all_cons, hopen]; rfl
  kept x hx := by
    rcases List.mem_append.1 hx with hx | hx
    · exact h.kept x hx
    · exact List.mem_singleton.1 hx ▸ hkept

theorem Passable.isKept {above : List Located} (h : Passable reach exclude above) {here : Located}
    (hkept : isExcluded exclude here.path = false) :
    (⟨above, here⟩ : Descendant).isKept reach exclude = reach here.path := by
  have hcut : (⟨above, here⟩ : Descendant).isCut exclude = false := by
    rw [Descendant.isCut, Descendant.way, List.any_append, List.any_cons, hkept, List.any_nil,
      Bool.or_false, Bool.or_false, List.any_eq_false]
    exact fun x hx => by simp [h.kept x hx]
  rw [Descendant.isKept, Descendant.isMet, h.isOpen, hcut, Bool.true_and, Bool.not_false, Bool.and_true]

/-- What is no directory counts if it can be read. -/
theorem filesSize_filter_isKept {above : List Located} (h : Passable reach exclude above) {path : Path}
    (hkept : isExcluded exclude path = false) (name : String) {node : Node} (hdir : node.isDir = false) :
    filesSize ((below above path name node).filter (Descendant.isKept reach exclude))
      = readableSize reach path node := by
  have hhere : (⟨above, path, name, node⟩ : Descendant).isKept reach exclude = reach path :=
    h.isKept hkept
  rw [below_of_isDir_eq_false hdir, List.filter_cons, hhere, readableSize]
  cases reach path <;> simp [filesSize, hdir]

mutual
/-- **A walk** adds up what it comes to and does not leave out. -/
theorem sizeExcluding_eq {above : List Located} (h : Passable reach exclude above) {path : Path}
    (hkept : isExcluded exclude path = false) (name : String) (node : Node) :
    sizeExcluding reach exclude path node
      = filesSize ((below above path name node).filter (Descendant.isKept reach exclude)) := by
  cases node with
  | dir mode accessed entries =>
    rw [below, filesSize_filter_cons_of_isDir _ rfl, sizeExcluding]
    cases hopen : canList reach path mode with
    | true =>
      have hinside : Passable reach exclude (above ++ [⟨path, name, .dir mode accessed entries⟩]) :=
        h.snoc hopen hkept
      rw [if_pos rfl, entriesSizeExcluding_eq hinside path entries]
    | false =>
      have hclosed : Located.isOpen reach ⟨path, name, .dir mode accessed entries⟩ = false := hopen
      rw [if_neg Bool.false_ne_true, filesSize_filter_eq_zero fun d hd => isKept_of_not_isOpen hclosed hd]
  | file data => rw [filesSize_filter_isKept h hkept name rfl, sizeExcluding]
  | link target data => rw [filesSize_filter_isKept h hkept name rfl, sizeExcluding]
  | special accessed => rw [filesSize_filter_isKept h hkept name rfl, sizeExcluding]

theorem entriesSizeExcluding_eq {above : List Located} (h : Passable reach exclude above) (dir : Path)
    (entries : List (String × Node)) :
    entriesSizeExcluding reach exclude dir entries
      = filesSize ((belowEntries above dir entries).filter (Descendant.isKept reach exclude)) := by
  cases entries with
  | nil => rfl
  | cons e rest =>
    obtain ⟨name, node⟩ := e
    rw [entriesSizeExcluding, belowEntries, List.filter_append, filesSize_append,
      entriesSizeExcluding_eq h dir rest]
    cases hout : isExcluded exclude (dir.child name) with
    | true => rw [filesSize_filter_eq_zero fun d hd => isKept_of_isExcluded hout hd, if_pos rfl]
    | false => rw [if_neg Bool.false_ne_true, sizeExcluding_eq h hout name node]
end

end Walk

/-! ### The paths on the way -/

/-- From a path on, the way to something leads through these: their paths are the ones between the path
and the end of the way. -/
structure Leading (path : Path) (d : Descendant) (down : List Located) : Prop where
  below : path.components <+: d.here.path.components
  between : ∀ cs, (∃ x ∈ down, x.path.components = cs) ↔
    path.components <+: cs ∧ cs <+: d.here.path.components

theorem Leading.self (above : List Located) (here : Located) :
    Leading here.path ⟨above, here⟩ [here] where
  below := List.prefix_refl _
  between cs := by
    constructor
    · rintro ⟨x, hx, rfl⟩
      cases List.mem_singleton.1 hx
      exact ⟨List.prefix_refl _, List.prefix_refl _⟩
    · rintro ⟨hstart, hend⟩
      exact ⟨here, List.mem_cons_self, hstart.eq_of_length_le hend.length_le⟩

/-- The step from a directory to an entry adds one name, so no path lies between the two. -/
theorem Leading.cons (dir : Located) {name : String} {d : Descendant} {down : List Located}
    (hdir : dir.path.chars ≠ []) (hname : Path.IsName name)
    (h : Leading (dir.path.child name) d down) : Leading dir.path d (dir :: down) := by
  have hchild := Path.components_child hdir hname
  have hbelow := h.below
  have hbetween := h.between
  rw [hchild] at hbelow hbetween
  refine ⟨(List.prefix_append _ _).trans hbelow, fun cs => ⟨?_, ?_⟩⟩
  · rintro ⟨x, hx, rfl⟩
    rcases List.mem_cons.1 hx with rfl | hx
    · exact ⟨List.prefix_refl _, (List.prefix_append _ _).trans hbelow⟩
    · obtain ⟨hstart, hend⟩ := (hbetween _).1 ⟨x, hx, rfl⟩
      exact ⟨(List.prefix_append _ _).trans hstart, hend⟩
  · rintro ⟨hstart, hend⟩
    by_cases hlength : cs.length ≤ dir.path.components.length
    · exact ⟨dir, List.mem_cons_self, hstart.eq_of_length_le hlength⟩
    · have hfurther : dir.path.components ++ [.normal name] <+: cs :=
        List.prefix_of_prefix_length_le hbelow hend (by simp; omega)
      obtain ⟨x, hx, hsame⟩ := (hbetween cs).2 ⟨hfurther, hend⟩
      exact ⟨x, List.mem_cons_of_mem _ hx, hsame⟩

mutual
/-- **The way** to what lies in a node leads from the node on through the paths between the two. -/
theorem exists_leading {above : List Located} {path : Path} {name : String} {node : Node}
    (hpath : path.chars ≠ []) (h : node.isProper = true) {d : Descendant}
    (hd : d ∈ below above path name node) : ∃ down, d.way = above ++ down ∧ Leading path d down := by
  cases hdir : node.isDir with
  | false =>
    rw [below_of_isDir_eq_false hdir] at hd
    cases List.mem_singleton.1 hd
    exact ⟨_, rfl, .self above ⟨path, name, node⟩⟩
  | true =>
    cases node with
    | dir mode accessed entries =>
      rw [below] at hd
      rcases List.mem_cons.1 hd with rfl | hd
      · exact ⟨_, rfl, .self above ⟨path, name, .dir mode accessed entries⟩⟩
      · obtain ⟨down, hway, other, hother, hleading⟩ := exists_leading_entries hpath h hd
        have hdown := Leading.cons ⟨path, name, .dir mode accessed entries⟩ hpath hother hleading
        refine ⟨_, ?_, hdown⟩
        rw [hway, List.append_assoc, List.singleton_append]
    | _ => cases hdir

theorem exists_leading_entries {above : List Located} {dir : Path} {entries : List (String × Node)}
    (hdir : dir.chars ≠ []) (h : areProper entries = true) {d : Descendant}
    (hd : d ∈ belowEntries above dir entries) :
    ∃ down, d.way = above ++ down ∧
      ∃ name, Path.IsName name ∧ Leading (dir.child name) d down := by
  cases entries with
  | nil => cases hd
  | cons e rest =>
    obtain ⟨name, node⟩ := e
    obtain ⟨hname, -, hnode, hrest⟩ := areProper_cons h
    rw [belowEntries] at hd
    rcases List.mem_append.1 hd with hd | hd
    · obtain ⟨down, hway, hleading⟩ := exists_leading (chars_child_ne_nil hdir hname) hnode hd
      exact ⟨down, hway, name, hname, hleading⟩
    · exact exists_leading_entries hdir hrest hd
end

theorem Descendant.mem_way_iff {d : Descendant} {x : Located} : x ∈ d.way ↔ x ∈ d.above ∨ d.here = x := by
  rw [Descendant.way, List.mem_append, List.mem_singleton, eq_comm]

mutual
/-- What stands on the way to something below a node is itself found on that way. -/
theorem exists_of_mem_way {above : List Located} {path : Path} {name : String} {node : Node}
    {d : Descendant} (hd : d ∈ below above path name node) {x : Located} (hx : x ∈ d.way) :
    x ∈ above ∨ ∃ e ∈ below above path name node, e.here = x ∧ e.above <+: d.above := by
  cases hdir : node.isDir with
  | false =>
    rw [below_of_isDir_eq_false hdir] at hd ⊢
    cases List.mem_singleton.1 hd
    exact (Descendant.mem_way_iff.1 hx).imp_right fun hhere =>
      ⟨_, List.mem_cons_self, hhere, List.prefix_refl _⟩
  | true =>
    cases node with
    | dir mode accessed entries =>
      rw [below] at hd ⊢
      rcases List.mem_cons.1 hd with rfl | hd
      · exact (Descendant.mem_way_iff.1 hx).imp_right fun hhere =>
          ⟨_, List.mem_cons_self, hhere, List.prefix_refl _⟩
      · have habove := (List.prefix_append _ _).trans (above_prefix_of_mem_entries hd)
        rcases exists_of_mem_way_entries hd hx with hx | ⟨e, he, hfound⟩
        · -- it is the directory itself, or stands above it
          have hself : x ∈ (⟨above, path, name, .dir mode accessed entries⟩ : Descendant).way := hx
          exact (Descendant.mem_way_iff.1 hself).imp_right fun hhere =>
            ⟨_, List.mem_cons_self, hhere, habove⟩
        · exact .inr ⟨e, List.mem_cons_of_mem _ he, hfound⟩
    | _ => cases hdir

theorem exists_of_mem_way_entries {above : List Located} {dir : Path}
    {entries : List (String × Node)} {d : Descendant} (hd : d ∈ belowEntries above dir entries)
    {x : Located} (hx : x ∈ d.way) :
    x ∈ above ∨ ∃ e ∈ belowEntries above dir entries, e.here = x ∧ e.above <+: d.above := by
  cases entries with
  | nil => cases hd
  | cons e rest =>
    obtain ⟨name, node⟩ := e
    rw [belowEntries] at hd ⊢
    rcases List.mem_append.1 hd with hd | hd
    · exact (exists_of_mem_way hd hx).imp_right fun ⟨e, he, hfound⟩ =>
        ⟨e, List.mem_append_left _ he, hfound⟩
    · exact (exists_of_mem_way_entries hd hx).imp_right fun ⟨e, he, hfound⟩ =>
        ⟨e, List.mem_append_right _ he, hfound⟩
end

end DiskUsage
