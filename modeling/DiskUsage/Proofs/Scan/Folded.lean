import DiskUsage.Path.Proper
import DiskUsage.Proofs.Path.Steps
import DiskUsage.Proofs.Scan.Excluded

/-!
# What lies in a folded directory

A walk folds a directory because of its own name, or because it lies in the store of a package cache, which
the directories above it tell.  A hit of the index is checked by the names on its path alone.  The two agree
where the caches themselves are folded by name: a store then always lies in a directory that is.

* `components_prefix_of_parent?`: the directory above a path is on the way to it.
* `ScanConfig.foldsAt`: a directory is folded under its last name; `isInFoldedDir_iff`: a path leads through
  such a directory.
* `Descendant.IsLedTo`: down a tree, every path ends in the name of what it leads to.
* `folded_paths_lead_through_a_folded_directory`: the two checks.
-/

open scoped List

namespace DiskUsage

/-! ### The directory above -/

namespace Path

variable {p d : Path} {w : List Char} {init rest : List (List Char)}

/-- A path that is written with the first pieces says the first components. -/
theorem Above.components_of_pieces (hpieces : pieces p.chars = init ++ w :: rest)
    (h : Above p.isAbsolute init d) : d.components <+: p.components := by
  have hslashes : ∀ u ∈ init, '/' ∉ u := fun u hu =>
    slash_not_mem_of_mem_pieces (hpieces ▸ List.mem_append_left _ hu)
  refine List.IsPrefix.map _ ?_
  rcases h with hnil | ⟨habsolute, hroot⟩ | ⟨above, v, more, rfl, hv, hchars⟩
  · have hmarks : d.marks = [] := by simp [marks, Path.isAbsolute, hnil, pieces, marksFrom]
    rw [hmarks]
    exact List.nil_prefix
  · have hmarks : d.marks = [⟨.root, 0, 1⟩] := by
      simp [marks, Path.isAbsolute, hroot, pieces, marksFrom]
    rw [hmarks, marks, habsolute]
    exact ⟨_, rfl⟩
  · have hfirst : pieces d.chars = above ++ [v] := by
      rw [hchars, pieces_slashed_append fun u hu => hslashes u (by simp [hu]),
        pieces_of_not_mem (hslashes v (by simp))]
    -- the text itself is the beginning of the other one, so both start at the root or neither does
    have htext : d.chars <+: p.chars := by
      refine List.IsPrefix.trans ⟨'/' :: slashed more, ?_⟩ (slashed_prefix_of_pieces hpieces)
      rw [hchars]
      simp
    have hsame : p.isAbsolute = d.isAbsolute := by
      obtain ⟨tail, htail⟩ := htext
      unfold Path.isAbsolute
      rw [← htail, List.head?_append_of_ne_nil _ (by simp [hchars, hv])]
    have hrest : pieces p.chars = above ++ [v] ++ (more ++ w :: rest) := by
      rw [hpieces]
      simp
    rw [marks, marks, hsame, hfirst, hrest, marksFrom_append _ (above ++ [v]), ← List.append_assoc]
    exact List.prefix_append _ _

/-- **The directory above** a path is on the way to it. -/
theorem components_prefix_of_parent? (h : p.parent? = some d) : d.components <+: p.components := by
  obtain ⟨ms, mark, hms⟩ := exists_last_mark h
  obtain ⟨init, w, rest, hpieces, hinit, -, -⟩ := exists_last_piece hms
  exact (above_of_marks hpieces (hinit ▸ hms) h).components_of_pieces hpieces

/-- The first ones of proper components are proper. -/
theorem Proper.initial {cs ds : List Component} (h : Proper ds) (hbegins : cs <+: ds) : Proper cs := by
  cases cs with
  | nil => trivial
  | cons c rest =>
    obtain ⟨tail, rfl⟩ := hbegins
    exact ⟨h.1, fun d hd => h.2 d (List.mem_append_left _ hd)⟩

/-- A path can be cut after any of its components. -/
theorem exists_of_prefix {cs : List Component} (h : cs <+: p.components) : ∃ d : Path, d.components = cs :=
  ⟨ofComponents cs, components_ofComponents ((proper_components p).initial h)⟩

end Path

/-! ### The two checks of a path -/

namespace ScanConfig

variable {c : ScanConfig} {p d : Path} {last : Path.Component}

/-- The directory at this path is sized in bulk, as the last component of the path and the directories
above it tell. -/
def foldsAt (c : ScanConfig) (d : Path) : Bool :=
  d.components.getLast?.any fun last => c.shouldFold last.text d

/-- The caches are sized in bulk because of their own names. -/
def FoldsCaches (c : ScanConfig) : Prop :=
  ∀ cache ∈ packageCaches, cache ∈ c.foldDirs

instance (c : ScanConfig) : Decidable c.FoldsCaches :=
  inferInstanceAs (Decidable (∀ cache ∈ packageCaches, cache ∈ c.foldDirs))

theorem foldsAt_of_getLast? (hlast : d.components.getLast? = some last) :
    c.foldsAt d = c.shouldFold last.text d := by
  rw [foldsAt, hlast, Option.any_some]

theorem isInFoldedDir_iff_mem : c.isInFoldedDir p = true ↔ ∃ k ∈ p.components, k.text ∈ c.foldDirs := by
  simp [isInFoldedDir, Path.Component.isAmong]

/-- What goes on from a path in a folded directory lies in that directory. -/
theorem isInFoldedDir_of_prefix (hbegins : d.components <+: p.components)
    (h : c.isInFoldedDir d = true) : c.isInFoldedDir p = true := by
  obtain ⟨k, hk, hname⟩ := isInFoldedDir_iff_mem.1 h
  exact isInFoldedDir_iff_mem.2 ⟨k, hbegins.subset hk, hname⟩

/-- A name that is set is the last one of some path on the way. -/
theorem exists_prefix_of_isInFoldedDir (h : c.isInFoldedDir p = true) :
    ∃ init last, init ++ [last] <+: p.components ∧ last.text ∈ c.foldDirs := by
  obtain ⟨k, hk, hname⟩ := isInFoldedDir_iff_mem.1 h
  obtain ⟨init, rest, hsplit⟩ := List.append_of_mem hk
  exact ⟨init, k, ⟨rest, by simp [hsplit]⟩, hname⟩

/-- **A folded directory** has a name on its path that is set: its own, or that of the cache which it lies
in. -/
theorem isInFoldedDir_of_foldsAt (hcaches : c.FoldsCaches) (h : c.foldsAt d = true) :
    c.isInFoldedDir d = true := by
  obtain ⟨last, hlast, hfold⟩ := (Option.any_eq_true _ _).1 h
  rw [shouldFold, Bool.or_eq_true, List.contains_iff_mem, Option.any_eq_true] at hfold
  rcases hfold with hname | ⟨parent, hparent, hstore⟩
  · exact isInFoldedDir_iff_mem.2 ⟨last, List.mem_of_getLast? hlast, hname⟩
  · obtain ⟨hcache, -⟩ := Bool.and_eq_true_iff.1 hstore
    obtain ⟨k, hk, hcache⟩ := List.any_eq_true.1 hcache
    refine isInFoldedDir_of_prefix (Path.components_prefix_of_parent? hparent) ?_
    exact isInFoldedDir_iff_mem.2 ⟨k, hk, hcaches _ (List.contains_iff_mem.1 hcache)⟩

theorem exists_foldsAt_of_isInFoldedDir (h : c.isInFoldedDir p = true) :
    ∃ d, p.isWithin d = true ∧ c.foldsAt d = true := by
  obtain ⟨init, last, hbegins, hname⟩ := exists_prefix_of_isInFoldedDir h
  obtain ⟨d, hd⟩ := Path.exists_of_prefix hbegins
  have hlast : d.components.getLast? = some last := by rw [hd, List.getLast?_concat]
  refine ⟨d, Path.isWithin_iff.2 (hd ▸ hbegins), ?_⟩
  rw [foldsAt_of_getLast? hlast]
  exact shouldFold_of_mem hname d

/-- **Both checks** agree where the caches are folded by name. -/
theorem isInFoldedDir_iff (hcaches : c.FoldsCaches) :
    c.isInFoldedDir p = true ↔ ∃ d, p.isWithin d = true ∧ c.foldsAt d = true := by
  refine ⟨exists_foldsAt_of_isInFoldedDir, ?_⟩
  rintro ⟨d, hwithin, hfold⟩
  exact isInFoldedDir_of_prefix (Path.isWithin_iff.1 hwithin) (isInFoldedDir_of_foldsAt hcaches hfold)

end ScanConfig

/-! ### The same down a tree -/

/-- Down a tree, every path on the way ends in the name of what it leads to, and what stands above something
else is a directory. -/
structure Descendant.IsLedTo (above : List Located) (d : Descendant) : Prop where
  names : ∀ x ∈ d.way, x ∈ above ∨ x.path.components.getLast? = some (.normal x.name)
  directories : ∀ x ∈ d.above, x ∈ above ∨ x.node.isDir = true

theorem Descendant.IsLedTo.self (above : List Located) (here : Located)
    (hlast : here.path.components.getLast? = some (.normal here.name)) :
    Descendant.IsLedTo above ⟨above, here⟩ where
  names x hx := by
    rcases mem_way_iff.1 hx with hx | rfl
    · exact .inl hx
    · exact .inr hlast
  directories _ hx := .inl hx

/-- What is led to from a directory is led to from where the directory is. -/
theorem Descendant.IsLedTo.of_snoc {above : List Located} {dir : Located} {d : Descendant}
    (h : d.IsLedTo (above ++ [dir])) (hlast : dir.path.components.getLast? = some (.normal dir.name))
    (hdir : dir.node.isDir = true) : d.IsLedTo above where
  names x hx := by
    rcases h.names x hx with hx | hx
    · refine (List.mem_append.1 hx).imp_right fun hx => ?_
      rw [List.mem_singleton.1 hx]
      exact hlast
    · exact .inr hx
  directories x hx := by
    rcases h.directories x hx with hx | hx
    · refine (List.mem_append.1 hx).imp_right fun hx => ?_
      rw [List.mem_singleton.1 hx]
      exact hdir
    · exact .inr hx

mutual
theorem isLedTo_of_mem {above : List Located} {path : Path} {name : String} {node : Node}
    (hpath : path.chars ≠ []) (hlast : path.components.getLast? = some (.normal name))
    (h : node.isProper = true) {d : Descendant} (hd : d ∈ below above path name node) :
    d.IsLedTo above := by
  cases hdir : node.isDir with
  | false =>
    rw [below_of_isDir_eq_false hdir] at hd
    cases List.mem_singleton.1 hd
    exact .self above ⟨path, name, node⟩ hlast
  | true =>
    cases node with
    | dir mode accessed entries =>
      rw [below] at hd
      rcases List.mem_cons.1 hd with rfl | hd
      · exact .self above ⟨path, name, .dir mode accessed entries⟩ hlast
      · have hinside := isLedTo_of_mem_entries hpath h hd
        exact hinside.of_snoc hlast rfl
    | _ => cases hdir

theorem isLedTo_of_mem_entries {above : List Located} {dir : Path} {entries : List (String × Node)}
    (hdir : dir.chars ≠ []) (h : areProper entries = true) {d : Descendant}
    (hd : d ∈ belowEntries above dir entries) : d.IsLedTo above := by
  cases entries with
  | nil => cases hd
  | cons e rest =>
    obtain ⟨name, node⟩ := e
    obtain ⟨hname, -, hnode, hrest⟩ := areProper_cons h
    rw [belowEntries] at hd
    rcases List.mem_append.1 hd with hd | hd
    · have hlast : (dir.child name).components.getLast? = some (.normal name) := by
        rw [Path.components_child hdir hname, List.getLast?_concat]
      exact isLedTo_of_mem (chars_child_ne_nil hdir hname) hlast hnode hd
    · exact isLedTo_of_mem_entries hdir hrest hd
end

section Walk

variable {c : ScanConfig} {root : Path} {entries : List (String × Node)} {d : Descendant}

/-- Something below a root lies in a directory whose name is set: one at or above the root, or one on the way
down. -/
theorem exists_of_isInFoldedDir (hroot : root.chars ≠ []) (h : areProper entries = true)
    (hd : d ∈ belowEntries [] root entries) (hfolded : c.isInFoldedDir d.here.path = true) :
    c.isInFoldedDir root = true ∨ ∃ x ∈ d.way, c.shouldFold x.name x.path = true := by
  obtain ⟨init, last, hbegins, hname⟩ := ScanConfig.exists_prefix_of_isInFoldedDir hfolded
  obtain ⟨down, hway, child, hchild, hleading⟩ := exists_leading_entries hroot h hd
  have hbelow := hleading.below
  rw [Path.components_child hroot hchild] at hbelow
  by_cases hlength : (init ++ [last]).length ≤ root.components.length
  · have hroot : init ++ [last] <+: root.components :=
      List.prefix_of_prefix_length_le hbegins ((List.prefix_append _ _).trans hbelow) hlength
    exact .inl (ScanConfig.isInFoldedDir_iff_mem.2 ⟨last, hroot.subset (by simp), hname⟩)
  · have hfurther : root.components ++ [.normal child] <+: init ++ [last] :=
      List.prefix_of_prefix_length_le hbelow hbegins (by simp at hlength ⊢; omega)
    rw [← Path.components_child hroot hchild] at hfurther
    obtain ⟨x, hx, hsame⟩ := (hleading.between _).2 ⟨hfurther, hbegins⟩
    have hmem : x ∈ d.way := by rw [hway]; exact hx
    have hends := ((isLedTo_of_mem_entries hroot h hd).names x hmem).resolve_left List.not_mem_nil
    rw [hsame, List.getLast?_concat, Option.some.injEq] at hends
    rw [hends] at hname
    exact .inr ⟨x, hmem, ScanConfig.shouldFold_of_mem hname x.path⟩

/-- What stands above something else is a directory, so a walk folds it if its name and path say so. -/
theorem any_isFolded_iff (hled : d.IsLedTo []) :
    (d.above.any (Located.isFolded c) || c.shouldFold d.here.name d.here.path) = true
      ↔ ∃ x ∈ d.way, c.shouldFold x.name x.path = true := by
  have habove : ∀ x ∈ d.above, x.isFolded c = c.shouldFold x.name x.path := fun x hx => by
    rw [Located.isFolded, (hled.directories x hx).resolve_left List.not_mem_nil, Bool.true_and]
  rw [Bool.or_eq_true, List.any_eq_true]
  constructor
  · rintro (⟨x, hx, hfold⟩ | hfold)
    · exact ⟨x, Descendant.mem_way_iff.2 (.inl hx), habove x hx ▸ hfold⟩
    · exact ⟨d.here, Descendant.mem_way_iff.2 (.inr rfl), hfold⟩
  · rintro ⟨x, hx, hfold⟩
    rcases Descendant.mem_way_iff.1 hx with hx | rfl
    · exact .inl ⟨x, hx, (habove x hx).trans hfold⟩
    · exact .inr hfold

/-- **A walk** finds in a folded directory, or would fold itself, what has a name on its path that is set,
unless that name is one of the root's. -/
theorem isInFoldedDir_of_mem (hcaches : c.FoldsCaches) (hroot : root.chars ≠ [])
    (h : areProper entries = true) (hd : d ∈ belowEntries [] root entries) :
    c.isInFoldedDir d.here.path = (c.isInFoldedDir root
      || (d.above.any (Located.isFolded c) || c.shouldFold d.here.name d.here.path)) := by
  have hled := isLedTo_of_mem_entries hroot h hd
  obtain ⟨down, hway, child, hchild, hleading⟩ := exists_leading_entries hroot h hd
  rw [Bool.eq_iff_iff, Bool.or_eq_true, any_isFolded_iff hled]
  refine ⟨exists_of_isInFoldedDir hroot h hd, ?_⟩
  rintro (hfolded | ⟨x, hx, hfold⟩)
  · refine ScanConfig.isInFoldedDir_of_prefix ?_ hfolded
    refine List.IsPrefix.trans ?_ hleading.below
    rw [Path.components_child hroot hchild]
    exact List.prefix_append _ _
  · have hends := (hled.names x hx).resolve_left List.not_mem_nil
    have hdown : x ∈ down := by rwa [hway] at hx
    refine ScanConfig.isInFoldedDir_of_prefix ((hleading.between _).1 ⟨x, hdown, rfl⟩).2 ?_
    refine ScanConfig.isInFoldedDir_of_foldsAt hcaches ?_
    rw [ScanConfig.foldsAt_of_getLast? hends]
    exact hfold

end Walk

/-- **Folded directories.**  A path with a name on it that is set leads to or through a directory that is
folded.  If the package caches are folded by name, then only such paths have one: the check of the index and
the check of the walk agree on every path.  So in a tree whose directories have their entries under different
names, and below a root that lies in no folded directory, the index leaves out just what a walk finds in a
directory that it folds, or has a name that is folded. -/
theorem folded_paths_lead_through_a_folded_directory (c : ScanConfig) (p : Path) :
    (c.isInFoldedDir p = true → ∃ d, p.isWithin d = true ∧ c.foldsAt d = true) ∧
    (c.FoldsCaches →
      (c.isInFoldedDir p = true ↔ ∃ d, p.isWithin d = true ∧ c.foldsAt d = true) ∧
      ∀ root entries, root.chars ≠ [] → areProper entries = true → ∀ d ∈ belowEntries [] root entries,
        c.isInFoldedDir d.here.path = (c.isInFoldedDir root
          || (d.above.any (Located.isFolded c) || c.shouldFold d.here.name d.here.path))) := by
  refine ⟨ScanConfig.exists_foldsAt_of_isInFoldedDir, fun hcaches => ?_⟩
  refine ⟨ScanConfig.isInFoldedDir_iff hcaches, fun root entries hroot hproper d hd => ?_⟩
  exact isInFoldedDir_of_mem hcaches hroot hproper hd

/-- A cache with a store in it. -/
def storeEntries : List (String × Node) :=
  [(".npm", .dir .free none [("_cacache", .dir .free none [("x", .file ⟨0, .fill 10, none⟩)])])]

theorem store_is_folded_by_both_checks :
    let c := ScanConfig.default ⟨none, 1⟩
    let p : Path := ⟨"/h/.npm/_cacache/x"⟩
    c.isInFoldedDir p = true ∧ (∃ d, p.isWithin d = true ∧ c.foldsAt d = true) ∧
      c.isInFoldedDir ⟨"/h"⟩ = false ∧
      ∀ d ∈ belowEntries [] ⟨"/h"⟩ storeEntries,
        c.isInFoldedDir d.here.path
          = (d.above.any (Located.isFolded c) || c.shouldFold d.here.name d.here.path) := by
  intro c p
  have hfolded : c.isInFoldedDir p = true := by decide +kernel
  have hroot : c.isInFoldedDir ⟨"/h"⟩ = false := by decide +kernel
  obtain ⟨-, hboth⟩ := folded_paths_lead_through_a_folded_directory c p
  obtain ⟨hiff, hwalk⟩ := hboth (by decide +kernel)
  refine ⟨hfolded, hiff.1 hfolded, hroot, fun d hd => ?_⟩
  have hsame := hwalk ⟨"/h"⟩ storeEntries (by decide) (by decide +kernel) d hd
  rwa [hroot, Bool.false_or] at hsame

/-- Where a cache is not folded by name, a walk folds its store all the same, and the index does not know. -/
example :
    let c := { ScanConfig.default ⟨none, 1⟩ with foldDirs := ["node_modules"] }
    c.foldsAt ⟨"/h/.npm/_cacache"⟩ = true ∧ c.isInFoldedDir ⟨"/h/.npm/_cacache/x"⟩ = false := by
  decide +kernel

end DiskUsage
