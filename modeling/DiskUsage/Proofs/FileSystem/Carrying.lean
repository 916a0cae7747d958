import DiskUsage.FileSystem.Lookup

/-!
# Paths that lead to the same place

To a path that leads through a node it only matters whether the node is a directory, and one whose names
may be looked up, a link or neither.  If two file systems agree on that everywhere but at one place, which
no path can lead through, then a path that leads somewhere in the first leads to the same names in the
second.

* `shape?`: what stands at names, to a path; `HasDir`: a directory does.
* `Admits`: a piece of a path may be taken there; `advance_of_admits`: how the path goes on.
* `Place.Stands`, `resolve_stands`: what the place that a path leads to says.
* `Carries`, `resolve_carry`: paths lead to the same names.
-/

namespace DiskUsage

/-- What a node is to a path that leads through it. -/
inductive Shape where
  /-- A directory, and whether its names may be looked up. -/
  | dir (searchable : Bool)
  | link (target : Path)
  | leaf
  deriving DecidableEq, Repr

/-- What the node is to a path. -/
def Node.shape : Node → Shape
  | .dir mode _ _ => .dir mode.searchable
  | .link target _ => .link target
  | .file _ => .leaf
  | .special _ => .leaf

/-- The shape of a directory. -/
def Shape.isDir : Shape → Bool
  | dir _ => true
  | _ => false

@[simp] theorem Node.isDir_shape (node : Node) : node.shape.isDir = node.isDir := by
  cases node <;> rfl

theorem Node.descend?_append (a b : List String) (node : Node) :
    descend? (a ++ b) node = (descend? a node).bind (descend? b) := by
  induction a generalizing node with
  | nil => rfl
  | cons name a ih =>
    cases node with
    | dir mode accessed entries =>
      rw [List.cons_append, descend?, descend?]
      cases childNamed? name entries with
      | none => rfl
      | some child => exact ih child
    | file data => rfl
    | link target accessed => rfl
    | special accessed => rfl

namespace FileSystem

/-- What stands at names from the root on, to a path. -/
def shape? (fs : FileSystem) (names : List String) : Option Shape :=
  (fs.at? names).map Node.shape

theorem shape?_of_none {fs : FileSystem} {names : List String} (h : fs.at? names = none) :
    fs.shape? names = none := by
  rw [shape?, h]
  rfl

theorem shape?_of_some {fs : FileSystem} {names : List String} {node : Node}
    (h : fs.at? names = some node) : fs.shape? names = some node.shape := by
  rw [shape?, h]
  rfl

/-- A directory stands at names from the root on. -/
def HasDir (fs : FileSystem) (names : List String) : Prop :=
  ∃ searchable, fs.shape? names = some (.dir searchable)

theorem hasDir_iff {fs : FileSystem} {names : List String} :
    fs.HasDir names ↔ ∃ node, fs.at? names = some node ∧ node.isDir = true := by
  constructor
  · rintro ⟨searchable, h⟩
    obtain ⟨node, hat, hshape⟩ := Option.map_eq_some_iff.1 h
    exact ⟨node, hat, by rw [← Node.isDir_shape, hshape]; rfl⟩
  · rintro ⟨node, hat, hdir⟩
    cases node with
    | dir mode accessed entries => exact ⟨mode.searchable, shape?_of_some hat⟩
    | file data => cases hdir
    | link target data => cases hdir
    | special accessed => cases hdir

theorem exists_dir_of_hasDir {fs : FileSystem} {names : List String} (h : fs.HasDir names) :
    ∃ mode accessed entries, fs.at? names = some (.dir mode accessed entries) := by
  obtain ⟨node, hat, hdir⟩ := hasDir_iff.1 h
  cases node with
  | dir mode accessed entries => exact ⟨mode, accessed, entries, hat⟩
  | file data => cases hdir
  | link target data => cases hdir
  | special accessed => cases hdir

theorem hasDir_of_some {fs : FileSystem} {names : List String} {mode : DirMode}
    {accessed : Option Timestamp} {entries : List (String × Node)}
    (h : fs.at? names = some (.dir mode accessed entries)) : fs.HasDir names :=
  ⟨_, shape?_of_some h⟩

theorem not_hasDir_of_link {fs : FileSystem} {names : List String} {target : Path}
    (h : fs.shape? names = some (.link target)) : ¬fs.HasDir names := by
  rintro ⟨searchable, hdir⟩
  rw [h] at hdir
  cases hdir

theorem isDir_of_hasDir {fs : FileSystem} {names : List String} {node : Node} (h : fs.HasDir names)
    (hat : fs.at? names = some node) : node.isDir = true := by
  obtain ⟨found, hfound, hdir⟩ := hasDir_iff.1 h
  rwa [Option.some.inj (hat.symm.trans hfound)]

/-- The piece of a path may be taken there: in a directory whose names may be looked up, or at the end of
the path, where a slash comes after the name of a directory. -/
def Admits (fs : FileSystem) (here : List String) (piece : String) : Prop :=
  fs.shape? here = some (.dir true) ∨ piece = "" ∧ fs.HasDir here

theorem Admits.hasDir {fs : FileSystem} {here : List String} {piece : String}
    (h : fs.Admits here piece) : fs.HasDir here := by
  rcases h with h | ⟨-, h⟩
  · exact ⟨true, h⟩
  · exact h

theorem hasDir_congr {fs gs : FileSystem} {names : List String} (h : fs.shape? names = gs.shape? names) :
    fs.HasDir names ↔ gs.HasDir names := by
  rw [HasDir, HasDir, h]

theorem admits_congr {fs gs : FileSystem} {names : List String} (h : fs.shape? names = gs.shape? names)
    (piece : String) : fs.Admits names piece ↔ gs.Admits names piece := by
  rw [Admits, Admits, h, hasDir_congr h]

/-- Whether a name may be taken does not depend on the name. -/
theorem Admits.of_ne_empty {fs : FileSystem} {here : List String} {piece : String}
    (h : fs.Admits here piece) (hpiece : piece ≠ "") (other : String) : fs.Admits here other :=
  .inl (h.resolve_right fun hslash => hpiece hslash.1)

theorem exists_link_of_shape? {fs : FileSystem} {names : List String} {target : Path}
    (h : fs.shape? names = some (.link target)) :
    ∃ data, fs.at? names = some (.link target data) := by
  obtain ⟨node, hat, hshape⟩ := Option.map_eq_some_iff.1 h
  cases node with
  | link target data =>
    cases hshape
    exact ⟨data, hat⟩
  | dir mode accessed entries => cases hshape
  | file data => cases hshape
  | special accessed => cases hshape

/-- The names of a place. -/
def Place.names : Place → List String
  | .node names _ => names
  | .missing dir name => dir ++ [name]

/-- The place is as it says: the node stands there, or the directory has no such name. -/
def Place.Stands (fs : FileSystem) : Place → Prop
  | .node names found => fs.at? names = some found
  | .missing dir name => fs.HasDir dir ∧ fs.at? (dir ++ [name]) = none

section Steps

variable {fs : FileSystem} {ending : Ending} {here left : List String} {piece : String}

/-- Under a directory stand its entries. -/
theorem at?_snoc {mode : DirMode} {accessed : Option Timestamp} {entries : List (String × Node)}
    (h : fs.at? here = some (.dir mode accessed entries)) (piece : String) :
    fs.at? (here ++ [piece]) = Node.childNamed? piece entries := by
  unfold at? at h ⊢
  rw [Node.descend?_append, h, Option.bind_some, Node.descend?]
  cases Node.childNamed? piece entries <;> rfl

/-- Under anything else stands nothing. -/
theorem at?_append_eq_none (h : ¬fs.HasDir here) {more : List String} (hmore : more ≠ []) :
    fs.at? (here ++ more) = none := by
  rw [hasDir_iff] at h
  unfold at? at h ⊢
  rw [Node.descend?_append]
  obtain ⟨piece, rest, rfl⟩ := List.exists_cons_of_ne_nil hmore
  cases hat : Node.descend? here fs.root with
  | none => rfl
  | some node =>
    rw [hat] at h
    cases node with
    | dir mode accessed entries => exact absurd ⟨_, rfl, rfl⟩ h
    | file data => rfl
    | link target data => rfl
    | special accessed => rfl

/-- What stands under a name stands in a directory. -/
theorem hasDir_of_child {dir : List String} {name : String} {node : Node}
    (h : fs.at? (dir ++ [name]) = some node) : fs.HasDir dir := by
  by_cases hdir : fs.HasDir dir
  · exact hdir
  · rw [at?_append_eq_none hdir (by simp)] at h
    cases h

theorem advance_nil (fs : FileSystem) (ending : Ending) (here : List String) :
    fs.advance ending here []
      = match fs.at? here with
        | some node => .arrived (.node here node)
        | none => .failed .noEntry := by
  unfold advance
  rfl

/-- A path only goes on where the next piece may be taken. -/
theorem advance_of_not_admits {piece : String} (h : ¬fs.Admits here piece) :
    ∃ e, ∀ ending left, fs.advance ending here (piece :: left) = .failed e := by
  simp only [advance]
  cases hat : fs.at? here with
  | none => exact ⟨_, fun _ _ => rfl⟩
  | some node =>
    cases node with
    | dir mode accessed entries =>
      have hpiece : piece ≠ "" := fun hslash => h (.inr ⟨hslash, hasDir_of_some hat⟩)
      have hclosed : mode.searchable = false := by
        rw [Bool.eq_false_iff]
        exact fun hopen => h (.inl (by rw [shape?_of_some hat, Node.shape, hopen]))
      exact ⟨_, fun _ _ => if_pos (by simp [hpiece, hclosed])⟩
    | file data => exact ⟨_, fun _ _ => rfl⟩
    | link target data => exact ⟨_, fun _ _ => rfl⟩
    | special accessed => exact ⟨_, fun _ _ => rfl⟩

/-- How a path goes on from a directory by a name. -/
def takeName (fs : FileSystem) (ending : Ending) (here : List String) (piece : String)
    (left : List String) : Stop :=
  match fs.at? (here ++ [piece]) with
  | none => if left.isEmpty then .arrived (.missing here piece) else .failed .noEntry
  | some (.link target data) =>
    if left.isEmpty && ending = .itself then .arrived (.node (here ++ [piece]) (.link target data))
    else .link here target left
  | some _ => fs.advance ending (here ++ [piece]) left

theorem takeName_of_none (h : fs.shape? (here ++ [piece]) = none) :
    fs.takeName ending here piece left
      = if left.isEmpty then .arrived (.missing here piece) else .failed .noEntry := by
  rw [takeName, Option.map_eq_none_iff.1 h]

theorem takeName_of_link {target : Path} (h : fs.shape? (here ++ [piece]) = some (.link target)) :
    ∃ data, fs.takeName ending here piece left
      = if left.isEmpty && ending = .itself then
          .arrived (.node (here ++ [piece]) (.link target data))
        else .link here target left := by
  obtain ⟨data, hat⟩ := exists_link_of_shape? h
  exact ⟨data, by rw [takeName, hat]⟩

theorem takeName_of_not_link (hsome : fs.shape? (here ++ [piece]) ≠ none)
    (h : ∀ target, fs.shape? (here ++ [piece]) ≠ some (.link target)) :
    fs.takeName ending here piece left = fs.advance ending (here ++ [piece]) left := by
  cases hat : fs.at? (here ++ [piece]) with
  | none => exact absurd (shape?_of_none hat) hsome
  | some node =>
    cases node with
    | link target data => exact absurd (shape?_of_some hat) (h target)
    | dir mode accessed entries => rw [takeName, hat]
    | file data => rw [takeName, hat]
    | special accessed => rw [takeName, hat]

/-- The last name leads to what stands there, be it nothing, if that is no link. -/
theorem takeName_last (h : ∀ target, fs.shape? (here ++ [piece]) ≠ some (.link target)) :
    ∃ place, fs.takeName ending here piece [] = .arrived place ∧ place.names = here ++ [piece] := by
  by_cases hnone : fs.shape? (here ++ [piece]) = none
  · exact ⟨_, takeName_of_none hnone, rfl⟩
  · rw [takeName_of_not_link hnone h, advance_nil]
    unfold shape? at hnone
    cases hat : fs.at? (here ++ [piece]) with
    | none => exact absurd (by rw [hat]; rfl) hnone
    | some node => exact ⟨_, rfl, rfl⟩

/-- Any other name has to be that of a directory or a link. -/
theorem takeName_of_leaf (hleft : left ≠ []) (hdir : ¬fs.HasDir (here ++ [piece]))
    (h : ∀ target, fs.shape? (here ++ [piece]) ≠ some (.link target)) :
    ∃ e, fs.takeName ending here piece left = .failed e := by
  obtain ⟨next, rest, rfl⟩ := List.exists_cons_of_ne_nil hleft
  by_cases hnone : fs.shape? (here ++ [piece]) = none
  · exact ⟨_, takeName_of_none hnone⟩
  · rw [takeName_of_not_link hnone h]
    have hnot : ¬fs.Admits (here ++ [piece]) next := fun h => hdir h.hasDir
    obtain ⟨e, he⟩ := advance_of_not_admits hnot
    exact ⟨e, he ending rest⟩

/-- How a path goes on where the next piece may be taken. -/
theorem advance_of_admits (h : fs.Admits here piece) (ending : Ending) (left : List String) :
    fs.advance ending here (piece :: left)
      = if stays piece then fs.advance ending here left
        else if piece = ".." then fs.advance ending here.dropLast left
        else if ending = .written && left == [""] then .failed .isADirectory
        else if maxNameBytes < piece.utf8ByteSize then .failed .nameTooLong
        else fs.takeName ending here piece left := by
  obtain ⟨mode, accessed, entries, hat⟩ := exists_dir_of_hasDir h.hasDir
  have hopen : ¬(decide (piece ≠ "") && !mode.searchable) = true := by
    rcases h with h | ⟨hslash, -⟩
    · rw [shape?_of_some hat] at h
      simp [Shape.dir.inj (Option.some.inj h)]
    · simp [hslash]
  rw [advance, hat]
  dsimp only
  rw [if_neg hopen, ← at?_snoc hat]
  rfl

end Steps

/-! ### What a place says -/

/-- A walk along pieces ends at a place that is as it says. -/
theorem advance_stands {fs : FileSystem} {ending : Ending} {here pieces : List String} {place : Place}
    (h : fs.advance ending here pieces = .arrived place) : place.Stands fs := by
  induction pieces generalizing here with
  | nil =>
    rw [advance_nil] at h
    split at h
    · next hat =>
      cases h
      exact hat
    · cases h
  | cons piece left ih =>
    by_cases hdir : fs.Admits here piece
    · rw [advance_of_admits hdir] at h
      split at h
      · exact ih h
      split at h
      · exact ih h
      split at h
      · cases h
      split at h
      · cases h
      unfold takeName at h
      split at h
      · next hat =>
        split at h
        · cases h
          exact ⟨hdir.hasDir, hat⟩
        · cases h
      · next hat =>
        split at h
        · cases h
          exact hat
        · cases h
      · exact ih h
    · obtain ⟨e, he⟩ := advance_of_not_admits hdir
      rw [he] at h
      cases h

theorem follow_stands {fs : FileSystem} {ending : Ending} {links : Nat} {here pieces : List String}
    {place : Place} (h : fs.follow ending links here pieces = .ok place) : place.Stands fs := by
  induction links generalizing here pieces with
  | zero =>
    unfold follow at h
    split at h
    · cases h
    · next hstop =>
      cases h
      exact advance_stands hstop
    · cases h
  | succ links ih =>
    unfold follow at h
    split at h
    · cases h
    · next hstop =>
      cases h
      exact advance_stands hstop
    · exact ih h

theorem resolve_eq_follow {fs : FileSystem} {cwd : List String} {ending : Ending} {p : Path}
    {place : Place} (h : fs.resolve cwd ending p = .ok place) (gs : FileSystem) :
    gs.resolve cwd ending p
      = gs.follow ending maxLinks (if p.isAbsolute then [] else cwd) (steps p) := by
  unfold resolve at h ⊢
  split at h
  · cases h
  · split at h
    · cases h
    · split at h
      · cases h
      · next hzero hempty hfits => rw [if_neg hzero, if_neg hempty, if_neg hfits]

/-- **The place** that a path leads to is as it says. -/
theorem resolve_stands {fs : FileSystem} {cwd : List String} {ending : Ending} {p : Path}
    {place : Place} (h : fs.resolve cwd ending p = .ok place) : place.Stands fs := by
  have hfollow := resolve_eq_follow h fs
  rw [h] at hfollow
  exact follow_stands hfollow.symm

/-! ### Two file systems -/

/-- No path leads through the place: there is nothing, or neither a directory nor a link. -/
def Solid (fs : FileSystem) (loc : List String) : Prop :=
  fs.shape? loc = none ∨ fs.shape? loc = some .leaf

theorem Solid.not_dir {fs : FileSystem} {loc : List String} (h : Solid fs loc) :
    ¬fs.HasDir loc := by
  rintro ⟨searchable, hdir⟩
  rcases h with h | h <;> cases h.symm.trans hdir

theorem Solid.not_link {fs : FileSystem} {loc : List String} (h : Solid fs loc) (target : Path) :
    fs.shape? loc ≠ some (.link target) := by
  rcases h with h | h <;> (rw [h]; nofun)

theorem Solid.of_none {fs : FileSystem} {loc : List String} (h : fs.at? loc = none) : Solid fs loc :=
  .inl (shape?_of_none h)

theorem Solid.of_file {fs : FileSystem} {loc : List String} {data : FileData}
    (h : fs.at? loc = some (.file data)) : Solid fs loc :=
  .inr (shape?_of_some h)

/-- The second file system is to paths what the first one is, but at one place: there no path leads
through in the first, and none turns aside in the second. -/
structure Carries (loc : List String) (fs gs : FileSystem) : Prop where
  ne_nil : loc ≠ []
  agree : ∀ names, names ≠ loc → fs.shape? names = gs.shape? names
  solid : Solid fs loc
  not_link : ∀ target, gs.shape? loc ≠ some (.link target)

variable {loc : List String} {fs gs : FileSystem} {ending : Ending}

/-- What a stop in the first file system is in the second. -/
def Stop.CarriedTo (loc : List String) : Stop → Stop → Prop
  | .failed _, _ => True
  | .arrived place, stop => ∃ place', stop = .arrived place' ∧ place'.names = place.names
  | .link here target left, stop => stop = .link here target left ∧ here ≠ loc

theorem Carries.dropLast_ne (h : Carries loc fs gs) {here : List String} (hhere : here ≠ loc)
    (hdir : fs.HasDir here) : here.dropLast ≠ loc := by
  intro hdrop
  rcases List.eq_nil_or_concat here with rfl | ⟨init, last, rfl⟩
  · exact hhere hdrop
  · rw [List.concat_eq_append, List.dropLast_concat] at hdrop
    subst hdrop
    have hnone : fs.at? (init ++ [last]) = none := at?_append_eq_none h.solid.not_dir (by simp)
    rw [List.concat_eq_append, hasDir_iff, hnone] at hdir
    simp at hdir

/-- A name leads alike in both, if what is left does. -/
theorem takeName_carry (h : Carries loc fs gs) {here left : List String} {piece : String}
    (hhere : here ≠ loc)
    (hleft : here ++ [piece] ≠ loc → Stop.CarriedTo loc (fs.advance ending (here ++ [piece]) left)
      (gs.advance ending (here ++ [piece]) left)) :
    Stop.CarriedTo loc (fs.takeName ending here piece left) (gs.takeName ending here piece left) := by
  by_cases hloc : here ++ [piece] = loc
  · have hlink : ∀ target, fs.shape? (here ++ [piece]) ≠ some (.link target) := hloc ▸ h.solid.not_link
    by_cases hnil : left = []
    · subst hnil
      obtain ⟨place, hplace, hnames⟩ := takeName_last hlink
      obtain ⟨place', hplace', hnames'⟩ := takeName_last (hloc ▸ h.not_link :
        ∀ target, gs.shape? (here ++ [piece]) ≠ some (.link target))
      rw [hplace, hplace']
      exact ⟨place', rfl, hnames'.trans hnames.symm⟩
    · obtain ⟨e, he⟩ := takeName_of_leaf hnil (hloc ▸ h.solid.not_dir) hlink
      rw [he]
      trivial
  · have hshape := h.agree _ hloc
    cases hf : fs.shape? (here ++ [piece]) with
    | none =>
      rw [takeName_of_none hf, takeName_of_none (hshape.symm.trans hf)]
      split
      · exact ⟨_, rfl, rfl⟩
      · trivial
    | some shape =>
      by_cases hlink : ∃ target, shape = .link target
      · obtain ⟨target, rfl⟩ := hlink
        obtain ⟨data, ha⟩ := takeName_of_link hf
        obtain ⟨data', ha'⟩ := takeName_of_link (hshape.symm.trans hf)
        rw [ha, ha']
        split
        · exact ⟨_, rfl, rfl⟩
        · exact ⟨rfl, hhere⟩
      · have hnot : ∀ target, fs.shape? (here ++ [piece]) ≠ some (.link target) :=
          fun target heq => hlink ⟨target, Option.some.inj (hf.symm.trans heq)⟩
        rw [takeName_of_not_link (by rw [hf]; nofun) hnot,
          takeName_of_not_link (by rw [← hshape, hf]; nofun) (by rw [← hshape]; exact hnot)]
        exact hleft hloc

/-- **One walk** along pieces stops alike in both. -/
theorem advance_carry (h : Carries loc fs gs) {here : List String} (hhere : here ≠ loc)
    (pieces : List String) :
    Stop.CarriedTo loc (fs.advance ending here pieces) (gs.advance ending here pieces) := by
  induction pieces generalizing here with
  | nil =>
    have hshape := h.agree here hhere
    rw [advance_nil, advance_nil]
    unfold shape? at hshape
    cases hf : fs.at? here with
    | none => trivial
    | some node =>
      rw [hf] at hshape
      obtain ⟨node', hg, -⟩ := Option.map_eq_some_iff.1 hshape.symm
      rw [hg]
      exact ⟨_, rfl, rfl⟩
  | cons piece left ih =>
    by_cases hdir : fs.Admits here piece
    · rw [advance_of_admits hdir, advance_of_admits ((admits_congr (h.agree here hhere) piece).1 hdir)]
      by_cases hstays : stays piece = true
      · rw [if_pos hstays, if_pos hstays]
        exact ih hhere
      rw [if_neg hstays, if_neg hstays]
      by_cases hup : piece = ".."
      · rw [if_pos hup, if_pos hup]
        exact ih (h.dropLast_ne hhere hdir.hasDir)
      rw [if_neg hup, if_neg hup]
      by_cases hwritten : (decide (ending = .written) && left == [""]) = true
      · rw [if_pos hwritten]
        trivial
      rw [if_neg hwritten, if_neg hwritten]
      by_cases hlong : maxNameBytes < piece.utf8ByteSize
      · rw [if_pos hlong]
        trivial
      rw [if_neg hlong, if_neg hlong]
      exact takeName_carry h hhere fun hloc => ih hloc
    · obtain ⟨e, he⟩ := advance_of_not_admits hdir
      rw [he]
      trivial

theorem follow_carry (h : Carries loc fs gs) {links : Nat} {here pieces : List String}
    (hhere : here ≠ loc) {place : Place} (hf : fs.follow ending links here pieces = .ok place) :
    ∃ place', gs.follow ending links here pieces = .ok place' ∧ place'.names = place.names := by
  induction links generalizing here pieces with
  | zero =>
    have hstop : Stop.CarriedTo loc (fs.advance ending here pieces) (gs.advance ending here pieces) :=
      advance_carry h hhere pieces
    unfold follow at hf ⊢
    cases hadvance : fs.advance ending here pieces with
    | failed e => rw [hadvance] at hf; cases hf
    | arrived found =>
      rw [hadvance] at hf hstop
      cases hf
      obtain ⟨place', hplace', hnames⟩ := hstop
      exact ⟨place', by rw [hplace'], hnames⟩
    | link there target left => rw [hadvance] at hf; cases hf
  | succ links ih =>
    have hstop : Stop.CarriedTo loc (fs.advance ending here pieces) (gs.advance ending here pieces) :=
      advance_carry h hhere pieces
    unfold follow at hf ⊢
    cases hadvance : fs.advance ending here pieces with
    | failed e => rw [hadvance] at hf; cases hf
    | arrived found =>
      rw [hadvance] at hf hstop
      cases hf
      obtain ⟨place', hplace', hnames⟩ := hstop
      exact ⟨place', by rw [hplace'], hnames⟩
    | link there target left =>
      rw [hadvance] at hf hstop
      obtain ⟨hlink, hthere⟩ := hstop
      rw [hlink]
      refine ih ?_ hf
      split
      · exact h.ne_nil.symm
      · exact hthere

/-- A path that is not empty and starts at no root goes through a piece. -/
theorem steps_ne_nil {p : Path} (hempty : p.chars ≠ []) (h : p.isAbsolute = false) : steps p ≠ [] := by
  obtain ⟨c, cs, hcs⟩ := List.exists_cons_of_ne_nil hempty
  have hslash : c ≠ '/' := by
    rintro rfl
    simp [Path.isAbsolute, hcs] at h
  have hpiece : ∃ w ws, Path.pieces p.chars = (c :: w) :: ws := by
    rw [hcs, Path.pieces, if_neg hslash]
    split
    · exact ⟨_, _, rfl⟩
    · exact ⟨_, _, rfl⟩
  obtain ⟨w, ws, hpieces⟩ := hpiece
  unfold steps
  rw [hpieces]
  simp only [List.isEmpty_cons, Bool.not_false, List.filter_cons_of_pos, List.map_cons,
    Bool.false_eq_true, if_false]
  split <;> exact List.cons_ne_nil _ _

/-- A path only starts at the root or at a directory. -/
theorem Carries.start_ne (h : Carries loc fs gs) {cwd : List String} {p : Path} {place : Place}
    (hf : fs.resolve cwd ending p = .ok place) : (if p.isAbsolute then [] else cwd) ≠ loc := by
  cases habsolute : p.isAbsolute with
  | true => exact h.ne_nil.symm
  | false =>
    rw [if_neg Bool.false_ne_true]
    rintro rfl
    have hempty : p.chars ≠ [] := by
      intro hnil
      unfold resolve at hf
      rw [hnil] at hf
      split at hf <;> cases hf
    obtain ⟨piece, left, hsteps⟩ := List.exists_cons_of_ne_nil (steps_ne_nil hempty habsolute)
    have hnot : ¬fs.Admits cwd piece := fun hat => h.solid.not_dir hat.hasDir
    obtain ⟨e, he⟩ := advance_of_not_admits hnot
    rw [resolve_eq_follow hf fs, hsteps, habsolute, if_neg Bool.false_ne_true, follow, he] at hf
    cases hf

/-- **Paths** that lead somewhere in the first file system lead to the same names in the second. -/
theorem resolve_carry (h : Carries loc fs gs) {cwd : List String} {p : Path} {place : Place}
    (hf : fs.resolve cwd ending p = .ok place) :
    ∃ place', gs.resolve cwd ending p = .ok place' ∧ place'.names = place.names := by
  have hstart := h.start_ne hf
  rw [resolve_eq_follow hf gs]
  rw [resolve_eq_follow hf fs] at hf
  exact follow_carry h hstart hf

end FileSystem

end DiskUsage
