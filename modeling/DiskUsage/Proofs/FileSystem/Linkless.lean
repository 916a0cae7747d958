import DiskUsage.FileSystem.Canonical
import DiskUsage.Proofs.FileSystem.Directories
import DiskUsage.Proofs.Path.Cleaning

/-!
# Clean paths in a tree without links

Where there is no link, a step up always takes back the name before it.  So the names that a path leads to
are those that cleaning leaves of it, and the clean path is the one that is written with them.

* `Linkless`: there is no link in the tree.
* `trail`, `follow_linkless`: the names that pieces lead to are what cleaning makes of the pieces.
* `follow_names`: the names at which a node stands lead to it.
* `clean_eq_pathOf`: the clean path is that of the names; `resolve_clean`: so it leads to the same node.
* `clean_paths_are_plain_and_lead_alike`: what holds of clean paths.
-/

namespace DiskUsage.FileSystem

/-- There is no link in the tree. -/
def Linkless (fs : FileSystem) : Prop :=
  ∀ names target, fs.shape? names ≠ some (.link target)

/-- What a piece of a path says. -/
def said (piece : String) : Option Path.Component :=
  Path.component? false piece.toList

/-- What leads to names from the root on, the last name first. -/
def trail (names : List String) : List Path.Component :=
  (names.map .normal).reverse ++ [.root]

variable {fs : FileSystem} {ending : Ending} {links : Nat} {cwd here pieces names : List String}
  {piece : String} {p : Path} {node : Node}

/-! ### Pieces and what they say -/

theorem said_of_stays (h : stays piece = true) : said piece = none := by
  simp only [stays, Bool.or_eq_true, decide_eq_true_eq] at h
  rcases h with rfl | rfl <;> rfl

theorem said_of_isTaken (h : IsTaken piece) : said piece = some (.normal piece) := by
  have hmoves := h.moves
  simp only [stays, Bool.or_eq_false_iff, decide_eq_false_iff_not] at hmoves
  have hempty : piece.toList ≠ [] := fun heq => hmoves.2 (String.toList_inj.1 heq)
  have hdot : piece.toList ≠ ['.'] := fun heq => hmoves.1 (String.toList_inj.1 heq)
  have hup : piece.toList ≠ ['.', '.'] := fun heq => h.down (String.toList_inj.1 heq)
  unfold said Path.component?
  rw [if_neg hempty, if_neg hdot, if_neg hup, String.ofList_toList]

theorem filterMap_said_named (ws : List (List Char)) :
    (Path.named ws).filterMap said = ws.filterMap (Path.component? false) := by
  induction ws with
  | nil => rfl
  | cons w ws ih =>
    rw [← List.singleton_append, Path.named_append, List.filterMap_append, ih, List.filterMap_append]
    by_cases hw : w = []
    · rw [hw]
      rfl
    · have hsaid : said (String.ofList w) = Path.component? false w := by
        rw [said, String.toList_ofList]
      rw [Path.named_singleton hw, List.filterMap_cons, hsaid, List.filterMap_cons]
      rfl

/-- The pieces that are followed are those with a name, and a slash at the end may be one more. -/
theorem steps_cases (p : Path) :
    steps p = Path.named (Path.pieces p.chars) ∨ steps p = Path.named (Path.pieces p.chars) ++ [""] := by
  unfold steps
  dsimp only
  split
  · next hnone => exact .inl (List.isEmpty_iff.1 hnone).symm
  · split
    · exact .inr rfl
    · exact .inl rfl

/-- The pieces that are followed say what all pieces of the path say. -/
theorem filterMap_said_steps (p : Path) :
    (steps p).filterMap said = (Path.pieces p.chars).filterMap (Path.component? false) := by
  rw [← filterMap_said_named]
  rcases steps_cases p with hsteps | hsteps
  · rw [hsteps]
  · rw [hsteps, List.filterMap_append]
    exact List.append_nil _

/-- An absolute path says the root, and then what the pieces say that are followed. -/
theorem components_of_isAbsolute (h : p.isAbsolute = true) :
    p.components = .root :: (steps p).filterMap said := by
  obtain ⟨cs, hcs⟩ : ∃ cs, p.chars = '/' :: cs := by
    cases hc : p.chars <;> simp_all [Path.isAbsolute]
  have hpieces : Path.pieces p.chars = [] :: Path.pieces cs := by rw [hcs, Path.pieces_slash_cons]
  rw [filterMap_said_steps, Path.components_eq hpieces, h, hpieces]
  rfl

/-! ### Names and steps up -/

theorem trail_concat (names : List String) (name : String) :
    trail (names ++ [name]) = .normal name :: trail names := by
  simp [trail]

/-- A step up takes back the last name; at the root it stays there. -/
theorem cleanStep_trail (names : List String) :
    Path.cleanStep (trail names) .parent = trail names.dropLast := by
  rcases List.eq_nil_or_concat names with rfl | ⟨init, last, rfl⟩
  · rfl
  · rw [List.concat_eq_append, List.dropLast_concat, trail_concat]
    rfl

/-- The names are taken one after the other, but for those that were taken before: each is a name that a
directory may have, and the directory admits it. -/
def TakenFrom (fs : FileSystem) (here names : List String) : Prop :=
  ∀ init name rest, names = init ++ name :: rest →
    init ++ [name] <+: here ∨ IsTaken name ∧ fs.Admits init name

/-- **Without links** the names that pieces lead to are what cleaning makes of the pieces, and all that
come in on the way are taken one after the other. -/
theorem follow_linkless (hlinkless : Linkless fs)
    (h : fs.follow ending links here pieces = .ok (.node names node)) :
    trail names = (pieces.filterMap said).foldl Path.cleanStep (trail here) ∧
      TakenFrom fs here names := by
  induction pieces generalizing here with
  | nil =>
    rw [follow, advance_nil] at h
    cases hat : fs.at? here with
    | none =>
      rw [hat] at h
      cases h
    | some found =>
      rw [hat] at h
      cases h
      exact ⟨rfl, fun init name rest hhere => .inl ⟨rest, by simp [hhere]⟩⟩
  | cons piece left ih =>
    cases turn_of_follow h with
    | stay hstays hon =>
      rw [List.filterMap_cons, said_of_stays hstays]
      exact ih hon
    | up hup hon =>
      subst hup
      obtain ⟨htrail, hnames⟩ := ih hon
      rw [← cleanStep_trail] at htrail
      exact ⟨htrail, fun init name rest heq => (hnames init name rest heq).imp_left fun hpre =>
        hpre.trans (List.dropLast_prefix _)⟩
    | missing hpiece hleft hnone hplace => cases hplace
    | itself hpiece hleft hending target hlink => exact absurd hlink (hlinkless _ target)
    | link hpiece target fewer hlinks hslash hnot hlink => exact absurd hlink (hlinkless _ target)
    | down hpiece hslash hsome hlink hon =>
      obtain ⟨htrail, hnames⟩ := ih hon
      rw [trail_concat] at htrail
      rw [List.filterMap_cons, said_of_isTaken hpiece]
      refine ⟨htrail, fun init name rest heq => ?_⟩
      rcases hnames init name rest heq with hpre | htaken
      · rcases List.prefix_concat_iff.1 hpre with hwhole | hpre
        · obtain ⟨rfl, hname⟩ := List.append_inj' hwhole rfl
          cases hname
          exact .inr ⟨hpiece, admits_of_follow h⟩
        · exact .inl hpre
      · exact .inr htaken

/-! ### Names from the root on -/

/-- What stands above a node is there. -/
theorem shape?_ne_none_of_append {more : List String} (h : fs.at? (here ++ more) = some node) :
    fs.shape? here ≠ none := by
  intro hnone
  by_cases hmore : more = []
  · rw [hmore, List.append_nil] at h
    rw [shape?_of_some h] at hnone
    cases hnone
  · have hgone := at?_append_eq_none (fun ⟨_, hdir⟩ => nomatch hnone.symm.trans hdir) hmore
    rw [h] at hgone
    cases hgone

/-- **The names at which a node stands** lead to it, where there is no link and each may be taken. -/
theorem follow_names (hlinkless : Linkless fs)
    (htaken : ∀ init name rest, names = init ++ name :: rest →
      IsTaken name ∧ fs.Admits (here ++ init) name)
    (hat : fs.at? (here ++ names) = some node) :
    fs.follow ending links here names = .ok (.node (here ++ names) node) := by
  induction names generalizing here with
  | nil =>
    rw [List.append_nil] at hat ⊢
    exact follow_nil hat
  | cons name rest ih =>
    obtain ⟨hname, hadmits⟩ := htaken [] name rest rfl
    rw [List.append_nil] at hadmits
    have hslash : ¬(ending = .written ∧ rest = [""]) := by
      rintro ⟨-, rfl⟩
      exact (htaken [name] "" [] rfl).1.ne_empty rfl
    rw [List.append_cons] at hat ⊢
    rw [follow_down hadmits hname hslash (shape?_ne_none_of_append hat) (hlinkless _)]
    refine ih (fun init other more heq => ?_) hat
    have hother := htaken (name :: init) other more (by rw [heq]; rfl)
    rwa [List.append_cons] at hother

/-- The path that is written with names goes through them. -/
theorem steps_pathOf (h : ∀ name ∈ names, Path.IsName name) : steps (pathOf names) = names := by
  rcases List.eq_nil_or_concat names with rfl | ⟨init, last, rfl⟩
  · decide
  rw [List.concat_eq_append] at h ⊢
  have hlast := h last (by simp)
  have hslashes : ∀ u ∈ [] :: init.map String.toList, '/' ∉ u := by
    intro u hu
    rcases List.mem_cons.1 hu with rfl | hu
    · simp
    · obtain ⟨name, hname, rfl⟩ := List.mem_map.1 hu
      exact (h name (List.mem_append_left _ hname)).2.2.2
  have hchars : (pathOf (init ++ [last])).chars
      = Path.slashed ([] :: init.map String.toList) ++ last.toList := by
    rw [pathOf, Path.chars, String.toList_append, String.toList_intercalate, List.map_append]
    show '/' :: ['/'].intercalate _ = _
    rw [List.map_singleton, Path.intercalate_concat]
    rfl
  have hnamed : Path.named ([] :: init.map String.toList) = init := by
    rw [← List.singleton_append, Path.named_append]
    show Path.named (init.map String.toList) = init
    have hsome : (init.map String.toList).filter (fun w => !w.isEmpty) = init.map String.toList := by
      refine List.filter_eq_self.2 fun w hw => ?_
      obtain ⟨name, hname, rfl⟩ := List.mem_map.1 hw
      simpa using (h name (List.mem_append_left _ hname)).1
    rw [Path.named, hsome, List.map_map]
    simp
  have hne : last.toList ≠ [] := by simpa using hlast.1
  rw [Path.steps_of_slashed hslashes hchars hne hlast.2.2.2, hnamed, String.ofList_toList]

/-! ### The clean path -/

/-- **Cleaning** leaves of a path the names of the node that it leads to. -/
theorem components_clean_of_resolve (hlinkless : Linkless fs) (habsolute : p.isAbsolute = true)
    (h : fs.resolve cwd ending p = .ok (.node names node)) :
    p.clean.components = .root :: names.map .normal := by
  rw [(admitted_of_resolve h).resolve, startOf, habsolute, if_pos rfl] at h
  obtain ⟨htrail, -⟩ := follow_linkless hlinkless h
  rw [Path.components_clean, Path.cleanComponents, components_of_isAbsolute habsolute]
  show (((steps p).filterMap said).foldl Path.cleanStep (trail [])).reverse = _
  rw [← htrail, trail, List.reverse_append, List.reverse_reverse]
  rfl

/-- **The clean path** is the one that is written with the names of the node. -/
theorem clean_eq_pathOf (hlinkless : Linkless fs) (habsolute : p.isAbsolute = true)
    (h : fs.resolve cwd ending p = .ok (.node names node)) : p.clean = pathOf names := by
  have htexts : (names.map Path.Component.normal).map Path.Component.text = names := by
    rw [List.map_map]
    exact List.map_id names
  rw [← Path.ofComponents_components_clean, components_clean_of_resolve hlinkless habsolute h,
    Path.ofComponents, htexts, pathOf]

/-- A system call takes the clean path if it takes the path. -/
theorem admitted_clean (h : Admitted p) (habsolute : p.isAbsolute = true) : Admitted p.clean := by
  refine ⟨fun hzero => h.no_zero ((Path.chars_clean_sublist p).subset hzero), fun hnil => ?_, ?_⟩
  · have hstart := (Path.isAbsolute_clean p).trans habsolute
    simp [Path.isAbsolute, hnil] at hstart
  · have hfits := of_decide_eq_true h.fits
    exact decide_eq_true (Nat.le_trans (Path.byteLength_clean_le p) hfits)

/-- **The clean path** leads to the same node. -/
theorem resolve_clean (hlinkless : Linkless fs) (habsolute : p.isAbsolute = true)
    (h : fs.resolve cwd ending p = .ok (.node names node)) :
    fs.resolve cwd ending p.clean = .ok (.node names node) := by
  have hadmitted := admitted_of_resolve h
  have hnames : ∀ name ∈ names, Path.IsName name := by
    have hproper := Path.proper_components p.clean
    rw [components_clean_of_resolve hlinkless habsolute h] at hproper
    exact fun name hname => hproper.2 _ (List.mem_map_of_mem hname)
  have hplace : fs.at? names = some node := resolve_stands h
  have hclean := clean_eq_pathOf hlinkless habsolute h
  rw [hadmitted.resolve, startOf, habsolute, if_pos rfl] at h
  obtain ⟨-, htaken⟩ := follow_linkless hlinkless h
  rw [(admitted_clean hadmitted habsolute).resolve, startOf, Path.isAbsolute_clean, habsolute, if_pos rfl,
    hclean, steps_pathOf hnames]
  refine follow_names hlinkless (fun init name rest heq => ?_) hplace
  exact (htaken init name rest heq).resolve_left (by simp)

/-- **Clean paths** stay as they are when they are cleaned again.  They consist of names after the root, if
the path starts there, or else after some steps up; there is no `.`, and no other `..`, and nothing else is
written.  Paths may be cleaned before they are joined.  And in a tree without links the clean path of an
absolute path leads to the node that the path itself leads to. -/
theorem clean_paths_are_plain_and_lead_alike (p q : Path) :
    p.clean.clean = p.clean ∧
      (∃ ups names, p.clean.components
        = (if p.isAbsolute then [.root] else List.replicate ups .parent)
          ++ List.map Path.Component.normal names) ∧
      Path.ofComponents p.clean.components = p.clean ∧
      p.clean.isAbsolute = p.isAbsolute ∧
      (p.join q).clean = (p.clean.join q.clean).clean ∧
      ∀ (fs : FileSystem) (cwd : List String) (ending : Ending) (names : List String) (node : Node),
        Linkless fs → p.isAbsolute = true → fs.resolve cwd ending p = .ok (.node names node) →
          fs.resolve cwd ending p.clean = .ok (.node names node) := by
  refine ⟨Path.clean_clean p, Path.exists_components_clean p, Path.ofComponents_components_clean p,
    Path.isAbsolute_clean p, Path.clean_join p q, ?_⟩
  intro fs cwd ending names node hlinkless habsolute h
  exact resolve_clean hlinkless habsolute h

/-- A directory with an empty directory and a file in it. -/
def plainTree : FileSystem where
  root := .dir .free none
    [("a", .dir .free none [("b", .dir .free none []), ("f", .file ⟨0, .fill 10, none⟩)])]
  nextId := 1

theorem linkless_plainTree : Linkless plainTree := by
  intro names target hlink
  obtain ⟨data, hat⟩ := exists_link_of_shape? hlink
  cases names with
  | nil => cases hat
  | cons first names =>
    obtain ⟨child, hchild, hat⟩ := Option.bind_eq_some_iff.1 hat
    rw [Node.childNamed?] at hchild
    split at hchild
    · cases hchild
      cases names with
      | nil => cases hat
      | cons second names =>
        obtain ⟨inner, hinner, hat⟩ := Option.bind_eq_some_iff.1 hat
        rw [Node.childNamed?, Node.childNamed?] at hinner
        split at hinner
        · cases hinner
          cases names <;> cases hat
        · split at hinner
          · cases hinner
            cases names <;> cases hat
          · cases hinner
    · cases hchild

theorem roundabout_way_leads_to_the_file :
    Linkless plainTree ∧
      plainTree.resolve [] .itself ⟨"/../a/./b/..//f"⟩
        = .ok (.node ["a", "f"] (.file ⟨0, .fill 10, none⟩)) ∧
      Path.clean ⟨"/../a/./b/..//f"⟩ = ⟨"/a/f"⟩ ∧
      plainTree.resolve [] .itself ⟨"/a/f"⟩ = .ok (.node ["a", "f"] (.file ⟨0, .fill 10, none⟩)) := by
  have hfound : plainTree.resolve [] .itself ⟨"/../a/./b/..//f"⟩
      = .ok (.node ["a", "f"] (.file ⟨0, .fill 10, none⟩)) := by rfl
  have hclean : Path.clean ⟨"/../a/./b/..//f"⟩ = ⟨"/a/f"⟩ := by decide +kernel
  obtain ⟨-, -, -, -, -, hleads⟩ := clean_paths_are_plain_and_lead_alike ⟨"/../a/./b/..//f"⟩ ⟨"x"⟩
  have hleads := hleads plainTree [] .itself ["a", "f"] _ linkless_plainTree (by decide) hfound
  exact ⟨linkless_plainTree, hfound, hclean, hclean ▸ hleads⟩

end DiskUsage.FileSystem
