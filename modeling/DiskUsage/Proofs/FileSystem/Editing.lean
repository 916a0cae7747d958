import DiskUsage.FileSystem.Edit
import DiskUsage.Proofs.FileSystem.Carrying

/-!
# What an edit leaves alone

A node that is put under a name, or taken away from it, changes nothing elsewhere; a directory above
stays a directory.  So paths that do not lead to that name lead where they led before.

* `EqualOff`: the same stands everywhere but at and below one place.
* `insert_equalOff`, `erase_equalOff`: what an edit leaves alone; `at?_insert`, `at?_erase`: what it
  changes.
* `at?_rewrite`: what stands where after a file was written.
* `EqualOff.carries`, `rewrite_carries`: paths lead to the same names.
-/

open scoped List

namespace DiskUsage

namespace Node

theorem childNamed?_dropEntry_self (name : String) (entries : List (String × Node)) :
    childNamed? name (dropEntry name entries) = none := by
  induction entries with
  | nil => rfl
  | cons e rest ih =>
    unfold dropEntry at ih ⊢
    by_cases hsame : e.1 = name
    · rw [List.filter_cons_of_neg (by simp [hsame])]
      exact ih
    · rw [List.filter_cons_of_pos (by simp [hsame]), childNamed?, if_neg hsame]
      exact ih

theorem childNamed?_dropEntry_of_ne {name other : String} (h : other ≠ name)
    (entries : List (String × Node)) :
    childNamed? other (dropEntry name entries) = childNamed? other entries := by
  induction entries with
  | nil => rfl
  | cons e rest ih =>
    unfold dropEntry at ih ⊢
    by_cases hsame : e.1 = name
    · rw [List.filter_cons_of_neg (by simp [hsame]), childNamed?, if_neg (hsame ▸ Ne.symm h)]
      exact ih
    · rw [List.filter_cons_of_pos (by simp [hsame]), childNamed?, childNamed?, ih]

/-- The same node, or none, or a directory each, of which both or neither may be searched. -/
def Alike (a b : Option Node) : Prop :=
  a = b ∨ ∃ searchable, a.map shape = some (.dir searchable) ∧ b.map shape = some (.dir searchable)

/-- The function changes the entry of one name only. -/
def EditsOnly (name : String) (f : List (String × Node) → List (String × Node)) : Prop :=
  ∀ entries other, other ≠ name → childNamed? other (f entries) = childNamed? other entries

variable {f : List (String × Node) → List (String × Node)} {name : String}

/-- Away from the entry that is edited the same stands as before. -/
theorem descend?_alter_off (hf : EditsOnly name f) (dir : List String) {names : List String}
    (hoff : ¬dir ++ [name] <+: names) (node : Node) :
    Alike (descend? names (alter f dir node)) (descend? names node) := by
  induction dir generalizing names node with
  | nil =>
    cases node with
    | dir mode accessed entries =>
      cases names with
      | nil => exact .inr ⟨_, rfl, rfl⟩
      | cons other rest =>
        have hne : other ≠ name := by
          rintro rfl
          exact hoff ⟨rest, rfl⟩
        rw [alter, descend?, descend?, hf entries other hne]
        exact .inl rfl
    | file data => exact .inl rfl
    | link target data => exact .inl rfl
    | special accessed => exact .inl rfl
  | cons first dir ih =>
    cases node with
    | dir mode accessed entries =>
      rw [alter]
      cases hchild : childNamed? first entries with
      | none => exact .inl rfl
      | some child =>
        cases names with
        | nil => exact .inr ⟨_, rfl, rfl⟩
        | cons other rest =>
          dsimp only
          rw [descend?, descend?]
          by_cases hsame : other = first
          · subst hsame
            rw [childNamed?_putEntry_self, hchild]
            refine ih (fun hprefix => hoff ?_) child
            rw [List.cons_append]
            exact (List.prefix_cons_inj other).2 hprefix
          · rw [childNamed?_putEntry_of_ne hsame]
            exact .inl rfl
    | file data => exact .inl rfl
    | link target data => exact .inl rfl
    | special accessed => exact .inl rfl

/-- At and below the entry that is edited stands what the edit says. -/
theorem descend?_alter_at (dir : List String) {node : Node} {mode : DirMode}
    {accessed : Option Timestamp} {entries : List (String × Node)}
    (hdir : descend? dir node = some (.dir mode accessed entries)) (rest : List String) :
    descend? (dir ++ name :: rest) (alter f dir node)
      = (childNamed? name (f entries)).bind (descend? rest) := by
  induction dir generalizing node with
  | nil =>
    cases hdir
    rw [alter, List.nil_append, descend?]
  | cons first dir ih =>
    cases node with
    | dir mode' accessed' entries' =>
      rw [descend?] at hdir
      obtain ⟨child, hchild, hdown⟩ := Option.bind_eq_some_iff.1 hdir
      rw [alter, hchild]
      dsimp only
      rw [List.cons_append, descend?, childNamed?_putEntry_self]
      exact ih hdown
    | file data => cases hdir
    | link target data => cases hdir
    | special accessed => cases hdir

theorem childNamed?_rewriteEntries (id : Nat) (content : Content) (name : String)
    (entries : List (String × Node)) :
    childNamed? name (rewriteEntries id content entries)
      = (childNamed? name entries).map (rewriteFile id content) := by
  induction entries with
  | nil => rfl
  | cons e rest ih =>
    obtain ⟨other, node⟩ := e
    rw [rewriteEntries, childNamed?, childNamed?, ih]
    split <;> rfl

theorem descend?_rewriteFile (id : Nat) (content : Content) (names : List String) (node : Node) :
    descend? names (rewriteFile id content node)
      = (descend? names node).map (rewriteFile id content) := by
  induction names generalizing node with
  | nil => rfl
  | cons name rest ih =>
    cases node with
    | dir mode accessed entries =>
      rw [rewriteFile, descend?, descend?, childNamed?_rewriteEntries]
      cases childNamed? name entries with
      | none => rfl
      | some child => exact ih child
    | file data =>
      rw [rewriteFile]
      split <;> rfl
    | link target data => rfl
    | special accessed => rfl

theorem shape_rewriteFile (id : Nat) (content : Content) (node : Node) :
    (rewriteFile id content node).shape = node.shape := by
  cases node with
  | dir mode accessed entries => rw [rewriteFile, shape, shape]
  | file data =>
    rw [rewriteFile]
    split <;> rfl
  | link target data => rfl
  | special accessed => rfl

end Node

namespace FileSystem

/-- At every place but one, and those below it, the same stands. -/
def EqualOff (loc : List String) (fs gs : FileSystem) : Prop :=
  ∀ names, ¬loc <+: names → Node.Alike (fs.at? names) (gs.at? names)

variable {fs gs : FileSystem} {dir : List String} {name : String} {node : Node}

theorem insert_equalOff (fs : FileSystem) (dir : List String) (name : String) (node : Node) :
    EqualOff (dir ++ [name]) (fs.insert dir name node) fs :=
  fun _ hoff => Node.descend?_alter_off
    (fun entries _ hother => Node.childNamed?_putEntry_of_ne hother node entries) dir hoff fs.root

theorem erase_equalOff (fs : FileSystem) (dir : List String) (name : String) :
    EqualOff (dir ++ [name]) (fs.erase dir name) fs :=
  fun _ hoff => Node.descend?_alter_off
    (fun entries _ hother => Node.childNamed?_dropEntry_of_ne hother entries) dir hoff fs.root

theorem at?_insert (hdir : fs.HasDir dir) (name : String) (node : Node)
    (rest : List String) : (fs.insert dir name node).at? (dir ++ name :: rest) = node.descend? rest := by
  obtain ⟨mode, accessed, entries, hat⟩ := exists_dir_of_hasDir hdir
  refine (Node.descend?_alter_at dir hat rest).trans ?_
  rw [Node.childNamed?_putEntry_self]
  rfl

theorem at?_erase (hdir : fs.HasDir dir) (name : String) (rest : List String) :
    (fs.erase dir name).at? (dir ++ name :: rest) = none := by
  obtain ⟨mode, accessed, entries, hat⟩ := exists_dir_of_hasDir hdir
  refine (Node.descend?_alter_at dir hat rest).trans ?_
  rw [Node.childNamed?_dropEntry_self]
  rfl

/-- The file system with what a file holds replaced, under all its names. -/
def rewrite (fs : FileSystem) (id : Nat) (content : Content) : FileSystem :=
  { fs with root := fs.root.rewriteFile id content }

theorem at?_rewrite (fs : FileSystem) (id : Nat) (content : Content) (names : List String) :
    (fs.rewrite id content).at? names = (fs.at? names).map (Node.rewriteFile id content) :=
  Node.descend?_rewriteFile id content names fs.root

theorem shape?_rewrite (fs : FileSystem) (id : Nat) (content : Content) (names : List String) :
    (fs.rewrite id content).shape? names = fs.shape? names := by
  unfold shape?
  rw [at?_rewrite, Option.map_map]
  congr 1
  funext node
  exact Node.shape_rewriteFile id content node

/-! ### Paths after an edit -/

theorem EqualOff.symm {loc : List String} (h : EqualOff loc fs gs) : EqualOff loc gs fs :=
  fun names hoff => (h names hoff).imp Eq.symm fun ⟨searchable, hf, hg⟩ => ⟨searchable, hg, hf⟩

theorem EqualOff.shape? {loc names : List String} (h : EqualOff loc fs gs) (hoff : ¬loc <+: names) :
    fs.shape? names = gs.shape? names := by
  unfold FileSystem.shape?
  rcases h names hoff with heq | ⟨_, hf, hg⟩
  · rw [heq]
  · rw [hf, hg]

/-- What is no directory stands there in both. -/
theorem EqualOff.at? {loc names : List String} (h : EqualOff loc fs gs) (hoff : ¬loc <+: names)
    (hdir : ¬fs.HasDir names) : gs.at? names = fs.at? names := by
  rcases h names hoff with heq | ⟨searchable, hf, -⟩
  · exact heq.symm
  · exact absurd ⟨searchable, hf⟩ hdir

/-- **An edit** at a place that no path leads through carries all paths along. -/
theorem EqualOff.carries {loc : List String} (h : EqualOff loc fs gs) (hne : loc ≠ [])
    (hf : Solid fs loc) (hg : ∀ target, gs.shape? loc ≠ some (.link target))
    (hbelow : ∀ rest, rest ≠ [] → gs.at? (loc ++ rest) = none) : Carries loc fs gs := by
  refine ⟨hne, fun names hnames => ?_, hf, hg⟩
  by_cases hoff : loc <+: names
  · obtain ⟨rest, rfl⟩ := hoff
    have hrest : rest ≠ [] := by
      rintro rfl
      exact hnames (List.append_nil loc)
    unfold FileSystem.shape?
    rw [at?_append_eq_none hf.not_dir hrest, hbelow rest hrest]
  · exact h.shape? hoff

/-- Writing a file carries all paths along. -/
theorem rewrite_carries {loc : List String} (hne : loc ≠ []) (hf : Solid fs loc) (id : Nat)
    (content : Content) :
    Carries loc fs (fs.rewrite id content) ∧ Carries loc (fs.rewrite id content) fs := by
  have hshape := shape?_rewrite fs id content
  have hg : Solid (fs.rewrite id content) loc := by
    unfold Solid
    rw [hshape]
    exact hf
  exact ⟨⟨hne, fun names _ => (hshape names).symm, hf, hg.not_link⟩,
    ⟨hne, fun names _ => hshape names, hg, hf.not_link⟩⟩

end FileSystem

end DiskUsage
